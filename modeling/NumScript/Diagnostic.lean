import NumScript.Text

/-! Problems as they are reported: how grave one is, the phase that found it, its line, the text it
is about, what to say, and its cause. -/

namespace NumScript

inductive Severity where
  | error
  | warning
  deriving DecidableEq, Repr

def Severity.name : Severity → String
  | .error => "error"
  | .warning => "warning"

def Severity.ofCode? : Int → Option Severity
  | 0 => some .error
  | 1 => some .warning
  | _ => none

/-- The phase that a problem belongs to. -/
inductive Phase where
  | lex
  | parse
  | eval
  | binding
  | semantic
  | unknown
  deriving DecidableEq, Repr

def Phase.name : Phase → String
  | .lex => "lex"
  | .parse => "parse"
  | .eval => "eval"
  | .binding => "binding"
  | .semantic => "semantic"
  | .unknown => "unknown"

def Phase.ofCode : Int → Phase
  | 0 => .lex
  | 1 => .parse
  | 2 => .eval
  | 3 => .binding
  | 4 => .semantic
  | _ => .unknown

/-- What went wrong. -/
inductive Cause where
  | unexpectedCharacter
  | unterminatedString
  | malformedOperator
  | keywordCase
  | emptyExpression
  | unmatchedDelimiter
  | missingTerminator
  | unexpectedToken
  | invalidLiteral
  | invalidOperator
  | invalidArity
  | iterationLimit
  | undefinedVariable
  | uninitialized
  | constantRebinding
  | constWithoutValue
  | unusedVariable
  | nonNumericOperand
  deriving DecidableEq, Repr

namespace Cause

def all : List Cause :=
  [unexpectedCharacter, unterminatedString, malformedOperator, keywordCase, emptyExpression,
    unmatchedDelimiter, missingTerminator, unexpectedToken, invalidLiteral, invalidOperator,
    invalidArity, iterationLimit, undefinedVariable, uninitialized, constantRebinding,
    constWithoutValue, unusedVariable, nonNumericOperand]

def name : Cause → String
  | unexpectedCharacter => "unexpected character"
  | unterminatedString => "unterminated string"
  | malformedOperator => "malformed operator"
  | keywordCase => "keyword case mismatch"
  | emptyExpression => "empty expression"
  | unmatchedDelimiter => "unmatched delimiter"
  | missingTerminator => "missing terminator"
  | unexpectedToken => "unexpected token"
  | invalidLiteral => "invalid literal"
  | invalidOperator => "invalid operator"
  | invalidArity => "invalid arity"
  | iterationLimit => "iteration limit exceeded"
  | undefinedVariable => "undefined variable"
  | uninitialized => "uninitialized variable"
  | constantRebinding => "constant rebinding"
  | constWithoutValue => "constant without initializer"
  | unusedVariable => "unused variable"
  | nonNumericOperand => "non-numeric operand"

def ofName? (name : String) : Option Cause := all.find? fun cause => cause.name = name

end Cause

/-- One reported problem. -/
structure Diagnostic where
  severity : Severity
  phase : Phase
  /-- The line of the script, not positive when there is none. -/
  line : Int
  /-- The text that the problem is about. -/
  lexeme : Text
  message : Text
  cause : Option Cause
  deriving DecidableEq, Repr

namespace Diagnostic

def isError (d : Diagnostic) : Bool := d.severity = .error

/-- `parse error` and the like. -/
def label (d : Diagnostic) : Text := d.phase.name ++ " " ++ d.severity.name

/-- The problem in one line: label, line number if there is one, message. -/
def text (d : Diagnostic) : Text :=
  let place : Text := if 0 < d.line then ": line " ++ Text.ofInt d.line else []
  d.label ++ place ++ ": " ++ d.message

/-- A problem that stops its phase. -/
def error (phase : Phase) (cause : Cause) (line : Int) (lexeme message : Text) : Diagnostic :=
  { severity := .error
    phase := phase
    line := line
    lexeme := lexeme
    message := message
    cause := some cause }

/-- A problem that stops nothing. -/
def warning (phase : Phase) (cause : Cause) (line : Int) (lexeme message : Text) : Diagnostic :=
  { error phase cause line lexeme message with severity := .warning }

/-- The same problem, taken for an error. -/
def promote (d : Diagnostic) : Diagnostic := { d with severity := .error }

end Diagnostic

end NumScript
