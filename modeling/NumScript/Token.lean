import NumScript.Number.Notation
import NumScript.Position

/-! The tokens of the language: their kinds, spellings and classes, and a token with its place. -/

namespace NumScript

/-- The kinds of tokens, in the order of their codes. -/
inductive TokenKind where
  /-- The end of the script. -/
  | eof
  | leftParen
  | rightParen
  | leftBrace
  | rightBrace
  | semicolon
  | comma
  | dot
  | minus
  | plus
  | slash
  | star
  | assign
  | bang
  | greater
  | less
  | equalEqual
  | bangEqual
  | greaterEqual
  | lessEqual
  | and
  | or
  | number
  | string
  | identifier
  | ifWord
  | elseWord
  | whileWord
  | forWord
  | functionWord
  | returnWord
  | letWord
  | constWord
  /-- Marks the outermost scope of a program; no text spells it. -/
  | scope
  /-- A lone `&` or `|`. -/
  | error
  deriving DecidableEq, Repr, Inhabited

namespace TokenKind

def all : List TokenKind :=
  [eof, leftParen, rightParen, leftBrace, rightBrace, semicolon, comma, dot, minus, plus, slash,
    star, assign, bang, greater, less, equalEqual, bangEqual, greaterEqual, lessEqual, and, or,
    number, string, identifier, ifWord, elseWord, whileWord, forWord, functionWord, returnWord,
    letWord, constWord, scope, error]

/-- The kind with a code; codes count from 0 in the order of `all`. -/
def ofCode? (code : Int) : Option TokenKind := if code < 0 then none else all[code.toNat]?

def name : TokenKind → String
  | eof => "EOF"
  | leftParen => "LPAREN"
  | rightParen => "RPAREN"
  | leftBrace => "LBRACE"
  | rightBrace => "RBRACE"
  | semicolon => "SEMICOLON"
  | comma => "COMMA"
  | dot => "DOT"
  | minus => "MINUS"
  | plus => "PLUS"
  | slash => "SLASH"
  | star => "STAR"
  | assign => "ASSIGN"
  | bang => "BANG"
  | greater => "GREATER"
  | less => "LESS"
  | equalEqual => "EQUALEQUAL"
  | bangEqual => "BANGEQUAL"
  | greaterEqual => "GREATEREQUAL"
  | lessEqual => "LESSEQUAL"
  | and => "AND"
  | or => "OR"
  | number => "NUMBER"
  | string => "STRING"
  | identifier => "IDENTIFIER"
  | ifWord => "IF"
  | elseWord => "ELSE"
  | whileWord => "WHILE"
  | forWord => "FOR"
  | functionWord => "FUNCTION"
  | returnWord => "RETURN"
  | letWord => "LET"
  | constWord => "CONST"
  | scope => "SCOPE"
  | error => "ERROR"

/-- The kind with a name. -/
def ofName? (name : String) : Option TokenKind := all.find? fun kind => kind.name = name

/-- The text of a kind that is always spelled the same way. -/
def spelling? : TokenKind → Option String
  | leftParen => some "("
  | rightParen => some ")"
  | leftBrace => some "\x7b"
  | rightBrace => some "\x7d"
  | semicolon => some ";"
  | comma => some ","
  | dot => some "."
  | minus => some "-"
  | plus => some "+"
  | slash => some "/"
  | star => some "*"
  | assign => some "="
  | bang => some "!"
  | greater => some ">"
  | less => some "<"
  | equalEqual => some "=="
  | bangEqual => some "!="
  | greaterEqual => some ">="
  | lessEqual => some "<="
  | and => some "&&"
  | or => some "||"
  | ifWord => some "if"
  | elseWord => some "else"
  | whileWord => some "while"
  | forWord => some "for"
  | functionWord => some "function"
  | returnWord => some "return"
  | letWord => some "let"
  | constWord => some "const"
  | _ => none

/-- The text of a kind that is always spelled the same way, and nothing for the others. -/
def spelling (kind : TokenKind) : Text := (kind.spelling?.map Text.ofString).getD []

/-- The symbols, a longer one before the symbol that begins it. -/
def symbols : List TokenKind :=
  [equalEqual, bangEqual, greaterEqual, lessEqual, and, or, leftParen, rightParen, leftBrace,
    rightBrace, semicolon, comma, dot, minus, plus, slash, star, assign, bang, greater, less]

def keywords : List TokenKind :=
  [ifWord, elseWord, whileWord, forWord, functionWord, returnWord, letWord, constWord]

def isKeyword (kind : TokenKind) : Bool := keywords.contains kind

/-- Arithmetic, comparison and logical operators. -/
def isOperator : TokenKind → Bool
  | minus | plus | slash | star | bang | greater | less | equalEqual | bangEqual | greaterEqual
  | lessEqual | and | or => true
  | _ => false

def isLiteral : TokenKind → Bool
  | number | string => true
  | _ => false

/-- The class under which a token is listed. -/
def className (kind : TokenKind) : String :=
  if kind.isKeyword then "keyword"
  else if kind.isOperator then "operator"
  else if kind.isLiteral then "literal"
  else match kind with
    | identifier => "name"
    | error => "error"
    | _ => "punct"

/-- A word is a keyword when it is spelled exactly like one, and an identifier otherwise. -/
def ofWord (word : Text) : TokenKind :=
  (keywords.find? fun kind => kind.spelling = word).getD identifier

/-- The simple lower-case form of a code point, as far as it is an ASCII letter. Besides `A` to `Z`
only the capital I with a dot above and the Kelvin sign have one. -/
def lowerRune (code : Nat) : Nat :=
  if 0x41 ≤ code && code ≤ 0x5A then code + 32
  else if code = 0x130 then 0x69
  else if code = 0x212A then 0x6B
  else code

/-- The word spells a keyword when case is ignored, without being that keyword. -/
def isKeywordInOtherCase (word : Text) : Bool :=
  let folded := (Text.characters word).flatMap fun
    | .rune code => Text.ofRune (lowerRune code)
    | .stray _ => Text.ofRune Text.replacement
  ofWord word = identifier && ofWord folded ≠ identifier

end TokenKind

/-- The value that a token stands for. -/
inductive Literal where
  | none
  | number (value : Float)
  | text (value : Text)
  deriving DecidableEq, Inhabited

/-- A token of a script. -/
structure Token where
  kind : TokenKind := .eof
  /-- The text of the token, with the quotes of a string. The token of a computed number has the
  text of that number. -/
  lexeme : Text := []
  literal : Literal := .none
  position : Position := {}
  /-- The length in bytes. -/
  length : Int := 0
  deriving DecidableEq, Inhabited

namespace Token

def line (t : Token) : Int := t.position.line

/-- The number that a number token holds. -/
def number? (t : Token) : Option Float :=
  match t.kind, t.literal with
  | .number, .number value => some value
  | _, _ => none

def text (t : Token) : Text :=
  t.kind.name ++ ("(" ++ t.lexeme ++ ") at " ++ t.position.text : Text)

/-- The range that the token covers: its end lies one column further for every character of its
text. -/
def span (t : Token) : Span :=
  { start := t.position
    stop :=
      { file := t.position.file
        line := t.position.line
        column := t.position.column + Text.runeCount t.lexeme
        offset := t.position.offset + t.length } }

/-- A number token for `value` in the place of `at`. Computed constants and the values of variables
are written into expressions in this way. -/
def ofNumber (value : Float) (source : Token) : Token :=
  { kind := .number
    lexeme := Number.text value
    literal := .number value
    position := source.position
    length := source.length }

end Token

end NumScript
