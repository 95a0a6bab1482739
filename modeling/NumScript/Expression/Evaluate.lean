import NumScript.Expression.Operator
import NumScript.Expression.Tree
import NumScript.Number.Numeral

/-! The value of a tree without names. Both operands of an operator are always computed, the left
one first, and arithmetic is that of binary64, so division by zero is no error. -/

namespace NumScript

namespace Token

/-- The token is no number. -/
def notNumber (t : Token) : Diagnostic :=
  .error .eval .invalidLiteral t.line t.lexeme
    (t.kind.name ++ (" " ++ Text.quoted t.lexeme ++ " is not a number" : Text))

/-- The text of the token spells no number. -/
def malformedNumber (t : Token) : Diagnostic :=
  .error .eval .invalidLiteral t.line t.lexeme ("malformed number " ++ Text.quoted t.lexeme)

/-- The number that a leaf stands for: the one it holds, or else the one it spells. -/
def value (t : Token) : Except Diagnostic Float :=
  if t.kind ≠ .number then .error t.notNumber
  else match t.number? with
    | some v => .ok v
    | none => match Number.read? t.lexeme with
      | some v => .ok v
      | none => .error t.malformedNumber

/-- The token is no operator of the given form. -/
def invalidOperator (form : String) (t : Token) : Diagnostic :=
  .error .eval .invalidOperator t.line t.lexeme
    (Text.quoted t.lexeme ++ " is not a valid " ++ form ++ " operator")

end Token

namespace Tree

/-- The operator has more than two operands. -/
def invalidArity (operator : Token) (count : Nat) : Diagnostic :=
  .error .eval .invalidArity operator.line operator.lexeme
    ("operator " ++ Text.quoted operator.lexeme ++ " has " ++ Text.ofNat count ++ " operands")

/-- The value of a tree. An operator is checked before its operands are computed. -/
def evaluate : Tree → Except Diagnostic Float
  | leaf t => t.value
  | unary op a =>
    match op.kind.unaryMeaning? with
    | none => .error (op.invalidOperator "unary")
    | some f => do
      let v ← a.evaluate
      return f v
  | binary op a b =>
    match op.kind.binaryMeaning? with
    | none => .error (op.invalidOperator "binary")
    | some f => do
      let v ← a.evaluate
      let w ← b.evaluate
      return f v w
  | wide op _ _ _ more => .error (invalidArity op (more.length + 3))

/-- There is no expression. -/
def missing : Diagnostic := .error .eval .emptyExpression 0 [] "empty expression"

/-- The value of a tree that may be missing. -/
def evaluate? : Option Tree → Except Diagnostic Float
  | some t => t.evaluate
  | none => .error missing

end Tree

end NumScript
