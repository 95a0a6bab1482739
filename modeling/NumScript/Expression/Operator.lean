import NumScript.Token

/-! The operators of expressions: how tightly each binds and what it computes. Truth is a number
other than zero, and comparisons and logic answer one or zero. -/

namespace NumScript

/-- A number counts as true unless it is zero. Not-a-number is not zero. -/
def truthy (v : Float) : Bool := v != 0

/-- One for true, zero for false. -/
def ofBool (b : Bool) : Float := if b then 1 else 0

namespace TokenKind

/-- How tightly a binary operator binds; a larger number binds tighter. -/
def precedence? : TokenKind → Option Nat
  | or => some 1
  | and => some 2
  | equalEqual | bangEqual => some 3
  | less | lessEqual | greater | greaterEqual => some 4
  | plus | minus => some 5
  | star | slash => some 6
  | _ => none

/-- What a sign or negation in front of an operand computes. -/
def unaryMeaning? : TokenKind → Option (Float → Float)
  | minus => some fun v => -v
  | plus => some fun v => v
  | bang => some fun v => ofBool (!truthy v)
  | _ => none

/-- What an operator between two operands computes. -/
def binaryMeaning? : TokenKind → Option (Float → Float → Float)
  | plus => some fun a b => a + b
  | minus => some fun a b => a - b
  | star => some fun a b => a * b
  | slash => some fun a b => a / b
  | equalEqual => some fun a b => ofBool (a == b)
  | bangEqual => some fun a b => ofBool (a != b)
  | less => some fun a b => ofBool (a < b)
  | lessEqual => some fun a b => ofBool (a ≤ b)
  | greater => some fun a b => ofBool (b < a)
  | greaterEqual => some fun a b => ofBool (b ≤ a)
  | and => some fun a b => ofBool (truthy a && truthy b)
  | or => some fun a b => ofBool (truthy a || truthy b)
  | _ => none

/-- The kind may stand in front of an operand. -/
def isPrefixSign (kind : TokenKind) : Bool := kind.unaryMeaning?.isSome

end TokenKind

end NumScript
