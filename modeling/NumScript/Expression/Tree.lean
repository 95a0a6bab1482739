import NumScript.Diagnostic
import NumScript.Text.Quoted
import NumScript.Token

/-! Expression trees. A node without operands is a literal or a name, one operand stands behind a
sign, two stand around a binary operator. Trees with wider nodes can be written down but have no
value. -/

namespace NumScript

/-- An expression tree. -/
inductive Tree where
  | leaf (token : Token)
  | unary (operator : Token) (operand : Tree)
  | binary (operator : Token) (left right : Tree)
  /-- An operator with three or more operands. -/
  | wide (operator : Token) (first second third : Tree) (more : List Tree)
  deriving Inhabited

namespace Tree

/-- The token at the root. -/
def token : Tree → Token
  | leaf t | unary t _ | binary t _ _ | wide t _ _ _ _ => t

def operands : Tree → List Tree
  | leaf _ => []
  | unary _ a => [a]
  | binary _ a b => [a, b]
  | wide _ a b c more => a :: b :: c :: more

def arity (t : Tree) : Nat := t.operands.length

def isLeaf : Tree → Bool
  | leaf _ => true
  | _ => false

/-- The node with a given token and operands. -/
def node (token : Token) : List Tree → Tree
  | [] => leaf token
  | [a] => unary token a
  | [a, b] => binary token a b
  | a :: b :: c :: more => wide token a b c more

/-- An operator refuses more than two operands. -/
def tooWide (operator : Token) (count : Nat) : Diagnostic :=
  .error .eval .invalidArity operator.line operator.lexeme
    ("operator " ++ Text.quoted operator.lexeme ++ " cannot take " ++ Text.ofNat count ++
      " operands")

/-- The node with a given token and at most two operands. -/
def node? (token : Token) (operands : List Tree) : Except Diagnostic Tree :=
  if operands.length ≤ 2 then .ok (node token operands)
  else .error (tooWide token operands.length)

mutual

/-- The tree holds no name, so its value depends on nothing else. -/
def isConstant : Tree → Bool
  | leaf t => t.kind ≠ .identifier
  | unary op a => op.kind ≠ .identifier && a.isConstant
  | binary op a b => op.kind ≠ .identifier && a.isConstant && b.isConstant
  | wide op a b c more =>
    op.kind ≠ .identifier && a.isConstant && b.isConstant && c.isConstant && allConstant more

/-- No tree of the list holds a name. -/
def allConstant : List Tree → Bool
  | [] => true
  | t :: rest => t.isConstant && allConstant rest

end

mutual

/-- The tokens of a tree, a node before its operands, each with its depth. -/
def tokensAt (depth : Nat) : Tree → List (Nat × Token)
  | leaf t => [(depth, t)]
  | unary op a => (depth, op) :: a.tokensAt (depth + 1)
  | binary op a b => (depth, op) :: a.tokensAt (depth + 1) ++ b.tokensAt (depth + 1)
  | wide op a b c more =>
    (depth, op) :: a.tokensAt (depth + 1) ++ b.tokensAt (depth + 1) ++ c.tokensAt (depth + 1) ++
      allTokensAt (depth + 1) more

/-- The tokens of several trees of the same depth. -/
def allTokensAt (depth : Nat) : List Tree → List (Nat × Token)
  | [] => []
  | t :: rest => t.tokensAt depth ++ allTokensAt depth rest

end

mutual

/-- The tokens of the leaves, from left to right. -/
def leaves : Tree → List Token
  | leaf t => [t]
  | unary _ a => a.leaves
  | binary _ a b => a.leaves ++ b.leaves
  | wide _ a b c more => a.leaves ++ b.leaves ++ c.leaves ++ allLeaves more

def allLeaves : List Tree → List Token
  | [] => []
  | t :: rest => t.leaves ++ allLeaves rest

end

/-- The tree in full parentheses: `((3 * 2) + 5)`. -/
def text : Tree → Text
  | leaf t => t.lexeme
  | unary op a => "(" ++ op.lexeme ++ a.text ++ ")"
  | binary op a b => "(" ++ a.text ++ " " ++ op.lexeme ++ " " ++ b.text ++ ")"
  | wide op _ _ _ _ => "<invalid " ++ op.lexeme ++ ">"

end Tree

/-- An expression of a program: its tree and the token it starts with. -/
structure Expression where
  start : Token
  tree : Tree
  deriving Inhabited

namespace Expression

def line (e : Expression) : Int := e.start.line

def text (e : Expression) : Text := e.tree.text

end Expression

end NumScript
