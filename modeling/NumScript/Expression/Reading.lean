import NumScript.Expression.Evaluate

/-! Reading an expression from its tokens. Groups in parentheses are read first; a group without
names is computed at once and becomes a number, any other stays a tree. What remains is split at
the operator that binds loosest, the right-most of several, so that equal operators associate to
the left. -/

namespace NumScript

/-- A token, or a group that has been read already. -/
inductive Item where
  | token (t : Token)
  | group (paren : Token) (tree : Tree)
  deriving Inhabited

namespace Item

/-- The token that stands for the item in messages: a group is known by its parenthesis. -/
def source : Item → Token
  | token t => t
  | group paren _ => paren

def isKind (kind : TokenKind) : Item → Bool
  | token t => t.kind = kind
  | group _ _ => false

/-- The precedence of an item that is a binary operator. -/
def precedence? : Item → Option Nat
  | token t => t.kind.precedence?
  | group _ _ => none

def isSign : Item → Bool
  | token t => t.kind.isPrefixSign
  | group _ _ => false

def isOperator (item : Item) : Bool := item.precedence?.isSome || item.isSign

end Item

namespace Expression

def unmatched (t : Token) : Diagnostic :=
  .error .parse .unmatchedDelimiter t.line t.lexeme ("unmatched " ++ Text.quoted t.lexeme)

/-- An operand is missing next to `near`. -/
def emptyNear (near : Token) : Diagnostic :=
  if near.lexeme.isEmpty then .error .parse .emptyExpression near.line [] "expected expression"
  else .error .parse .emptyExpression near.line near.lexeme
    ("expected expression near " ++ Text.quoted near.lexeme)

def unexpectedOperand (t : Token) : Diagnostic :=
  .error .parse .unexpectedToken t.line t.lexeme
    ("unexpected " ++ Text.quoted t.lexeme ++ " after operand, expected operator")

def unexpectedToken (t : Token) : Diagnostic :=
  .error .parse .unexpectedToken t.line t.lexeme
    ("unexpected " ++ t.kind.name ++ (" " ++ Text.quoted t.lexeme ++ " in expression" : Text))

/-- The number of items before the parenthesis that closes `depth + 1` open ones. -/
def closing? (depth : Nat) : List Item → Option Nat
  | [] => none
  | item :: rest =>
    if item.isKind .leftParen then (closing? (depth + 1) rest).map (· + 1)
    else if item.isKind .rightParen then
      match depth with
      | 0 => some 0
      | depth + 1 => (closing? depth rest).map (· + 1)
    else (closing? depth rest).map (· + 1)

/-- A group as an item: a number when the group holds no name. -/
def grouped (paren : Token) (tree : Tree) : Except Diagnostic Item :=
  if tree.isConstant then tree.evaluate.map fun v => .token (Token.ofNumber v paren)
  else .ok (.group paren tree)

/-- Replaces the groups behind the first `skip` items; `read` reads the inside of a group. -/
def reduceFrom (read : List Item → Token → Except Diagnostic Tree) :
    Nat → List Item → Except Diagnostic (List Item)
  | _, [] => .ok []
  | skip + 1, _ :: rest => reduceFrom read skip rest
  | 0, item :: rest =>
    if item.isKind .rightParen then .error (unmatched item.source)
    else if item.isKind .leftParen then
      match closing? 0 rest with
      | none => .error (unmatched item.source)
      | some size => do
        let tree ← read (rest.take size) item.source
        let group ← grouped item.source tree
        let rest ← reduceFrom read (size + 1) rest
        return group :: rest
    else do
      let rest ← reduceFrom read 0 rest
      return item :: rest

/-- The place to split: among the items from place `index` on, of which the first follows
`previous`, the last operator that binds as loosely as any, or `best` when that binds looser than
all of them. An operator behind another operator is a sign and never a place to split. -/
def splitFrom (previous : Item) (index : Nat) (best : Option (Nat × Nat)) :
    List Item → Option Nat
  | [] => best.map Prod.fst
  | item :: rest =>
    let best := match item.precedence?, best with
      | none, _ => best
      | some precedence, none => if previous.isOperator then best else some (index, precedence)
      | some precedence, some (_, loosest) =>
        if previous.isOperator || loosest < precedence then best else some (index, precedence)
    splitFrom item (index + 1) best rest

/-- The place of the operator to split at. The first item is never one. -/
def split? : List Item → Option Nat
  | [] => none
  | first :: rest => splitFrom first 1 none rest

/-- An expression without a binary operator: signs in front of one operand. -/
def operand (read : List Item → Token → Except Diagnostic Tree) (first : Item)
    (rest : List Item) : Except Diagnostic Tree :=
  if first.isSign then do
    let tree ← read rest first.source
    return .unary first.source tree
  else match rest with
    | extra :: _ => .error (unexpectedOperand extra.source)
    | [] => match first with
      | .group _ tree => .ok tree
      | .token t => match t.kind with
        | .number | .identifier | .string => .ok (.leaf t)
        | _ => .error (unexpectedToken t)

/-- Reads items as one expression; `near` is the token beside them. `fuel` bounds the depth of the
reading, and more than the number of items is enough. -/
def readItems : Nat → List Item → Token → Except Diagnostic Tree
  | 0, _, near => .error (emptyNear near)
  | _ + 1, [], near => .error (emptyNear near)
  | fuel + 1, items, _ => do
    let items ← reduceFrom (readItems fuel) 0 items
    match split? items with
    | some k =>
      match items.drop k with
      | [] => .error (emptyNear {})
      | operator :: right => do
        let left ← readItems fuel (items.take k) operator.source
        let right ← readItems fuel right operator.source
        return .binary operator.source left right
    | none =>
      match items with
      | [] => .error (emptyNear {})
      | first :: rest => operand (readItems fuel) first rest

/-- The tree of the expression that a list of tokens spells. -/
def readTree (tokens : List Token) : Except Diagnostic Tree :=
  readItems (tokens.length + 1) (tokens.map .token) (tokens.head?.getD {})

end Expression

end NumScript
