import NumScript.Expression.Tree

/-! Programs. A program is a chain of statements, each of which carries what comes after it, so that
programs form one plain inductive type and everything about them is a recursion along the chain. -/

namespace NumScript

/-- A sequence of statements: a whole program, or the inside of a block. -/
inductive Program where
  /-- No further statement. -/
  | done
  /-- `{ … }` -/
  | block (brace : Token) (body rest : Program)
  /-- `let x;`, `let x = e;` and the forms with `const`. -/
  | declare (keyword name : Token) (value : Option Expression) (rest : Program)
  /-- `x = e;` -/
  | assign (name : Token) (value : Expression) (rest : Program)
  /-- `e;` -/
  | expression (value : Expression) (rest : Program)
  /-- `if (c) { … }` -/
  | ifThen (keyword : Token) (condition : Expression) (brace : Token) (body rest : Program)
  /-- `if (c) { … } else { … }` -/
  | ifElse (keyword : Token) (condition : Expression) (brace : Token) (body : Program)
      (elseBrace : Token) (elseBody rest : Program)
  /-- `while (c) { … }` -/
  | loop (keyword : Token) (condition : Expression) (brace : Token) (body rest : Program)
  deriving Inhabited

namespace Program

/-- The number of statements in the chain, without those inside their blocks. -/
def length : Program → Nat
  | done => 0
  | block _ _ rest | declare _ _ _ rest | assign _ _ rest | expression _ rest
  | ifThen _ _ _ _ rest | ifElse _ _ _ _ _ _ rest | loop _ _ _ _ rest => rest.length + 1

def isEmpty : Program → Bool
  | done => true
  | _ => false

/-- The statements of one program followed by those of another. -/
def append : Program → Program → Program
  | done, q => q
  | block brace body rest, q => block brace body (rest.append q)
  | declare keyword name value rest, q => declare keyword name value (rest.append q)
  | assign name value rest, q => assign name value (rest.append q)
  | expression value rest, q => expression value (rest.append q)
  | ifThen keyword condition brace body rest, q =>
    ifThen keyword condition brace body (rest.append q)
  | ifElse keyword condition brace body elseBrace elseBody rest, q =>
    ifElse keyword condition brace body elseBrace elseBody (rest.append q)
  | loop keyword condition brace body rest, q => loop keyword condition brace body (rest.append q)

/-- A declaration with this keyword makes a constant. -/
def isConst (keyword : Token) : Bool := keyword.kind = .constWord

/-- The token that stands for the braces around a whole program. -/
def rootBrace : Token := { kind := .scope, position := { line := 1, column := 1 } }

/-! ### Outline -/

/-- A line of an outline at a depth. -/
def indented (depth : Nat) (line : Text) : Text :=
  (List.replicate depth (Text.ofString "  ")).flatten ++ line

/-- The statements as lines, each at the given depth and what is inside it deeper. -/
def lines (depth : Nat) : Program → List Text
  | done => []
  | block _ body rest =>
    indented depth "scope" :: body.lines (depth + 1) ++ rest.lines depth
  | declare keyword name value rest =>
    let word : Text := if isConst keyword then "const " else "let "
    let value : Text := match value with
      | some e => " = " ++ e.text
      | none => []
    indented depth (word ++ name.lexeme ++ value) :: rest.lines depth
  | assign name value rest =>
    indented depth (name.lexeme ++ " = " ++ value.text) :: rest.lines depth
  | expression value rest => indented depth ("expr " ++ value.text) :: rest.lines depth
  | ifThen _ condition _ body rest =>
    indented depth ("if " ++ condition.text) :: indented (depth + 1) "scope" ::
      body.lines (depth + 2) ++ rest.lines depth
  | ifElse _ condition _ body _ elseBody rest =>
    indented depth ("if " ++ condition.text) :: indented (depth + 1) "scope" ::
      body.lines (depth + 2) ++
      (indented depth "else" :: indented (depth + 1) "scope" :: elseBody.lines (depth + 2)) ++
      rest.lines depth
  | loop _ condition _ body rest =>
    indented depth ("while " ++ condition.text) :: indented (depth + 1) "scope" ::
      body.lines (depth + 2) ++ rest.lines depth

/-- The outline of a whole program. -/
def outline (p : Program) : Text := Text.unlines (Text.ofString "scope" :: p.lines 1)

end Program

end NumScript
