import NumScript.Env.Scope

/-! An environment: the scopes around a point of a program, innermost first. A scope opened as a
child sees the scopes around it and can change what they hold; a copy takes along everything
visible and is alone from then on. -/

namespace NumScript

/-- The scopes around a point of a program, innermost first. -/
abbrev Env := List Scope

namespace Env

/-- An empty global scope. -/
def global : Env := [{}]

/-- The number of scopes around the next one to be opened. -/
def nextDepth : Env → Nat
  | [] => 0
  | scope :: _ => scope.depth + 1

/-- Opens an empty scope inside the others. -/
def child (kind : ScopeKind) (env : Env) : Env :=
  { kind := kind, depth := env.nextDepth } :: env

/-- Every visible symbol, those of outer scopes first; an inner symbol takes the place of an outer
one with its name. -/
def flatten (env : Env) : List Symbol :=
  env.foldr (fun scope symbols => scope.symbols.foldl (fun acc sym => Scope.put sym acc) symbols) []

/-- A scope by itself that holds a copy of every visible symbol. The copies of constants still
refuse assignment, but may be declared again. -/
def copy (kind : ScopeKind) (env : Env) : Env :=
  [{ kind := kind, depth := env.nextDepth, symbols := env.flatten }]

/-- The nearest symbol of a name. -/
def resolve? (env : Env) (name : Text) : Option Symbol :=
  env.findSome? fun scope => scope.find? name

/-- Changes the nearest symbol of a name. -/
def modify (name : Text) (f : Symbol → Symbol) : Env → Env
  | [] => []
  | scope :: outer =>
    if scope.has name then scope.modify name f :: outer else scope :: modify name f outer

/-- The symbol declared in the innermost scope. -/
def findLocal? : Env → Text → Option Symbol
  | [], _ => none
  | scope :: _, name => scope.find? name

/-- Declares a symbol in the innermost scope. -/
def declare (sym : Symbol) : Env → Except Diagnostic Env
  | [] => .ok []
  | scope :: outer => do
    let scope ← scope.declare sym
    return scope :: outer

/-- Gives the nearest symbol of a name a new value. A name that is not visible is declared in the
innermost scope. -/
def assign (name : Text) (v : Float) (place : Position) (env : Env) : Except Diagnostic Env :=
  match env.resolve? name with
  | none => env.declare { name := name, value := some v, position := place }
  | some sym =>
    if sym.constant then .error (sym.assigned place) else .ok (env.modify name (·.bind v))

/-- The name is not visible. -/
def undefined (name : Text) (line : Int) : Diagnostic :=
  .error .binding .undefinedVariable line name ("undefined variable " ++ Text.quoted name)

/-- The name has no value yet. -/
def uninitialized (name : Text) (line : Int) : Diagnostic :=
  .error .binding .uninitialized line name
    ("variable " ++ Text.quoted name ++ " is declared but has no value")

/-- Finds the nearest symbol of a name and marks it as used. -/
def lookup (env : Env) (name : Text) : Option Symbol × Env :=
  ((env.resolve? name).map Symbol.markUsed, env.modify name Symbol.markUsed)

/-- The value of a name, read on `line`. The symbol counts as used even when it has no value. -/
def get (env : Env) (name : Text) (line : Int) : Except Diagnostic Float × Env :=
  let value := match env.resolve? name with
    | none => .error (undefined name line)
    | some sym => match sym.value with
      | none => .error (uninitialized name line)
      | some v => .ok v
  (value, env.modify name Symbol.markUsed)

def has (env : Env) (name : Text) : Bool := (env.resolve? name).isSome

/-- The nearest symbol of the name is a constant. -/
def isConstant (env : Env) (name : Text) : Bool :=
  match env.resolve? name with
  | some sym => sym.constant
  | none => false

/-- Puts a name into an increasing list, once. -/
def insertName (name : Text) : List Text → List Text
  | [] => [name]
  | other :: rest =>
    if name < other then name :: other :: rest
    else if name = other then other :: rest
    else other :: insertName name rest

/-- Every visible name, in increasing order of its bytes. -/
def names (env : Env) : List Text := (env.flatMap Scope.names).foldr insertName []

/-- The visible names that have a value, with their values. -/
def snapshot (env : Env) : List (Text × Float) :=
  env.names.filterMap fun name =>
    ((env.resolve? name).bind Symbol.value).map fun v => (name, v)

/-- The scopes with their symbols, each scope indented deeper than the one inside it. -/
def debugLines (indent : Text) : Env → List Text
  | [] => []
  | scope :: outer =>
    (indent ++ scope.summary) :: scope.symbols.map (fun sym => indent ++ "  " ++ sym.text) ++
      debugLines (indent ++ "  ") outer

def debugText (env : Env) : Text := Text.unlines (env.debugLines [])

end Env

end NumScript
