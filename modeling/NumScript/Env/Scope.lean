import NumScript.Diagnostic
import NumScript.Number.Notation
import NumScript.Position
import NumScript.Text.Quoted

/-! One scope: the names declared in it, in the order of their declaration, with their values. -/

namespace NumScript

/-- What opened a scope. -/
inductive ScopeKind where
  | global
  | block
  | branch
  | loop
  | unknown
  deriving DecidableEq, Repr

def ScopeKind.name : ScopeKind → String
  | .global => "global"
  | .block => "block"
  | .branch => "branch"
  | .loop => "loop"
  | .unknown => "unknown"

def ScopeKind.ofCode : Int → ScopeKind
  | 0 => .global
  | 1 => .block
  | 2 => .branch
  | 3 => .loop
  | _ => .unknown

/-- A name and what is known of it. -/
structure Symbol where
  name : Text
  /-- The value, once there is one. -/
  value : Option Float := none
  /-- A constant refuses assignment. -/
  constant : Bool := false
  /-- Where the name was declared. -/
  position : Position := {}
  /-- The name has been read. -/
  used : Bool := false
  deriving DecidableEq

namespace Symbol

def text (s : Symbol) : Text :=
  let kind : Text := if s.constant then "const" else "let"
  let value : Text := match s.value with
    | some v => "= " ++ Number.text v
    | none => "(unbound)"
  kind ++ " " ++ s.name ++ " " ++ value ++ " at " ++ s.position.text

def isBound (s : Symbol) : Bool := s.value.isSome

def bind (v : Float) (s : Symbol) : Symbol := { s with value := some v }

def markUsed (s : Symbol) : Symbol := { s with used := true }

/-- The constant is declared again. -/
def redeclared (s previous : Symbol) : Diagnostic :=
  .error .binding .constantRebinding s.position.line s.name
    ("cannot redeclare constant " ++ Text.quoted s.name ++ " (declared at " ++
      previous.position.text ++ ")")

/-- The constant is assigned to, at `place`. -/
def assigned (s : Symbol) (place : Position) : Diagnostic :=
  .error .binding .constantRebinding place.line s.name
    ("cannot assign to constant " ++ Text.quoted s.name ++ " (declared at " ++
      s.position.text ++ ")")

end Symbol

/-- The names of one scope. -/
structure Scope where
  kind : ScopeKind := .global
  /-- The number of scopes around this one, or around the one it was copied from. -/
  depth : Nat := 0
  /-- The symbols in the order of their declaration, at most one for a name. -/
  symbols : List Symbol := []
  /-- The names declared constant in this very scope. -/
  constants : List Text := []
  deriving DecidableEq

namespace Scope

/-- The symbol of a name declared here. -/
def find? (s : Scope) (name : Text) : Option Symbol := s.symbols.find? fun sym => sym.name = name

def has (s : Scope) (name : Text) : Bool := (s.find? name).isSome

def names (s : Scope) : List Text := s.symbols.map Symbol.name

/-- Changes the symbol of a name declared here. -/
def modify (s : Scope) (name : Text) (f : Symbol → Symbol) : Scope :=
  { s with symbols := s.symbols.map fun sym => if sym.name = name then f sym else sym }

/-- Puts a symbol in the place of the one with its name, or at the end when there is none. -/
def put (sym : Symbol) : List Symbol → List Symbol
  | [] => [sym]
  | other :: rest => if other.name = sym.name then sym :: rest else other :: put sym rest

/-- Declares a symbol. An earlier declaration of the name in this scope gives way, unless it made
the name a constant. -/
def declare (s : Scope) (sym : Symbol) : Except Diagnostic Scope :=
  if s.constants.contains sym.name then
    .error (sym.redeclared ((s.find? sym.name).getD { name := sym.name }))
  else
    .ok
      { s with
        symbols := put sym s.symbols
        constants := if sym.constant then s.constants ++ [sym.name] else s.constants }

/-- The symbols that were never read. -/
def unused (s : Scope) : List Symbol := s.symbols.filter fun sym => !sym.used

def summary (s : Scope) : Text :=
  s.kind.name ++ (" scope (depth " ++ Text.ofNat s.depth ++ ", " ++ Text.ofNat s.symbols.length ++
    " symbols, " ++ Text.ofNat s.constants.length ++ " constants)" : Text)

end Scope

end NumScript
