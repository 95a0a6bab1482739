import NumScript.Env

/-! Many environments that share scopes. Each scope has a number; a scope opened as a child keeps
the number of the scope around it, so that a change made through one environment shows in every
other that reaches the same scope. An operation on one environment is the operation on the list of
its scopes, written back. -/

namespace NumScript

/-- A scope and the number of the scope around it. -/
structure Forest.Node where
  parent : Option Nat := none
  scope : Scope := {}
  deriving DecidableEq

/-- Scopes by number. The scope around another has the smaller number. -/
structure Forest where
  nodes : List Forest.Node := [{}]
  deriving DecidableEq

namespace Forest

/-- The numbers of at most `fuel` scopes, from scope `i` outwards. -/
def pathFrom (nodes : List Node) : Nat → Nat → List Nat
  | 0, _ => []
  | fuel + 1, i =>
    match nodes[i]? with
    | none => []
    | some node => i :: match node.parent with
      | none => []
      | some p => pathFrom nodes fuel p

/-- The numbers of the scopes from scope `i` outwards. -/
def path (forest : Forest) (i : Nat) : List Nat := pathFrom forest.nodes (i + 1) i

/-- The environment whose innermost scope is scope `i`. -/
def env (forest : Forest) (i : Nat) : Env :=
  (forest.path i).filterMap fun j => forest.nodes[j]?.map Node.scope

/-- Writes the scopes of an environment back to the numbers they came from. -/
def writeBack (nodes : List Node) : List Nat → Env → List Node
  | i :: path, scope :: outer =>
    writeBack (nodes.modify i fun node => { node with scope := scope }) path outer
  | _, _ => nodes

/-- Replaces the environment of scope `i` by `env`, which has as many scopes. -/
def setEnv (forest : Forest) (i : Nat) (env : Env) : Forest :=
  ⟨writeBack forest.nodes (forest.path i) env⟩

def parent? (forest : Forest) (i : Nat) : Option Nat := forest.nodes[i]?.bind Node.parent

/-- Adds a scope; its number is the number of scopes before. -/
def add (forest : Forest) (node : Node) : Forest := ⟨forest.nodes ++ [node]⟩

/-- Opens a scope of its own. -/
def addGlobal (forest : Forest) : Forest := forest.add {}

/-- Opens a scope inside scope `i`. -/
def addChild (forest : Forest) (kind : ScopeKind) (i : Nat) : Forest :=
  forest.add { parent := some i, scope := { kind := kind, depth := (forest.env i).nextDepth } }

/-- Opens a scope of its own with a copy of everything visible from scope `i`. -/
def addCopy (forest : Forest) (kind : ScopeKind) (i : Nat) : Forest :=
  forest.add { scope := (((forest.env i).copy kind).head?).getD {} }

def declare (forest : Forest) (i : Nat) (sym : Symbol) : Except Diagnostic Forest :=
  ((forest.env i).declare sym).map (forest.setEnv i)

def assign (forest : Forest) (i : Nat) (name : Text) (v : Float) (place : Position) :
    Except Diagnostic Forest :=
  ((forest.env i).assign name v place).map (forest.setEnv i)

def get (forest : Forest) (i : Nat) (name : Text) (line : Int) :
    Except Diagnostic Float × Forest :=
  let (value, env) := (forest.env i).get name line
  (value, forest.setEnv i env)

def lookup (forest : Forest) (i : Nat) (name : Text) : Option Symbol × Forest :=
  let (sym, env) := (forest.env i).lookup name
  (sym, forest.setEnv i env)

/-- The kind of the scope that holds the nearest symbol of a name. -/
def ownerKind? (env : Env) (name : Text) : Option ScopeKind :=
  (env.find? fun scope => scope.has name).map Scope.kind

end Forest

end NumScript
