import NumScript.Env
import NumScript.Expression.Bind

/-! The state of a run and what can end one. A run keeps its state when it fails, so everything
that happened before the failure can still be seen. -/

namespace NumScript

/-- How a block sees the names around it. -/
inductive Scoping where
  /-- A block is a child scope: it changes the names around it. -/
  | chain
  /-- A block works on a copy: nothing written inside is seen outside. -/
  | copy
  deriving DecidableEq, Repr

namespace Scoping

def name : Scoping → String
  | chain => "chain"
  | copy => "copy"

def ofCode? : Int → Option Scoping
  | 0 => some chain
  | 1 => some copy
  | _ => none

/-- The mode with a name; no name means `chain`. -/
def ofName? (name : Text) : Option Scoping :=
  if name.isEmpty || name = Text.ofString "chain" then some chain
  else if name = Text.ofString "copy" then some copy
  else none

/-- The name is not that of a mode. -/
def unknownName (name : Text) : Text :=
  "unknown scoping mode " ++ Text.quoted name ++ " (want chain or copy)"

end Scoping

/-- A step of a run. -/
inductive Event where
  | enterBlock (line : Int)
  | assign (line : Int) (name : Text) (value : Float)
  | declare (line : Int) (sym : Symbol) (global : Bool)
  | value (line : Int) (expression : Text) (value : Float)
  | branch (line : Int) (condition : Text) (value : Float)
  /-- The body of a loop is entered. -/
  | iterate (line : Int)
  deriving DecidableEq

namespace Event

/-- The line of a trace that tells of a step. Entering the body of a loop is not told. -/
def text? : Event → Option Text
  | enterBlock line => some ("line " ++ Text.ofInt line ++ ": enter block")
  | assign line name v =>
    some ("line " ++ Text.ofInt line ++ ": " ++ name ++ " = " ++ Number.text v)
  | declare line sym global =>
    some ("line " ++ Text.ofInt line ++ ": declare " ++ sym.text ++
      (if global then " (global)" else " (local)"))
  | value line expression v =>
    some ("line " ++ Text.ofInt line ++ ": " ++ expression ++ " => " ++ Number.text v)
  | branch line condition v =>
    some ("line " ++ Text.ofInt line ++ ": if " ++ condition ++ " => " ++ Number.text v)
  | iterate _ => none

end Event

/-- The state of a run. -/
structure Machine where
  env : Env := Env.global
  /-- The value of the last expression statement. -/
  result : Option Float := none
  /-- How often the body of a loop was entered. -/
  iterations : Nat := 0
  /-- The steps so far, the latest first. -/
  history : List Event := []
  deriving DecidableEq

/-- What ends a run early. -/
inductive Fault where
  | problem (d : Diagnostic)
  /-- A loop without a limit went on for longer than anyone waits. -/
  | exhausted
  deriving DecidableEq

/-- The state at the end of a run and what ended it early, if anything did. -/
structure Outcome where
  machine : Machine
  fault : Option Fault := none
  deriving DecidableEq

namespace Outcome

/-- Goes on with `next` unless the run has ended. -/
def andThen (o : Outcome) (next : Machine → Outcome) : Outcome :=
  match o.fault with
  | none => next o.machine
  | some _ => o

/-- The problem that ended the run. -/
def problem? (o : Outcome) : Option Diagnostic :=
  match o.fault with
  | some (.problem d) => some d
  | _ => none

end Outcome

namespace Machine

/-- Adds a step to the history. -/
def note (m : Machine) (e : Event) : Machine := { m with history := e :: m.history }

/-- The lines that tell of the steps, the earliest first. -/
def trace (m : Machine) : List Text := m.history.reverse.filterMap Event.text?

/-- Computes a tree in the environment of the run. -/
def evaluate (m : Machine) (t : Tree) : Except Diagnostic Float × Machine :=
  let (value, env) := t.evaluateIn m.env
  (value, { m with env := env })

/-- Ends the run with a problem. -/
def fail (m : Machine) (d : Diagnostic) : Outcome := ⟨m, some (.problem d)⟩

/-- Computes an expression and goes on with its value. -/
def withValue (m : Machine) (e : Expression) (next : Float → Machine → Outcome) : Outcome :=
  match m.evaluate e.tree with
  | (.error d, m) => m.fail d
  | (.ok v, m) => next v m

end Machine

end NumScript
