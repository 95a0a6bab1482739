import NumScript.Program
import NumScript.Run.Machine

/-! Running a program. The statements of a program run one after the other in the environment of
the machine; the inside of a block runs in a scope of its own, which is left again however the
block ends. -/

namespace NumScript

/-- What a run may do. -/
structure Limits where
  scoping : Scoping := .chain
  /-- How often loop bodies may be entered in all; without a limit when not positive. -/
  budget : Int := 1000000
  /-- How often one loop may go round when there is no limit. -/
  patience : Nat := 0
  deriving DecidableEq, Repr

namespace Limits

/-- The number of rounds after which a single loop is given up: one more than the limit can ever
let happen, or the patience when there is no limit. -/
def rounds (limits : Limits) : Nat :=
  if 0 < limits.budget then limits.budget.toNat + 1 else limits.patience

/-- No further loop body may be entered. -/
def spent (limits : Limits) (m : Machine) : Bool :=
  0 < limits.budget && limits.budget ≤ m.iterations

def exceeded (limits : Limits) (keyword : Token) : Diagnostic :=
  .error .eval .iterationLimit keyword.line keyword.lexeme
    ("loop exceeded the limit of " ++ Text.ofInt limits.budget ++ " iterations")

/-- The environment for the inside of a block. -/
def enter (limits : Limits) (kind : ScopeKind) (env : Env) : Env :=
  match limits.scoping with
  | .chain => env.child kind
  | .copy => env.copy kind

/-- The environment after a block: `inner` is what the inside left behind, `outer` what was there
before. -/
def leave (limits : Limits) (outer inner : Env) : Env :=
  match limits.scoping with
  | .chain => inner.tail
  | .copy => outer

/-- Runs the inside of a block in a scope of its own. -/
def within (limits : Limits) (kind : ScopeKind) (body : Machine → Outcome) (m : Machine) :
    Outcome :=
  let o := body { m with env := limits.enter kind m.env }
  { o with machine := { o.machine with env := limits.leave m.env o.machine.env } }

/-- Runs a loop for at most `fuel` rounds: the condition is computed, the limit checked, the body
run. -/
def iterate (limits : Limits) (keyword : Token) (condition : Expression)
    (body : Machine → Outcome) : Nat → Machine → Outcome
  | 0, m => ⟨m, some .exhausted⟩
  | fuel + 1, m =>
    m.withValue condition fun v m =>
      if !truthy v then ⟨m, none⟩
      else if limits.spent m then m.fail (limits.exceeded keyword)
      else
        let m := { m with iterations := m.iterations + 1 }.note (.iterate keyword.line)
        (limits.within .loop body m).andThen (iterate limits keyword condition body fuel)

end Limits

namespace Machine

/-- Declares a name, with the value if there is one. -/
def declare (m : Machine) (keyword name : Token) (value : Option Float) : Outcome :=
  let sym : Symbol :=
    { name := name.lexeme
      value := value
      constant := Program.isConst keyword
      position := name.position }
  match m.env.declare sym with
  | .error d => m.fail d
  | .ok env =>
    let global := match env with
      | scope :: _ => scope.kind = .global
      | [] => false
    ⟨{ m with env := env }.note (.declare keyword.line sym global), none⟩

/-- Gives a name a value. The step is noted before it is tried. -/
def assign (m : Machine) (name : Token) (v : Float) : Outcome :=
  let m := m.note (.assign name.line name.lexeme v)
  match m.env.assign name.lexeme v name.position with
  | .error d => m.fail d
  | .ok env => ⟨{ m with env := env }, none⟩

end Machine

namespace Program

/-- Runs a sequence of statements. -/
def run (limits : Limits) : Program → Machine → Outcome
  | done, m => ⟨m, none⟩
  | block brace body rest, m =>
    (limits.within .block (run limits body) (m.note (.enterBlock brace.line))).andThen
      (run limits rest)
  | declare keyword name value rest, m =>
    let declared := match value with
      | none => m.declare keyword name none
      | some e => m.withValue e fun v m => m.declare keyword name (some v)
    declared.andThen (run limits rest)
  | assign name value rest, m =>
    (m.withValue value fun v m => m.assign name v).andThen (run limits rest)
  | expression value rest, m =>
    (m.withValue value fun v m =>
      ⟨{ m with result := some v }.note (.value value.line value.text v), none⟩).andThen
      (run limits rest)
  | ifThen keyword condition _ body rest, m =>
    (m.withValue condition fun v m =>
      let m := m.note (.branch keyword.line condition.text v)
      if truthy v then limits.within .branch (run limits body) m else ⟨m, none⟩).andThen
      (run limits rest)
  | ifElse keyword condition _ body _ elseBody rest, m =>
    (m.withValue condition fun v m =>
      let m := m.note (.branch keyword.line condition.text v)
      if truthy v then limits.within .branch (run limits body) m
      else limits.within .branch (run limits elseBody) m).andThen
      (run limits rest)
  | loop keyword condition _ body rest, m =>
    (limits.iterate keyword condition (run limits body) limits.rounds m).andThen (run limits rest)

end Program

end NumScript
