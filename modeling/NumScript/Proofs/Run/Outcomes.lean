import NumScript.Run

/-! What is asked of outcomes. The pieces of a run are put together in few ways: one after the
other, behind the value of an expression, inside a block, in the rounds of a loop. Each of these
carries what is asked of the pieces to the whole. -/

namespace NumScript

/-! ### Blocks and rounds -/

namespace Limits

/-- The state in which the inside of a block starts. -/
def entered (limits : Limits) (kind : ScopeKind) (m : Machine) : Machine :=
  { m with env := limits.enter kind m.env }

/-- The state behind a block that was entered in state `m`, when its inside ended in `inner`. -/
def left (limits : Limits) (m inner : Machine) : Machine :=
  { inner with env := limits.leave m.env inner.env }

theorem within_eq (limits : Limits) (kind : ScopeKind) (body : Machine → Outcome) (m : Machine) :
    limits.within kind body m =
      ⟨limits.left m (body (limits.entered kind m)).machine,
        (body (limits.entered kind m)).fault⟩ :=
  rfl

/-- A loop is let on, and the round is counted, unless nothing is left of the limit. -/
def allow (limits : Limits) (keyword : Token) (m : Machine) : Outcome :=
  if limits.spent m then m.fail (limits.exceeded keyword)
  else ⟨{ m with iterations := m.iterations + 1 }.note (.iterate keyword.line), none⟩

/-- A round of a loop: the condition, the limit, the body, and then the other rounds. -/
theorem iterate_succ (limits : Limits) (keyword : Token) (condition : Expression)
    (body : Machine → Outcome) (fuel : Nat) :
    limits.iterate keyword condition body (fuel + 1) = fun m =>
      m.withValue condition fun v m =>
        if !truthy v then ⟨m, none⟩
        else (limits.allow keyword m).andThen fun m =>
          (limits.within .loop body m).andThen (limits.iterate keyword condition body fuel) := by
  funext m
  rw [iterate]
  congr 1
  funext v m
  unfold allow
  cases limits.spent m <;> rfl

end Limits

/-! ### Declarations and assignments -/

/-- The symbol that a declaration of the name makes. -/
def Token.symbol (name : Token) (constant : Bool) (value : Option Float) : Symbol :=
  { name := name.lexeme, value := value, constant := constant, position := name.position }

namespace Machine

variable {m : Machine} {keyword name : Token} {value : Option Float} {v : Float} {d : Diagnostic}
  {env : Env}

theorem declare_of_error
    (refused : m.env.declare (name.symbol (Program.isConst keyword) value) = .error d) :
    m.declare keyword name value = m.fail d := by
  unfold Token.symbol at refused
  simp only [declare, refused]

theorem declare_of_ok
    (declared : m.env.declare (name.symbol (Program.isConst keyword) value) = .ok env) :
    ∃ event, m.declare keyword name value = ⟨note { m with env := env } event, none⟩ := by
  unfold Token.symbol at declared
  simp only [declare, declared]
  exact ⟨_, rfl⟩

theorem refused_of_declare
    (failed : (m.declare keyword name value).fault = some (.problem d)) :
    m.env.declare (name.symbol (Program.isConst keyword) value) = .error d := by
  cases result : m.env.declare (name.symbol (Program.isConst keyword) value) with
  | error d' =>
    rw [declare_of_error result] at failed
    cases failed
    rfl
  | ok env =>
    obtain ⟨event, ran⟩ := declare_of_ok result
    rw [ran] at failed
    cases failed

/-- An assignment that is refused changes nothing, but it is told. -/
theorem assign_of_error (refused : m.env.assign name.lexeme v name.position = .error d) :
    m.assign name v = (m.note (.assign name.line name.lexeme v)).fail d := by
  simp only [assign, note, refused]

theorem assign_of_ok (assigned : m.env.assign name.lexeme v name.position = .ok env) :
    m.assign name v =
      ⟨note { m with env := env } (.assign name.line name.lexeme v), none⟩ := by
  simp only [assign, note, assigned]

theorem refused_of_assign (failed : (m.assign name v).fault = some (.problem d)) :
    m.env.assign name.lexeme v name.position = .error d := by
  cases result : m.env.assign name.lexeme v name.position with
  | error d' =>
    rw [assign_of_error result] at failed
    cases failed
    rfl
  | ok env =>
    rw [assign_of_ok result] at failed
    cases failed

end Machine

/-! ### Single runs -/

/-- A run has a problem when it is what ended it. -/
theorem Outcome.problem?_eq_some {o : Outcome} {d : Diagnostic} :
    o.problem? = some d ↔ o.fault = some (.problem d) := by
  unfold problem?
  split <;> simp_all

/-- The run goes on in a state with the property `on`, or it is over, in a state and through a fault
with the property `off`. -/
def Outcome.Satisfies (on : Machine → Prop) (off : Machine → Fault → Prop) (o : Outcome) : Prop :=
  match o.fault with
  | none => on o.machine
  | some fault => off o.machine fault

namespace Outcome.Satisfies

variable {on on' : Machine → Prop} {off off' : Machine → Fault → Prop} {o : Outcome}
  {m : Machine}

theorem mono (h : o.Satisfies on off) (goes : ∀ m, on m → on' m)
    (ends : ∀ m fault, off m fault → off' m fault) : o.Satisfies on' off' := by
  obtain ⟨m, fault⟩ := o
  cases fault with
  | none => exact goes m h
  | some fault => exact ends m fault h

/-- What is known of the problem that ended a run. -/
theorem of_problem {d : Diagnostic} (h : o.Satisfies on off) (failed : o.problem? = some d) :
    off o.machine (.problem d) := by
  rw [Satisfies, problem?_eq_some.mp failed] at h
  exact h

theorem andThen {next : Machine → Outcome} (first : o.Satisfies on off)
    (second : ∀ m, on m → (next m).Satisfies on' off) : (o.andThen next).Satisfies on' off := by
  obtain ⟨m, fault⟩ := o
  cases fault with
  | none => exact second m first
  | some fault => exact first

theorem withValue {e : Expression} {next : Float → Machine → Outcome}
    (novalue : ∀ d m', m.evaluate e.tree = (.error d, m') → off m' (.problem d))
    (value : ∀ v m', m.evaluate e.tree = (.ok v, m') → (next v m').Satisfies on off) :
    (m.withValue e next).Satisfies on off := by
  unfold Machine.withValue
  split
  · rename_i d m' evaluated
    exact novalue d m' evaluated
  · rename_i v m' evaluated
    exact value v m' evaluated

theorem within {limits : Limits} {kind : ScopeKind} {body : Machine → Outcome}
    (inside : (body (limits.entered kind m)).Satisfies (fun inner => on (limits.left m inner))
      fun inner => off (limits.left m inner)) :
    (limits.within kind body m).Satisfies on off :=
  inside

theorem declare {keyword name : Token} {value : Option Float}
    (refused : ∀ d, m.env.declare (name.symbol (Program.isConst keyword) value) = .error d →
      off m (.problem d))
    (declared : ∀ env event, m.env.declare (name.symbol (Program.isConst keyword) value) = .ok env →
      on (Machine.note { m with env := env } event)) :
    (m.declare keyword name value).Satisfies on off := by
  cases result : m.env.declare (name.symbol (Program.isConst keyword) value) with
  | error d =>
    rw [Machine.declare_of_error result]
    exact refused d result
  | ok env =>
    obtain ⟨event, ran⟩ := Machine.declare_of_ok result
    rw [ran]
    exact declared env event result

theorem assign {name : Token} {v : Float}
    (refused : ∀ d event, m.env.assign name.lexeme v name.position = .error d →
      off (m.note event) (.problem d))
    (assigned : ∀ env event, m.env.assign name.lexeme v name.position = .ok env →
      on (Machine.note { m with env := env } event)) :
    (m.assign name v).Satisfies on off := by
  cases result : m.env.assign name.lexeme v name.position with
  | error d =>
    rw [Machine.assign_of_error result]
    exact refused d _ result
  | ok env =>
    rw [Machine.assign_of_ok result]
    exact assigned env _ result

/-- A loop keeps the property `before` from round to round; with the condition computed, the state
has the property `between`. -/
theorem iterate {before between : Machine → Prop} {limits : Limits} {keyword : Token}
    {condition : Expression} {body : Machine → Outcome}
    (computes : ∀ {m : Machine} {next : Float → Machine → Outcome}, before m →
      (∀ v m', between m' → (next v m').Satisfies on off) →
      (m.withValue condition next).Satisfies on off)
    (stops : ∀ m, between m → on m)
    (allowed : ∀ m, between m → (limits.allow keyword m).Satisfies between off)
    (round : ∀ m, between m → (limits.within .loop body m).Satisfies before off)
    (exhausted : ∀ m, before m → off m .exhausted) (fuel : Nat) (start : before m) :
    (limits.iterate keyword condition body fuel m).Satisfies on off := by
  induction fuel generalizing m with
  | zero => exact exhausted m start
  | succ fuel ih =>
    rw [Limits.iterate_succ]
    refine computes start fun v m' computed => ?_
    split
    · exact stops m' computed
    · exact (allowed m' computed).andThen fun m₁ counted =>
        (round m₁ counted).andThen fun m₂ again => ih again

end Outcome.Satisfies

end NumScript
