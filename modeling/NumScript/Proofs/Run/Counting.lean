import NumScript.Proofs.Run.Reaching

/-! What the count of iterations counts. The bodies of loops that a run starts are counted here from
the outside, by following the run through its statements; the count that the run itself keeps grows
by exactly that number, however deep the loops are nested and however the run ends. -/

namespace NumScript

/-! ### Bodies that are started -/

/-- What is counted behind an outcome: nothing when the run has ended. -/
def Outcome.countThen (o : Outcome) (next : Machine → Nat) : Nat :=
  match o.fault with
  | none => next o.machine
  | some _ => 0

/-- What is counted behind an expression: nothing when it has no value. -/
def Machine.countValue (m : Machine) (e : Expression) (next : Float → Machine → Nat) : Nat :=
  match m.evaluate e.tree with
  | (.error _, _) => 0
  | (.ok v, m) => next v m

/-- The number of bodies that a loop starts in at most `fuel` rounds: its own, once a round, and
those of the loops in it, which `inside` counts for one run of the body. -/
def Limits.iterateStarts (limits : Limits) (keyword : Token) (condition : Expression)
    (body : Machine → Outcome) (inside : Machine → Nat) : Nat → Machine → Nat
  | 0, _ => 0
  | fuel + 1, m =>
    m.countValue condition fun v m =>
      if !truthy v then 0
      else if limits.spent m then 0
      else
        let m := { m with iterations := m.iterations + 1 }.note (.iterate keyword.line)
        1 + inside (limits.entered .loop m) +
          (limits.within .loop body m).countThen
            (iterateStarts limits keyword condition body inside fuel)

namespace Program

/-- The number of bodies of loops that the run of a program starts. -/
def starts (limits : Limits) : Program → Machine → Nat
  | done, _ => 0
  | block brace body rest, m =>
    starts limits body (limits.entered .block (m.note (.enterBlock brace.line))) +
      ((block brace body done).run limits m).countThen (starts limits rest)
  | declare keyword name value rest, m =>
    ((declare keyword name value done).run limits m).countThen (starts limits rest)
  | assign name value rest, m =>
    ((assign name value done).run limits m).countThen (starts limits rest)
  | expression value rest, m =>
    ((expression value done).run limits m).countThen (starts limits rest)
  | ifThen keyword condition brace body rest, m =>
    (m.countValue condition fun v m =>
      let m := m.note (.branch keyword.line condition.text v)
      if truthy v then starts limits body (limits.entered .branch m) else 0) +
      ((ifThen keyword condition brace body done).run limits m).countThen (starts limits rest)
  | ifElse keyword condition brace body elseBrace elseBody rest, m =>
    (m.countValue condition fun v m =>
      let m := m.note (.branch keyword.line condition.text v)
      if truthy v then starts limits body (limits.entered .branch m)
      else starts limits elseBody (limits.entered .branch m)) +
      ((ifElse keyword condition brace body elseBrace elseBody done).run limits m).countThen
        (starts limits rest)
  | loop keyword condition brace body rest, m =>
    limits.iterateStarts keyword condition (body.run limits) (starts limits body) limits.rounds m +
      ((loop keyword condition brace body done).run limits m).countThen (starts limits rest)

end Program

/-! ### The count of a run -/

/-- The piece `f` of a run adds to the count of iterations what `n` counts. -/
def Counts (f : Machine → Outcome) (n : Machine → Nat) : Prop :=
  ∀ m, (f m).machine.iterations = m.iterations + n m

namespace Counts

variable {f next : Machine → Outcome} {n k : Machine → Nat} {limits : Limits}

theorem andThen (first : Counts f n) (second : Counts next k) :
    Counts (fun m => (f m).andThen next) (fun m => n m + (f m).countThen k) := by
  intro m
  have before := first m
  cases fault : (f m).fault with
  | none =>
    simp only [Outcome.andThen, Outcome.countThen, fault]
    rw [second, before, Nat.add_assoc]
  | some cause =>
    simp only [Outcome.andThen, Outcome.countThen, fault]
    exact before

theorem withValue {e : Expression} {next : Float → Machine → Outcome} {n : Float → Machine → Nat}
    (later : ∀ v, Counts (next v) (n v)) :
    Counts (fun m => m.withValue e next) (fun m => m.countValue e n) := by
  intro m
  simp only [Machine.withValue, Machine.countValue, Machine.evaluate]
  rcases e.tree.evaluateIn m.env with ⟨_ | v, env⟩
  · rfl
  · exact later v { m with env := env }

theorem within (h : Counts f n) (kind : ScopeKind) :
    Counts (limits.within kind f) (fun m => n (limits.entered kind m)) :=
  fun m => h (limits.entered kind m)

theorem iterate (h : Counts f n) (keyword : Token) (condition : Expression) (fuel : Nat) :
    Counts (limits.iterate keyword condition f fuel)
      (limits.iterateStarts keyword condition f n fuel) := by
  induction fuel with
  | zero => exact fun _ => rfl
  | succ fuel ih =>
    refine withValue fun v m => ?_
    dsimp only
    split
    · rfl
    · split
      · rfl
      · have inside : Counts (limits.within .loop f) (fun m => n (limits.entered .loop m)) :=
          h.within .loop
        have round := inside.andThen ih
          (Machine.note { m with iterations := m.iterations + 1 } (.iterate keyword.line))
        have entered : (Machine.note { m with iterations := m.iterations + 1 }
          (.iterate keyword.line)).iterations = m.iterations + 1 := rfl
        dsimp only at round
        rw [round, entered]
        omega

/-! ### Pieces that start nothing -/

theorem withValue_zero {e : Expression} {next : Float → Machine → Outcome}
    (later : ∀ v, Counts (next v) fun _ => 0) :
    Counts (fun m => m.withValue e next) (fun _ => 0) := by
  intro m
  have silent : m.countValue e (fun _ _ => 0) = 0 := by
    unfold Machine.countValue
    split <;> rfl
  exact (withValue later m).trans (congrArg _ silent)

theorem declare (keyword name : Token) (value : Option Float) :
    Counts (fun m => m.declare keyword name value) (fun _ => 0) := by
  intro m
  simp only [Machine.declare]
  split <;> rfl

theorem assign (name : Token) (v : Float) :
    Counts (fun m => m.assign name v) (fun _ => 0) := by
  intro m
  simp only [Machine.assign]
  split <;> rfl

/-! ### Programs -/

/-- A program counts what its first statement counts and then what the rest counts. -/
theorem ofFirst {p : Program} (first : Counts (p.first.run limits) n)
    (rest : Counts (p.rest.run limits) k) :
    Counts (p.run limits) (fun m => n m + (p.first.run limits m).countThen k) := by
  intro m
  rw [p.run_eq_first_rest]
  exact first.andThen rest m

theorem ofFirst_zero {p : Program} (first : Counts (p.first.run limits) fun _ => 0)
    (rest : Counts (p.rest.run limits) k) :
    Counts (p.run limits) (fun m => (p.first.run limits m).countThen k) := by
  intro m
  exact (ofFirst first rest m).trans (congrArg _ (Nat.zero_add _))

end Counts

/-- The run of a program adds to the count of iterations the number of bodies that it starts. -/
theorem Program.run_counts (limits : Limits) (p : Program) :
    Counts (p.run limits) (p.starts limits) := by
  induction p with
  | done => exact fun _ => rfl
  | block brace body rest ihBody ihRest =>
    refine .ofFirst (fun m => ?_) ihRest
    simp only [first, run, andThen_done]
    exact ihBody.within .block (m.note (.enterBlock brace.line))
  | declare keyword name value rest ihRest =>
    refine .ofFirst_zero (fun m => ?_) ihRest
    simp only [first, run, andThen_done]
    cases value with
    | none => exact Counts.declare keyword name none m
    | some e => exact Counts.withValue_zero (fun v => .declare keyword name (some v)) m
  | assign name value rest ihRest =>
    refine .ofFirst_zero (fun m => ?_) ihRest
    simp only [first, run, andThen_done]
    exact Counts.withValue_zero (fun v => .assign name v) m
  | expression value rest ihRest =>
    refine .ofFirst_zero (fun m => ?_) ihRest
    simp only [first, run, andThen_done]
    exact Counts.withValue_zero (fun _ _ => rfl) m
  | ifThen keyword condition brace body rest ihBody ihRest =>
    refine .ofFirst (fun m => ?_) ihRest
    simp only [first, run, andThen_done]
    refine Counts.withValue (fun v m => ?_) m
    split
    · exact ihBody.within .branch (m.note (.branch keyword.line condition.text v))
    · rfl
  | ifElse keyword condition brace body elseBrace elseBody rest ihBody ihElse ihRest =>
    refine .ofFirst (fun m => ?_) ihRest
    simp only [first, run, andThen_done]
    refine Counts.withValue (fun v m => ?_) m
    split
    · exact ihBody.within .branch (m.note (.branch keyword.line condition.text v))
    · exact ihElse.within .branch (m.note (.branch keyword.line condition.text v))
  | loop keyword condition brace body rest ihBody ihRest =>
    refine .ofFirst (fun m => ?_) ihRest
    simp only [first, run, andThen_done]
    exact ihBody.iterate keyword condition limits.rounds m

end NumScript
