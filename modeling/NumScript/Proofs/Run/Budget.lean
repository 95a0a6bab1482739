import NumScript.Proofs.Run.Reaching
import NumScript.Proofs.Run.Failing

/-! What a limit on loops does to a run. With a limit every run comes to an end, and the count of
iterations stays within the limit. A run that does not hit the limit is the same with any larger
limit and with none. -/

namespace NumScript

/-- From `before` to `after` the count of iterations has not fallen, nor risen above the limit. -/
structure Limits.Allows (limits : Limits) (before after : Nat) : Prop where
  grows : before ≤ after
  stays : (after : Int) ≤ max limits.budget before

/-- The outcome of a run is an end, and the count of iterations, which was `start` before, has kept
to the limit. -/
def Outcome.Bounded (limits : Limits) (start : Nat) : Outcome → Prop :=
  Satisfies (fun m => limits.Allows start m.iterations) fun m fault =>
    fault ≠ .exhausted ∧ limits.Allows start m.iterations

/-- The piece `f` of a run keeps to the limit from every state. -/
def Limits.Bounds (limits : Limits) (f : Machine → Outcome) : Prop :=
  ∀ m, (f m).Bounded limits m.iterations

namespace Limits

variable {limits : Limits}

namespace Allows

theorem refl (n : Nat) : limits.Allows n n := ⟨Nat.le_refl n, Int.le_max_right _ _⟩

theorem trans {first second third : Nat} (h : limits.Allows first second)
    (h' : limits.Allows second third) : limits.Allows first third where
  grows := Nat.le_trans h.grows h'.grows
  stays := by
    have stays := h.stays
    have stays' := h'.stays
    omega

end Allows

theorem lt_budget_of_spent {m : Machine} (positive : 0 < limits.budget)
    (unspent : limits.spent m = false) : (m.iterations : Int) < limits.budget := by
  simp only [spent, positive, decide_true, Bool.true_and, decide_eq_false_iff_not] at unspent
  omega

theorem budget_le_of_spent {m : Machine} (spent : limits.spent m = true) :
    limits.budget ≤ m.iterations := by
  simp only [Limits.spent, Bool.and_eq_true, decide_eq_true_eq] at spent
  exact spent.2

theorem Allows.round {m : Machine} (positive : 0 < limits.budget)
    (unspent : limits.spent m = false) : limits.Allows m.iterations (m.iterations + 1) where
  grows := Nat.le_succ _
  stays := by
    have left := lt_budget_of_spent positive unspent
    omega

end Limits

theorem Machine.iterations_of_evaluate {m m' : Machine} {t : Tree} {r : Except Diagnostic Float}
    (evaluated : m.evaluate t = (r, m')) : m'.iterations = m.iterations := by
  cases evaluated
  rfl

theorem Limits.GoesRound.iterations {limits : Limits} {keyword : Token} {condition : Expression}
    {m m' : Machine} (round : limits.GoesRound keyword condition m m') :
    m'.iterations = m.iterations + 1 := by
  obtain ⟨v, m₁, evaluated, -, -, rfl⟩ := round
  rw [← Machine.iterations_of_evaluate evaluated]
  rfl

/-- A loop that goes round runs its body and then has one round less. -/
theorem Limits.iterate_of_goesRound {limits : Limits} {keyword : Token} {condition : Expression}
    {m m' : Machine} (round : limits.GoesRound keyword condition m m') (body : Machine → Outcome)
    (fuel : Nat) :
    limits.iterate keyword condition body (fuel + 1) m =
      (limits.within .loop body m').andThen (limits.iterate keyword condition body fuel) := by
  obtain ⟨v, m₁, evaluated, holds, unspent, rfl⟩ := round
  simp [iterate, Machine.withValue, evaluated, holds, unspent]

namespace Outcome.Bounded

variable {limits : Limits} {start : Nat} {o : Outcome}

theorem ended (h : o.Bounded limits start) : o.fault ≠ some .exhausted := by
  obtain ⟨m, fault⟩ := o
  cases fault with
  | none => simp
  | some fault => simpa using h.1

theorem allowed (h : o.Bounded limits start) : limits.Allows start o.machine.iterations := by
  obtain ⟨m, fault⟩ := o
  cases fault with
  | none => exact h
  | some fault => exact h.2

theorem after {first : Nat} (h : o.Bounded limits start) (before : limits.Allows first start) :
    o.Bounded limits first :=
  h.mono (fun _ => before.trans) fun _ _ => And.imp_right before.trans

/-- A problem, after no further iteration. -/
theorem fail (m : Machine) (d : Diagnostic) : (m.fail d).Bounded limits m.iterations :=
  ⟨by simp, .refl m.iterations⟩

end Outcome.Bounded

namespace Limits.Bounds

variable {limits : Limits} {f next : Machine → Outcome}

theorem andThen (first : limits.Bounds f) (second : limits.Bounds next) :
    limits.Bounds (fun m => (f m).andThen next) :=
  fun m => (first m).andThen fun m' allowed => (second m').after allowed

theorem grows_andThen (next : limits.Bounds f) (o : Outcome) :
    o.machine.iterations ≤ (o.andThen f).machine.iterations := by
  unfold Outcome.andThen
  split
  · exact (next o.machine).allowed.grows
  · exact Nat.le_refl _

theorem withValue {e : Expression} {next : Float → Machine → Outcome}
    (later : ∀ v, limits.Bounds (next v)) : limits.Bounds (fun m => m.withValue e next) := by
  refine fun m => .withValue (fun d m' evaluated => ?_) fun v m' evaluated => ?_
  · rw [← Machine.iterations_of_evaluate evaluated]
    exact Outcome.Bounded.fail m' d
  · have same := Machine.iterations_of_evaluate evaluated
    exact same ▸ later v m'

theorem within (h : limits.Bounds f) (kind : ScopeKind) : limits.Bounds (limits.within kind f) :=
  fun m => .within (h (limits.entered kind m))

/-- A loop keeps to the limit when it has more rounds than the limit leaves. -/
theorem iterate (h : limits.Bounds f) (positive : 0 < limits.budget) (keyword : Token)
    (condition : Expression) {fuel : Nat} {m : Machine} (room : 0 < fuel)
    (enough : limits.budget < fuel + m.iterations) :
    (limits.iterate keyword condition f fuel m).Bounded limits m.iterations := by
  induction fuel generalizing m with
  | zero => exact absurd room (Nat.lt_irrefl 0)
  | succ fuel ih =>
    rw [Limits.iterate_succ]
    refine .withValue (fun d m' evaluated => ?_) fun v m' evaluated => ?_
    · rw [← Machine.iterations_of_evaluate evaluated]
      exact Outcome.Bounded.fail m' d
    rw [← Machine.iterations_of_evaluate evaluated] at enough ⊢
    split
    · exact Allows.refl m'.iterations
    unfold allow
    cases unspent : limits.spent m' with
    | true => exact Outcome.Bounded.fail m' (limits.exceeded keyword)
    | false =>
      have left : (m'.iterations : Int) < limits.budget := lt_budget_of_spent positive unspent
      -- The round is counted, so one round less is still more than the limit leaves.
      have round := h.within .loop
        (Machine.note { m' with iterations := m'.iterations + 1 } (.iterate keyword.line))
      refine Outcome.Bounded.after (round.andThen fun m₁ allowed => ?_)
        (Allows.round positive unspent)
      have grows : m'.iterations + 1 ≤ m₁.iterations := allowed.grows
      exact (ih (by omega) (by omega)).after allowed

theorem declare (keyword name : Token) (value : Option Float) :
    limits.Bounds (fun m => m.declare keyword name value) :=
  fun m => .declare (fun d _ => Outcome.Bounded.fail m d) fun _ _ _ => .refl m.iterations

theorem assign (name : Token) (v : Float) : limits.Bounds (fun m => m.assign name v) :=
  fun m => .assign (fun d event _ => Outcome.Bounded.fail (m.note event) d)
    fun _ _ _ => .refl m.iterations

end Limits.Bounds

/-! ### Runs with a limit -/

namespace Program

variable {limits : Limits}

/-- With a limit every run comes to an end and keeps to the limit. -/
theorem run_bounds (positive : 0 < limits.budget) (p : Program) : limits.Bounds (p.run limits) := by
  induction p with
  | done => exact fun m => Limits.Allows.refl m.iterations
  | block brace body rest ihBody ihRest =>
    exact fun m => (ihBody.within .block).andThen ihRest (m.note (.enterBlock brace.line))
  | declare keyword name value rest ihRest =>
    cases value with
    | none => exact (Limits.Bounds.declare keyword name none).andThen ihRest
    | some e =>
      exact (Limits.Bounds.withValue fun v => .declare keyword name (some v)).andThen ihRest
  | assign name value rest ihRest =>
    exact (Limits.Bounds.withValue fun v => .assign name v).andThen ihRest
  | expression value rest ihRest =>
    refine (Limits.Bounds.withValue fun v m => ?_).andThen ihRest
    exact Limits.Allows.refl m.iterations
  | ifThen keyword condition brace body rest ihBody ihRest =>
    refine (Limits.Bounds.withValue fun v m => ?_).andThen ihRest
    dsimp only
    split
    · exact ihBody.within .branch (m.note (.branch keyword.line condition.text v))
    · exact Limits.Allows.refl m.iterations
  | ifElse keyword condition brace body elseBrace elseBody rest ihBody ihElse ihRest =>
    refine (Limits.Bounds.withValue fun v m => ?_).andThen ihRest
    dsimp only
    split
    · exact ihBody.within .branch (m.note (.branch keyword.line condition.text v))
    · exact ihElse.within .branch (m.note (.branch keyword.line condition.text v))
  | loop keyword condition brace body rest ihBody ihRest =>
    have rounds : limits.rounds = limits.budget.toNat + 1 := if_pos positive
    refine Limits.Bounds.andThen (fun m => ihBody.iterate positive keyword condition ?_ ?_) ihRest
    · omega
    · omega

/-- With a limit a run ends in its outcome, whatever the patience. -/
theorem ends_run (positive : 0 < limits.budget) (p : Program) (m : Machine) :
    p.Ends limits m (p.run limits m) :=
  ⟨(p.run_bounds positive m).ended, limits.patience, rfl⟩

theorem iterations_first_le (positive : 0 < limits.budget) (p : Program) (m : Machine) :
    (p.first.run limits m).machine.iterations ≤ (p.run limits m).machine.iterations := by
  rw [p.run_eq_first_rest]
  exact (p.rest.run_bounds positive).grows_andThen _

/-- A loop with a limit that goes round is its body and then the loop again. -/
theorem run_loop_of_goesRound (positive : 0 < limits.budget) {keyword : Token}
    {condition : Expression} {m m₁ : Machine} (round : limits.GoesRound keyword condition m m₁)
    (brace : Token) (body rest : Program) :
    (loop keyword condition brace body rest).run limits m =
      (limits.within .loop (body.run limits) m₁).andThen
        ((loop keyword condition brace body rest).run limits) := by
  have rounds : limits.rounds = limits.budget.toNat + 1 := if_pos positive
  have once : limits.iterate keyword condition (body.run limits) limits.rounds m =
      (limits.within .loop (body.run limits) m₁).andThen
        (limits.iterate keyword condition (body.run limits) limits.budget.toNat) := by
    rw [rounds]
    exact limits.iterate_of_goesRound round _ _
  have inside := ((body.run_bounds positive).within .loop m₁).allowed.grows
  simp only [run]
  rw [once]
  generalize limits.within .loop (body.run limits) m₁ = o at inside ⊢
  obtain ⟨m₂, _ | fault⟩ := o
  · -- One round less is enough from here on, because the round just made has been counted.
    obtain ⟨v, m', -, -, -, rfl⟩ := round
    have counted : m'.iterations + 1 ≤ m₂.iterations := inside
    have ended := ((body.run_bounds positive).iterate positive keyword condition (m := m₂)
      (show 0 < limits.budget.toNat by omega) (by omega)).ended
    have more := limits.iterate_extends keyword condition (body.run limits)
      (show limits.budget.toNat ≤ limits.rounds by omega) m₂ ended
    simp only [Outcome.andThen, more]
  · rfl

/-- At every point that a run with a limit comes to, the count of iterations lies between what it
was before the run and what it is after it. -/
theorem Reaches.between {p q : Program} {m m' : Machine} {depth : Nat}
    (reached : p.Reaches limits m depth q m') (positive : 0 < limits.budget) :
    m.iterations ≤ m'.iterations ∧ m'.iterations ≤ (p.run limits m).machine.iterations := by
  induction reached with
  | here => exact ⟨Nat.le_refl _, (run_bounds positive _ _).allowed.grows⟩
  | @after p q m m₁ m' depth ended _ ih =>
    -- With a limit there is one outcome whatever the patience, so the run itself comes to `m₁`.
    have first : p.first.run limits m = ⟨m₁, none⟩ := (ends_run positive p.first m).unique ended
    have grows := (p.first.run_bounds positive m).allowed.grows
    rw [first] at grows
    rw [p.run_eq_first_rest, first]
    exact ⟨Nat.le_trans grows ih.1, ih.2⟩
  | @block brace body rest q m m' depth _ ih =>
    refine ⟨ih.1, Nat.le_trans ih.2 (Nat.le_trans ?_ (iterations_first_le positive _ m))⟩
    simp only [first, run, andThen_done]
    exact Nat.le_refl _
  | @ifThen keyword brace condition body rest q m m₁ m' depth decides _ ih =>
    obtain ⟨v, m₂, evaluated, holds, rfl⟩ := decides
    rw [← Machine.iterations_of_evaluate evaluated]
    refine ⟨ih.1, Nat.le_trans ih.2 (Nat.le_trans ?_ (iterations_first_le positive _ m))⟩
    simp only [first, run, andThen_done, Machine.withValue, evaluated, holds, if_true]
    exact Nat.le_refl _
  | @ifElse keyword brace elseBrace condition body elseBody rest q m m₁ m' depth holds decides _
      ih =>
    obtain ⟨v, m₂, evaluated, rfl, rfl⟩ := decides
    rw [← Machine.iterations_of_evaluate evaluated]
    refine ⟨ih.1, Nat.le_trans ih.2 (Nat.le_trans ?_ (iterations_first_le positive _ m))⟩
    simp only [first, run, andThen_done, Machine.withValue, evaluated]
    split <;> exact Nat.le_refl _
  | @loop keyword brace condition body rest q m m₁ m' depth round _ ih =>
    have grows := round.iterations
    have inside : m₁.iterations ≤ m'.iterations := ih.1
    rw [run_loop_of_goesRound positive round]
    exact ⟨by omega, Nat.le_trans ih.2 ((run_bounds positive _).grows_andThen
      (limits.within .loop (body.run limits) m₁))⟩
  | @again keyword brace condition body rest q m m₁ m₂ m' depth round ended _ ih =>
    have grows := round.iterations
    have once : body.run limits (limits.entered .loop m₁) = ⟨m₂, none⟩ :=
      (ends_run positive body _).unique ended
    have inside := (body.run_bounds positive (limits.entered .loop m₁)).allowed.grows
    rw [once] at inside
    have behind : m₂.iterations ≤ m'.iterations := ih.1
    have entered : m₁.iterations ≤ m₂.iterations := inside
    rw [run_loop_of_goesRound positive round, Limits.within_eq, once]
    exact ⟨by omega, ih.2⟩

end Program

/-! ### Larger limits -/

/-- The run has ended with the problem that a loop has gone beyond the limit. -/
def Outcome.HitsLimit (o : Outcome) : Prop :=
  o.problem?.bind Diagnostic.cause = some .iterationLimit

instance (o : Outcome) : Decidable o.HitsLimit :=
  inferInstanceAs (Decidable (o.problem?.bind Diagnostic.cause = some .iterationLimit))

theorem Outcome.hitsLimit_iff {o : Outcome} :
    o.HitsLimit ↔ ∃ d, o.fault = some (.problem d) ∧ d.cause = some .iterationLimit := by
  simp only [HitsLimit, Option.bind_eq_some_iff, problem?_eq_some]

/-- The fault that ends a run for lack of rounds or of patience. -/
def Fault.Cut (fault : Fault) : Prop :=
  fault = .exhausted ∨ ∃ d, fault = .problem d ∧ d.cause = some .iterationLimit

/-- A larger limit, or none, lets loops on wherever they were let on before, with the patience for
as many rounds. -/
theorem Limits.widens_of_larger {limits limits' : Limits} (positive : 0 < limits.budget)
    (larger : limits.budget ≤ limits'.budget ∨ limits'.budget ≤ 0)
    (scoping : limits'.scoping = limits.scoping) (patient : limits.rounds ≤ limits'.patience) :
    limits.Widens Fault.Cut limits' where
  scoping := scoping
  rounds := by
    have before : limits.rounds = limits.budget.toNat + 1 := if_pos positive
    rw [before] at patient ⊢
    unfold rounds
    split
    · omega
    · exact patient
  exhausted := .inl rfl
  unspent m unspent := by
    have left := lt_budget_of_spent positive unspent
    simp only [spent, Bool.and_eq_false_iff, decide_eq_false_iff_not]
    omega
  refused m keyword _ := .inl (.inr ⟨_, rfl, rfl⟩)

namespace Program

/-- A run that does not hit its limit is the same with any larger limit and with none: it ends in
the same state, and with the same problem or none. -/
theorem run_of_larger_budget {limits limits' : Limits} (positive : 0 < limits.budget)
    (larger : limits.budget ≤ limits'.budget ∨ limits'.budget ≤ 0)
    (scoping : limits'.scoping = limits.scoping) (p : Program) (m : Machine)
    (free : ¬ (p.run limits m).HitsLimit) : p.Ends limits' m (p.run limits m) := by
  have ended := (p.run_bounds positive m).ended
  have wider : limits.Widens Fault.Cut { limits' with patience := limits.rounds } :=
    Limits.widens_of_larger positive larger scoping (Nat.le_refl _)
  refine ⟨ended, limits.rounds, p.run_widens wider m ?_⟩
  rintro fault failed (rfl | ⟨d, rfl, cause⟩)
  · exact ended failed
  · exact free (Outcome.hitsLimit_iff.mpr ⟨d, failed, cause⟩)

/-- `while (x) { x = 0; }` -/
def loopOnce : Program :=
  let x : Token := { kind := .identifier, lexeme := [120] }
  .loop { kind := .whileWord } ⟨x, .leaf x⟩ {}
    (.assign x ⟨{}, .leaf (.ofNumber 0 {})⟩ .done) .done

/-- The loop goes round once, which a limit of one allows and no limit does not change. -/
theorem run_of_larger_budget_loopOnce :
    let limits : Limits := { budget := 1 }
    let m : Machine := { env := [{ symbols := [{ name := [120], value := some 1 }] }] }
    0 < limits.budget ∧ ¬ (loopOnce.run limits m).HitsLimit ∧
      (loopOnce.run limits m).machine.env.snapshot = [([120], 0)] ∧
      loopOnce.Ends { budget := 0 } m (loopOnce.run limits m) := by
  intro limits m
  have free : ¬ (loopOnce.run limits m).HitsLimit := by decide +kernel
  exact ⟨by decide, free, by decide +kernel,
    @run_of_larger_budget limits { budget := 0 } (by decide) (.inr (by decide)) rfl loopOnce m free⟩

end Program

end NumScript
