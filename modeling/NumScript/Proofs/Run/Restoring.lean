import NumScript.Proofs.Run.Stopping

/-! Loops whose blocks are copies. The body of such a loop leaves the environment as it was, so the
condition still holds behind it, and the body does the same again until nothing is left of the
limit: the loop never ends normally. -/

namespace NumScript

namespace Program

variable {limits : Limits}

theorem iterate_of_refusesRound {condition : Expression} {m m₁ : Machine}
    (refuses : limits.RefusesRound condition m m₁) (keyword : Token) (body : Machine → Outcome)
    (fuel : Nat) :
    limits.iterate keyword condition body (fuel + 1) m = m₁.fail (limits.exceeded keyword) := by
  obtain ⟨v, evaluated, holds, spent⟩ := refuses
  simp [Limits.iterate, Machine.withValue, evaluated, holds, spent]

/-- A loop that has gone round once goes round again from the same environment, unless nothing is
left. -/
theorem goesRound_of_again {keyword : Token} {condition : Expression} {m m₂ m' : Machine}
    (round : limits.GoesRound keyword condition m m₂) {k : Nat} (again : m.Again k m') :
    (∃ m₁', limits.RefusesRound condition m' m₁') ∨
      ∃ m₂', limits.GoesRound keyword condition m' m₂' ∧ m₂.Again k m₂' := by
  obtain ⟨v, m₁, evaluated, holds, -, rfl⟩ := round
  obtain ⟨r, _, m₁', left, right, machine⟩ := again.evaluate condition.tree
  obtain ⟨rfl, rfl⟩ := Prod.mk.inj (evaluated.symm.trans left)
  cases spent : limits.spent m₁' with
  | true => exact .inl ⟨m₁', v, right, holds, spent⟩
  | false => exact .inr ⟨_, ⟨v, m₁', right, holds, spent, rfl⟩, machine.round _ _⟩

/-- Behind a body that is a copy the loop goes on in the environment in front of it, some iterations
later. -/
theorem again_left (copying : limits.scoping = .copy) {keyword : Token} {condition : Expression}
    {m m' m₂' inner : Machine} {k : Nat} (again : m.Again k m')
    (round : limits.GoesRound keyword condition m' m₂')
    (grows : m₂'.iterations ≤ inner.iterations) :
    m.Again (inner.iterations - m.iterations) (limits.left m₂' inner) := by
  have counted := round.iterations
  have before := again.iterations
  obtain ⟨v, m₁', evaluated, -, -, rfl⟩ := round
  have later : m.iterations < inner.iterations := by omega
  refine ⟨?_, ?_, fun still => by omega⟩
  · have read := (Machine.unread_of_evaluate evaluated).2
    rw [Limits.left, Limits.leave, copying]
    exact read.trans again.env
  · change inner.iterations = m.iterations + (inner.iterations - m.iterations)
    omega

/-- When the body of a loop has ended normally once, and blocks are copies, the loop goes on from
every state that is like the first until nothing is left of the limit. -/
theorem hitsLimit_of_again (copying : limits.scoping = .copy) (positive : 0 < limits.budget)
    {keyword : Token} {condition : Expression} {body : Program} {m m₂ : Machine}
    (round : limits.GoesRound keyword condition m m₂)
    (completes : (body.run limits (limits.entered .loop m₂)).fault = none) {k : Nat}
    {m' : Machine} (again : m.Again k m') (fuel : Nat) :
    (limits.iterate keyword condition (body.run limits) fuel m').fault = some .exhausted ∨
      (limits.iterate keyword condition (body.run limits) fuel m').HitsLimit := by
  induction fuel generalizing k m' with
  | zero => exact .inl rfl
  | succ fuel ih =>
    rcases goesRound_of_again round again with ⟨m₁', refuses⟩ | ⟨m₂', round', entered⟩
    · rw [iterate_of_refusesRound refuses]
      exact .inr (Outcome.hitsLimit_iff.mpr ⟨_, rfl, rfl⟩)
    rw [limits.iterate_of_goesRound round', Limits.within_eq]
    have grows := (body.run_bounds positive (limits.entered .loop m₂')).allowed.grows
    rcases body.run_again limits (entered.entered limits .loop) with
      ⟨fault, -⟩ | ⟨-, hits⟩
    · -- The body has ended normally again, and the environment is as the condition has read it.
      rw [completes] at fault
      rw [fault]
      exact ih (again_left copying again round' grows)
    · obtain ⟨d, failed, cause⟩ := Outcome.hitsLimit_iff.mp hits
      rw [failed]
      exact .inr (Outcome.hitsLimit_iff.mpr ⟨d, rfl, cause⟩)

/-- With blocks as copies and a limit, a loop whose condition holds never ends normally: either the
first run of its body fails, which is what the loop fails for, or the limit stops the loop, at its
own condition or at that of a loop inside. A loop whose condition does not hold does nothing but
read. -/
theorem run_copying_loop {limits : Limits} (copying : limits.scoping = .copy)
    (positive : 0 < limits.budget) (keyword : Token) (condition : Expression) (brace : Token)
    (body : Program) {m m₁ : Machine} {v : Float}
    (evaluated : m.evaluate condition.tree = (.ok v, m₁)) :
    let p := loop keyword condition brace body done
    let o := p.run limits m
    (truthy v = true → ∃ d, o.fault = some (.problem d) ∧
      ((∃ m₂, limits.GoesRound keyword condition m m₂ ∧
          (body.run limits (limits.entered .loop m₂)).fault = some (.problem d)) ∨
        (d.cause = some .iterationLimit ∧ p.Stopped limits m o))) ∧
    (truthy v = false →
      o = ⟨m.inEnv m₁.env, none⟩ ∧ m₁.env.unread = m.env.unread) := by
  intro p o
  have run : o = limits.iterate keyword condition (body.run limits) limits.rounds m :=
    andThen_done _
  have rounds : limits.rounds = limits.budget.toNat + 1 := if_pos positive
  constructor
  · intro holds
    have stopped (hits : o.HitsLimit) : ∃ d, o.fault = some (.problem d) ∧
        d.cause = some .iterationLimit ∧ p.Stopped limits m o := by
      obtain ⟨d, failed, cause⟩ := Outcome.hitsLimit_iff.mp hits
      exact ⟨d, failed, cause, p.stopped_of_hitsLimit m hits⟩
    have ended : o.fault ≠ some .exhausted := (p.run_bounds positive m).ended
    rcases spent : limits.spent m₁ with _ | _
    · have round : limits.GoesRound keyword condition m _ := ⟨v, m₁, evaluated, holds, spent, rfl⟩
      generalize Machine.note { m₁ with iterations := m₁.iterations + 1 } _ = m₂ at round
      cases inside : (body.run limits (limits.entered .loop m₂)).fault with
      | none =>
        rcases hitsLimit_of_again copying positive round inside (.refl m) limits.rounds with
          given | hits
        · exact absurd (run ▸ given) ended
        · obtain ⟨d, failed, hit⟩ := stopped (run ▸ hits)
          exact ⟨d, failed, .inr hit⟩
      | some fault =>
        have same : o.fault = some fault := by
          rw [run, rounds, limits.iterate_of_goesRound round, Limits.within_eq, inside]
          rfl
        cases fault with
        | exhausted => exact absurd same ended
        | problem d => exact ⟨d, same, .inl ⟨m₂, round, inside⟩⟩
    · have hits : o.HitsLimit := by
        rw [run, rounds, iterate_of_refusesRound ⟨v, evaluated, holds, spent⟩]
        exact Outcome.hitsLimit_iff.mpr ⟨_, rfl, rfl⟩
      obtain ⟨d, failed, hit⟩ := stopped hits
      exact ⟨d, failed, .inr hit⟩
  · intro fails
    obtain ⟨same, read⟩ := Machine.unread_of_evaluate evaluated
    refine ⟨?_, read⟩
    rw [run, rounds, ← same]
    simp [Limits.iterate, Machine.withValue, evaluated, fails]

/-- With blocks as children the loop goes round once. In a copy its body sets `x` in vain. -/
theorem run_copying_loop_restored :
    let limits : Limits := { scoping := .copy, budget := 2 }
    let m : Machine := { env := [{ symbols := [{ name := [120], value := some 1 }] }] }
    limits.scoping = .copy ∧ 0 < limits.budget ∧ truthy 1 = true ∧
      (loopOnce.run limits.chained m).fault = none ∧
      ∃ d, (loopOnce.run limits m).fault = some (.problem d) ∧ d.cause = some .iterationLimit ∧
        loopOnce.Stopped limits m (loopOnce.run limits m) := by
  intro limits m
  have holds : truthy 1 = true := by decide +kernel
  refine ⟨rfl, by decide, holds, by decide +kernel, ?_⟩
  let x : Token := { kind := .identifier, lexeme := [120] }
  have evaluated : m.evaluate (.leaf x) = (.ok 1, (m.evaluate (.leaf x)).2) := by decide +kernel
  have never := @run_copying_loop limits rfl (by decide) { kind := .whileWord } ⟨x, .leaf x⟩ {}
    (.assign x ⟨{}, .leaf (.ofNumber 0 {})⟩ .done) m _ 1 evaluated
  obtain ⟨d, failed, ⟨m₂, ⟨v, m₁, value, -, -, rfl⟩, inside⟩ | stopped⟩ := never.1 holds
  · -- The first run of the body succeeds.
    obtain rfl := congrArg Prod.snd value
    have succeeds : ((Program.assign x ⟨{}, .leaf (.ofNumber 0 {})⟩ .done).run limits
        (limits.entered .loop ({ (m.evaluate (.leaf x)).2 with
          iterations := (m.evaluate (.leaf x)).2.iterations + 1 }.note (.iterate 0)))).fault =
        none := by decide +kernel
    exact absurd (succeeds.symm.trans inside) (by simp)
  · exact ⟨d, failed, stopped⟩

end Program

end NumScript
