import NumScript.Proofs.Run.Breaking
import NumScript.Proofs.Run.Counting

/-! How a limit on loops stops runs. A run is stopped only at a loop that would go round again when
nothing is left of the limit, and nothing happens behind that. Programs that run in turn share one
limit, and the count of iterations that it bounds is the number of bodies started in all of them. -/

namespace NumScript

/-! ### Runs that the limit stops -/

/-- The limit stops the run of `p` from `m`: the run comes to a loop that would go round when
nothing is left, and ends there with the problem of that loop. Nothing has happened since its
condition was computed but that blocks were left. -/
def Program.Stopped (limits : Limits) (p : Program) (m : Machine) (o : Outcome) : Prop :=
  ∃ depth keyword condition brace body rest m₁ m' env,
    p.Reaches limits m depth (.loop keyword condition brace body rest) m₁ ∧
      limits.RefusesRound condition m₁ m' ∧
      o = ⟨{ m' with env := env }, some (.problem (limits.exceeded keyword))⟩

namespace Program

variable {limits : Limits}

/-- A run that hits the limit is stopped by it: the step that fails is one of a loop that is beyond
the limit, since no other step has this cause. -/
theorem stopped_of_hitsLimit (p : Program) (m : Machine)
    (hits : (p.run limits m).HitsLimit) : p.Stopped limits m (p.run limits m) := by
  obtain ⟨d, failed, cause⟩ := Outcome.hitsLimit_iff.mp hits
  obtain ⟨env, blocks, q, m', tried, stands, fails, broken, -⟩ := p.breaks_of_fault m failed
  obtain ⟨depth, reached⟩ := stands.reaches
  obtain ⟨keyword, condition, brace, body, rest, m₁, rfl, refuses, rfl, rfl⟩ :=
    fails.refusesRound cause
  refine ⟨depth, keyword, condition, brace, body, rest, m', m₁, _, reached, refuses,
    broken.eq_of_read ?_⟩
  obtain ⟨v, evaluated, -, -⟩ := refuses
  exact (Machine.unread_of_evaluate evaluated).1

/-! ### Programs in turn -/

/-- The state after the runs of programs in turn, each of them in the state that the one before it
has left, even if that one has failed. -/
def runAll (limits : Limits) : List Program → Machine → Machine
  | [], m => m
  | p :: more, m => runAll limits more (p.run limits m).machine

/-- The number of bodies of loops that the runs of programs in turn start. -/
def startsAll (limits : Limits) : List Program → Machine → Nat
  | [], _ => 0
  | p :: more, m => p.starts limits m + startsAll limits more (p.run limits m).machine

theorem allows_runAll (positive : 0 < limits.budget) (programs : List Program) (m : Machine) :
    limits.Allows m.iterations (runAll limits programs m).iterations := by
  induction programs generalizing m with
  | nil => exact .refl _
  | cons p more ih => exact (p.run_bounds positive m).allowed.trans (ih (p.run limits m).machine)

theorem iterations_runAll (limits : Limits) (programs : List Program) (m : Machine) :
    (runAll limits programs m).iterations = m.iterations + startsAll limits programs m := by
  induction programs generalizing m with
  | nil => rfl
  | cons p more ih =>
    rw [runAll, startsAll, ih, p.run_counts limits m, Nat.add_assoc]

theorem runAll_concat (limits : Limits) (earlier : List Program) (p : Program) (m : Machine) :
    runAll limits (earlier ++ [p]) m = (p.run limits (runAll limits earlier m)).machine := by
  induction earlier generalizing m with
  | nil => rfl
  | cons q more ih => exact ih (q.run limits m).machine

/-- With a limit on loops every run of programs in turn ends. The count of iterations never falls
and never rises above the limit, at no point of a run; it is the number of bodies started in all
runs so far. A run has the problem of the limit only when the count has come to the limit, and the
condition of a loop holds there, whose body is not entered again. -/
theorem run_within_budget {limits : Limits} (positive : 0 < limits.budget) (env : Env)
    (earlier : List Program) (p : Program) :
    let m := runAll limits earlier { env := env }
    let o := p.run limits m
    p.Ends limits m o ∧
      (o.machine.iterations : Int) ≤ limits.budget ∧
      (∀ depth q m', p.Reaches limits m depth q m' →
        m.iterations ≤ m'.iterations ∧ m'.iterations ≤ o.machine.iterations) ∧
      o.machine.iterations = startsAll limits (earlier ++ [p]) { env := env } ∧
      (o.HitsLimit → (o.machine.iterations : Int) = limits.budget ∧ p.Stopped limits m o) := by
  intro m o
  have last : o.machine = runAll limits (earlier ++ [p]) { env := env } :=
    (runAll_concat limits earlier p { env := env }).symm
  have within : (o.machine.iterations : Int) ≤ limits.budget := by
    have stays := (allows_runAll positive (earlier ++ [p]) { env := env }).stays
    rw [← last] at stays
    have start : ({ env := env } : Machine).iterations = 0 := rfl
    omega
  refine ⟨p.ends_run positive m, within, fun _ _ _ reached => reached.between positive, ?_, ?_⟩
  · rw [last, iterations_runAll]
    exact Nat.zero_add _
  · intro hits
    have stopped := p.stopped_of_hitsLimit m hits
    refine ⟨Int.le_antisymm within ?_, stopped⟩
    obtain ⟨_, _, _, _, _, _, m₁, m', env', -, ⟨_, -, -, spent⟩, ended⟩ := stopped
    have same : o.machine.iterations = m'.iterations := by rw [show o = _ from ended]
    rw [same]
    exact Limits.budget_le_of_spent spent

/-- `while (1) { while (1) { } }` -/
def loopsForever : Program :=
  let one : Expression := ⟨{}, .leaf (.ofNumber 1 {})⟩
  .loop { kind := .whileWord } one {} (.loop { kind := .whileWord } one {} .done .done) .done

/-- The first run leaves one of two iterations, which the outer loop of the second run takes. -/
theorem run_within_budget_secondRun :
    let limits : Limits := { budget := 2 }
    let env : Env := [{ symbols := [{ name := [120], value := some 1 }] }]
    let m := runAll limits [loopOnce] { env := env }
    let o := loopsForever.run limits m
    0 < limits.budget ∧ m.iterations = 1 ∧ o.HitsLimit ∧ o.machine.iterations = 2 ∧
      startsAll limits [loopOnce, loopsForever] { env := env } = 2 ∧
      loopsForever.Stopped limits m o := by
  intro limits env
  dsimp only
  have hits : (loopsForever.run limits (runAll limits [loopOnce] { env := env })).HitsLimit := by
    decide +kernel
  obtain ⟨-, -, -, counted, hit⟩ :=
    @run_within_budget limits (by decide) env [loopOnce] loopsForever
  obtain ⟨full, stopped⟩ := hit hits
  have two : limits.budget = (2 : Nat) := rfl
  rw [two, Int.ofNat_inj] at full
  rw [full] at counted
  exact ⟨by decide, by decide +kernel, hits, full, counted.symm, stopped⟩

end Program

end NumScript
