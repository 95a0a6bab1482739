import NumScript.Proofs.Expression.Staged
import NumScript.Proofs.Run.Ending
import NumScript.Proofs.Run.Matching

/-! Optimizing a program does not change what it does. Each pass is matched, statement by statement,
with the program it started from; a round is one pass after the other, and any number of rounds
leaves the outcome of a run as it is, but for the history. -/

namespace NumScript

/-! ### Folding -/

namespace Expression

theorem evaluateIn_fold (e : Expression) (env : Env) :
    e.fold.1.tree.evaluateIn env = e.tree.evaluateIn env :=
  Tree.evaluateIn_fold env e.tree

/-- An expression that is a single number is computed without a look at the environment. -/
theorem withValue_of_constant? {e : Expression} {v : Float} (constant : e.constant? = some v)
    (m : Machine) (next : Float → Machine → Outcome) : m.withValue e next = next v m := by
  unfold constant? at constant
  split at constant
  · rename_i number
    have value : e.tree.evaluate = .ok v := by
      cases evaluated : e.tree.evaluate <;> simp_all [Except.toOption]
    simp [Machine.withValue, Machine.evaluate,
      Tree.evaluateIn_of_isNumberLeaf m.env number value]
  · cases constant

end Expression

namespace Program

theorem fold_pairs (p : Program) : Comparison.plainly.Pairs p.fold.1 p := by
  induction p with
  | done => exact .done
  | block brace body rest ihBody ihRest => exact .block rfl ihBody ihRest
  | declare keyword name value rest ihRest =>
    cases value with
    | none => exact .declare rfl rfl .none ihRest
    | some e => exact .declare rfl rfl (.some e.evaluateIn_fold) ihRest
  | assign name value rest ihRest => exact .assign rfl value.evaluateIn_fold ihRest
  | expression value rest ihRest => exact .expression value.evaluateIn_fold ihRest
  | ifThen keyword condition brace body rest ihBody ihRest =>
    exact .ifThen rfl condition.evaluateIn_fold ihBody ihRest
  | ifElse keyword condition brace body elseBrace elseBody rest ihBody ihElse ihRest =>
    exact .ifElse rfl condition.evaluateIn_fold ihBody ihElse ihRest
  | loop keyword condition brace body rest ihBody ihRest =>
    exact .loop rfl condition.evaluateIn_fold ihBody ihRest

/-- A program with its expressions folded does what the program does. -/
theorem fold_matches (limits : Limits) (p : Program) :
    Matches (p.fold.1.run limits) (p.run limits) :=
  (Comparison.plainly_kept limits).run (fold_pairs p)

/-! ### Sweeping -/

/-- A block with nothing inside leaves no trace in the state. -/
theorem within_done (limits : Limits) (kind : ScopeKind) (m : Machine) :
    limits.within kind (run limits done) m = ⟨m, none⟩ := by
  simp only [Limits.within, Limits.leave, Limits.enter, run]
  cases limits.scoping <;> rfl

open Comparison in
/-- A block does what its inside and the rest do, whether it is kept or dropped as empty, and
whatever opened the scope of the inside. -/
theorem keepBlock_matches (limits : Limits) (brace : Token) {body rest : Program}
    {inside next : Machine → Outcome} (hBody : Matches (body.run limits) inside)
    (hRest : Matches (rest.run limits) next) (kind : ScopeKind) :
    Matches ((keepBlock brace body rest).1.run limits)
      (fun m => (limits.within kind inside m).andThen next) := by
  intro m m' same
  unfold keepBlock
  split
  · rename_i empty
    obtain rfl : body = done := by cases body <;> simp_all [isEmpty]
    have gone := hBody.within (opens_plainly limits kind kind) m m' same
    rw [within_done] at gone
    exact gone.andThen hRest
  · exact (hBody.within (opens_plainly limits .block kind)).andThen hRest
      (m.note (.enterBlock brace.line)) m' same

open Comparison in
/-- A program without what can never run does what the program does. Loops are given at least one
round, to find that their condition does not hold. -/
theorem sweep_matches {limits : Limits} (positive : 0 < limits.rounds) (p : Program) :
    Matches (p.sweep.1.run limits) (p.run limits) := by
  have steps := plainly_kept limits
  induction p with
  | done => exact Kept.runDone
  | block brace body rest ihBody ihRest =>
    intro m m' same
    exact keepBlock_matches limits brace ihBody ihRest .block m
      (m'.note (.enterBlock brace.line)) same
  | declare keyword name value rest ihRest =>
    cases value with
    | none => exact steps.runDeclare rfl rfl .none ihRest
    | some e => exact steps.runDeclare rfl rfl (.some (values_plainly e)) ihRest
  | assign name value rest ihRest => exact steps.runAssign rfl (values_plainly value) ihRest
  | expression value rest ihRest => exact steps.runExpression (values_plainly value) ihRest
  | ifThen keyword condition brace body rest ihBody ihRest =>
    cases constant : condition.constant? with
    | none =>
      simp only [sweep, constant]
      exact steps.runIfThen brace brace rfl (values_plainly condition) ihBody ihRest
    | some v =>
      intro m m' same
      simp only [sweep, constant, run, Expression.withValue_of_constant? constant]
      split
      · exact keepBlock_matches limits brace ihBody ihRest .branch m (m'.note _) same
      · exact ihRest m (m'.note _) same
  | ifElse keyword condition brace body elseBrace elseBody rest ihBody ihElse ihRest =>
    cases constant : condition.constant? with
    | none =>
      simp only [sweep, constant]
      exact steps.runIfElse brace brace elseBrace elseBrace rfl (values_plainly condition)
        ihBody ihElse ihRest
    | some v =>
      intro m m' same
      simp only [sweep, constant, run, Expression.withValue_of_constant? constant]
      split
      · exact keepBlock_matches limits brace ihBody ihRest .branch m (m'.note _) same
      · exact keepBlock_matches limits elseBrace ihElse ihRest .branch m (m'.note _) same
  | loop keyword condition brace body rest ihBody ihRest =>
    have kept := steps.runLoop brace brace (@rfl _ keyword) (values_plainly condition) ihBody
      ihRest
    cases constant : condition.constant? with
    | none =>
      simp only [sweep, constant]
      exact kept
    | some v =>
      by_cases holds : truthy v = true
      · simp only [sweep, constant, holds, if_true]
        exact kept
      · intro m m' same
        obtain ⟨fuel, rounds⟩ : ∃ k, limits.rounds = k + 1 := ⟨limits.rounds - 1, by omega⟩
        simp only [sweep, constant, run, rounds, Limits.iterate,
          Expression.withValue_of_constant? constant, holds]
        exact ihRest m m' same

/-! ### Rounds -/

theorem optimizeOnce_plain {limits : Limits} (positive : 0 < limits.rounds) (p : Program)
    (m : Machine) : (p.optimizeOnce.1.run limits m).plain = (p.run limits m).plain :=
  ((sweep_matches positive p.fold.1).plain rfl).trans ((fold_matches limits p).plain rfl)

theorem optimizeFrom_plain {limits : Limits} (positive : 0 < limits.rounds) (o : Optimized)
    (rounds : Nat) (m : Machine) :
    ((optimizeFrom o rounds).program.run limits m).plain = (o.program.run limits m).plain := by
  induction rounds generalizing o with
  | zero => rfl
  | succ rounds ih =>
    rw [optimizeFrom]
    dsimp only
    split
    · exact optimizeOnce_plain positive o.program m
    · rw [ih]
      exact optimizeOnce_plain positive o.program m

/-- A run of the optimized program ends as the run of the program does, but for the history. -/
theorem optimize_untraced {limits : Limits} (positive : 0 < limits.rounds) (p : Program)
    (rounds : Int) (m : Machine) :
    ((p.optimize rounds).program.run limits m).untraced = (p.run limits m).untraced := by
  refine Outcome.untraced_eq (optimizeFrom_plain positive { program := p } rounds.toNat m) ?_
  rw [Env.kept_kinds.run limits (p.optimize rounds).program m, Env.kept_kinds.run limits p m]

/-- Where runs of `q` and `p` agree whenever loops are given a round, `q` ends as `p` does. -/
theorem Ends.of_untraced {p q : Program} {limits : Limits} {m : Machine} {o : Outcome}
    (same : ∀ limits : Limits, 0 < limits.rounds →
      (q.run limits m).untraced = (p.run limits m).untraced)
    (ends : p.Ends limits m o) : ∃ o', q.Ends limits m o' ∧ o'.untraced = o.untraced := by
  obtain ⟨ended, patience, rfl⟩ := ends
  -- One round more is enough to see that a loop has ended, and changes nothing else.
  have longer := p.run_patience { limits with patience := patience } (Nat.le_succ patience) m ended
  have positive : 0 < Limits.rounds { limits with patience := patience + 1 } := by
    simp only [Limits.rounds]
    split <;> omega
  have agree := same _ positive
  rw [longer] at agree
  have fault : (q.run { limits with patience := patience + 1 } m).fault =
      (p.run { limits with patience := patience } m).fault := by
    rw [← Outcome.untraced_fault, agree, Outcome.untraced_fault]
  exact ⟨_, ⟨fault ▸ ended, patience + 1, rfl⟩, agree⟩

/-- Optimizing preserves meaning. With a limit on loops, the run of the optimized program and the
run of the program have the same problem or none, the same result, the same count of iterations and
the same environment. With or without a limit, one ends exactly when the other does, and then in
the same way. -/
theorem run_optimize (p : Program) (rounds : Int) (limits : Limits) (m : Machine) :
    (0 < limits.budget →
      ((p.optimize rounds).program.run limits m).untraced = (p.run limits m).untraced) ∧
    ∀ seen, (∃ o, (p.optimize rounds).program.Ends limits m o ∧ o.untraced = seen) ↔
      ∃ o, p.Ends limits m o ∧ o.untraced = seen := by
  refine ⟨fun limited => ?_, fun seen => ⟨?_, ?_⟩⟩
  · exact optimize_untraced (by simp [Limits.rounds, limited]) p rounds m
  · rintro ⟨o, ends, rfl⟩
    exact Ends.of_untraced
      (fun _ positive => (optimize_untraced positive p rounds m).symm) ends
  · rintro ⟨o, ends, rfl⟩
    exact Ends.of_untraced (fun _ positive => optimize_untraced positive p rounds m) ends

/-- `while (0) { } 1 + 1;` -/
def idleLoop : Program :=
  .loop { kind := .whileWord } ⟨{}, .leaf (.ofNumber 0 {})⟩ {} .done
    (.expression
      ⟨{}, .binary { kind := .plus } (.leaf (.ofNumber 1 {})) (.leaf (.ofNumber 1 {}))⟩ .done)

/-- The loop that is never entered is dropped, and the run does not show it. -/
theorem run_optimize_idleLoop :
    idleLoop.length = 2 ∧ (idleLoop.optimize 1).program.length = 1 ∧
      0 < Limits.budget {} ∧
      ((idleLoop.optimize 1).program.run {} {}).untraced = (idleLoop.run {} {}).untraced :=
  ⟨by decide, by decide +kernel, by decide, (run_optimize idleLoop 1 {} {}).1 (by decide)⟩

end Program

end NumScript
