import NumScript.Proofs.Run.Budget
import NumScript.Proofs.Run.Copying

/-! Running a piece of a program once more. A run looks neither at the notes of what was read, nor
at the result, nor at the history, and at the count of iterations only to compare it with the limit.
So from the same environment, some iterations later, it does what it did before or is cut off by the
limit. -/

namespace NumScript

/-- `m'` is the state `m` once more, `k` iterations later. The environments are the same but for
notes of what was read; the result must be the same only when nothing has been counted. -/
structure Machine.Again (k : Nat) (m m' : Machine) : Prop where
  env : m'.env.unread = m.env.unread
  iterations : m'.iterations = m.iterations + k
  result : k = 0 → m'.result = m.result

/-- `o'` is the outcome `o` once more, `k` iterations later, unless the limit has cut it off. -/
def Outcome.Again (k : Nat) (o o' : Outcome) : Prop :=
  (o'.fault = o.fault ∧ o.machine.Again k o'.machine) ∨ (0 < k ∧ o'.HitsLimit)

/-! ### Steps -/

theorem Machine.Again.refl (m : Machine) : m.Again 0 m := ⟨rfl, rfl, fun _ => rfl⟩

theorem Machine.Again.note {k : Nat} {m m' : Machine} (h : m.Again k m') (e e' : Event) :
    (m.note e).Again k (m'.note e') :=
  ⟨h.env, h.iterations, h.result⟩

theorem Machine.Again.round {k : Nat} {m m' : Machine} (h : m.Again k m') (e e' : Event) :
    Machine.Again k (Machine.note { m with iterations := m.iterations + 1 } e)
      (Machine.note { m' with iterations := m'.iterations + 1 } e') := by
  refine ⟨h.env, ?_, h.result⟩
  have later := h.iterations
  change m'.iterations + 1 = m.iterations + 1 + k
  omega

theorem Machine.Again.entered {k : Nat} {m m' : Machine} (h : m.Again k m') (limits : Limits)
    (kind : ScopeKind) : (limits.entered kind m).Again k (limits.entered kind m') := by
  refine ⟨?_, h.iterations, h.result⟩
  simp only [Limits.entered, Limits.enter]
  split
  · rw [Env.child_unread, Env.child_unread, h.env]
  · rw [Env.copy_unread, Env.copy_unread, h.env]

/-- Computing an expression changes nothing but notes of what was read. -/
theorem Machine.unread_of_evaluate {m m₁ : Machine} {t : Tree} {r : Except Diagnostic Float}
    (evaluated : m.evaluate t = (r, m₁)) : m₁ = m.inEnv m₁.env ∧ m₁.env.unread = m.env.unread := by
  cases evaluated
  exact ⟨rfl, Env.reading_unread.evaluateIn m.env t⟩

theorem Machine.Again.evaluate {k : Nat} {m m' : Machine} (h : m.Again k m') (t : Tree) :
    ∃ r m₁ m₁', m.evaluate t = (r, m₁) ∧ m'.evaluate t = (r, m₁') ∧ m₁.Again k m₁' := by
  have values : m.env.value? = m'.env.value? := by
    rw [← Env.value?_unread m.env, ← h.env, Env.value?_unread]
  have read := Env.reading_unread.evaluateIn m.env t
  have read' := Env.reading_unread.evaluateIn m'.env t
  refine ⟨_, _, _, rfl, Prod.ext (Tree.evaluateIn_congr values t).symm rfl, ?_⟩
  exact ⟨read'.trans (h.env.trans read.symm), h.iterations, h.result⟩

theorem Machine.Again.spent {k : Nat} {m m' : Machine} (h : m.Again k m') {limits : Limits}
    (spent : limits.spent m = true) : limits.spent m' = true := by
  have later := h.iterations
  simp only [Limits.spent, Bool.and_eq_true, decide_eq_true_eq] at spent ⊢
  omega

/-- As long as nothing has been counted, no more is spent. -/
theorem Machine.Again.pos_of_spent {k : Nat} {m m' : Machine} (h : m.Again k m')
    {limits : Limits} (unspent : limits.spent m = false) (spent : limits.spent m' = true) :
    0 < k := by
  refine Nat.pos_of_ne_zero fun still => ?_
  have same : m'.iterations = m.iterations := by rw [h.iterations, still, Nat.add_zero]
  have equal : limits.spent m' = limits.spent m := by simp only [Limits.spent, same]
  rw [equal, unspent] at spent
  cases spent

/-! ### Runs -/

/-- A run beside the same one some iterations later, which the limit may cut off. -/
def Comparison.repeating (k : Nat) : Comparison where
  states := Machine.Again k
  cut fault := 0 < k ∧ ∃ d, fault = .problem d ∧ d.cause = some .iterationLimit

namespace Comparison

variable {k : Nat} {m m' : Machine}

theorem untold_repeating (k : Nat) : (repeating k).Untold :=
  fun _ _ event event' again => again.note event event'

/-- A change of the environment repeats when it does the same whatever was read. -/
theorem changes_repeating (again : m.Again k m') {op : Env → Except Diagnostic Env}
    (commutes : ∀ env, (op env).map Env.unread = op env.unread) :
    (repeating k).Changes m m' (op m.env) (op m'.env) := by
  have same : (op m.env).map Env.unread = (op m'.env).map Env.unread := by
    rw [commutes, commutes, again.env]
  obtain ⟨d, left, right⟩ | ⟨env, env', left, right, changed⟩ := Except.cases_of_map_eq same
  · rw [left, right]
    exact .refused rfl
  · rw [left, right]
    exact .made ⟨changed.symm, again.iterations, again.result⟩

theorem repeating_kept (k : Nat) (limits : Limits) : (repeating k).Kept limits limits where
  evaluate := by
    rintro m m' e _ again rfl
    obtain ⟨r, m₁, m₁', left, right, after⟩ := again.evaluate e.tree
    rw [left, right]
    exact ⟨after, .refl (fun _ => rfl) r⟩
  note again _ := again.note _ _
  store v again := ⟨again.env, again.iterations, fun _ => rfl⟩
  opens := by
    refine fun kind m m' again => ⟨again.entered limits kind, fun n n' inside => ?_⟩
    refine ⟨?_, inside.iterations, inside.result⟩
    simp only [Limits.left, Limits.leave]
    split
    · rw [Env.tail_unread, Env.tail_unread, inside.env]
    · exact again.env
  declare := by
    rintro keyword _ name _ value rfl rfl m m' again
    exact (untold_repeating k).declare rfl again (changes_repeating again (Env.declare_unread rfl))
  assign := by
    rintro name _ v rfl m m' again
    exact (untold_repeating k).assign again
      (changes_repeating again (Env.assign_unread name.lexeme v name.position))
  allow := by
    rintro keyword _ rfl m m' again
    unfold Limits.allow
    cases spent : limits.spent m with
    | true =>
      rw [if_pos (again.spent spent), if_pos rfl]
      exact .failed again rfl
    | false =>
      rw [if_neg (by decide)]
      split
      · -- The limit cuts off a round that it had allowed before.
        rename_i spent'
        exact .cut rfl ⟨again.pos_of_spent spent spent', _, rfl, rfl⟩
      · exact .ended (again.round _ _)
  exhausted := rfl
  rounds := .inl rfl

end Comparison

/-- From a state that is the same some iterations later, a program does once more what it did. -/
theorem Program.run_again (limits : Limits) (p : Program) {k : Nat} {m m' : Machine}
    (again : m.Again k m') : (p.run limits m).Again k (p.run limits m') := by
  have pairs : (Comparison.repeating k).Pairs p p :=
    Comparison.pairs_self (fun _ => rfl) (fun _ => rfl) p
  cases (Comparison.repeating_kept k limits).run pairs m m' again with
  | same states faults => exact .inl ⟨(Option.eq_of_rel faults).symm, states⟩
  | cut failed cut =>
    obtain ⟨later, d, rfl, cause⟩ := cut
    exact .inr ⟨later, Outcome.hitsLimit_iff.mpr ⟨d, failed, cause⟩⟩

end NumScript
