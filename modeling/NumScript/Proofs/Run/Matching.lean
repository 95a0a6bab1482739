import NumScript.Proofs.Env.Kept
import NumScript.Proofs.Env.Plain
import NumScript.Proofs.Expression.Staged
import NumScript.Proofs.Run.Comparing

/-! When two pieces of a run do the same. The history and the labels of scopes do not count: they
are told to a reader of the trace and never looked at again. `Matches` relates two such pieces. -/

namespace NumScript

/-- The outcome without its history. -/
def Outcome.untraced (o : Outcome) : Outcome :=
  { o with machine := { o.machine with history := [] } }

/-- The state without its history and without the labels of its scopes. -/
def Machine.plain (m : Machine) : Machine := { m with env := m.env.plain, history := [] }

/-- The outcome without its history and without the labels of its scopes. -/
def Outcome.plain (o : Outcome) : Outcome := { o with machine := o.machine.plain }

namespace Machine

theorem plain_eq_iff {m m' : Machine} :
    m.plain = m'.plain ↔
      m.env.plain = m'.env.plain ∧ m.result = m'.result ∧ m.iterations = m'.iterations := by
  simp [plain]

end Machine

namespace Outcome

theorem untraced_fault (o : Outcome) : o.untraced.fault = o.fault := rfl

theorem plain_eq_iff {o o' : Outcome} :
    o.plain = o'.plain ↔ o.machine.plain = o'.machine.plain ∧ o.fault = o'.fault := by
  simp [plain]

/-- Outcomes that differ in their histories alone, given that they differ in nothing else but the
labels of scopes, and that the labels agree. -/
theorem untraced_eq {o o' : Outcome} (same : o.plain = o'.plain)
    (labels : o.machine.env.map Scope.kind = o'.machine.env.map Scope.kind) :
    o.untraced = o'.untraced := by
  obtain ⟨machine, fault⟩ := plain_eq_iff.mp same
  obtain ⟨env, result, iterations⟩ := Machine.plain_eq_iff.mp machine
  simp [untraced, Env.eq_of_plain env labels, result, iterations, fault]

end Outcome

/-- Two runs in which histories and the labels of scopes do not count. -/
def Comparison.plainly : Comparison where
  states m m' := m.plain = m'.plain
  values e e' := ∀ env, e.tree.evaluateIn env = e'.tree.evaluateIn env

/-- From states that differ at most in their histories and in the labels of scopes, `f` and `g`
come to outcomes that differ at most in these. -/
def Matches (f g : Machine → Outcome) : Prop := Comparison.plainly.Holds f g

theorem Matches.plain {f g : Machine → Outcome} (h : Matches f g) {m m' : Machine}
    (same : m.plain = m'.plain) : (f m).plain = (g m').plain := by
  obtain ⟨machine, fault⟩ := (h m m' same).uncut fun _ _ => id
  exact Outcome.plain_eq_iff.mpr ⟨machine, Option.eq_of_rel fault⟩

namespace Comparison

theorem untold_plainly : plainly.Untold := fun _ _ _ _ same => same

theorem values_plainly (e : Expression) : plainly.values e e := fun _ => rfl

/-- A block is plainly the same whatever opens it. -/
theorem opens_plainly (limits : Limits) (kind kind' : ScopeKind) :
    plainly.Opens limits limits kind kind' := by
  intro m m' same
  obtain ⟨env, result, iterations⟩ := Machine.plain_eq_iff.mp same
  refine ⟨Machine.plain_eq_iff.mpr ⟨?_, result, iterations⟩, fun n n' inside => ?_⟩
  · simp only [Limits.entered, Limits.enter]
    split
    · exact Env.child_plain env kind kind'
    · exact Env.copy_plain env kind kind'
  · obtain ⟨inner, result', iterations'⟩ := Machine.plain_eq_iff.mp inside
    refine Machine.plain_eq_iff.mpr ⟨?_, result', iterations'⟩
    simp only [Limits.left, Limits.leave]
    split
    · rw [← Env.tail_plain, inner, Env.tail_plain]
    · exact env

theorem changes_plainly {m m' : Machine} (same : m.plain = m'.plain) {r r' : Except Diagnostic Env}
    (step : r.map Env.plain = r'.map Env.plain) : plainly.Changes m m' r r' := by
  obtain ⟨-, result, iterations⟩ := Machine.plain_eq_iff.mp same
  obtain ⟨d, rfl, rfl⟩ | ⟨env, env', rfl, rfl, changed⟩ := Except.cases_of_map_eq step
  · exact .refused rfl
  · exact .made (Machine.plain_eq_iff.mpr ⟨changed, result, iterations⟩)

/-- What a step does depends neither on the history nor on the labels of scopes. -/
theorem plainly_kept (limits : Limits) : plainly.Kept limits limits where
  evaluate := by
    intro m m' e e' same value
    obtain ⟨env, result, iterations⟩ := Machine.plain_eq_iff.mp same
    have read := Tree.evaluateIn_plain m.env e'.tree
    rw [env, Tree.evaluateIn_plain, Prod.mk.injEq] at read
    rw [Machine.evaluate, value m.env]
    refine ⟨Machine.plain_eq_iff.mpr ⟨read.2.symm, result, iterations⟩, ?_⟩
    have number : (e'.tree.evaluateIn m.env).1 = (m'.evaluate e'.tree).1 := read.1.symm
    rw [← number]
    exact .refl (fun _ => rfl) _
  note same _ := same
  store v same := by
    obtain ⟨env, -, iterations⟩ := Machine.plain_eq_iff.mp same
    exact Machine.plain_eq_iff.mpr ⟨env, rfl, iterations⟩
  opens kind := opens_plainly limits kind kind
  declare := by
    rintro keyword _ name _ value rfl rfl m m' same
    have env := (Machine.plain_eq_iff.mp same).1
    refine untold_plainly.declare rfl same (changes_plainly same ?_)
    rw [← Env.declare_plain, env, Env.declare_plain]
  assign := by
    rintro name _ v rfl m m' same
    have env := (Machine.plain_eq_iff.mp same).1
    refine untold_plainly.assign same (changes_plainly same ?_)
    rw [← Env.assign_plain, env, Env.assign_plain]
  allow := by
    rintro keyword _ rfl m m' same
    obtain ⟨env, result, iterations⟩ := Machine.plain_eq_iff.mp same
    have spent : limits.spent m = limits.spent m' := by simp [Limits.spent, iterations]
    unfold Limits.allow
    rw [spent]
    split
    · exact .failed same rfl
    · exact .ended (Machine.plain_eq_iff.mpr ⟨env, result, congrArg (· + 1) iterations⟩)
  exhausted := rfl
  rounds := .inl rfl

end Comparison

end NumScript
