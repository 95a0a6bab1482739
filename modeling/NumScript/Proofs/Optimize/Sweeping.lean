import NumScript.Proofs.Optimize.Folding

/-! What sweeping leaves behind: no condition is decided, but for those of loops that are always
entered, and no block within a block is empty. -/

namespace NumScript

/-- The expression is a single number. -/
def Expression.IsNumber (e : Expression) (v : Float) : Prop :=
  e.tree.isNumberLeaf = true ∧ e.tree.evaluate = .ok v

theorem Expression.constant?_eq_some_iff {e : Expression} {v : Float} :
    e.constant? = some v ↔ e.IsNumber v := by
  unfold constant? IsNumber
  by_cases number : e.tree.isNumberLeaf = true
  · cases value : e.tree.evaluate <;> simp [number, Except.toOption]
  · simp [number]

theorem Expression.constant?_eq_none_iff {e : Expression} :
    e.constant? = none ↔ ∀ v, ¬ e.IsNumber v := by
  simp [Option.eq_none_iff_forall_ne_some, constant?_eq_some_iff]

namespace Savings

theorem total_add (a b : Savings) : (a + b).total = a.total + b.total := by
  show (a.folded + b.folded) + (a.branches + b.branches) + (a.removed + b.removed) = _
  unfold total
  omega

theorem total_add_ne_zero (a : Savings) {b : Savings} (saved : b.total ≠ 0) :
    (a + b).total ≠ 0 := by
  rw [total_add]
  omega

end Savings

namespace Program

/-- No condition of the program is decided, but for those of loops that are always entered, and no
block within a block is empty. -/
def Swept : Program → Prop
  | done => True
  | block _ body rest => body ≠ done ∧ body.Swept ∧ rest.Swept
  | declare _ _ _ rest | assign _ _ rest | expression _ rest => rest.Swept
  | ifThen _ condition _ body rest => (∀ v, ¬ condition.IsNumber v) ∧ body.Swept ∧ rest.Swept
  | ifElse _ condition _ body _ elseBody rest =>
    (∀ v, ¬ condition.IsNumber v) ∧ body.Swept ∧ elseBody.Swept ∧ rest.Swept
  | loop _ condition _ body rest =>
    (∀ v, condition.IsNumber v → truthy v = true) ∧ body.Swept ∧ rest.Swept

theorem keepBlock_of_filled (brace : Token) {body : Program} (filled : body ≠ done)
    (rest : Program) : keepBlock brace body rest = (block brace body rest, {}) := by
  cases body with
  | done => exact absurd rfl filled
  | _ => rfl

/-- An empty block is dropped and counted, any other is kept. -/
theorem keepBlock_cases (brace : Token) (body rest : Program) :
    keepBlock brace body rest = (rest, { removed := 1 }) ∨
      body ≠ done ∧ keepBlock brace body rest = (block brace body rest, {}) := by
  by_cases empty : body = done
  · subst empty
    exact .inl rfl
  · exact .inr ⟨empty, keepBlock_of_filled brace empty rest⟩

theorem Forall.keepBlock {P : Expression → Prop} (brace : Token) {body rest : Program}
    (inner : body.Forall P) (below : rest.Forall P) : (keepBlock brace body rest).1.Forall P := by
  rcases keepBlock_cases brace body rest with dropped | ⟨-, kept⟩
  · rw [dropped]
    exact below
  · rw [kept]
    exact ⟨inner, below⟩

theorem Swept.keepBlock (brace : Token) {body rest : Program} (inner : body.Swept)
    (below : rest.Swept) : (keepBlock brace body rest).1.Swept := by
  rcases keepBlock_cases brace body rest with dropped | ⟨some, kept⟩
  · rw [dropped]
    exact below
  · rw [kept]
    exact ⟨some, inner, below⟩

theorem Forall.sweep {P : Expression → Prop} {p : Program} (all : p.Forall P) :
    p.sweep.1.Forall P := by
  induction p with
  | done => trivial
  | block brace body rest ihBody ih => exact Forall.keepBlock brace (ihBody all.1) (ih all.2)
  | declare keyword name value rest ih => exact ⟨all.1, ih all.2⟩
  | assign name value rest ih => exact ⟨all.1, ih all.2⟩
  | expression value rest ih => exact ⟨all.1, ih all.2⟩
  | ifThen keyword condition brace body rest ihBody ih =>
    obtain ⟨decided, inner, below⟩ := all
    rw [Program.sweep]
    cases condition.constant? with
    | none => exact ⟨decided, ihBody inner, ih below⟩
    | some v =>
      by_cases taken : truthy v = true
      · simp only [taken, if_true]
        exact Forall.keepBlock brace (ihBody inner) (ih below)
      · simp only [taken]
        exact ih below
  | ifElse keyword condition brace body elseBrace elseBody rest ihBody ihElse ih =>
    obtain ⟨decided, inner, other, below⟩ := all
    rw [Program.sweep]
    cases condition.constant? with
    | none => exact ⟨decided, ihBody inner, ihElse other, ih below⟩
    | some v =>
      by_cases taken : truthy v = true
      · simp only [taken, if_true]
        exact Forall.keepBlock brace (ihBody inner) (ih below)
      · simp only [taken]
        exact Forall.keepBlock elseBrace (ihElse other) (ih below)
  | loop keyword condition brace body rest ihBody ih =>
    obtain ⟨decided, inner, below⟩ := all
    rw [Program.sweep]
    cases condition.constant? with
    | none => exact ⟨decided, ihBody inner, ih below⟩
    | some v =>
      by_cases entered : truthy v = true
      · simp only [entered, if_true]
        exact ⟨decided, ihBody inner, ih below⟩
      · simp only [entered]
        exact ih below

/-- Sweeping leaves nothing to sweep: a branch that is taken is a block that has been swept. -/
theorem swept_sweep (p : Program) : p.sweep.1.Swept := by
  induction p with
  | done => trivial
  | block brace body rest ihBody ih => exact Swept.keepBlock brace ihBody ih
  | declare keyword name value rest ih => exact ih
  | assign name value rest ih => exact ih
  | expression value rest ih => exact ih
  | ifThen keyword condition brace body rest ihBody ih =>
    rw [sweep]
    cases constant : condition.constant? with
    | none => exact ⟨Expression.constant?_eq_none_iff.mp constant, ihBody, ih⟩
    | some v =>
      by_cases taken : truthy v = true
      · simp only [taken, if_true]
        exact Swept.keepBlock brace ihBody ih
      · simp only [taken]
        exact ih
  | ifElse keyword condition brace body elseBrace elseBody rest ihBody ihElse ih =>
    rw [sweep]
    cases constant : condition.constant? with
    | none => exact ⟨Expression.constant?_eq_none_iff.mp constant, ihBody, ihElse, ih⟩
    | some v =>
      by_cases taken : truthy v = true
      · simp only [taken, if_true]
        exact Swept.keepBlock brace ihBody ih
      · simp only [taken]
        exact Swept.keepBlock elseBrace ihElse ih
  | loop keyword condition brace body rest ihBody ih =>
    rw [sweep]
    cases constant : condition.constant? with
    | none =>
      have undecided := Expression.constant?_eq_none_iff.mp constant
      exact ⟨fun v number => absurd number (undecided v), ihBody, ih⟩
    | some v =>
      by_cases entered : truthy v = true
      · simp only [entered, if_true]
        refine ⟨fun w number => ?_, ihBody, ih⟩
        have same := (Expression.constant?_eq_some_iff.mpr number).symm.trans constant
        exact Option.some.inj same ▸ entered
      · simp only [entered]
        exact ih

theorem Swept.sweep_eq {p : Program} (swept : p.Swept) : p.sweep = (p, {}) := by
  induction p with
  | done => rfl
  | block brace body rest ihBody ih =>
    obtain ⟨filled, inner, below⟩ := swept
    simp only [Program.sweep, ihBody inner, ih below, keepBlock_of_filled brace filled]
    rfl
  | declare keyword name value rest ih => rw [Program.sweep, ih swept]
  | assign name value rest ih => rw [Program.sweep, ih swept]
  | expression value rest ih => rw [Program.sweep, ih swept]
  | ifThen keyword condition brace body rest ihBody ih =>
    obtain ⟨undecided, inner, below⟩ := swept
    rw [Program.sweep, Expression.constant?_eq_none_iff.mpr undecided, ihBody inner, ih below]
    rfl
  | ifElse keyword condition brace body elseBrace elseBody rest ihBody ihElse ih =>
    obtain ⟨undecided, inner, other, below⟩ := swept
    rw [Program.sweep, Expression.constant?_eq_none_iff.mpr undecided, ihBody inner, ihElse other,
      ih below]
    rfl
  | loop keyword condition brace body rest ihBody ih =>
    obtain ⟨entered, inner, below⟩ := swept
    rw [Program.sweep, ihBody inner, ih below]
    cases constant : condition.constant? with
    | none => rfl
    | some v =>
      have again := entered v (Expression.constant?_eq_some_iff.mp constant)
      simp only [again, if_true]
      rfl

/-- Sweeping that counts nothing changes nothing. -/
theorem sweep_of_total {p : Program} (uncounted : p.sweep.2.total = 0) : p.sweep.1 = p := by
  induction p with
  | done => rfl
  | block brace body rest ihBody ih =>
    rw [sweep] at uncounted ⊢
    simp only [Savings.total_add, Nat.add_eq_zero_iff] at uncounted ⊢
    obtain ⟨⟨inner, below⟩, here⟩ := uncounted
    rw [ihBody inner, ih below] at here ⊢
    rcases keepBlock_cases brace body rest with dropped | ⟨-, kept⟩
    · rw [dropped] at here
      cases here
    · rw [kept]
  | declare keyword name value rest ih =>
    simp only [sweep] at uncounted ⊢
    rw [ih uncounted]
  | assign name value rest ih =>
    simp only [sweep] at uncounted ⊢
    rw [ih uncounted]
  | expression value rest ih =>
    simp only [sweep] at uncounted ⊢
    rw [ih uncounted]
  | ifThen keyword condition brace body rest ihBody ih =>
    rw [sweep] at uncounted ⊢
    cases constant : condition.constant? with
    | none =>
      simp only [constant, Savings.total_add, Nat.add_eq_zero_iff] at uncounted ⊢
      rw [ihBody uncounted.1, ih uncounted.2]
    | some v =>
      simp only [constant] at uncounted
      exact absurd uncounted (Savings.total_add_ne_zero _ (by decide))
  | ifElse keyword condition brace body elseBrace elseBody rest ihBody ihElse ih =>
    rw [sweep] at uncounted ⊢
    cases constant : condition.constant? with
    | none =>
      simp only [constant, Savings.total_add, Nat.add_eq_zero_iff] at uncounted ⊢
      rw [ihBody uncounted.1.1, ihElse uncounted.1.2, ih uncounted.2]
    | some v =>
      simp only [constant] at uncounted
      exact absurd uncounted (Savings.total_add_ne_zero _ (by decide))
  | loop keyword condition brace body rest ihBody ih =>
    rw [sweep] at uncounted ⊢
    cases constant : condition.constant? with
    | none =>
      simp only [constant, Savings.total_add, Nat.add_eq_zero_iff] at uncounted ⊢
      rw [ihBody uncounted.1, ih uncounted.2]
    | some v =>
      by_cases entered : truthy v = true
      · simp only [constant, entered, if_true, Savings.total_add, Nat.add_eq_zero_iff]
          at uncounted ⊢
        rw [ihBody uncounted.1, ih uncounted.2]
      · simp only [constant, entered] at uncounted
        exact absurd uncounted (Savings.total_add_ne_zero _ (by decide))

end Program

end NumScript
