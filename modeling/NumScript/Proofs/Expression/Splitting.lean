import NumScript.Proofs.Expression.Grammar

/-! Where an expression is split. Among items without parentheses, an operator joins what stands
around it when it does not follow another operator; the reader splits at the last of the loosest
such operators. -/

namespace NumScript

/-- Item `i + 1` is an operator between two operands: it has a precedence, and the item before it
is no operator. -/
def Joins (items : List Item) (i precedence : Nat) : Prop :=
  ∃ previous item, items[i]? = some previous ∧ items[i + 1]? = some item ∧
    previous.isOperator = false ∧ item.precedence? = some precedence

/-- The last of the loosest operators between two operands among the first `stop` items, with its
precedence, if there is one at all. -/
def Loosest (items : List Item) (stop : Nat) : Option (Nat × Nat) → Prop
  | none => ∀ i precedence, i + 1 < stop → ¬ Joins items i precedence
  | some (k, loosest) =>
    ∃ i, k = i + 1 ∧ Joins items i loosest ∧
      ∀ j precedence, j + 1 < stop → Joins items j precedence →
        loosest ≤ precedence ∧ (i < j → loosest < precedence)

namespace Joins

variable {items : List Item} {i precedence : Nat}

theorem lt_length (h : Joins items i precedence) : i + 1 < items.length := by
  obtain ⟨_, _, _, found, _⟩ := h
  exact (List.getElem?_eq_some_iff.mp found).1

theorem unique {precedence' : Nat} (h : Joins items i precedence)
    (h' : Joins items i precedence') : precedence = precedence' := by
  obtain ⟨_, item, _, found, _, own⟩ := h
  obtain ⟨_, item', _, found', _, own'⟩ := h'
  rw [found] at found'
  cases found'
  exact Option.some.inj (own.symm.trans own')

/-- The operator behind an item, seen from the two. -/
theorem at_iff {before rest : List Item} {previous item : Item} :
    Joins (before ++ previous :: item :: rest) before.length precedence ↔
      previous.isOperator = false ∧ item.precedence? = some precedence := by
  simp [Joins]

theorem append_right (h : Joins items i precedence) (more : List Item) :
    Joins (items ++ more) i precedence := by
  have bound := h.lt_length
  obtain ⟨previous, item, first, second, rest⟩ := h
  refine ⟨previous, item, ?_, ?_, rest⟩
  · rw [List.getElem?_append_left (by omega), first]
  · rw [List.getElem?_append_left bound, second]

theorem append_left (h : Joins items i precedence) (before : List Item) :
    Joins (before ++ items) (before.length + i) precedence := by
  obtain ⟨previous, item, first, second, rest⟩ := h
  refine ⟨previous, item, ?_, ?_, rest⟩
  · rw [List.getElem?_append_right (by omega), Nat.add_sub_cancel_left, first]
  · rw [Nat.add_assoc, List.getElem?_append_right (by omega), Nat.add_sub_cancel_left, second]

end Joins

namespace Loosest

/-- One more item is looked at, which joins nothing. -/
theorem skip {items : List Item} {n : Nat} {best : Option (Nat × Nat)}
    (h : Loosest items (n + 1) best) (apart : ∀ precedence, ¬ Joins items n precedence) :
    Loosest items (n + 2) best := by
  cases best with
  | none =>
    intro i precedence bound joins
    rcases Nat.lt_or_ge (i + 1) (n + 1) with below | above
    · exact h i precedence below joins
    · obtain rfl : i = n := by omega
      exact apart precedence joins
  | some found =>
    obtain ⟨i, place, joins, least⟩ := h
    refine ⟨i, place, joins, fun j precedence bound joins' => ?_⟩
    rcases Nat.lt_or_ge (j + 1) (n + 1) with below | above
    · exact least j precedence below joins'
    · obtain rfl : j = n := by omega
      exact absurd joins' (apart precedence)

/-- One more operator is looked at, which binds tighter than the loosest one so far. -/
theorem keep {items : List Item} {n k loosest precedence : Nat}
    (h : Loosest items (n + 1) (some (k, loosest))) (joins : Joins items n precedence)
    (tighter : loosest < precedence) : Loosest items (n + 2) (some (k, loosest)) := by
  obtain ⟨i, place, own, least⟩ := h
  refine ⟨i, place, own, fun j precedence' bound joins' => ?_⟩
  rcases Nat.lt_or_ge (j + 1) (n + 1) with below | above
  · exact least j precedence' below joins'
  · obtain rfl : j = n := by omega
    rw [← joins.unique joins']
    exact ⟨by omega, fun _ => tighter⟩

/-- One more operator is looked at, which binds as loosely as any so far. -/
theorem replace {items : List Item} {n precedence : Nat} {best : Option (Nat × Nat)}
    (h : Loosest items (n + 1) best) (joins : Joins items n precedence)
    (looser : ∀ found ∈ best, precedence ≤ found.2) :
    Loosest items (n + 2) (some (n + 1, precedence)) := by
  refine ⟨n, rfl, joins, fun j precedence' bound joins' => ?_⟩
  rcases Nat.lt_or_ge (j + 1) (n + 1) with below | above
  · cases best with
    | none => exact absurd joins' (h j precedence' below)
    | some found =>
      obtain ⟨i, place, own, least⟩ := h
      have := (least j precedence' below joins').1
      have := looser found rfl
      exact ⟨by omega, fun later => by omega⟩
  · obtain rfl : j = n := by omega
    rw [← joins.unique joins']
    exact ⟨Nat.le_refl _, fun later => by omega⟩

end Loosest

namespace Expression

/-- From the loosest operator so far, the search comes to the loosest one of all. -/
theorem splitFrom_spec {items before rest : List Item} {previous : Item}
    {best : Option (Nat × Nat)} (whole : items = before ++ previous :: rest)
    (h : Loosest items (before.length + 1) best) :
    ∃ best', splitFrom previous (before.length + 1) best rest = best'.map Prod.fst ∧
      Loosest items items.length best' := by
  induction rest generalizing before previous best with
  | nil =>
    refine ⟨best, rfl, ?_⟩
    have : items.length = before.length + 1 := by simp [whole]
    rwa [this]
  | cons item rest ih =>
    have joins (precedence : Nat) : Joins items before.length precedence ↔
        previous.isOperator = false ∧ item.precedence? = some precedence := by
      rw [whole]
      exact Joins.at_iff
    have next : items = (before ++ [previous]) ++ item :: rest := by simp [whole]
    have length : (before ++ [previous]).length = before.length + 1 := by simp
    rw [splitFrom.eq_def]
    dsimp only
    rw [← length]
    refine ih next ?_
    rw [length]
    -- The four ways in which the item bears on the loosest operator so far.
    cases own : item.precedence? with
    | none =>
      exact h.skip fun precedence here => by
        have := (joins precedence).mp here
        simp [own] at this
    | some precedence =>
      cases operator : previous.isOperator with
      | true =>
        have : ∀ precedence, ¬ Joins items before.length precedence := fun precedence here => by
          have := (joins precedence).mp here
          simp [operator] at this
        cases best with
        | none => exact h.skip this
        | some found => exact h.skip this
      | false =>
        have here := (joins precedence).mpr ⟨operator, own⟩
        cases best with
        | none => exact h.replace here (by simp)
        | some found =>
          obtain ⟨k, loosest⟩ := found
          by_cases tighter : loosest < precedence
          · simp only [tighter, decide_true, Bool.or_true, if_true]
            exact h.keep here tighter
          · simp only [tighter, decide_false, Bool.or_self, Bool.false_eq_true, if_false]
            refine h.replace here fun found best => ?_
            cases best
            omega

/-- The place to split at is that of the last of the loosest operators between operands. -/
theorem split?_spec (items : List Item) :
    ∃ best, split? items = best.map Prod.fst ∧ Loosest items items.length best := by
  cases items with
  | nil => exact ⟨none, rfl, fun i precedence bound => absurd bound (by simp)⟩
  | cons first rest =>
    have whole : first :: rest = [] ++ first :: rest := rfl
    exact splitFrom_spec whole fun i precedence bound => absurd bound (by simp)

theorem split?_eq_none_iff {items : List Item} :
    split? items = none ↔ ∀ i precedence, ¬ Joins items i precedence := by
  obtain ⟨best, found, least⟩ := split?_spec items
  rw [found]
  cases best with
  | none => simpa using fun i precedence joins => least i precedence joins.lt_length joins
  | some best =>
    obtain ⟨i, _, joins, _⟩ := least
    simpa using ⟨i, _, joins⟩

/-- Splitting finds the operator than which none binds looser, and none behind it as loose. -/
theorem split?_eq_some_iff {items : List Item} {k : Nat} :
    split? items = some k ↔
      ∃ i loosest, k = i + 1 ∧ Joins items i loosest ∧
        ∀ j precedence, Joins items j precedence →
          loosest ≤ precedence ∧ (i < j → loosest < precedence) := by
  obtain ⟨best, found, least⟩ := split?_spec items
  constructor
  · intro split
    rw [split] at found
    cases best with
    | none => cases found
    | some best =>
      obtain ⟨i, place, joins, least⟩ := least
      cases found
      exact ⟨i, best.2, place, joins, fun j precedence other =>
        least j precedence other.lt_length other⟩
  · rintro ⟨i, loosest, rfl, joins, minimal⟩
    rw [found]
    cases best with
    | none => exact absurd joins (least i loosest joins.lt_length)
    | some best =>
      obtain ⟨i', place, joins', least⟩ := least
      have one := minimal i' best.2 joins'
      have other := least i loosest joins.lt_length joins
      have : i' = i := by
        rcases Nat.lt_trichotomy i i' with before | same | after
        · have := one.2 before
          omega
        · exact same.symm
        · have := other.2 after
          omega
      simp [place, this]

/-- What stands around the operator at which items are split. -/
theorem exists_parts_of_split? {items : List Item} {k : Nat} (split : split? items = some k) :
    ∃ left operator right loosest, items = left ++ .token operator :: right ∧ left.length = k ∧
      operator.kind.precedence? = some loosest ∧
      ∀ j precedence, Joins items j precedence →
        loosest ≤ precedence ∧ (left.length ≤ j → loosest < precedence) := by
  obtain ⟨i, loosest, rfl, joins, least⟩ := split?_eq_some_iff.mp split
  have bound := joins.lt_length
  obtain ⟨previous, item, -, here, -, precedence⟩ := joins
  obtain ⟨_, found⟩ := List.getElem?_eq_some_iff.mp here
  have length : (items.take (i + 1)).length = i + 1 := by
    rw [List.length_take]
    omega
  cases item with
  | group paren tree => cases precedence
  | token operator =>
    refine ⟨items.take (i + 1), operator, items.drop (i + 2), loosest, ?_, length, precedence, ?_⟩
    · rw [← found, ← List.drop_eq_getElem_cons bound, List.take_append_drop]
    · intro j precedence joins
      rw [length]
      exact least j precedence joins

end Expression

end NumScript
