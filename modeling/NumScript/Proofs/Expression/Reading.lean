import NumScript.Proofs.Expression.Atoms

/-! The reader and the grammar. A list of tokens is read to a tree exactly when it is the list of
tokens of a phrase, and the tree is that of the phrase with its groups without names computed. -/

namespace NumScript

namespace Expression

open Phrase (Stands)

theorem reduceFrom_drop (read : List Item → Token → Except Diagnostic Tree) (skip : Nat)
    (items : List Item) : reduceFrom read skip items = reduceFrom read 0 (items.drop skip) := by
  induction skip generalizing items with
  | zero => rfl
  | succ skip ih =>
    cases items with
    | nil => rfl
    | cons item rest => exact ih rest

section

variable (read : List Item → Token → Except Diagnostic Tree) {t : Token} (rest : List Token)

theorem reduceFrom_closer (closes : t.kind = .rightParen) :
    reduceFrom read 0 ((t :: rest).map .token) = .error (unmatched t) := by
  simp [reduceFrom, Item.isKind, closes, Item.source]

theorem reduceFrom_other (opens : t.kind ≠ .leftParen) (closes : t.kind ≠ .rightParen) :
    reduceFrom read 0 ((t :: rest).map .token) =
      (reduceFrom read 0 (rest.map .token)).map (.token t :: ·) := by
  simp only [List.map_cons, reduceFrom, Item.isKind, opens, closes, decide_false]
  cases reduceFrom read 0 (rest.map .token) <;> rfl

/-- A group is read up to its parenthesis, and the items behind it after that. -/
theorem reduceFrom_opener (opens : t.kind = .leftParen) :
    reduceFrom read 0 ((t :: rest).map .token) =
      match Program.enclosed? .leftParen .rightParen 0 rest with
      | none => .error (unmatched t)
      | some (inside, after) =>
        (read (inside.map .token) t).bind fun tree =>
          (grouped t tree).bind fun item =>
            (reduceFrom read 0 (after.map .token)).map (item :: ·) := by
  simp only [List.map_cons, reduceFrom, Item.isKind, opens, closing?_map_token, Item.source]
  cases found : Program.enclosed? .leftParen .rightParen 0 rest with
  | none => rfl
  | some pair =>
    obtain ⟨inside, after⟩ := pair
    obtain ⟨c, rfl, -, -⟩ := (Program.enclosed?_eq_some_iff (by decide)).mp found
    have before : ((inside ++ c :: after).map Item.token).take inside.length =
        inside.map .token := by simp [List.map_append, List.take_left']
    have behind : ((inside ++ c :: after).map Item.token).drop (inside.length + 1) =
        after.map .token := by simp [List.drop_append]
    simp only [Option.map_some, reduceFrom_drop read (inside.length + 1), before, behind]
    cases read (inside.map .token) t with
    | error d => rfl
    | ok tree =>
      simp only [bind, Except.bind, Except.map]
      cases grouped t tree with
      | error d => rfl
      | ok item => cases reduceFrom read 0 (after.map .token) <;> rfl

end

/-- Where phrases are read to their trees, the atoms of a phrase are reduced to their items, and
what follows them after that. -/
theorem reduceFrom_append_of_stands {read : List Item → Token → Except Diagnostic Tree}
    {atoms : List Phrase} {items : List Item} (stand : List.Forall₂ Stands atoms items)
    (atomic : ∀ atom ∈ atoms, atom.Atomic)
    (reads : ∀ p : Phrase, p.Derives 1 → p.tokens.length < (atoms.flatMap Phrase.tokens).length →
      ∀ near tree, p.folded = .ok tree → read (p.tokens.map .token) near = .ok tree)
    (rest : List Token) :
    reduceFrom read 0 ((atoms.flatMap Phrase.tokens ++ rest).map .token) =
      (reduceFrom read 0 (rest.map .token)).map (items ++ ·) := by
  induction stand with
  | nil =>
    rw [List.flatMap_nil, List.nil_append]
    cases reduceFrom read 0 (rest.map .token) <;> rfl
  | @cons atom item atoms items here _ ih =>
    have own := atomic atom List.mem_cons_self
    have below := ih (fun atom member => atomic atom (List.mem_cons_of_mem _ member))
      fun p derives size => reads p derives (by
        rw [List.flatMap_cons, List.length_append]
        omega)
    cases atom with
    | operand t =>
      cases here
      rw [List.flatMap_cons, Phrase.tokens, List.singleton_append, List.cons_append,
        reduceFrom_other read _ own.1 own.2, below]
      cases reduceFrom read 0 (rest.map .token) <;> rfl
    | group opening inside closing =>
      obtain ⟨opens, closes, derives⟩ := own
      obtain ⟨tree, first, grouped⟩ := here
      have whole : (Phrase.group opening inside closing :: atoms).flatMap Phrase.tokens ++ rest =
          opening :: (inside.tokens ++ closing :: (atoms.flatMap Phrase.tokens ++ rest)) := by
        simp [Phrase.tokens]
      have shorter : inside.tokens.length <
          ((Phrase.group opening inside closing :: atoms).flatMap Phrase.tokens).length := by
        rw [List.flatMap_cons, Phrase.tokens, List.length_append, List.length_append,
          List.length_cons]
        omega
      have inner : read (inside.tokens.map .token) opening = .ok tree :=
        reads inside derives shorter opening tree first
      rw [whole, reduceFrom_opener read _ opens,
        Program.enclosed?_of_balanced (by decide) closes derives.balanced]
      simp only [inner, grouped, below, Except.bind]
      cases reduceFrom read 0 (rest.map .token) <;> rfl
    | signed sign inside => exact here.elim
    | joined operator left right => exact here.elim

/-- Where phrases are read to their trees, the atoms of a phrase are reduced to their items. -/
theorem reduceFrom_of_stands {read : List Item → Token → Except Diagnostic Tree}
    {atoms : List Phrase} {items : List Item} (stand : List.Forall₂ Stands atoms items)
    (atomic : ∀ atom ∈ atoms, atom.Atomic)
    (reads : ∀ p : Phrase, p.Derives 1 → p.tokens.length < (atoms.flatMap Phrase.tokens).length →
      ∀ near tree, p.folded = .ok tree → read (p.tokens.map .token) near = .ok tree) :
    reduceFrom read 0 ((atoms.flatMap Phrase.tokens).map .token) = .ok items := by
  have whole := reduceFrom_append_of_stands stand atomic reads []
  rw [List.append_nil] at whole
  rw [whole]
  exact congrArg Except.ok (List.append_nil items)

/-- Where only phrases are read, and to their trees, items stand for atoms. -/
theorem stands_of_reduceFrom {read : List Item → Token → Except Diagnostic Tree}
    {ts : List Token} {items : List Item}
    (reads : ∀ us : List Token, us.length < ts.length → ∀ near tree,
      read (us.map .token) near = .ok tree →
        ∃ p : Phrase, p.Derives 1 ∧ p.tokens = us ∧ p.folded = .ok tree)
    (success : reduceFrom read 0 (ts.map .token) = .ok items) :
    ∃ atoms, (∀ atom ∈ atoms, atom.Atomic) ∧ atoms.flatMap Phrase.tokens = ts ∧
      List.Forall₂ Stands atoms items := by
  induction size : ts.length using Nat.strongRecOn generalizing ts items with
  | ind size ih =>
  subst size
  cases ts with
  | nil =>
    cases success
    exact ⟨[], by simp, rfl, .nil⟩
  | cons t rest =>
    by_cases closes : t.kind = .rightParen
    · rw [reduceFrom_closer read rest closes] at success
      cases success
    · by_cases opens : t.kind = .leftParen
      · rw [reduceFrom_opener read rest opens] at success
        split at success
        · cases success
        · rename_i inside after found
          obtain ⟨c, rfl, closer, -⟩ := (Program.enclosed?_eq_some_iff (by decide)).mp found
          obtain ⟨tree, inner, more⟩ := Except.bind_eq_ok_iff.mp success
          obtain ⟨item, grouped, more⟩ := Except.bind_eq_ok_iff.mp more
          obtain ⟨items, behind, rfl⟩ := Except.map_eq_ok_iff.mp more
          have size : (t :: (inside ++ c :: after)).length = inside.length + after.length + 2 := by
            simp only [List.length_cons, List.length_append]
            omega
          obtain ⟨p, derives, rfl, first⟩ := reads inside (by omega) t tree inner
          obtain ⟨atoms, atomic, rfl, stand⟩ := ih after.length (by omega)
            (fun us shorter => reads us (by omega)) behind rfl
          refine ⟨.group t p c :: atoms, ?_, by simp [Phrase.tokens],
            .cons ⟨tree, first, grouped⟩ stand⟩
          exact List.forall_mem_cons.mpr ⟨⟨opens, closer, derives⟩, atomic⟩
      · rw [reduceFrom_other read rest opens closes] at success
        obtain ⟨items, behind, rfl⟩ := Except.map_eq_ok_iff.mp success
        have size : (t :: rest).length = rest.length + 1 := rfl
        obtain ⟨atoms, atomic, rfl, stand⟩ := ih rest.length (by omega)
          (fun us shorter => reads us (by omega)) behind rfl
        refine ⟨.operand t :: atoms, ?_, by simp [Phrase.tokens], .cons rfl stand⟩
        exact List.forall_mem_cons.mpr ⟨⟨opens, closes⟩, atomic⟩

/-- The reader reads the tokens of phrases, and no others. -/
theorem readItems_eq_ok_iff {fuel : Nat} {ts : List Token} (room : ts.length ≤ fuel)
    (near : Token) (tree : Tree) :
    readItems fuel (ts.map .token) near = .ok tree ↔
      ∃ p : Phrase, p.Derives 1 ∧ p.tokens = ts ∧ p.folded = .ok tree := by
  induction fuel generalizing ts near tree with
  | zero =>
    obtain rfl := List.length_eq_zero_iff.mp (Nat.le_zero.mp room)
    simp [readItems, Phrase.tokens_ne_nil]
  | succ fuel ih =>
    by_cases empty : ts = []
    · subst empty
      simp [readItems, Phrase.tokens_ne_nil]
    · rw [readItems_succ fuel (by simpa using empty), Except.bind_eq_ok_iff]
      constructor
      · rintro ⟨items, reduced, success⟩
        obtain ⟨atoms, atomic, rfl, stand⟩ := stands_of_reduceFrom
          (fun us size near tree => (ih (by omega) near tree).mp) reduced
        have free := Stands.parenFree atomic stand
        have filled : items ≠ [] := by
          rintro rfl
          cases stand
          exact empty rfl
        -- Without parentheses nothing is left to reduce: the items are read as if from the start.
        rw [← readItems_of_parenFree fuel filled free near] at success
        obtain ⟨p, derives, rfl, folded⟩ :=
          Phrase.exists_of_flat (flat_of_readItems free success) atomic stand
        exact ⟨p, derives, p.flatMap_atoms.symm, folded⟩
      · rintro ⟨p, derives, rfl, success⟩
        obtain ⟨items, stand⟩ := derives.exists_items success
        obtain ⟨tree', same, flat⟩ := derives.flat stand
        obtain rfl : tree' = tree := by simpa [success] using same.symm
        have reduced : reduceFrom (readItems fuel) 0 (p.tokens.map .token) = .ok items := by
          rw [← p.flatMap_atoms]
          refine reduceFrom_of_stands stand derives.atomic ?_
          intro q inner size near tree folded
          rw [p.flatMap_atoms] at size
          exact (ih (by omega) near tree).mpr ⟨q, inner, rfl, folded⟩
        have short : items.length ≤ fuel + 1 := by
          have := stand.length_eq
          have := p.length_atoms_le
          omega
        refine ⟨items, reduced, ?_⟩
        have filled : items ≠ [] := List.length_pos_iff.mp flat.length_pos
        rw [← readItems_of_parenFree fuel filled flat.parenFree near]
        exact readItems_of_flat flat short near

theorem readTree_eq_ok_iff {ts : List Token} {tree : Tree} :
    readTree ts = .ok tree ↔
      ∃ p : Phrase, p.Derives 1 ∧ p.tokens = ts ∧ p.folded = .ok tree :=
  readItems_eq_ok_iff (by omega) _ tree

end Expression

end NumScript
