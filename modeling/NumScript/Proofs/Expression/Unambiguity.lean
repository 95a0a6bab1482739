import NumScript.Proofs.Expression.Atoms

/-! The grammar of expressions is unambiguous. Tokens fall into atoms in one way only, because
groups end where their parentheses balance; and atoms form a phrase in one way only, because the
place to split at depends on nothing else. -/

namespace NumScript.Phrase

/-- An item in the place of an atom, for which only the operators outside of groups matter. -/
def outline : Phrase → Item
  | operand t => .token t
  | p => .group {} p.tree

theorem Derives.flat_outline {level : Nat} {p : Phrase} (h : p.Derives level) :
    ∃ tree, Flat level (p.atoms.map outline) tree := by
  induction h with
  | operand kind => exact ⟨_, .operand kind⟩
  | group _ _ _ _ => exact ⟨_, .group⟩
  | signed le sign _ ih =>
    obtain ⟨tree, flat⟩ := ih
    exact ⟨_, .signed le sign flat⟩
  | @joined _ _ operator _ _ le kind _ _ ihLeft ihRight =>
    obtain ⟨a, flatLeft⟩ := ihLeft
    obtain ⟨b, flatRight⟩ := ihRight
    refine ⟨.binary operator a b, ?_⟩
    rw [atoms, List.map_append]
    exact .joined le kind flatLeft flatRight

theorem Derives.split?_joined {level : Nat} {operator : Token} {left right : Phrase}
    (h : Derives level (.joined operator left right)) :
    Expression.split? ((Phrase.joined operator left right).atoms.map outline) =
      some left.atoms.length := by
  cases h with
  | joined _ kind hLeft hRight =>
    obtain ⟨a, flatLeft⟩ := hLeft.flat_outline
    obtain ⟨b, flatRight⟩ := hRight.flat_outline
    rw [atoms, List.map_append, List.map_cons, outline]
    simpa using Flat.split?_joined kind flatLeft flatRight

/-- The phrase is an operator between two phrases. -/
def isJoined : Phrase → Bool
  | joined _ _ _ => true
  | _ => false

theorem Derives.isSome_split? {level : Nat} {p : Phrase} (h : p.Derives level) :
    (Expression.split? (p.atoms.map outline)).isSome = p.isJoined := by
  have none_of (tight : p.Derives signLevel) : Expression.split? (p.atoms.map outline) = none := by
    obtain ⟨tree, flat⟩ := tight.flat_outline
    exact flat.split?_of_signLevel
  cases h with
  | operand kind => rw [none_of (.operand kind)]; rfl
  | group opens closes inside => rw [none_of (.group opens closes inside)]; rfl
  | signed _ sign inside => rw [none_of (.signed (Nat.le_refl _) sign inside)]; rfl
  | joined le kind hLeft hRight => rw [(joined le kind hLeft hRight).split?_joined]; rfl

/-- Atoms form a phrase in one way only. -/
theorem Derives.eq_of_atoms {level level' : Nat} {p q : Phrase} (h : p.Derives level)
    (h' : q.Derives level') (same : p.atoms = q.atoms) : p = q := by
  have alike {level level' : Nat} {p q : Phrase} (h : p.Derives level) (h' : q.Derives level')
      (same : p.atoms = q.atoms) : p.isJoined = q.isJoined := by
    rw [← h.isSome_split?, ← h'.isSome_split?, same]
  induction p generalizing level level' q with
  | operand t =>
    cases q with
    | operand u => simpa [atoms] using same
    | group opening inside closing => simp [atoms] at same
    | signed sign inside => simp [atoms, inside.atoms_ne_nil.symm] at same
    | joined operator left right => cases alike h h' same
  | group opening inside closing =>
    cases q with
    | operand u => simp [atoms] at same
    | group opening' inside' closing' => simpa [atoms] using same
    | signed sign inside => simp [atoms] at same
    | joined operator left right => cases alike h h' same
  | signed sign inside ih =>
    cases q with
    | operand u => simp [atoms, inside.atoms_ne_nil] at same
    | group opening inside closing => simp [atoms] at same
    | signed sign' inside' =>
      obtain ⟨first, rest⟩ := List.cons.inj same
      cases h with
      | signed _ _ hInside =>
        cases h' with
        | signed _ _ hInside' =>
          cases first
          rw [ih hInside hInside' rest]
    | joined operator left right => cases alike h h' same
  | joined operator left right ihLeft ihRight =>
    cases q with
    | operand u => cases alike h h' same
    | group opening inside closing => cases alike h h' same
    | signed sign inside => cases alike h h' same
    | joined operator' left' right' =>
      -- The atoms decide where they are split, and so how many belong to the left operand.
      have place : left.atoms.length = left'.atoms.length := by
        have split := h.split?_joined
        rw [same, h'.split?_joined] at split
        exact (Option.some.inj split).symm
      obtain ⟨first, rest⟩ := List.append_inj same place
      obtain ⟨here, second⟩ := List.cons.inj rest
      cases h with
      | joined _ _ hLeft hRight =>
        cases h' with
        | joined _ _ hLeft' hRight' =>
          cases here
          rw [ihLeft hLeft hLeft' first, ihRight hRight hRight' second]

/-- The first atom of some tokens is their first token, or the group that it opens. -/
theorem Atomic.uncons {found : List Phrase} (atomic : ∀ atom ∈ found, atom.Atomic) {t : Token}
    {rest : List Token} (whole : found.flatMap tokens = t :: rest) :
    (t.kind ≠ .leftParen ∧ ∃ more, found = operand t :: more ∧ more.flatMap tokens = rest) ∨
      (t.kind = .leftParen ∧ ∃ inside closing more, found = group t inside closing :: more ∧
        closing.kind = .rightParen ∧ inside.Derives 1 ∧
        inside.tokens ++ closing :: more.flatMap tokens = rest) := by
  cases found with
  | nil => cases whole
  | cons atom more =>
    have own := atomic atom List.mem_cons_self
    cases atom with
    | operand u =>
      cases whole
      exact .inl ⟨own.1, more, rfl, rfl⟩
    | group opening inside closing =>
      obtain ⟨opens, closes, derives⟩ := own
      simp only [List.flatMap_cons, tokens, List.cons_append, List.append_assoc, List.cons.injEq,
        List.nil_append] at whole
      obtain ⟨rfl, same⟩ := whole
      exact .inr ⟨opens, inside, closing, more, rfl, closes, derives, same⟩
    | signed sign inside => exact own.elim
    | joined operator left right => exact own.elim

/-- Tokens fall into atoms in one way only, when shorter tokens form a phrase in one way only. -/
theorem Atomic.eq_of_tokens {size : Nat}
    (unique : ∀ p q : Phrase, p.Derives 1 → q.Derives 1 → p.tokens.length < size →
      p.tokens = q.tokens → p = q)
    {first second : List Phrase} (atomic : ∀ atom ∈ first, atom.Atomic)
    (atomic' : ∀ atom ∈ second, atom.Atomic)
    (short : (first.flatMap tokens).length ≤ size)
    (same : first.flatMap tokens = second.flatMap tokens) : first = second := by
  induction first generalizing second with
  | nil =>
    cases second with
    | nil => rfl
    | cons atom more => exact absurd same.symm (by simp [atom.tokens_ne_nil])
  | cons atom more ih =>
    have own := atomic atom List.mem_cons_self
    have below : ∀ atom ∈ more, atom.Atomic :=
      fun atom member => atomic atom (List.mem_cons_of_mem _ member)
    have room : (more.flatMap tokens).length ≤ size := by
      rw [List.flatMap_cons, List.length_append] at short
      omega
    cases atom with
    | operand t =>
      rcases Atomic.uncons atomic' same.symm with ⟨-, more', rfl, rest⟩ | ⟨opens, _⟩
      · rw [ih below (fun atom member => atomic' atom (List.mem_cons_of_mem _ member)) room
          rest.symm]
      · exact absurd opens own.1
    | group opening inside closing =>
      obtain ⟨opens, closes, derives⟩ := own
      have whole : (group opening inside closing :: more).flatMap tokens =
          opening :: (inside.tokens ++ closing :: more.flatMap tokens) := by simp [tokens]
      rw [whole] at same short
      rcases Atomic.uncons atomic' same.symm with ⟨other, _⟩ |
        ⟨-, inside', closing', more', rfl, closes', derives', rest⟩
      · exact absurd opens other
      · obtain ⟨inner, rfl, after⟩ := Program.enclosed_unique (by decide) closes closes'
          derives.balanced derives'.balanced rest.symm
        have within : inside.tokens.length < size := by
          simp only [List.length_cons, List.length_append] at short
          omega
        rw [unique inside inside' derives derives' within inner,
          ih below (fun atom member => atomic' atom (List.mem_cons_of_mem _ member)) room after]
    | signed sign inside => exact own.elim
    | joined operator left right => exact own.elim

/-- A phrase is the only one with its tokens. -/
theorem Derives.eq_of_tokens {p q : Phrase} (h : p.Derives 1) (h' : q.Derives 1)
    (same : p.tokens = q.tokens) : p = q := by
  induction size : p.tokens.length using Nat.strongRecOn generalizing p q with
  | ind length ih =>
  have shorter : ∀ p q : Phrase, p.Derives 1 → q.Derives 1 → p.tokens.length < length →
      p.tokens = q.tokens → p = q :=
    fun p q inner inner' short equal => ih p.tokens.length short inner inner' equal rfl
  refine h.eq_of_atoms h' (Atomic.eq_of_tokens shorter h.atomic h'.atomic (Nat.le_of_eq ?_) ?_)
  · rw [p.flatMap_atoms, size]
  · rw [p.flatMap_atoms, q.flatMap_atoms, same]

end NumScript.Phrase
