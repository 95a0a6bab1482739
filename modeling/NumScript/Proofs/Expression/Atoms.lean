import Mathlib.Data.List.Forall2
import NumScript.Proofs.Expression.Flat

/-! The outermost parts of a phrase. The reader replaces groups by items before it looks at any
operator; what it replaces are the atoms of a phrase, and among the items that stand for them it
finds the phrase again. -/

namespace NumScript

namespace Phrase

/-- The outermost parts of a phrase, from left to right: its groups, and its tokens that stand in
no group. -/
def atoms : Phrase → List Phrase
  | operand t => [operand t]
  | group opening inside closing => [group opening inside closing]
  | signed sign inside => operand sign :: inside.atoms
  | joined operator left right => left.atoms ++ operand operator :: right.atoms

/-- A token other than a parenthesis, or a group whose inside is a phrase. -/
def Atomic : Phrase → Prop
  | operand t => t.kind ≠ .leftParen ∧ t.kind ≠ .rightParen
  | group opening inside closing =>
    opening.kind = .leftParen ∧ closing.kind = .rightParen ∧ inside.Derives 1
  | _ => False

/-- The item is what the reader makes of the atom. -/
def Stands : Phrase → Item → Prop
  | operand t, item => item = .token t
  | group opening inside _, item =>
    ∃ tree, inside.folded = .ok tree ∧ Expression.grouped opening tree = .ok item
  | _, _ => False

theorem atoms_ne_nil (p : Phrase) : p.atoms ≠ [] := by
  cases p <;> simp [atoms]

theorem flatMap_atoms (p : Phrase) : p.atoms.flatMap tokens = p.tokens := by
  induction p with
  | operand t => rfl
  | group opening inside closing _ => simp [atoms]
  | signed sign inside ih => simp [atoms, tokens, ih]
  | joined operator left right ihLeft ihRight => simp [atoms, tokens, ihLeft, ihRight]

theorem length_atoms_le (p : Phrase) : p.atoms.length ≤ p.tokens.length := by
  induction p with
  | operand t => exact Nat.le_refl 1
  | group opening inside closing _ => simp [atoms, tokens]
  | signed sign inside ih => simpa [atoms, tokens] using ih
  | joined operator left right ihLeft ihRight =>
    simp only [atoms, tokens, List.length_append, List.length_cons]
    omega

theorem Derives.atomic {level : Nat} {p : Phrase} (h : p.Derives level) :
    ∀ atom ∈ p.atoms, atom.Atomic := by
  induction h with
  | operand kind =>
    intro atom member
    obtain rfl := List.mem_singleton.mp member
    exact ⟨ne_of_mem_of_not_mem kind (by decide), ne_of_mem_of_not_mem kind (by decide)⟩
  | group opens closes inside _ =>
    intro atom member
    obtain rfl := List.mem_singleton.mp member
    exact ⟨opens, closes, inside⟩
  | signed _ sign _ ih =>
    intro atom member
    rcases List.mem_cons.mp member with rfl | member
    · exact ⟨ne_of_mem_of_not_mem sign (by decide), ne_of_mem_of_not_mem sign (by decide)⟩
    · exact ih atom member
  | @joined _ own _ _ _ _ operator _ _ ihLeft ihRight =>
    intro atom member
    rcases List.mem_append.mp member with member | member
    · exact ihLeft atom member
    · rcases List.mem_cons.mp member with rfl | member
      · exact ⟨ne_of_mem_of_not_mem operator (not_mem_operatorKinds rfl own),
          ne_of_mem_of_not_mem operator (not_mem_operatorKinds rfl own)⟩
      · exact ihRight atom member

/-! ### Groups -/

/-- Computing groups first changes no value. -/
theorem evaluate_folded (p : Phrase) (v : Float) :
    (∃ tree, p.folded = .ok tree ∧ tree.evaluate = .ok v) ↔ p.tree.evaluate = .ok v := by
  induction p generalizing v with
  | operand t => simp [folded, tree]
  | group opening inside closing ih =>
    rw [folded, tree]
    split
    · cases value : inside.tree.evaluate with
      | error d => simp [Except.map]
      | ok w => simp [Except.map, Tree.evaluate, Token.value_ofNumber]
    · exact ih v
  | signed sign inside ih =>
    simp only [folded, tree, Tree.evaluate_unary, Tree.applyUnary_eq_ok_iff, ← ih,
      Except.map_eq_ok_iff]
    constructor
    · rintro ⟨_, ⟨a, first, rfl⟩, value⟩
      obtain ⟨f, w, meaning, inner, rfl⟩ :=
        Tree.applyUnary_eq_ok_iff.mp (Tree.evaluate_unary sign a ▸ value)
      exact ⟨f, w, meaning, ⟨a, first, inner⟩, rfl⟩
    · rintro ⟨f, w, meaning, ⟨a, first, inner⟩, rfl⟩
      refine ⟨_, ⟨a, first, rfl⟩, ?_⟩
      rw [Tree.evaluate_unary]
      exact Tree.applyUnary_eq_ok_iff.mpr ⟨f, w, meaning, inner, rfl⟩
  | joined operator left right ihLeft ihRight =>
    simp only [folded, tree, Tree.evaluate_binary, Tree.applyBinary_eq_ok_iff, ← ihLeft,
      ← ihRight, Except.map_eq_ok_iff, Except.bind_eq_ok_iff]
    constructor
    · rintro ⟨_, ⟨a, first, b, second, rfl⟩, value⟩
      obtain ⟨f, w, w', meaning, left, right, rfl⟩ :=
        Tree.applyBinary_eq_ok_iff.mp (Tree.evaluate_binary operator a b ▸ value)
      exact ⟨f, w, w', meaning, ⟨a, first, left⟩, ⟨b, second, right⟩, rfl⟩
    · rintro ⟨f, w, w', meaning, ⟨a, first, left⟩, ⟨b, second, right⟩, rfl⟩
      refine ⟨_, ⟨a, first, b, second, rfl⟩, ?_⟩
      rw [Tree.evaluate_binary]
      exact Tree.applyBinary_eq_ok_iff.mpr ⟨f, w, w', meaning, left, right, rfl⟩

theorem Derives.isConstant_folded {level : Nat} {p : Phrase} (h : p.Derives level) {tree : Tree}
    (success : p.folded = .ok tree) : tree.isConstant = p.isConstant := by
  induction h generalizing tree with
  | operand kind =>
    cases success
    simp [Tree.isConstant, isConstant, tokens]
  | @group _ opening closing inside opens closes _ ih =>
    have same : (Phrase.group opening inside closing).isConstant = inside.isConstant := by
      simp [isConstant, tokens, opens, closes]
    rw [folded] at success
    split at success
    · rename_i constant
      obtain ⟨v, _, rfl⟩ := Except.map_eq_ok_iff.mp success
      simp [Tree.isConstant, same, constant]
    · rw [same]
      exact ih success
  | signed _ _ _ ih =>
    obtain ⟨a, first, rfl⟩ := Except.map_eq_ok_iff.mp success
    have := ih first
    simp_all [Tree.isConstant, isConstant, tokens]
  | joined _ _ _ _ ihLeft ihRight =>
    obtain ⟨a, first, rest⟩ := Except.bind_eq_ok_iff.mp success
    obtain ⟨b, second, rfl⟩ := Except.map_eq_ok_iff.mp rest
    have left := ihLeft first
    have right := ihRight second
    simp only [isConstant] at left right
    simp only [Tree.isConstant, isConstant, tokens, left, right, List.all_append, List.all_cons]
    rw [← Bool.and_assoc, Bool.and_comm (decide _)]

/-- The item of a group has the tree of the group. -/
theorem flat_grouped {opening : Token} (closing : Token) {inside : Phrase} {tree : Tree}
    {item : Item} (derives : inside.Derives 1) (success : inside.folded = .ok tree)
    (grouped : Expression.grouped opening tree = .ok item) :
    ∃ tree', (group opening inside closing).folded = .ok tree' ∧
      ∀ level, Flat level [item] tree' := by
  have constant := derives.isConstant_folded success
  unfold Expression.grouped at grouped
  rw [folded]
  split at grouped
  · rename_i closed
    obtain ⟨v, value, rfl⟩ := Except.map_eq_ok_iff.mp grouped
    have whole : inside.tree.evaluate = .ok v :=
      (inside.evaluate_folded v).mp ⟨tree, success, value⟩
    rw [if_pos (constant ▸ closed), whole]
    exact ⟨_, rfl, fun level => .operand (by simp [operandKinds])⟩
  · rename_i opened
    cases grouped
    rw [if_neg (constant ▸ opened), success]
    exact ⟨tree, rfl, fun level => .group⟩

theorem exists_grouped {opening closing : Token} {inside : Phrase} {tree' : Tree}
    (derives : inside.Derives 1)
    (success : (group opening inside closing).folded = .ok tree') :
    ∃ item, Stands (group opening inside closing) item := by
  rw [folded] at success
  split at success
  · rename_i closed
    obtain ⟨v, whole, rfl⟩ := Except.map_eq_ok_iff.mp success
    obtain ⟨tree, first, value⟩ := (inside.evaluate_folded v).mpr whole
    have constant := derives.isConstant_folded first
    refine ⟨.token (.ofNumber v opening), tree, first, ?_⟩
    rw [Expression.grouped, if_pos (constant.trans closed), value]
    rfl
  · rename_i opened
    have constant := derives.isConstant_folded success
    refine ⟨.group opening tree', tree', success, ?_⟩
    rw [Expression.grouped, if_neg (constant ▸ opened)]

/-! ### Items -/

theorem Stands.parenFree {atoms : List Phrase} {items : List Item}
    (atomic : ∀ atom ∈ atoms, atom.Atomic) (stand : List.Forall₂ Stands atoms items) :
    ParenFree items := by
  induction stand with
  | nil => exact fun item member => absurd member List.not_mem_nil
  | @cons atom item atoms items here _ ih =>
    intro other member
    rcases List.mem_cons.mp member with rfl | member
    · have own := atomic atom List.mem_cons_self
      cases atom with
      | operand t =>
        cases here
        simpa [Item.isKind, Atomic] using own
      | group opening inside closing =>
        obtain ⟨tree, first, grouped⟩ := here
        obtain ⟨tree', _, flat⟩ := flat_grouped closing own.2.2 first grouped
        exact (flat 1).parenFree _ List.mem_cons_self
      | signed sign inside => exact here.elim
      | joined operator left right => exact here.elim
    · exact ih (fun atom member => atomic atom (List.mem_cons_of_mem _ member)) other member

theorem forall₂_append {α β : Type} {R : α → β → Prop} {first second : List α} {items : List β}
    (h : List.Forall₂ R (first ++ second) items) :
    ∃ left right, items = left ++ right ∧ List.Forall₂ R first left ∧
      List.Forall₂ R second right := by
  induction first generalizing items with
  | nil => exact ⟨[], items, rfl, .nil, h⟩
  | cons atom rest ih =>
    obtain ⟨item, more, here, below, rfl⟩ := List.forall₂_cons_left_iff.mp h
    obtain ⟨left, right, rfl, hLeft, hRight⟩ := ih below
    exact ⟨item :: left, right, rfl, .cons here hLeft, hRight⟩

/-- The items that stand for the atoms of a phrase are flat, and their tree is that of the
phrase. -/
theorem Derives.flat {level : Nat} {p : Phrase} (h : p.Derives level) {items : List Item}
    (stand : List.Forall₂ Stands p.atoms items) :
    ∃ tree, p.folded = .ok tree ∧ Flat level items tree := by
  induction h generalizing items with
  | @operand _ t kind =>
    obtain ⟨item, rest, here, last, rfl⟩ := List.forall₂_cons_left_iff.mp stand
    cases last
    cases here
    exact ⟨.leaf t, rfl, .operand kind⟩
  | @group level opening closing _ _ _ inside _ =>
    obtain ⟨item, rest, ⟨tree, first, grouped⟩, last, rfl⟩ := List.forall₂_cons_left_iff.mp stand
    cases last
    obtain ⟨tree', whole, flat⟩ := flat_grouped closing inside first grouped
    exact ⟨tree', whole, flat level⟩
  | signed le sign _ ih =>
    obtain ⟨item, rest, here, below, rfl⟩ := List.forall₂_cons_left_iff.mp stand
    cases here
    obtain ⟨tree, first, flat⟩ := ih below
    exact ⟨_, by rw [folded, first]; rfl, .signed le sign flat⟩
  | joined le operator _ _ ihLeft ihRight =>
    obtain ⟨left, rest, rfl, hLeft, below⟩ := forall₂_append stand
    obtain ⟨item, right, here, hRight, rfl⟩ := List.forall₂_cons_left_iff.mp below
    cases here
    obtain ⟨a, first, flatLeft⟩ := ihLeft hLeft
    obtain ⟨b, second, flatRight⟩ := ihRight hRight
    exact ⟨_, by rw [folded, first, second]; rfl, .joined le operator flatLeft flatRight⟩

/-- The atoms of a phrase whose groups can be computed have items. -/
theorem Derives.exists_items {level : Nat} {p : Phrase} (h : p.Derives level) {tree : Tree}
    (success : p.folded = .ok tree) : ∃ items, List.Forall₂ Stands p.atoms items := by
  induction h generalizing tree with
  | @operand _ t _ => exact ⟨[.token t], .cons rfl .nil⟩
  | group _ _ inside _ =>
    obtain ⟨item, stands⟩ := exists_grouped inside success
    exact ⟨[item], .cons stands .nil⟩
  | @signed _ sign _ _ _ _ ih =>
    obtain ⟨a, first, _⟩ := Except.map_eq_ok_iff.mp success
    obtain ⟨items, stand⟩ := ih first
    exact ⟨.token sign :: items, .cons rfl stand⟩
  | @joined _ _ operator _ _ _ _ _ _ ihLeft ihRight =>
    obtain ⟨a, first, rest⟩ := Except.bind_eq_ok_iff.mp success
    obtain ⟨b, second, _⟩ := Except.map_eq_ok_iff.mp rest
    obtain ⟨left, hLeft⟩ := ihLeft first
    obtain ⟨right, hRight⟩ := ihRight second
    exact ⟨left ++ .token operator :: right, List.rel_append hLeft (.cons rfl hRight)⟩

theorem Stands.operand_of_kind {atom : Phrase} {t : Token} (stands : Stands atom (.token t))
    (kind : t.kind ≠ .number) : atom = operand t := by
  cases atom with
  | operand u =>
    cases stands
    rfl
  | group opening inside closing =>
    obtain ⟨tree, _, grouped⟩ := stands
    unfold Expression.grouped at grouped
    split at grouped
    · obtain ⟨v, _, same⟩ := Except.map_eq_ok_iff.mp grouped
      cases same
      exact absurd (Token.ofNumber_kind v opening) kind
    · cases grouped
  | signed sign inside => exact stands.elim
  | joined operator left right => exact stands.elim

/-- An item that is an operand stands for a phrase of any level. -/
theorem Stands.derives {atom : Phrase} {item : Item} {tree : Tree} {level : Nat}
    (stands : Stands atom item) (atomic : atom.Atomic) (flat : Flat level [item] tree) :
    atom.Derives level ∧ atom.atoms = [atom] ∧ atom.folded = .ok tree := by
  cases atom with
  | operand t =>
    cases stands
    rcases flat.singleton with ⟨u, same, kind, rfl⟩ | ⟨paren, same⟩
    · cases same
      exact ⟨.operand kind, rfl, rfl⟩
    · cases same
  | group opening inside closing =>
    obtain ⟨opens, closes, derives⟩ := atomic
    obtain ⟨inner, first, grouped⟩ := stands
    obtain ⟨tree', whole, flat'⟩ := flat_grouped closing derives first grouped
    obtain rfl := flat.singleton_unique (flat' 1)
    exact ⟨.group opens closes derives, rfl, whole⟩
  | signed sign inside => exact stands.elim
  | joined operator left right => exact stands.elim

/-- Flat items that stand for atoms are those of a phrase. -/
theorem exists_of_flat {level : Nat} {items : List Item} {tree : Tree}
    (flat : Flat level items tree) {atoms : List Phrase} (atomic : ∀ atom ∈ atoms, atom.Atomic)
    (stand : List.Forall₂ Stands atoms items) :
    ∃ p : Phrase, p.Derives level ∧ p.atoms = atoms ∧ p.folded = .ok tree := by
  have alone {level : Nat} {item : Item} {tree : Tree} {atoms : List Phrase}
      (flat : Flat level [item] tree) (atomic : ∀ atom ∈ atoms, atom.Atomic)
      (stand : List.Forall₂ Stands atoms [item]) :
      ∃ p : Phrase, p.Derives level ∧ p.atoms = atoms ∧ p.folded = .ok tree := by
    obtain ⟨atom, rest, here, last, rfl⟩ := List.forall₂_cons_right_iff.mp stand
    cases last
    exact ⟨atom, here.derives (atomic atom List.mem_cons_self) flat⟩
  induction flat generalizing atoms with
  | operand kind => exact alone (.operand kind) atomic stand
  | group => exact alone .group atomic stand
  | @signed _ sign _ _ le kind _ ih =>
    obtain ⟨atom, rest, here, below, rfl⟩ := List.forall₂_cons_right_iff.mp stand
    obtain rfl := here.operand_of_kind (ne_of_mem_of_not_mem kind (by decide))
    obtain ⟨p, derives, rfl, success⟩ :=
      ih (fun atom member => atomic atom (List.mem_cons_of_mem _ member)) below
    exact ⟨signed sign p, .signed le kind derives, rfl, by rw [folded, success]; rfl⟩
  | @joined _ own operator _ _ _ _ le kind _ _ ihLeft ihRight =>
    have turned : List.Forall₂ (flip Stands) _ atoms := List.Forall₂.flip stand
    obtain ⟨left, more, rfl, hLeft, below⟩ := forall₂_append turned
    obtain ⟨atom, right, here, hRight, rfl⟩ := List.forall₂_cons_right_iff.mp below.flip
    obtain rfl := here.operand_of_kind
      (ne_of_mem_of_not_mem kind (not_mem_operatorKinds rfl own))
    obtain ⟨p, derives, rfl, success⟩ :=
      ihLeft (fun atom member => atomic atom (List.mem_append_left _ member)) hLeft.flip
    obtain ⟨q, derives', rfl, success'⟩ :=
      ihRight (fun atom member => atomic atom
        (List.mem_append_right _ (List.mem_cons_of_mem _ member))) hRight
    exact ⟨joined operator p q, .joined le kind derives derives', rfl,
      by rw [folded, success, success']; rfl⟩

end Phrase

end NumScript
