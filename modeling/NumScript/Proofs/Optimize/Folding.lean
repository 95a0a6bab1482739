import NumScript.Optimize
import NumScript.Proofs.Check.WellFormed

/-! What folding leaves behind: no operator over numbers has a value. A tree of this form is left
alone by folding, and a pass that counts nothing changes nothing. -/

namespace NumScript

/-! ### Trees -/

namespace Tree

mutual

/-- The tree and all trees below it. -/
def nodes : Tree → List Tree
  | leaf t => [leaf t]
  | unary op a => unary op a :: a.nodes
  | binary op a b => binary op a b :: (a.nodes ++ b.nodes)
  | wide op a b c more => wide op a b c more :: (a.nodes ++ b.nodes ++ c.nodes ++ allNodes more)

def allNodes : List Tree → List Tree
  | [] => []
  | t :: rest => t.nodes ++ allNodes rest

end

/-- The node cannot be replaced by its value: an operand is no number, or there is no value. -/
def Irreducible (node : Tree) : Prop :=
  node.operands.all isNumberLeaf = true → ∀ v, node.evaluate ≠ .ok v

/-- No operator of the tree whose operands are all numbers has a value. -/
def Folded (t : Tree) : Prop := ∀ node ∈ t.nodes, node.isLeaf = false → node.Irreducible

theorem folded_leaf (t : Token) : (leaf t).Folded := by
  intro node member operator
  obtain rfl := List.mem_singleton.mp member
  cases operator

theorem folded_unary_iff {op : Token} {a : Tree} :
    (unary op a).Folded ↔ (unary op a).Irreducible ∧ a.Folded := by
  simp [Folded, nodes, isLeaf]

theorem folded_binary_iff {op : Token} {a b : Tree} :
    (binary op a b).Folded ↔ (binary op a b).Irreducible ∧ a.Folded ∧ b.Folded := by
  simp [Folded, nodes, isLeaf, or_imp, forall_and]

theorem foldNode_of_irreducible {t : Tree} (h : t.Irreducible) : foldNode t = (t, 0) := by
  unfold foldNode
  split
  · rename_i numbers
    split
    · rename_i v value
      exact absurd value (h numbers v)
    · rfl
  · rfl

/-- A node is replaced by a number and counted, unless it cannot be replaced. -/
theorem foldNode_cases (t : Tree) :
    t.Irreducible ∧ foldNode t = (t, 0) ∨ ∃ v, foldNode t = (leaf (.ofNumber v t.token), 1) := by
  by_cases h : t.Irreducible
  · exact .inl ⟨h, foldNode_of_irreducible h⟩
  · right
    simp only [Irreducible, not_forall, not_not] at h
    obtain ⟨numbers, v, value⟩ := h
    exact ⟨v, by simp [foldNode, numbers, value]⟩

theorem folded_foldNode {t : Tree} (stuck : t.Irreducible → t.Folded) :
    (foldNode t).1.Folded := by
  rcases foldNode_cases t with ⟨here, same⟩ | ⟨v, replaced⟩
  · rw [same]
    exact stuck here
  · rw [replaced]
    exact folded_leaf _

theorem foldNode_of_count {t : Tree} (uncounted : (foldNode t).2 = 0) : (foldNode t).1 = t := by
  rcases foldNode_cases t with ⟨-, same⟩ | ⟨v, replaced⟩
  · rw [same]
  · rw [replaced] at uncounted
    cases uncounted

/-- Folding leaves no operator over numbers that has a value. -/
theorem folded_fold {t : Tree} (h : t.WellShaped) : t.fold.1.Folded := by
  induction h with
  | leaf => exact folded_leaf _
  | unary _ _ ih =>
    rw [fold]
    exact folded_foldNode fun stuck => folded_unary_iff.mpr ⟨stuck, ih⟩
  | binary _ _ _ ihLeft ihRight =>
    rw [fold]
    exact folded_foldNode fun stuck => folded_binary_iff.mpr ⟨stuck, ihLeft, ihRight⟩

theorem fold_of_folded {t : Tree} (h : t.WellShaped) (folded : t.Folded) : t.fold = (t, 0) := by
  induction h with
  | leaf => rfl
  | unary _ _ ih =>
    obtain ⟨stuck, below⟩ := folded_unary_iff.mp folded
    simp [fold, ih below, foldNode_of_irreducible stuck]
  | binary _ _ _ ihLeft ihRight =>
    obtain ⟨stuck, left, right⟩ := folded_binary_iff.mp folded
    simp [fold, ihLeft left, ihRight right, foldNode_of_irreducible stuck]

theorem wellShaped_foldNode {t : Tree} (h : t.WellShaped) : (foldNode t).1.WellShaped := by
  rcases foldNode_cases t with ⟨-, same⟩ | ⟨v, replaced⟩
  · rw [same]
    exact h
  · rw [replaced]
    apply WellShaped.leaf
    show TokenKind.number ∈ Phrase.operandKinds
    decide

theorem wellShaped_fold {t : Tree} (h : t.WellShaped) : t.fold.1.WellShaped := by
  induction h with
  | leaf kind => exact .leaf kind
  | unary meaning _ ih =>
    rw [fold]
    exact wellShaped_foldNode (.unary meaning ih)
  | binary meaning _ _ ihLeft ihRight =>
    rw [fold]
    exact wellShaped_foldNode (.binary meaning ihLeft ihRight)

theorem fold_of_count : (t : Tree) → t.fold.2 = 0 → t.fold.1 = t
  | leaf t, _ => rfl
  | wide op a b c more, _ => by rw [fold]
  | unary op a, uncounted => by
    rw [fold] at uncounted ⊢
    obtain ⟨below, here⟩ := Nat.add_eq_zero_iff.mp uncounted
    apply (foldNode_of_count here).trans
    rw [fold_of_count a below]
  | binary op a b, uncounted => by
    rw [fold] at uncounted ⊢
    obtain ⟨below, here⟩ := Nat.add_eq_zero_iff.mp uncounted
    obtain ⟨left, right⟩ := Nat.add_eq_zero_iff.mp below
    apply (foldNode_of_count here).trans
    rw [fold_of_count a left, fold_of_count b right]

end Tree

/-! ### Programs -/

namespace Program

/-- Every expression of the program is folded. -/
def Folded (p : Program) : Prop := p.Forall fun e => e.tree.Folded

/-- Every tree of the program is well shaped. -/
def Shaped (p : Program) : Prop := p.Forall fun e => e.tree.WellShaped

theorem Forall.fold {P Q : Expression → Prop} (each : ∀ e, P e → Q e.fold.1) {p : Program}
    (all : p.Forall P) : p.fold.1.Forall Q := by
  induction p with
  | done => trivial
  | block brace body rest ihBody ih => exact ⟨ihBody all.1, ih all.2⟩
  | declare keyword name value rest ih =>
    obtain ⟨computed, below⟩ := all
    cases value with
    | none => exact ⟨by simp, ih below⟩
    | some e =>
      refine ⟨fun e' member => ?_, ih below⟩
      obtain rfl := Option.some.inj member
      exact each e (computed e rfl)
  | assign name value rest ih => exact ⟨each value all.1, ih all.2⟩
  | expression value rest ih => exact ⟨each value all.1, ih all.2⟩
  | ifThen keyword condition brace body rest ihBody ih =>
    exact ⟨each condition all.1, ihBody all.2.1, ih all.2.2⟩
  | ifElse keyword condition brace body elseBrace elseBody rest ihBody ihElse ih =>
    exact ⟨each condition all.1, ihBody all.2.1, ihElse all.2.2.1, ih all.2.2.2⟩
  | loop keyword condition brace body rest ihBody ih =>
    exact ⟨each condition all.1, ihBody all.2.1, ih all.2.2⟩

theorem Shaped.fold {p : Program} (shaped : p.Shaped) : p.fold.1.Shaped :=
  Forall.fold (fun _ => Tree.wellShaped_fold) shaped

theorem Shaped.folded_fold {p : Program} (shaped : p.Shaped) : p.fold.1.Folded :=
  Forall.fold (fun _ => Tree.folded_fold) shaped

theorem fold_expression {e : Expression} (h : e.tree.WellShaped) (folded : e.tree.Folded) :
    e.fold = (e, 0) := by
  rw [Expression.fold, Tree.fold_of_folded h folded]

theorem Shaped.fold_of_folded {p : Program} (shaped : p.Shaped) (folded : p.Folded) :
    p.fold = (p, 0) := by
  induction p with
  | done => rfl
  | block brace body rest ihBody ih =>
    simp [Program.fold, ihBody shaped.1 folded.1, ih shaped.2 folded.2]
  | declare keyword name value rest ih =>
    rw [Program.fold, ih shaped.2 folded.2]
    cases value with
    | none => rfl
    | some e => simp [fold_expression (shaped.1 e rfl) (folded.1 e rfl)]
  | assign name value rest ih =>
    simp [Program.fold, fold_expression shaped.1 folded.1, ih shaped.2 folded.2]
  | expression value rest ih =>
    simp [Program.fold, fold_expression shaped.1 folded.1, ih shaped.2 folded.2]
  | ifThen keyword condition brace body rest ihBody ih =>
    simp [Program.fold, fold_expression shaped.1 folded.1, ihBody shaped.2.1 folded.2.1,
      ih shaped.2.2 folded.2.2]
  | ifElse keyword condition brace body elseBrace elseBody rest ihBody ihElse ih =>
    simp [Program.fold, fold_expression shaped.1 folded.1, ihBody shaped.2.1 folded.2.1,
      ihElse shaped.2.2.1 folded.2.2.1, ih shaped.2.2.2 folded.2.2.2]
  | loop keyword condition brace body rest ihBody ih =>
    simp [Program.fold, fold_expression shaped.1 folded.1, ihBody shaped.2.1 folded.2.1,
      ih shaped.2.2 folded.2.2]

theorem fold_of_count {p : Program} (uncounted : p.fold.2 = 0) : p.fold.1 = p := by
  have expression {e : Expression} (h : e.fold.2 = 0) : e.fold.1 = e := by
    show { e with tree := e.tree.fold.1 } = e
    rw [Tree.fold_of_count e.tree h]
  induction p with
  | done => rfl
  | block brace body rest ihBody ih =>
    simp only [fold, Nat.add_eq_zero_iff] at uncounted ⊢
    rw [ihBody uncounted.1, ih uncounted.2]
  | declare keyword name value rest ih =>
    cases value with
    | none =>
      simp only [fold] at uncounted ⊢
      rw [ih uncounted]
    | some e =>
      simp only [fold, Nat.add_eq_zero_iff] at uncounted ⊢
      rw [expression uncounted.1, ih uncounted.2]
  | assign name value rest ih =>
    simp only [fold, Nat.add_eq_zero_iff] at uncounted ⊢
    rw [expression uncounted.1, ih uncounted.2]
  | expression value rest ih =>
    simp only [fold, Nat.add_eq_zero_iff] at uncounted ⊢
    rw [expression uncounted.1, ih uncounted.2]
  | ifThen keyword condition brace body rest ihBody ih =>
    simp only [fold, Nat.add_eq_zero_iff] at uncounted ⊢
    rw [expression uncounted.1.1, ihBody uncounted.1.2, ih uncounted.2]
  | ifElse keyword condition brace body elseBrace elseBody rest ihBody ihElse ih =>
    simp only [fold, Nat.add_eq_zero_iff] at uncounted ⊢
    rw [expression uncounted.1.1.1, ihBody uncounted.1.1.2, ihElse uncounted.1.2, ih uncounted.2]
  | loop keyword condition brace body rest ihBody ih =>
    simp only [fold, Nat.add_eq_zero_iff] at uncounted ⊢
    rw [expression uncounted.1.1, ihBody uncounted.1.2, ih uncounted.2]

end Program

end NumScript
