import NumScript.Proofs.Expression.Printing

/-! The reader computes groups without names, and folding replaces operators over numbers. The two
agree: reading the text of a tree gives the tree that folding makes of it. -/

namespace NumScript

namespace Token

/-- The value of a number does not depend on its place. -/
theorem value_of_spelled {t t' : Token} (same : t.spelled = t'.spelled) {v : Float}
    (value : t'.value = .ok v) : t.value = .ok v := by
  simp only [spelled, Prod.mk.injEq] at same
  obtain ⟨kind, lexeme, literal⟩ := same
  have number : t.number? = t'.number? := by rw [number?, number?, kind, literal]
  rw [value_eq_ok_iff] at value ⊢
  rwa [kind, number, lexeme]

end Token

namespace Tree

/-- The trees have the same shape, and the same tokens apart from their places. -/
inductive Alike : Tree → Tree → Prop
  | leaf {t t' : Token} : t.spelled = t'.spelled → Alike (.leaf t) (.leaf t')
  | unary {op op' : Token} {a a' : Tree} : op.spelled = op'.spelled → Alike a a' →
      Alike (.unary op a) (.unary op' a')
  | binary {op op' : Token} {a a' b b' : Tree} : op.spelled = op'.spelled → Alike a a' →
      Alike b b' → Alike (.binary op a b) (.binary op' a' b')

theorem Alike.evaluate {t t' : Tree} (h : t.Alike t') {v : Float} (value : t'.evaluate = .ok v) :
    t.evaluate = .ok v := by
  induction h generalizing v with
  | leaf same =>
    rw [evaluate_leaf] at value ⊢
    exact Token.value_of_spelled same value
  | unary same _ ih =>
    rw [evaluate_unary, applyUnary_eq_ok_iff] at value ⊢
    obtain ⟨f, w, meaning, below, rfl⟩ := value
    rw [← Token.kind_of_spelled same] at meaning
    exact ⟨f, w, meaning, ih below, rfl⟩
  | binary same _ _ ihLeft ihRight =>
    rw [evaluate_binary, applyBinary_eq_ok_iff] at value ⊢
    obtain ⟨f, w, w', meaning, left, right, rfl⟩ := value
    rw [← Token.kind_of_spelled same] at meaning
    exact ⟨f, w, w', meaning, ihLeft left, ihRight right, rfl⟩

theorem Prints.tree_alike {t : Tree} {p : Phrase} (h : t.Prints p) : p.tree.Alike t := by
  induction h with
  | leaf same => exact .leaf same
  | unary _ _ same _ ih => exact .unary same ih
  | binary _ _ same _ _ ihLeft ihRight => exact .binary same ihLeft ihRight

/-! ### What folding makes of a tree -/

theorem isConstant_unary {op : Token} (sign : op.kind ∈ Phrase.signKinds) (a : Tree) :
    (unary op a).isConstant = a.isConstant := by
  have other : op.kind ≠ .identifier := ne_of_mem_of_not_mem sign (by decide)
  simp [isConstant, other]

theorem isConstant_binary {op : Token} {level : Nat} (kind : op.kind ∈ Phrase.operatorKinds level)
    (a b : Tree) : (binary op a b).isConstant = (a.isConstant && b.isConstant) := by
  have other : op.kind ≠ .identifier :=
    ne_of_mem_of_not_mem kind (Phrase.not_mem_operatorKinds rfl level)
  simp [isConstant, other]

theorem foldNode_of_value {t : Tree} {v : Float} (operands : t.operands.all isNumberLeaf = true)
    (value : t.evaluate = .ok v) : (foldNode t).1 = leaf (.ofNumber v t.token) := by
  simp [foldNode, operands, value]

/-- The tree is computed to `v`, and folded to a number that holds `v`. -/
structure Becomes (t : Tree) (v : Float) : Prop where
  value : t.evaluate = .ok v
  number : t.fold.1.isNumberLeaf = true
  folded : t.fold.1.evaluate = .ok v
  replaced : t.isLeaf = false → t.fold.1 = leaf (.ofNumber v t.token)

theorem Becomes.of_replaced {t : Tree} {v : Float} (value : t.evaluate = .ok v)
    (replaced : t.fold.1 = leaf (.ofNumber v t.token)) : t.Becomes v where
  value := value
  number := by simp [replaced, isNumberLeaf]
  folded := by simp [replaced]
  replaced := fun _ => replaced

theorem Printed.becomes {t : Tree} (h : t.Printed) (constant : t.isConstant = true) :
    ∃ v, t.Becomes v := by
  induction h with
  | @leaf t operand spelled =>
    have number : t.kind = .number := by
      rcases operand with name | number
      · simp [isConstant, name] at constant
      · exact number
    obtain ⟨v, value⟩ := Token.exists_value number spelled.literal
    have computed : (Tree.leaf t).evaluate = .ok v := by rw [evaluate_leaf, value]
    exact ⟨v, computed, by simp [fold, isNumberLeaf, number], computed, by simp [isLeaf]⟩
  | @unary op a sign _ _ ih =>
    rw [isConstant_unary sign] at constant
    obtain ⟨w, below⟩ := ih constant
    obtain ⟨f, meaning⟩ := Option.isSome_iff_exists.mp (TokenKind.isPrefixSign_iff.mpr sign)
    have computed {x : Tree} (value : x.evaluate = .ok w) :
        (Tree.unary op x).evaluate = .ok (f w) := by
      rw [evaluate_unary, applyUnary_eq_ok_iff]
      exact ⟨f, w, meaning, value, rfl⟩
    refine ⟨f w, .of_replaced (computed below.value) ?_⟩
    rw [fold]
    exact foldNode_of_value (by simp [operands, below.number]) (computed below.folded)
  | @binary op _ a b kind _ _ _ ihLeft ihRight =>
    rw [isConstant_binary kind, Bool.and_eq_true] at constant
    obtain ⟨w, left⟩ := ihLeft constant.1
    obtain ⟨w', right⟩ := ihRight constant.2
    obtain ⟨f, meaning⟩ :=
      TokenKind.binaryMeaning?_of_precedence? (TokenKind.precedence?_eq_some_iff.mpr kind)
    have computed {x y : Tree} (value : x.evaluate = .ok w) (value' : y.evaluate = .ok w') :
        (Tree.binary op x y).evaluate = .ok (f w w') := by
      rw [evaluate_binary, applyBinary_eq_ok_iff]
      exact ⟨f, w, w', meaning, value, value', rfl⟩
    refine ⟨f w w', .of_replaced (computed left.value right.value) ?_⟩
    rw [fold]
    exact foldNode_of_value (by simp [operands, left.number, right.number])
      (computed left.folded right.folded)

theorem fold_unary_of_named {op : Token} {a : Tree} (named : a.fold.1.isNumberLeaf = false) :
    (unary op a).fold.1 = unary op a.fold.1 := by
  simp [fold, foldNode, operands, named]

theorem fold_binary_of_named {op : Token} {a b : Tree}
    (named : (a.fold.1.isNumberLeaf && b.fold.1.isNumberLeaf) = false) :
    (binary op a b).fold.1 = binary op a.fold.1 b.fold.1 := by
  simp [fold, foldNode, operands, named]

/-- A tree with a name is not folded to a number. -/
theorem Printed.fold_of_named {t : Tree} (h : t.Printed) (named : t.isConstant = false) :
    t.fold.1.isNumberLeaf = false := by
  induction h with
  | leaf operand _ =>
    rcases operand with name | number
    · simp [fold, isNumberLeaf, name]
    · simp [isConstant, number] at named
  | unary sign _ _ ih =>
    rw [isConstant_unary sign] at named
    rw [fold_unary_of_named (ih named)]
    rfl
  | binary kind _ _ _ ihLeft ihRight =>
    rw [isConstant_binary kind, Bool.and_eq_false_iff] at named
    rw [fold_binary_of_named]
    · rfl
    · rw [Bool.and_eq_false_iff]
      exact named.imp ihLeft ihRight

/-! ### Reading and folding -/

/-- A group that prints a tree without names is computed to the number that the tree is folded
to. -/
theorem Prints.folded_group {t : Tree} {opening closing : Token} {inside : Phrase}
    (h : t.Prints (.group opening inside closing)) (printed : t.Printed)
    (named : t.isConstant = false → ∃ r, inside.folded = .ok r ∧ r.Alike t.fold.1) :
    ∃ r, (Phrase.group opening inside closing).folded = .ok r ∧ r.Alike t.fold.1 := by
  have operator : t.isLeaf = false := by
    cases h <;> rfl
  have constant : inside.isConstant = t.isConstant := by
    rw [← h.isConstant_eq]
    cases h <;> simp [Phrase.isConstant, Phrase.tokens, *]
  rw [Phrase.folded, constant]
  by_cases free : t.isConstant = true
  · obtain ⟨v, becomes⟩ := printed.becomes free
    have value : inside.tree.evaluate = .ok v := h.tree_alike.evaluate becomes.value
    rw [if_pos free, value, becomes.replaced operator]
    exact ⟨_, rfl, .leaf rfl⟩
  · rw [if_neg free]
    exact named (Bool.not_eq_true _ ▸ free)

theorem Prints.folded_alike {t : Tree} {p : Phrase} (h : t.Prints p) (printed : t.Printed) :
    ∃ r, p.folded = .ok r ∧ r.Alike t.fold.1 := by
  induction h with
  | leaf same => exact ⟨_, rfl, .leaf same⟩
  | @unary _ sign _ _ _ _ opens closes same below ih =>
    refine folded_group (.unary opens closes same below) printed fun named => ?_
    cases printed with
    | unary kind _ under =>
      obtain ⟨r, success, alike⟩ := ih under
      rw [isConstant_unary kind] at named
      rw [Phrase.folded, success, fold_unary_of_named (under.fold_of_named named)]
      exact ⟨_, rfl, .unary same alike⟩
  | @binary _ operator _ _ _ _ _ _ opens closes same left right ihLeft ihRight =>
    refine folded_group (.binary opens closes same left right) printed fun named => ?_
    cases printed with
    | binary kind _ first second =>
      obtain ⟨r, success, alike⟩ := ihLeft first
      obtain ⟨r', success', alike'⟩ := ihRight second
      rw [isConstant_binary kind, Bool.and_eq_false_iff] at named
      rw [Phrase.folded, success, success', fold_binary_of_named]
      · exact ⟨_, rfl, .binary same alike alike'⟩
      · rw [Bool.and_eq_false_iff]
        exact named.imp first.fold_of_named second.fold_of_named

/-- The text of a tree has no errors and is read to the tree that folding makes of it, apart from
the places of its tokens. -/
theorem Printed.readTree_text {t : Tree} (h : t.Printed) (file : Text) :
    (tokenize t.text file).2.hasErrors = false ∧
      ∃ r, Expression.readTree (tokenize t.text file).1 = .ok r ∧ r.Alike t.fold.1 := by
  refine ⟨h.hasErrors_tokenize file, ?_⟩
  have spelled := tokenize_spelled t.text file
  rw [h.split_text] at spelled
  obtain ⟨p, prints, tokens⟩ := h.exists_phrase spelled
  obtain ⟨r, folded, alike⟩ := prints.folded_alike h
  exact ⟨r, Expression.readTree_eq_ok_iff.mpr ⟨p, prints.derives h 1, tokens, folded⟩, alike⟩

/-- The tree of `-(2 / 3) * x`. -/
def signedQuotient : Tree :=
  .binary { kind := .star, lexeme := Text.ofString "*" }
    (.unary { kind := .minus, lexeme := Text.ofString "-" }
      (.binary { kind := .slash, lexeme := Text.ofString "/" }
        (.leaf { kind := .number, lexeme := Text.ofString "2", literal := .ofLexeme .number "2" })
        (.leaf { kind := .number, lexeme := Text.ofString "3", literal := .ofLexeme .number "3" })))
    (.leaf { kind := .identifier, lexeme := Text.ofString "x" })

theorem readTree_text_signedQuotient :
    signedQuotient.Printed ∧ signedQuotient.text = Text.ofString "((-(2 / 3)) * x)" ∧
      (tokenize signedQuotient.text []).2.hasErrors = false ∧
      ∃ r, Expression.readTree (tokenize signedQuotient.text []).1 = .ok r ∧
        r.Alike signedQuotient.fold.1 := by
  have digit {b : UInt8} (h : Text.isDigit b = true) :
      (Piece.token .number [b]).FollowedBy [] :=
    .whole (by simp) (by simpa using h) (by simp) (by simp)
  have name : (Piece.token .identifier (Text.ofString "x")).FollowedBy []  := by
    have empty : ∀ c ∈ ([] : Text), Piece.isWordByte c = true := by simp
    exact .word (show Piece.isLetter (Text.byte 'x') = true by decide) empty (by simp)
  have printed : signedQuotient.Printed := by
    apply Printed.binary (show TokenKind.star ∈ Phrase.operatorKinds 6 by decide) ⟨rfl, rfl⟩
    · apply Printed.unary (by decide) ⟨rfl, rfl⟩
      apply Printed.binary (show TokenKind.slash ∈ Phrase.operatorKinds 6 by decide) ⟨rfl, rfl⟩
      · exact .leaf (.inr rfl) ⟨digit rfl, rfl⟩
      · exact .leaf (.inr rfl) ⟨digit rfl, rfl⟩
    · exact .leaf (.inl rfl) ⟨name, rfl⟩
  exact ⟨printed, by decide +kernel, printed.readTree_text []⟩

end Tree

end NumScript
