import NumScript.Proofs.Expression.Reading

/-! The shape of the trees that are read, whatever the tokens: no node has more than two operands,
signs stand in front of one and operators between two, and only numbers, names and texts are
leaves. A number may still lack a value, for tokens need not come from a script. -/

namespace NumScript

/-- The leaves of the tree are operands and its operators have meanings. -/
inductive Tree.WellShaped : Tree → Prop
  | leaf {t : Token} : t.kind ∈ Phrase.operandKinds → WellShaped (.leaf t)
  | unary {op : Token} {f : Float → Float} {a : Tree} :
      op.kind.unaryMeaning? = some f → WellShaped a → WellShaped (.unary op a)
  | binary {op : Token} {f : Float → Float → Float} {a b : Tree} :
      op.kind.binaryMeaning? = some f → WellShaped a → WellShaped b → WellShaped (.binary op a b)

theorem Phrase.Derives.wellShaped {level : Nat} {p : Phrase} (h : p.Derives level) {tree : Tree}
    (success : p.folded = .ok tree) : tree.WellShaped := by
  induction h generalizing tree with
  | operand kind =>
    cases success
    exact .leaf kind
  | @group _ opening _ inside _ _ _ ih =>
    rw [folded] at success
    by_cases constant : inside.isConstant = true
    · rw [if_pos constant] at success
      obtain ⟨v, -, rfl⟩ := Except.map_eq_ok_iff.mp success
      apply Tree.WellShaped.leaf
      show TokenKind.number ∈ operandKinds
      decide
    · rw [if_neg constant] at success
      exact ih success
  | signed _ kind _ ih =>
    obtain ⟨a, first, rfl⟩ := Except.map_eq_ok_iff.mp success
    obtain ⟨f, meaning⟩ := Option.isSome_iff_exists.mp (TokenKind.isPrefixSign_iff.mpr kind)
    exact .unary meaning (ih first)
  | joined _ kind _ _ ihLeft ihRight =>
    obtain ⟨a, first, more⟩ := Except.bind_eq_ok_iff.mp success
    obtain ⟨b, second, rfl⟩ := Except.map_eq_ok_iff.mp more
    obtain ⟨f, meaning⟩ :=
      TokenKind.binaryMeaning?_of_precedence? (TokenKind.precedence?_eq_some_iff.mpr kind)
    exact .binary meaning (ihLeft first) (ihRight second)

theorem Expression.wellShaped_of_readTree {tokens : List Token} {tree : Tree}
    (success : readTree tokens = .ok tree) : tree.WellShaped := by
  obtain ⟨p, derives, -, folded⟩ := readTree_eq_ok_iff.mp success
  exact derives.wellShaped folded

end NumScript
