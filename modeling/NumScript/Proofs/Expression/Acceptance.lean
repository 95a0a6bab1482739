import NumScript.Proofs.Expression.Reading
import NumScript.Proofs.Expression.Unambiguity
import NumScript.Token.Lexer

/-! Which expressions of a script are read. The lexer gives every number its value, so the only
groups that cannot be computed are those without names that hold a text. -/

namespace NumScript

/-- The token comes from a script. -/
def Token.Lexed (t : Token) : Prop := ∃ source file, t ∈ (tokenize source file).1

theorem Lexer.literal_of_mem_readFrom {file : Text} {place : Place} {pieces : List Piece}
    {t : Token} (member : t ∈ (readFrom file place pieces).1) :
    t.literal = Literal.ofLexeme t.kind t.lexeme := by
  induction pieces generalizing place with
  | nil => cases member
  | cons piece rest ih =>
    rcases List.mem_append.mp member with here | below
    · cases piece with
      | token kind text =>
        obtain rfl := List.mem_singleton.mp here
        rfl
      | blank | comment | rejected | openString => cases here
    · exact ih below

theorem Token.Lexed.literal_eq {t : Token} (lexed : t.Lexed) :
    t.literal = Literal.ofLexeme t.kind t.lexeme := by
  obtain ⟨source, file, member⟩ := lexed
  exact Lexer.literal_of_mem_readFrom member

/-- A number with the literal that its text stands for has a value. -/
theorem Token.exists_value {t : Token} (kind : t.kind = .number)
    (literal : t.literal = Literal.ofLexeme t.kind t.lexeme) : ∃ v, t.value = .ok v := by
  rw [kind] at literal
  simp [Token.value, kind, Token.number?, literal, Literal.ofLexeme]

namespace Phrase

theorem isConstant_iff {p : Phrase} :
    p.isConstant = true ↔ ∀ t ∈ p.tokens, t.kind ≠ .identifier := by
  simp [isConstant]

theorem isTextFree_iff {p : Phrase} :
    p.isTextFree = true ↔ ∀ t ∈ p.tokens, t.kind ≠ .string := by
  simp [isTextFree]

theorem tokens_subset_of_mem_groups {p inside : Phrase} (member : inside ∈ p.groups) :
    inside.tokens ⊆ p.tokens := by
  induction p with
  | operand t => cases member
  | group opening body closing ih =>
    have within : body.tokens ⊆ (group opening body closing).tokens := by
      intro t here
      simp [tokens, here]
    rcases List.mem_cons.mp member with rfl | below
    · exact within
    · exact List.Subset.trans (ih below) within
  | signed sign body ih => exact List.subset_cons_of_subset sign (ih member)
  | joined operator left right ihLeft ihRight =>
    rcases List.mem_append.mp member with below | below
    · exact List.subset_append_of_subset_left _ (ihLeft below)
    · have behind := List.subset_cons_of_subset operator (ihRight below)
      exact List.subset_append_of_subset_right _ behind

/-- A phrase without names has a value exactly when it holds no text. -/
theorem Derives.evaluate_iff {level : Nat} {p : Phrase} (h : p.Derives level)
    (lexed : ∀ t ∈ p.tokens, t.Lexed) (constant : p.isConstant = true) :
    (∃ v, p.tree.evaluate = .ok v) ↔ p.isTextFree = true := by
  rw [isConstant_iff] at constant
  rw [isTextFree_iff]
  induction h with
  | @operand _ t kind =>
    have here : t ∈ (Phrase.operand t).tokens := List.mem_singleton_self t
    have only : t.kind = .number ∨ t.kind = .string := by
      have := constant t here
      simp only [operandKinds, List.mem_cons, List.not_mem_nil, or_false] at kind
      tauto
    rw [tree, Tree.evaluate_leaf, tokens, List.forall_mem_singleton]
    rcases only with number | text
    · simp [number, Token.exists_value number (lexed t here).literal_eq]
    · simp [text, Token.value]
  | group opens closes _ ih =>
    simp only [tokens, List.cons_append, List.forall_mem_cons, List.forall_mem_append]
      at lexed constant ⊢
    rw [tree, ih lexed.2.1 constant.2.1, opens, closes]
    simp
  | @signed _ sign _ _ kind _ ih =>
    simp only [tokens, List.forall_mem_cons] at lexed constant ⊢
    obtain ⟨f, meaning⟩ : ∃ f, sign.kind.unaryMeaning? = some f :=
      Option.isSome_iff_exists.mp (TokenKind.isPrefixSign_iff.mpr kind)
    have notText : sign.kind ≠ .string := by
      intro text
      rw [text] at meaning
      cases meaning
    rw [← ih lexed.2 constant.2, tree]
    simp [Tree.evaluate_unary, Tree.applyUnary_eq_ok_iff, meaning, notText]
  | @joined _ _ operator _ _ _ kind _ _ ihLeft ihRight =>
    simp only [tokens, List.forall_mem_append, List.forall_mem_cons] at lexed constant ⊢
    obtain ⟨f, meaning⟩ : ∃ f, operator.kind.binaryMeaning? = some f :=
      TokenKind.binaryMeaning?_of_precedence? (TokenKind.precedence?_eq_some_iff.mpr kind)
    have notText : operator.kind ≠ .string := by
      intro text
      rw [text] at meaning
      cases meaning
    rw [← ihLeft lexed.1 constant.1, ← ihRight lexed.2.2 constant.2.2, tree]
    simp [Tree.evaluate_binary, Tree.applyBinary_eq_ok_iff, meaning, notText]

/-- The groups of a phrase can be computed exactly when those without names hold no text. -/
theorem Derives.folded_iff {level : Nat} {p : Phrase} (h : p.Derives level)
    (lexed : ∀ t ∈ p.tokens, t.Lexed) :
    (∃ tree, p.folded = .ok tree) ↔
      ∀ inside ∈ p.groups, inside.isConstant = true → inside.isTextFree = true := by
  induction h with
  | operand _ => simp [folded, groups]
  | @group _ _ _ inside _ _ derives ih =>
    have below : ∀ t ∈ inside.tokens, t.Lexed := fun t here => lexed t (by simp [tokens, here])
    rw [folded, groups, List.forall_mem_cons]
    split
    · rename_i constant
      have value := derives.evaluate_iff below constant
      constructor
      · rintro ⟨tree, success⟩
        obtain ⟨v, computed, -⟩ := Except.map_eq_ok_iff.mp success
        have free := isTextFree_iff.mp (value.mp ⟨v, computed⟩)
        exact ⟨fun _ => isTextFree_iff.mpr free, fun body member _ => isTextFree_iff.mpr
          fun t here => free t (tokens_subset_of_mem_groups member here)⟩
      · rintro ⟨own, -⟩
        obtain ⟨v, computed⟩ := value.mpr (own constant)
        exact ⟨_, Except.map_eq_ok_iff.mpr ⟨v, computed, rfl⟩⟩
    · rename_i named
      rw [ih below]
      simp [named]
  | signed _ _ _ ih =>
    have below := ih fun t here => lexed t (List.mem_cons_of_mem _ here)
    simpa [folded, groups, Except.map_eq_ok_iff] using below
  | joined _ _ _ _ ihLeft ihRight =>
    have left := ihLeft fun t here => lexed t (List.mem_append_left _ here)
    have right := ihRight fun t here =>
      lexed t (List.mem_append_right _ (List.mem_cons_of_mem _ here))
    simp only [folded, groups, List.forall_mem_append, Except.map_eq_ok_iff,
      Except.bind_eq_ok_iff, ← left, ← right]
    constructor
    · rintro ⟨_, a, first, b, second, -⟩
      exact ⟨⟨a, first⟩, b, second⟩
    · rintro ⟨⟨a, first⟩, b, second⟩
      exact ⟨_, a, first, b, second, rfl⟩

end Phrase

namespace Expression

/-- An expression of a script is read exactly when it derives from the grammar and no group
without names holds a text. It has one derivation, and is read to the tree of that derivation, in
which every group without names has become the number that it computes. -/
theorem readTree_grammar {tokens : List Token} (lexed : ∀ t ∈ tokens, t.Lexed) :
    ((∃ tree, readTree tokens = .ok tree) ↔
      ∃ p : Phrase, p.Derives 1 ∧ p.tokens = tokens ∧
        ∀ inside ∈ p.groups, inside.isConstant = true → inside.isTextFree = true) ∧
    (∀ p q : Phrase, p.Derives 1 → q.Derives 1 → p.tokens = tokens → q.tokens = tokens → p = q) ∧
    (∀ tree, readTree tokens = .ok tree →
      ∃ p : Phrase, p.Derives 1 ∧ p.tokens = tokens ∧ p.folded = .ok tree) := by
  refine ⟨⟨?_, ?_⟩, ?_, fun tree => readTree_eq_ok_iff.mp⟩
  · rintro ⟨tree, success⟩
    obtain ⟨p, derives, rfl, folded⟩ := readTree_eq_ok_iff.mp success
    exact ⟨p, derives, rfl, (derives.folded_iff lexed).mp ⟨tree, folded⟩⟩
  · rintro ⟨p, derives, rfl, textFree⟩
    obtain ⟨tree, folded⟩ := (derives.folded_iff lexed).mpr textFree
    exact ⟨tree, readTree_eq_ok_iff.mpr ⟨p, derives, rfl, folded⟩⟩
  · intro p q derives derives' same same'
    exact derives.eq_of_tokens derives' (same.trans same'.symm)

/-- The tokens of `-(1 + 2) * !(x)`. -/
def signedGroups : List Token := (tokenize (Text.ofString "-(1 + 2) * !(x)") []).1

theorem readTree_signedGroups :
    (∀ t ∈ signedGroups, t.Lexed) ∧
      ∃ p : Phrase, p.Derives 1 ∧ p.tokens = signedGroups ∧
        ∀ inside ∈ p.groups, inside.isConstant = true → inside.isTextFree = true := by
  have lexed : ∀ t ∈ signedGroups, t.Lexed := fun t member => ⟨_, _, member⟩
  refine ⟨lexed, ?_⟩
  have success : (readTree signedGroups).toOption.isSome = true := by decide +kernel
  cases read : readTree signedGroups with
  | error d => simp [read, Except.toOption] at success
  | ok tree => exact (readTree_grammar lexed).1.mp ⟨tree, read⟩

end Expression

end NumScript
