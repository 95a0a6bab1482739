import NumScript.Proofs.Expression.Acceptance

/-! What it means to compute groups while they are read. A group without names is replaced by its
value only when it has one, and then neither stage of the expression around it can tell the
difference: nothing is read in either, and the value is the same. -/

namespace NumScript

namespace Phrase

theorem isConstant_tree {p : Phrase} (constant : p.isConstant = true) :
    p.tree.isConstant = true := by
  rw [isConstant_iff] at constant
  induction p with
  | operand t => simpa [tree, tokens, Tree.isConstant] using constant
  | group opening inside closing ih =>
    exact ih fun t here => constant t (by simp [tokens, here])
  | signed sign inside ih =>
    obtain ⟨first, below⟩ := List.forall_mem_cons.mp constant
    simp [tree, Tree.isConstant, first, ih below]
  | joined operator left right ihLeft ihRight =>
    obtain ⟨before, behind⟩ := List.forall_mem_append.mp constant
    obtain ⟨middle, after⟩ := List.forall_mem_cons.mp behind
    simp [tree, Tree.isConstant, middle, ihLeft before, ihRight after]

/-- Computing the groups without names changes neither stage of a phrase's value. -/
theorem staged_of_folded {p : Phrase} {tree : Tree} (computed : p.folded = .ok tree) (env : Env) :
    tree.staged env = p.tree.staged env := by
  induction p generalizing tree env with
  | operand t =>
    cases computed
    rfl
  | group opening inside closing ih =>
    rw [folded] at computed
    split at computed
    · rename_i constant
      obtain ⟨v, value, rfl⟩ := Except.map_eq_ok_iff.mp computed
      have number : (Tree.leaf (.ofNumber v opening)).isConstant = true := by
        simp [Tree.isConstant]
      rw [Phrase.tree, Tree.staged_of_isConstant number,
        Tree.staged_of_isConstant (isConstant_tree constant), value, Tree.evaluate_leaf,
        Token.value_ofNumber]
    · exact ih computed env
  | signed sign inside ih =>
    obtain ⟨a, below, rfl⟩ := Except.map_eq_ok_iff.mp computed
    rw [Phrase.tree, Tree.staged_unary, Tree.staged_unary, ih below]
  | joined operator left right ihLeft ihRight =>
    obtain ⟨a, first, rest⟩ := Except.bind_eq_ok_iff.mp computed
    obtain ⟨b, second, rfl⟩ := Except.map_eq_ok_iff.mp rest
    rw [Phrase.tree, Tree.staged_binary, Tree.staged_binary, ihLeft first]
    rcases left.tree.staged env with ⟨_ | v, env'⟩
    · rfl
    · simp only [ihRight second]

end Phrase

namespace Expression

/-- The tree that an expression is read to has, in every environment, the value or the problem of
the tree of its derivation, in which nothing is computed, and it marks the same names as used. -/
theorem readTree_meaning {tokens : List Token} {tree : Tree}
    (success : readTree tokens = .ok tree) :
    ∃ p : Phrase, (p.Derives 1 ∧ p.tokens = tokens) ∧
      (∀ q : Phrase, q.Derives 1 → q.tokens = tokens → q = p) ∧
      ∀ env : Env, tree.evaluateIn env = p.tree.evaluateIn env := by
  obtain ⟨p, derives, rfl, computed⟩ := readTree_eq_ok_iff.mp success
  refine ⟨p, ⟨derives, rfl⟩, fun q other same => other.eq_of_tokens derives same, fun env => ?_⟩
  rw [Tree.evaluateIn_eq_staged, Tree.evaluateIn_eq_staged, Phrase.staged_of_folded computed]

/-- The tokens of `(x - (2 + 1)) * -(4)`. -/
def mixedGroups : List Token := (tokenize (Text.ofString "(x - (2 + 1)) * -(4)") []).1

/-- Two of the three groups are computed while they are read, and the third reads its name as it
would without that. -/
theorem readTree_meaning_mixedGroups :
    ∃ (tree : Tree) (p : Phrase), readTree mixedGroups = .ok tree ∧
      tree.text = Text.ofString "((x - 3) * (-4))" ∧ p.tokens = mixedGroups ∧
      ∀ env : Env, tree.evaluateIn env = p.tree.evaluateIn env := by
  have shape : (readTree mixedGroups).toOption.map Tree.text =
      some (Text.ofString "((x - 3) * (-4))") := by decide +kernel
  cases success : readTree mixedGroups with
  | error d => simp [success, Except.toOption] at shape
  | ok tree =>
    obtain ⟨p, ⟨-, same⟩, -, meaning⟩ := readTree_meaning success
    rw [success] at shape
    exact ⟨tree, p, rfl, Option.some.inj shape, same, meaning⟩

end Expression

end NumScript
