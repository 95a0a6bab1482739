import NumScript.Proofs.Env.Outline
import NumScript.Proofs.Expression.Acceptance
import NumScript.Proofs.Expression.Shape
import NumScript.Proofs.Program.Reading

/-! What reading promises of programs. The trees of a program that is read from a script are well
formed: only a name without a value or a text can keep such a tree from being computed. Reading
puts numbers in the place of what it computes, but everything else in the program is a token of the
script. -/

namespace NumScript

/-- The leaves of the tree are operands, its numbers have values and its operators meanings. -/
inductive Tree.WellFormed : Tree → Prop
  | name {t : Token} : t.kind = .identifier → WellFormed (.leaf t)
  | text {t : Token} : t.kind = .string → WellFormed (.leaf t)
  | number {t : Token} {v : Float} : t.value = .ok v → WellFormed (.leaf t)
  | unary {op : Token} {f : Float → Float} {a : Tree} :
      op.kind.unaryMeaning? = some f → WellFormed a → WellFormed (.unary op a)
  | binary {op : Token} {f : Float → Float → Float} {a b : Tree} :
      op.kind.binaryMeaning? = some f → WellFormed a → WellFormed b → WellFormed (.binary op a b)

/-- Every expression of a program has a property. -/
def Program.Forall (P : Expression → Prop) : Program → Prop
  | done => True
  | block _ body rest => body.Forall P ∧ rest.Forall P
  | declare _ _ value rest => (∀ e ∈ value, P e) ∧ rest.Forall P
  | assign _ value rest => P value ∧ rest.Forall P
  | expression value rest => P value ∧ rest.Forall P
  | ifThen _ condition _ body rest => P condition ∧ body.Forall P ∧ rest.Forall P
  | ifElse _ condition _ body _ elseBody rest =>
    P condition ∧ body.Forall P ∧ elseBody.Forall P ∧ rest.Forall P
  | loop _ condition _ body rest => P condition ∧ body.Forall P ∧ rest.Forall P

/-- The tree is well formed, and its leaves are numbers and some of the given tokens. -/
structure Tree.Sourced (tokens : List Token) (t : Tree) : Prop where
  wellFormed : t.WellFormed
  leaves : ∀ leaf ∈ t.leaves, leaf.kind ≠ .number → leaf ∈ tokens

/-- A program is made of the given tokens and of numbers: its expressions are, and its names and
the keywords of its loops are some of the tokens. -/
def Program.Sourced (tokens : List Token) : Program → Prop
  | done => True
  | block _ body rest => body.Sourced tokens ∧ rest.Sourced tokens
  | declare _ name value rest =>
    name ∈ tokens ∧ (∀ e ∈ value, e.tree.Sourced tokens) ∧ rest.Sourced tokens
  | assign name value rest => name ∈ tokens ∧ value.tree.Sourced tokens ∧ rest.Sourced tokens
  | expression value rest => value.tree.Sourced tokens ∧ rest.Sourced tokens
  | ifThen _ condition _ body rest =>
    condition.tree.Sourced tokens ∧ body.Sourced tokens ∧ rest.Sourced tokens
  | ifElse _ condition _ body _ elseBody rest =>
    condition.tree.Sourced tokens ∧ body.Sourced tokens ∧ elseBody.Sourced tokens ∧
      rest.Sourced tokens
  | loop keyword condition _ body rest =>
    keyword ∈ tokens ∧ condition.tree.Sourced tokens ∧ body.Sourced tokens ∧ rest.Sourced tokens

/-! ### Programs that are read -/

theorem Phrase.Derives.wellFormed {level : Nat} {p : Phrase} (h : p.Derives level)
    (lexed : ∀ t ∈ p.tokens, t.Lexed) {tree : Tree} (success : p.folded = .ok tree) :
    tree.WellFormed := by
  induction h generalizing tree with
  | @operand _ t kind =>
    cases success
    simp only [operandKinds, List.mem_cons, List.not_mem_nil, or_false] at kind
    rcases kind with number | name | text
    · obtain ⟨v, value⟩ :=
        Token.exists_value number (lexed t (List.mem_singleton_self t)).literal_eq
      exact .number value
    · exact .name name
    · exact .text text
  | @group _ opening _ inside _ _ _ ih =>
    rw [folded] at success
    split at success
    · obtain ⟨v, -, rfl⟩ := Except.map_eq_ok_iff.mp success
      exact .number (Token.value_ofNumber v opening)
    · exact ih (fun t here => lexed t (by simp [tokens, here])) success
  | @signed _ sign _ _ kind _ ih =>
    obtain ⟨a, first, rfl⟩ := Except.map_eq_ok_iff.mp success
    obtain ⟨f, meaning⟩ := Option.isSome_iff_exists.mp (TokenKind.isPrefixSign_iff.mpr kind)
    exact .unary meaning (ih (fun t here => lexed t (List.mem_cons_of_mem _ here)) first)
  | joined _ kind _ _ ihLeft ihRight =>
    obtain ⟨a, first, more⟩ := Except.bind_eq_ok_iff.mp success
    obtain ⟨b, second, rfl⟩ := Except.map_eq_ok_iff.mp more
    obtain ⟨f, meaning⟩ :=
      TokenKind.binaryMeaning?_of_precedence? (TokenKind.precedence?_eq_some_iff.mpr kind)
    exact .binary meaning (ihLeft (fun t here => lexed t (List.mem_append_left _ here)) first)
      (ihRight (fun t here => lexed t (List.mem_append_right _ (List.mem_cons_of_mem _ here)))
        second)

theorem Phrase.leaves_folded {p : Phrase} {tree : Tree} (success : p.folded = .ok tree) :
    ∀ leaf ∈ tree.leaves, leaf.kind ≠ .number → leaf ∈ p.tokens := by
  induction p generalizing tree with
  | operand t =>
    cases success
    exact fun leaf member _ => member
  | group opening inside closing ih =>
    rw [folded] at success
    intro leaf member kind
    split at success
    · obtain ⟨v, -, rfl⟩ := Except.map_eq_ok_iff.mp success
      obtain rfl := List.mem_singleton.mp member
      exact absurd (Token.ofNumber_kind v opening) kind
    · simp [tokens, ih success leaf member kind]
  | signed sign inside ih =>
    obtain ⟨a, first, rfl⟩ := Except.map_eq_ok_iff.mp success
    exact fun leaf member kind => List.mem_cons_of_mem _ (ih first leaf member kind)
  | joined operator left right ihLeft ihRight =>
    obtain ⟨a, first, more⟩ := Except.bind_eq_ok_iff.mp success
    obtain ⟨b, second, rfl⟩ := Except.map_eq_ok_iff.mp more
    intro leaf member kind
    rcases List.mem_append.mp member with member | member
    · exact List.mem_append_left _ (ihLeft first leaf member kind)
    · exact List.mem_append_right _ (List.mem_cons_of_mem _ (ihRight second leaf member kind))

theorem Slice.sourced (s : Slice) {tokens : List Token} (lexed : ∀ t ∈ tokens, t.Lexed)
    (inside : ∀ t ∈ s.tokens, t ∈ tokens) : s.expression.tree.Sourced tokens := by
  obtain ⟨p, derives, same, folded⟩ := Expression.readTree_eq_ok_iff.mp s.reads
  have whole : p.tokens = s.tokens := same
  have within : ∀ t ∈ p.tokens, t ∈ tokens := fun t here => inside t (whole ▸ here)
  exact ⟨derives.wellFormed (fun t here => lexed t (within t here)) folded,
    fun leaf member kind => within leaf (Phrase.leaves_folded folded leaf member kind)⟩

theorem Script.sourced (s : Script) {tokens : List Token} (lexed : ∀ t ∈ tokens, t.Lexed)
    (inside : ∀ t ∈ s.tokens, t ∈ tokens) : s.program.Sourced tokens := by
  induction s with
  | done => trivial
  | empty semicolon rest ih => exact ih fun t here => inside t (List.mem_cons_of_mem _ here)
  | block opening body closing rest ihBody ih =>
    simp only [Script.tokens, List.forall_mem_cons, List.forall_mem_append] at inside
    exact ⟨ihBody inside.2.1, ih inside.2.2.2⟩
  | declare keyword name semicolon rest ih =>
    simp only [Script.tokens, List.forall_mem_cons] at inside
    exact ⟨inside.2.1, by simp, ih inside.2.2.2⟩
  | define keyword name equals value semicolon rest ih =>
    simp only [Script.tokens, List.forall_mem_cons, List.forall_mem_append] at inside
    obtain ⟨-, named, -, computed, -, outer⟩ := inside
    exact ⟨named, by simpa using value.sourced lexed computed, ih outer⟩
  | assign name equals value semicolon rest ih =>
    simp only [Script.tokens, List.forall_mem_cons, List.forall_mem_append] at inside
    exact ⟨inside.1, value.sourced lexed inside.2.2.1, ih inside.2.2.2.2⟩
  | expression value semicolon rest ih =>
    simp only [Script.tokens, List.forall_mem_cons, List.forall_mem_append] at inside
    exact ⟨value.sourced lexed inside.1, ih inside.2.2⟩
  | ifThen keyword paren condition parenEnd brace body braceEnd rest ihBody ih =>
    simp only [Script.tokens, List.forall_mem_cons, List.forall_mem_append] at inside
    obtain ⟨-, -, decided, -, -, inner, -, outer⟩ := inside
    exact ⟨condition.sourced lexed decided, ihBody inner, ih outer⟩
  | ifElse keyword paren condition parenEnd brace body braceEnd otherwise elseBrace elseBody
      elseEnd rest ihBody ihElse ih =>
    simp only [Script.tokens, List.forall_mem_cons, List.forall_mem_append] at inside
    obtain ⟨-, -, decided, -, -, inner, -, -, -, other, -, outer⟩ := inside
    exact ⟨condition.sourced lexed decided, ihBody inner, ihElse other, ih outer⟩
  | loop keyword paren condition parenEnd brace body braceEnd rest ihBody ih =>
    simp only [Script.tokens, List.forall_mem_cons, List.forall_mem_append] at inside
    obtain ⟨looped, -, decided, -, -, inner, -, outer⟩ := inside
    exact ⟨looped, condition.sourced lexed decided, ihBody inner, ih outer⟩

/-- A program that is read from a script is made of its tokens. -/
theorem Program.sourced_of_read {tokens : List Token} {p : Program}
    (lexed : ∀ t ∈ tokens, t.Lexed) (success : read tokens = .ok p) : p.Sourced tokens := by
  obtain ⟨s, rfl, rfl⟩ := exists_script (Nat.lt_succ_self _) success
  exact s.sourced lexed fun _ here => here

theorem Program.Sourced.wellFormed {tokens : List Token} {p : Program} (h : p.Sourced tokens) :
    p.Forall fun e => e.tree.WellFormed := by
  induction p with
  | done => trivial
  | block brace body rest ihBody ih => exact ⟨ihBody h.1, ih h.2⟩
  | declare keyword name value rest ih => exact ⟨fun e member => (h.2.1 e member).1, ih h.2.2⟩
  | assign name value rest ih => exact ⟨h.2.1.1, ih h.2.2⟩
  | expression value rest ih => exact ⟨h.1.1, ih h.2⟩
  | ifThen keyword condition brace body rest ihBody ih =>
    exact ⟨h.1.1, ihBody h.2.1, ih h.2.2⟩
  | ifElse keyword condition brace body elseBrace elseBody rest ihBody ihElse ih =>
    exact ⟨h.1.1, ihBody h.2.1, ihElse h.2.2.1, ih h.2.2.2⟩
  | loop keyword condition brace body rest ihBody ih =>
    exact ⟨h.2.1.1, ihBody h.2.2.1, ih h.2.2.2⟩

/-- Every expression of a program that is read from a script is well formed. -/
theorem Program.wellFormed_of_read {tokens : List Token} {p : Program}
    (lexed : ∀ t ∈ tokens, t.Lexed) (success : read tokens = .ok p) :
    p.Forall fun e => e.tree.WellFormed :=
  (sourced_of_read lexed success).wellFormed

theorem Script.wellShaped (s : Script) : s.program.Forall fun e => e.tree.WellShaped := by
  have slice (s : Slice) : s.expression.tree.WellShaped :=
    Expression.wellShaped_of_readTree s.reads
  induction s with
  | done => trivial
  | empty semicolon rest ih => exact ih
  | block opening body closing rest ihBody ih => exact ⟨ihBody, ih⟩
  | declare keyword name semicolon rest ih => exact ⟨by simp, ih⟩
  | define keyword name equals value semicolon rest ih => exact ⟨by simpa using slice value, ih⟩
  | assign name equals value semicolon rest ih => exact ⟨slice value, ih⟩
  | expression value semicolon rest ih => exact ⟨slice value, ih⟩
  | ifThen keyword paren condition parenEnd brace body braceEnd rest ihBody ih =>
    exact ⟨slice condition, ihBody, ih⟩
  | ifElse keyword paren condition parenEnd brace body braceEnd otherwise elseBrace elseBody
      elseEnd rest ihBody ihElse ih =>
    exact ⟨slice condition, ihBody, ihElse, ih⟩
  | loop keyword paren condition parenEnd brace body braceEnd rest ihBody ih =>
    exact ⟨slice condition, ihBody, ih⟩

theorem Program.wellShaped_of_read {tokens : List Token} {p : Program}
    (success : read tokens = .ok p) : p.Forall fun e => e.tree.WellShaped := by
  obtain ⟨s, -, rfl⟩ := exists_script (Nat.lt_succ_self _) success
  exact s.wellShaped

/-! ### Values -/

/-- A leaf that can be computed in an environment that shows its name. -/
def Env.Shows (env : Env) (t : Token) : Prop :=
  t.kind ≠ .string ∧ (t.kind = .identifier → (env.constancy t.lexeme).isSome = true)

theorem Env.Shows.congr {env env' : Env} (same : env'.outline = env.outline) {t : Token}
    (h : env.Shows t) : env'.Shows t :=
  ⟨h.1, fun name => constancy_congr same t.lexeme ▸ h.2 name⟩

/-- Only a name without a value keeps a well-formed tree from being computed. -/
theorem Tree.WellFormed.staged {t : Tree} (h : t.WellFormed) {env : Env}
    (shows : ∀ leaf ∈ t.leaves, env.Shows leaf) :
    (∃ d, (t.staged env).1 = .error d ∧ d.cause = some .uninitialized) ∨
      ∃ v, (t.staged env).1 = .ok (.ok v) := by
  induction h generalizing env with
  | @name t kind =>
    obtain ⟨flag, found⟩ := Option.isSome_iff_exists.mp
      ((shows t (List.mem_singleton_self t)).2 kind)
    obtain ⟨sym, resolved, -⟩ := Option.map_eq_some_iff.mp found
    cases value : sym.value with
    | none =>
      refine .inl ⟨Env.uninitialized t.lexeme t.line, ?_, rfl⟩
      simp [Tree.staged, Tree.bind, kind, Env.get, resolved, value, Except.map]
    | some v =>
      refine .inr ⟨v, ?_⟩
      simp [Tree.staged, Tree.bind, kind, Env.get, resolved, value, Except.map]
  | @text t kind => exact absurd kind (shows t (List.mem_singleton_self t)).1
  | @number t v value =>
    have kind : t.kind = .number := by
      by_contra other
      simp [Token.value, other] at value
    refine .inr ⟨v, ?_⟩
    simp [Tree.staged, Tree.bind, kind, Except.map, value]
  | @unary _ f _ meaning _ ih =>
    rw [Tree.staged_unary]
    rcases ih shows with ⟨d, failed, cause⟩ | ⟨v, computed⟩
    · exact .inl ⟨d, by simp [failed, Except.map], cause⟩
    · exact .inr ⟨f v, by simp [computed, Except.map, Tree.applyUnary, meaning]⟩
  | @binary op f a b meaning _ _ ihLeft ihRight =>
    rw [Tree.staged_binary]
    have left := ihLeft fun leaf here => shows leaf (List.mem_append_left _ here)
    have same : (a.staged env).2.outline = env.outline := Env.reading_outline.bind env a
    have right := ihRight fun leaf here =>
      (shows leaf (List.mem_append_right _ here)).congr same
    revert left right
    rcases a.staged env with ⟨first, env₁⟩
    rintro (⟨d, rfl, cause⟩ | ⟨v, rfl⟩) right
    · exact .inl ⟨d, rfl, cause⟩
    · rcases right with ⟨d, failed, cause⟩ | ⟨w, computed⟩
      · exact .inl ⟨d, by simp [failed, Except.map], cause⟩
      · exact .inr ⟨f v w, by
          simp [computed, Except.map, Except.bind, Tree.applyBinary, meaning]⟩

theorem Tree.WellFormed.evaluateIn {t : Tree} (h : t.WellFormed) {env : Env}
    (shows : ∀ leaf ∈ t.leaves, env.Shows leaf) :
    (∃ d, (t.evaluateIn env).1 = .error d ∧ d.cause = some .uninitialized) ∨
      ∃ v, (t.evaluateIn env).1 = .ok v := by
  rw [Tree.evaluateIn_eq_staged]
  rcases h.staged shows with ⟨d, failed, cause⟩ | ⟨v, computed⟩
  · exact .inl ⟨d, by simp [failed, Except.bind], cause⟩
  · exact .inr ⟨v, by simp [computed, Except.bind]⟩

end NumScript
