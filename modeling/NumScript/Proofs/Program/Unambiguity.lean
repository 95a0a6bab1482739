import NumScript.Proofs.Program.Reading

/-! The grammar of programs is unambiguous. The first tokens of a script tell the form of its first
statement, up to whether an `else` follows; and every part of a statement ends at a token that the
part cannot hold, or where its delimiters balance. -/

namespace NumScript

/-- The forms of statements that their first tokens tell apart. -/
inductive Form where
  | done | empty | block | declare | define | assign | expression | branch | loop
  deriving DecidableEq

namespace Form

/-- The form of the statement that some tokens start with. -/
def ofTokens : List Token → Form
  | [] => done
  | t :: rest =>
    match t.kind with
    | .semicolon => empty
    | .leftBrace => block
    | .letWord | .constWord =>
      match rest with
      | _ :: next :: _ => if next.kind = .assign then define else declare
      | _ => declare
    | .ifWord => branch
    | .whileWord => loop
    | .identifier =>
      match rest with
      | next :: _ => if next.kind = .assign then assign else expression
      | [] => expression
    | _ => expression

theorem ofTokens_expression {t : Token} {rest : List Token} (kind : t.kind ∈ Phrase.startKinds)
    (unassigned : ∀ next ∈ rest.head?, next.kind ≠ .assign) :
    ofTokens (t :: rest) = expression := by
  simp only [Phrase.startKinds, Phrase.operandKinds, Phrase.signKinds, List.cons_append,
    List.nil_append, List.mem_cons, List.not_mem_nil, or_false] at kind
  rcases kind with kind | kind | kind | kind | kind | kind | kind <;> simp only [ofTokens, kind]
  cases rest with
  | nil => rfl
  | cons next others =>
    have other : next.kind ≠ .assign := unassigned next rfl
    simp only [other, if_false]

end Form

/-- What stands before a semicolon is one slice in every reading. -/
theorem Slice.terminated_unique {s s' : Slice} {semicolon semicolon' : Word .semicolon}
    {rest rest' : List Token}
    (same : s.tokens ++ semicolon.val :: rest = s'.tokens ++ semicolon'.val :: rest') :
    s = s' ∧ semicolon = semicolon' ∧ rest = rest' := by
  have first := Program.readTerminated_slice {} s semicolon rest
  rw [same, Program.readTerminated_slice] at first
  obtain rfl : rest' = rest := (Prod.mk.inj (Except.ok.inj first)).2
  obtain ⟨tokens, behind⟩ := List.append_inj' same rfl
  exact ⟨Slice.eq_of_tokens tokens, Subtype.ext (List.cons.inj behind).1, rfl⟩

/-- What stands in parentheses is one slice in every reading. -/
theorem Slice.enclosed_unique {s s' : Slice} {paren paren' : Word .rightParen}
    {rest rest' : List Token}
    (same : s.tokens ++ paren.val :: rest = s'.tokens ++ paren'.val :: rest') :
    s = s' ∧ paren = paren' ∧ rest = rest' := by
  obtain ⟨tokens, closer, behind⟩ := Program.enclosed_unique (by decide) paren.property
    paren'.property s.paren_balanced s'.paren_balanced same
  exact ⟨Slice.eq_of_tokens tokens, Subtype.ext closer, behind⟩

namespace Script

/-- What stands in braces has the same tokens in every reading. -/
theorem enclosed_unique {s s' : Script} {brace brace' : Word .rightBrace}
    {rest rest' : List Token}
    (same : s.tokens ++ brace.val :: rest = s'.tokens ++ brace'.val :: rest') :
    s.tokens = s'.tokens ∧ brace = brace' ∧ rest = rest' := by
  obtain ⟨tokens, closer, behind⟩ := Program.enclosed_unique (by decide) brace.property
    brace'.property s.brace_balanced s'.brace_balanced same
  exact ⟨tokens, Subtype.ext closer, behind⟩

/-- A keyword with its condition and its block is one in every reading. -/
theorem conditional_unique {kind : TokenKind} {keyword keyword' : Word kind}
    {paren paren' : Word .leftParen} {condition condition' : Slice}
    {parenEnd parenEnd' : Word .rightParen} {brace brace' : Word .leftBrace} {body body' : Script}
    {braceEnd braceEnd' : Word .rightBrace} {rest rest' : List Token}
    (same : keyword.val :: paren.val :: (condition.tokens ++ parenEnd.val :: brace.val ::
        (body.tokens ++ braceEnd.val :: rest)) =
      keyword'.val :: paren'.val :: (condition'.tokens ++ parenEnd'.val :: brace'.val ::
        (body'.tokens ++ braceEnd'.val :: rest'))) :
    (keyword = keyword' ∧ paren = paren' ∧ condition = condition' ∧ parenEnd = parenEnd' ∧
      brace = brace' ∧ braceEnd = braceEnd') ∧ body.tokens = body'.tokens ∧ rest = rest' := by
  obtain ⟨first, behind⟩ := List.cons.inj same
  obtain ⟨second, behind⟩ := List.cons.inj behind
  obtain ⟨third, fourth, behind⟩ := Slice.enclosed_unique behind
  obtain ⟨fifth, behind⟩ := List.cons.inj behind
  obtain ⟨inner, sixth, outer⟩ := enclosed_unique behind
  exact ⟨⟨Subtype.ext first, Subtype.ext second, third, fourth, Subtype.ext fifth, sixth⟩, inner,
    outer⟩

/-- The form of the first statement. -/
def form : Script → Form
  | done => .done
  | empty .. => .empty
  | block .. => .block
  | declare .. => .declare
  | define .. => .define
  | assign .. => .assign
  | expression .. => .expression
  | ifThen .. | ifElse .. => .branch
  | loop .. => .loop

theorem ofTokens_tokens (s : Script) : Form.ofTokens s.tokens = s.form := by
  cases s with
  | done => rfl
  | empty word | block word | ifThen word | ifElse word | loop word =>
    simp only [tokens, Form.ofTokens, word.property, form]
  | declare keyword name semicolon rest =>
    rcases keyword.property with kind | kind <;>
      simp [tokens, Form.ofTokens, kind, semicolon.property, form]
  | define keyword name equals value semicolon rest =>
    rcases keyword.property with kind | kind <;>
      simp [tokens, Form.ofTokens, kind, equals.property, form]
  | assign name equals value semicolon rest =>
    simp [tokens, Form.ofTokens, name.property, equals.property, form]
  | expression value semicolon rest =>
    exact Form.ofTokens_expression value.start_mem (value.next_ne_assign semicolon rest.tokens)

/-- A script is the only one with its tokens. -/
theorem eq_of_tokens {s s' : Script} (same : s.tokens = s'.tokens) : s = s' := by
  have alike {s s' : Script} (same : s.tokens = s'.tokens) : s.form = s'.form := by
    rw [← s.ofTokens_tokens, ← s'.ofTokens_tokens, same]
  induction s generalizing s' with
  | done =>
    cases s' with
    | done => rfl
    | _ => cases alike same
  | empty semicolon rest ih =>
    cases s' with
    | empty semicolon' rest' =>
      obtain ⟨first, others⟩ := List.cons.inj same
      rw [Subtype.ext first, ih others]
    | _ => cases alike same
  | block opening body closing rest ihBody ih =>
    cases s' with
    | block opening' body' closing' rest' =>
      obtain ⟨first, others⟩ := List.cons.inj same
      obtain ⟨inner, rfl, outer⟩ := enclosed_unique others
      rw [Subtype.ext first, ihBody inner, ih outer]
    | _ => cases alike same
  | declare keyword name semicolon rest ih =>
    cases s' with
    | declare keyword' name' semicolon' rest' =>
      obtain ⟨first, behind⟩ := List.cons.inj same
      obtain ⟨second, behind⟩ := List.cons.inj behind
      obtain ⟨third, others⟩ := List.cons.inj behind
      rw [Subtype.ext first, Subtype.ext second, Subtype.ext third, ih others]
    | _ => cases alike same
  | define keyword name equals value semicolon rest ih =>
    cases s' with
    | define keyword' name' equals' value' semicolon' rest' =>
      obtain ⟨first, behind⟩ := List.cons.inj same
      obtain ⟨second, behind⟩ := List.cons.inj behind
      obtain ⟨third, behind⟩ := List.cons.inj behind
      obtain ⟨rfl, rfl, others⟩ := Slice.terminated_unique behind
      rw [Subtype.ext first, Subtype.ext second, Subtype.ext third, ih others]
    | _ => cases alike same
  | assign name equals value semicolon rest ih =>
    cases s' with
    | assign name' equals' value' semicolon' rest' =>
      obtain ⟨first, behind⟩ := List.cons.inj same
      obtain ⟨second, behind⟩ := List.cons.inj behind
      obtain ⟨rfl, rfl, others⟩ := Slice.terminated_unique behind
      rw [Subtype.ext first, Subtype.ext second, ih others]
    | _ => cases alike same
  | expression value semicolon rest ih =>
    cases s' with
    | expression value' semicolon' rest' =>
      obtain ⟨rfl, rfl, others⟩ := Slice.terminated_unique same
      rw [ih others]
    | _ => cases alike same
  | ifThen keyword paren condition parenEnd brace body braceEnd rest ihBody ih =>
    cases s' with
    | ifThen keyword' paren' condition' parenEnd' brace' body' braceEnd' rest' =>
      obtain ⟨⟨rfl, rfl, rfl, rfl, rfl, rfl⟩, inner, outer⟩ := conditional_unique same
      rw [ihBody inner, ih outer]
    | ifElse keyword' paren' condition' parenEnd' brace' body' braceEnd' otherwise =>
      obtain ⟨-, -, outer⟩ := conditional_unique same
      exact absurd otherwise.property (rest.head_ne_else outer)
    | _ => cases alike same
  | ifElse keyword paren condition parenEnd brace body braceEnd otherwise elseBrace elseBody elseEnd
      rest ihBody ihElse ih =>
    cases s' with
    | ifThen keyword' paren' condition' parenEnd' brace' body' braceEnd' rest' =>
      obtain ⟨-, -, outer⟩ := conditional_unique same
      exact absurd otherwise.property (rest'.head_ne_else outer.symm)
    | ifElse keyword' paren' condition' parenEnd' brace' body' braceEnd' otherwise' elseBrace'
        elseBody' elseEnd' rest' =>
      obtain ⟨⟨rfl, rfl, rfl, rfl, rfl, rfl⟩, inner, behind⟩ := conditional_unique same
      obtain ⟨first, behind⟩ := List.cons.inj behind
      obtain ⟨second, behind⟩ := List.cons.inj behind
      obtain ⟨other, rfl, outer⟩ := enclosed_unique behind
      rw [ihBody inner, ihElse other, ih outer, Subtype.ext first, Subtype.ext second]
    | _ => cases alike same
  | loop keyword paren condition parenEnd brace body braceEnd rest ihBody ih =>
    cases s' with
    | loop keyword' paren' condition' parenEnd' brace' body' braceEnd' rest' =>
      obtain ⟨⟨rfl, rfl, rfl, rfl, rfl, rfl⟩, inner, outer⟩ := conditional_unique same
      rw [ihBody inner, ih outer]
    | _ => cases alike same

end Script

/-- Programs are read exactly from scripts: tokens are read to a program when they are those of a
script that derives the program, and no two scripts have the same tokens. -/
theorem Program.read_grammar (tokens : List Token) :
    (∀ p : Program, read tokens = .ok p ↔ ∃ s : Script, s.tokens = tokens ∧ s.program = p) ∧
      ∀ s s' : Script, s.tokens = tokens → s'.tokens = tokens → s = s' := by
  refine ⟨fun p => ⟨exists_script (Nat.lt_succ_self _), ?_⟩, ?_⟩
  · rintro ⟨s, rfl, rfl⟩
    exact readFrom_tokens s (Nat.lt_succ_self _)
  · intro s s' same same'
    exact Script.eq_of_tokens (same.trans same'.symm)

end NumScript
