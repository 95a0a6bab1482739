import NumScript.Proofs.Expression.Reading

/-! The grammar of programs. A script is a derivation with all its tokens in place, and can only be
built from tokens of the right kinds and from expressions that are read. Beside the tokens of a
script stands the program that it derives. -/

namespace NumScript

/-- A token of a given kind. -/
abbrev Word (kind : TokenKind) : Type := { t : Token // t.kind = kind }

/-- The keyword of a declaration. -/
abbrev DeclareWord : Type := { t : Token // t.kind = .letWord ∨ t.kind = .constWord }

/-- Tokens that are read as an expression, of which there is at least one. -/
structure Slice where
  start : Token
  more : List Token
  tree : Tree
  reads : Expression.readTree (start :: more) = .ok tree

namespace Slice

def tokens (s : Slice) : List Token := s.start :: s.more

def expression (s : Slice) : Expression := { start := s.start, tree := s.tree }

end Slice

/-- A sequence of statements as it is written, every token in its place. -/
inductive Script where
  | done
  /-- `;` -/
  | empty (semicolon : Word .semicolon) (rest : Script)
  /-- `{ … }` -/
  | block (opening : Word .leftBrace) (body : Script) (closing : Word .rightBrace) (rest : Script)
  /-- `let x;` or `const x;` -/
  | declare (keyword : DeclareWord) (name : Word .identifier) (semicolon : Word .semicolon)
      (rest : Script)
  /-- `let x = e;` or `const x = e;` -/
  | define (keyword : DeclareWord) (name : Word .identifier) (equals : Word .assign)
      (value : Slice) (semicolon : Word .semicolon) (rest : Script)
  /-- `x = e;` -/
  | assign (name : Word .identifier) (equals : Word .assign) (value : Slice)
      (semicolon : Word .semicolon) (rest : Script)
  /-- `e;` -/
  | expression (value : Slice) (semicolon : Word .semicolon) (rest : Script)
  /-- `if (c) { … }` -/
  | ifThen (keyword : Word .ifWord) (paren : Word .leftParen) (condition : Slice)
      (parenEnd : Word .rightParen) (brace : Word .leftBrace) (body : Script)
      (braceEnd : Word .rightBrace) (rest : Script)
  /-- `if (c) { … } else { … }` -/
  | ifElse (keyword : Word .ifWord) (paren : Word .leftParen) (condition : Slice)
      (parenEnd : Word .rightParen) (brace : Word .leftBrace) (body : Script)
      (braceEnd : Word .rightBrace) (otherwise : Word .elseWord) (elseBrace : Word .leftBrace)
      (elseBody : Script) (elseEnd : Word .rightBrace) (rest : Script)
  /-- `while (c) { … }` -/
  | loop (keyword : Word .whileWord) (paren : Word .leftParen) (condition : Slice)
      (parenEnd : Word .rightParen) (brace : Word .leftBrace) (body : Script)
      (braceEnd : Word .rightBrace) (rest : Script)

namespace Script

/-- The tokens of a script, from left to right. -/
def tokens : Script → List Token
  | done => []
  | empty semicolon rest => semicolon.val :: rest.tokens
  | block opening body closing rest =>
    opening.val :: (body.tokens ++ closing.val :: rest.tokens)
  | declare keyword name semicolon rest =>
    keyword.val :: name.val :: semicolon.val :: rest.tokens
  | define keyword name equals value semicolon rest =>
    keyword.val :: name.val :: equals.val :: (value.tokens ++ semicolon.val :: rest.tokens)
  | assign name equals value semicolon rest =>
    name.val :: equals.val :: (value.tokens ++ semicolon.val :: rest.tokens)
  | expression value semicolon rest => value.tokens ++ semicolon.val :: rest.tokens
  | ifThen keyword paren condition parenEnd brace body braceEnd rest =>
    keyword.val :: paren.val :: (condition.tokens ++ parenEnd.val :: brace.val ::
      (body.tokens ++ braceEnd.val :: rest.tokens))
  | ifElse keyword paren condition parenEnd brace body braceEnd otherwise elseBrace elseBody
      elseEnd rest =>
    keyword.val :: paren.val :: (condition.tokens ++ parenEnd.val :: brace.val ::
      (body.tokens ++ braceEnd.val :: otherwise.val :: elseBrace.val ::
        (elseBody.tokens ++ elseEnd.val :: rest.tokens)))
  | loop keyword paren condition parenEnd brace body braceEnd rest =>
    keyword.val :: paren.val :: (condition.tokens ++ parenEnd.val :: brace.val ::
      (body.tokens ++ braceEnd.val :: rest.tokens))

/-- The program of a script: its statements in order, without the empty ones. -/
def program : Script → Program
  | done => .done
  | empty _ rest => rest.program
  | block opening body _ rest => .block opening.val body.program rest.program
  | declare keyword name _ rest => .declare keyword.val name.val none rest.program
  | define keyword name _ value _ rest =>
    .declare keyword.val name.val (some value.expression) rest.program
  | assign name _ value _ rest => .assign name.val value.expression rest.program
  | expression value _ rest => .expression value.expression rest.program
  | ifThen keyword _ condition _ brace body _ rest =>
    .ifThen keyword.val condition.expression brace.val body.program rest.program
  | ifElse keyword _ condition _ brace body _ _ elseBrace elseBody _ rest =>
    .ifElse keyword.val condition.expression brace.val body.program elseBrace.val
      elseBody.program rest.program
  | loop keyword _ condition _ brace body _ rest =>
    .loop keyword.val condition.expression brace.val body.program rest.program

end Script

/-! ### Tokens -/

namespace Slice

theorem exists_phrase (s : Slice) : ∃ p : Phrase, p.Derives 1 ∧ p.tokens = s.tokens := by
  obtain ⟨p, derives, tokens, -⟩ := Expression.readTree_eq_ok_iff.mp s.reads
  exact ⟨p, derives, tokens⟩

theorem kind_mem (s : Slice) {t : Token} (member : t ∈ s.tokens) : t.kind ∈ Phrase.kinds := by
  obtain ⟨p, derives, same⟩ := s.exists_phrase
  exact derives.kind_mem (same ▸ member)

theorem start_mem (s : Slice) : s.start.kind ∈ Phrase.startKinds := by
  obtain ⟨p, derives, same⟩ := s.exists_phrase
  exact derives.start_mem same

theorem paren_balanced (s : Slice) : Balanced .leftParen .rightParen s.tokens := by
  obtain ⟨p, derives, same⟩ := s.exists_phrase
  exact same ▸ derives.balanced

theorem brace_balanced (s : Slice) : Balanced .leftBrace .rightBrace s.tokens := by
  refine Balanced.of_forall fun t member => ?_
  have kind := s.kind_mem member
  exact ⟨ne_of_mem_of_not_mem kind (by decide), ne_of_mem_of_not_mem kind (by decide)⟩

theorem not_endsExpression (s : Slice) {t : Token} (member : t ∈ s.tokens) :
    Program.endsExpression t = false := by
  have other {kind : TokenKind} (absent : kind ∉ Phrase.kinds) : t.kind ≠ kind :=
    ne_of_mem_of_not_mem (s.kind_mem member) absent
  have semicolon : t.kind ≠ .semicolon := other (by decide)
  have opener : t.kind ≠ .leftBrace := other (by decide)
  have closer : t.kind ≠ .rightBrace := other (by decide)
  simp [Program.endsExpression, semicolon, opener, closer]

/-- No token behind the first one of a slice, nor the semicolon behind the slice, is `=`. -/
theorem next_ne_assign (s : Slice) (semicolon : Word .semicolon) (rest : List Token) :
    ∀ next ∈ (s.more ++ semicolon.val :: rest).head?, next.kind ≠ .assign := by
  intro next head kind
  cases more : s.more with
  | nil =>
    rw [more] at head
    cases head
    cases kind.symm.trans semicolon.property
  | cons first others =>
    rw [more] at head
    cases head
    have member : next ∈ s.tokens := by simp [tokens, more]
    exact ne_of_mem_of_not_mem (s.kind_mem member) (by decide) kind

/-- A slice is known by its tokens. -/
theorem eq_of_tokens {s s' : Slice} (same : s.tokens = s'.tokens) : s = s' := by
  obtain ⟨start, more, tree, reads⟩ := s
  obtain ⟨start', more', tree', reads'⟩ := s'
  cases same
  cases reads.symm.trans reads'
  rfl

end Slice

/-- A token of another kind in front of balanced tokens. -/
theorem Balanced.word {opener closer kind : TokenKind} (w : Word kind) {ts : List Token}
    (opens : kind ≠ opener) (closes : kind ≠ closer) (h : Balanced opener closer ts) :
    Balanced opener closer (w.val :: ts) :=
  Balanced.cons (w.property.symm ▸ opens) (w.property.symm ▸ closes) h

theorem Balanced.declareWord (w : DeclareWord) {ts : List Token}
    (h : Balanced .leftBrace .rightBrace ts) : Balanced .leftBrace .rightBrace (w.val :: ts) := by
  rcases w.property with kind | kind <;> exact Balanced.cons (by simp [kind]) (by simp [kind]) h

namespace Script

/-- A script closes the braces that it opens. -/
theorem brace_balanced (s : Script) : Balanced .leftBrace .rightBrace s.tokens := by
  have enclose (brace : Word .leftBrace) (braceEnd : Word .rightBrace) {ts us : List Token}
      (inside : Balanced .leftBrace .rightBrace ts) (outside : Balanced .leftBrace .rightBrace us) :
      Balanced .leftBrace .rightBrace (brace.val :: (ts ++ braceEnd.val :: us)) :=
    Balanced.enclose (by decide) brace.property braceEnd.property inside outside
  induction s with
  | done => exact Balanced.nil
  | empty semicolon rest ih => exact ih.word semicolon (by decide) (by decide)
  | block opening body closing rest ihBody ih => exact enclose opening closing ihBody ih
  | declare keyword name semicolon rest ih =>
    exact .declareWord keyword (.word name (by decide) (by decide)
      (ih.word semicolon (by decide) (by decide)))
  | define keyword name equals value semicolon rest ih =>
    exact .declareWord keyword (.word name (by decide) (by decide)
      (.word equals (by decide) (by decide)
        (value.brace_balanced.append (ih.word semicolon (by decide) (by decide)))))
  | assign name equals value semicolon rest ih =>
    exact .word name (by decide) (by decide) (.word equals (by decide) (by decide)
      (value.brace_balanced.append (ih.word semicolon (by decide) (by decide))))
  | expression value semicolon rest ih =>
    exact value.brace_balanced.append (ih.word semicolon (by decide) (by decide))
  | ifThen keyword paren condition parenEnd brace body braceEnd rest ihBody ih =>
    exact .word keyword (by decide) (by decide) (.word paren (by decide) (by decide)
      (condition.brace_balanced.append (.word parenEnd (by decide) (by decide)
        (enclose brace braceEnd ihBody ih))))
  | ifElse keyword paren condition parenEnd brace body braceEnd otherwise elseBrace elseBody
      elseEnd rest ihBody ihElse ih =>
    exact .word keyword (by decide) (by decide) (.word paren (by decide) (by decide)
      (condition.brace_balanced.append (.word parenEnd (by decide) (by decide)
        (enclose brace braceEnd ihBody (.word otherwise (by decide) (by decide)
          (enclose elseBrace elseEnd ihElse ih))))))
  | loop keyword paren condition parenEnd brace body braceEnd rest ihBody ih =>
    exact .word keyword (by decide) (by decide) (.word paren (by decide) (by decide)
      (condition.brace_balanced.append (.word parenEnd (by decide) (by decide)
        (enclose brace braceEnd ihBody ih))))

/-- No statement starts with `else`. -/
theorem head_ne_else (s : Script) {t : Token} {others : List Token}
    (starts : s.tokens = t :: others) : t.kind ≠ .elseWord := by
  intro kind
  cases s with
  | done => cases starts
  | expression value semicolon rest =>
    cases starts
    exact ne_of_mem_of_not_mem value.start_mem (by decide) kind
  | declare keyword | define keyword =>
    cases starts
    rcases keyword.property with other | other <;> cases kind.symm.trans other
  | empty word | block word | assign word | ifThen word | ifElse word | loop word =>
    cases starts
    cases kind.symm.trans word.property

end Script

end NumScript
