import NumScript.Proofs.Program.Flaws
import NumScript.Proofs.Program.Refusing
import NumScript.Proofs.Token.Places

/-! Where a script is refused. The problem is on the line of one of its tokens, whatever part cannot
be read. It is a problem of reading, and not of a value, unless reading has come to compute a group
without names that holds a text. -/

namespace NumScript.Program

open Piece (newline split_divides)

/-! ### Traits of a refusal -/

/-- Reading the tokens comes to computing a group: in an expression to which it comes, what stands
in front of the group is read, and the group itself is read and holds no name. -/
def Folds (ts : List Token) (inside : Phrase) : Prop :=
  ∃ us slice, ComesTo ts us ∧ Asks us slice ∧ Expression.Folds slice inside

/-- A refused script is refused on the line of one of its tokens, and for want of a value only where
it comes to a group without names that holds a text. -/
theorem Refused.traits {ts : List Token} {d : Diagnostic} (refused : Refused ts d)
    (lexed : ∀ t ∈ ts, t.Lexed) :
    (∃ t ∈ ts, d.line = t.line) ∧
      (d.phase = .parse ∨ d.phase = .eval ∧ d.cause = some .invalidLiteral ∧
        ∃ inside, Folds ts inside ∧ inside.isTextFree = false) := by
  obtain ⟨us, comes, flaw⟩ := refused
  have within := comes.subset
  cases flaw with
  | @stray brace => exact ⟨⟨brace, within List.mem_cons_self, rfl⟩, .inl rfl⟩
  | @unclosed _ _ brace => exact ⟨⟨brace, within (by simp), rfl⟩, .inl rfl⟩
  | @openCondition _ paren _ => exact ⟨⟨paren, within (by simp), rfl⟩, .inl rfl⟩
  | expression asks failed =>
    have part := List.Subset.trans asks.subset within
    obtain ⟨⟨t, member, line⟩, phase⟩ := Expression.traits_of_readTree asks.ne_nil failed
      fun t member => lexed t (part member)
    refine ⟨⟨t, part member, line⟩, phase.imp_right ?_⟩
    rintro ⟨eval, cause, inside, folds, text⟩
    exact ⟨eval, cause, inside, ⟨us, _, comes, asks, folds⟩, text⟩
  | misplaced member blames => exact ⟨⟨_, within member, blames.line⟩, .inl blames.phase⟩

/-! ### Where a reading ends -/

/-- No `else` is in front, which would go on with the statement before it. -/
def Apart (ts : List Token) : Prop := ∀ next ∈ ts.head?, next.kind ≠ .elseWord

theorem Apart.cons {t : Token} {ts : List Token} (other : t.kind ≠ .elseWord) :
    Apart (t :: ts) := by
  rintro _ ⟨⟩
  exact other

theorem Asks.apart {ts slice : List Token} (h : Asks ts slice) : Apart ts := by
  cases h with
  | define keyword => rcases keyword.property with kind | kind <;> exact .cons (by simp [kind])
  | assign name => exact .cons (by simp [name.property])
  | expression _ _ _ kind => exact .cons (ne_of_mem_of_not_mem kind (by decide))
  | condition keyword => rcases keyword.property with kind | kind <;> exact .cons (by simp [kind])

theorem ComesTo.apart {ts us : List Token} (h : ComesTo ts us) (apart : Apart us) : Apart ts := by
  induction h with
  | here ts => exact apart
  | behind s _ ih =>
    cases tokens : s.tokens with
    | nil => exact ih apart
    | cons t others => exact .cons (s.head_ne_else tokens)
  | inside leads opens _ _ _ _ =>
    cases leads with
    | block => exact .cons (by simp [opens])
    | condition keyword => rcases keyword.property with kind | kind <;> exact .cons (by simp [kind])
    | otherwise keyword => exact .cons (by simp [keyword.property])

section Ends

variable {d : Diagnostic}

/-- A block that cannot be read ends the reading of its statement. -/
theorem Leads.readFrom_eq_error {lead body after : List Token} {brace braceEnd : Token}
    (leads : Leads lead) (opens : brace.kind = .leftBrace) (closes : braceEnd.kind = .rightBrace)
    (balanced : Balanced .leftBrace .rightBrace body)
    (failed : ∀ fuel, body.length < fuel → readFrom fuel body = .error d) {fuel : Nat}
    (room : (lead ++ brace :: (body ++ braceEnd :: after)).length < fuel) :
    readFrom fuel (lead ++ brace :: (body ++ braceEnd :: after)) = .error d := by
  have cut (what : Text) (near : Token) :
      cutBlock what near (brace :: (body ++ braceEnd :: after)) = .ok ⟨brace, body, after⟩ :=
    cutBlock_eq_ok_iff.mpr ⟨opens, balanced, ⟨braceEnd, closes⟩, rfl⟩
  cases fuel with
  | zero => omega
  | succ fuel =>
    cases leads with
    | block =>
      simp only [List.nil_append, List.length_cons, List.length_append] at room ⊢
      rw [readFrom.eq_def]
      simp only [opens, cut, failed fuel (by omega), bind, Except.bind]
    | condition keyword paren condition parenEnd =>
      simp only [List.cons_append, List.append_assoc, List.nil_append, List.length_cons,
        List.length_append] at room ⊢
      rw [readFrom.eq_def]
      rcases keyword.property with kind | kind <;>
        simp only [kind, readCondition_slice, cut, failed fuel (by omega), bind, Except.bind]
    | otherwise keyword paren condition parenEnd brace' body' braceEnd' otherwise =>
      simp only [List.cons_append, List.append_assoc, List.nil_append, List.length_cons,
        List.length_append] at room ⊢
      have first : readFrom fuel body'.tokens = .ok body'.program :=
        readFrom_tokens body' (by omega)
      rw [readFrom.eq_def]
      simp only [keyword.property, readCondition_slice, cutBlock_script, otherwise.property,
        if_true, first, cut, failed fuel (by omega), bind, Except.bind]

/-- What ends the reading where it comes to ends the whole reading. -/
theorem ComesTo.readFrom_eq_error {ts us : List Token} (comes : ComesTo ts us) (apart : Apart us)
    (failed : ∀ fuel, us.length < fuel → readFrom fuel us = .error d) :
    ∀ fuel, ts.length < fuel → readFrom fuel ts = .error d := by
  induction comes with
  | here ts => exact failed
  | behind s comes ih =>
    exact fun fuel room => readFrom_append s (comes.apart apart) (ih apart failed) room
  | inside leads opens closes balanced _ ih =>
    exact fun fuel room => leads.readFrom_eq_error opens closes balanced (ih apart failed) room

variable {slice : List Token}

theorem readExpression_of_failed (failed : Expression.readTree slice = .error d)
    (filled : slice ≠ []) (after : Token) : readExpression after slice = .error d := by
  obtain ⟨start, more, rfl⟩ := List.exists_cons_of_ne_nil filled
  rw [readExpression, failed]
  rfl

theorem readTerminated_of_failed (failed : Expression.readTree slice = .error d)
    (stretch : Stretch slice) (after : Token) (semicolon : Word .semicolon) (rest : List Token) :
    readTerminated after (slice ++ semicolon.val :: rest) = .error d := by
  rw [readTerminated_append after stretch.unended, readExpression_of_failed failed stretch.filled]
  rfl

/-- An expression that cannot be read ends the reading of its statement. -/
theorem Asks.readFrom_eq_error {ts : List Token} (asks : Asks ts slice)
    (failed : Expression.readTree slice = .error d) {fuel : Nat} (room : ts.length < fuel) :
    readFrom fuel ts = .error d := by
  cases fuel with
  | zero => omega
  | succ fuel =>
    cases asks with
    | define keyword name equals semicolon rest stretch =>
      have terminated := readTerminated_of_failed failed stretch equals.val semicolon rest
      have declared : readDeclaration keyword.val
          (name.val :: equals.val :: (slice ++ semicolon.val :: rest)) = .error d := by
        simp [readDeclaration, name.property, equals.property, terminated, bind, Except.bind]
      rw [readFrom.eq_def]
      rcases keyword.property with kind | kind <;>
        simp only [kind, declared, bind, Except.bind]
    | assign name equals semicolon rest stretch =>
      have terminated := readTerminated_of_failed failed stretch equals.val semicolon rest
      rw [readFrom.eq_def]
      simp only [name.property, equals.property, if_true, terminated, bind, Except.bind]
    | @expression t more semicolon rest stretch kind unassigned =>
      have terminated := readTerminated_of_failed failed stretch t semicolon rest
      rw [List.cons_append] at terminated
      rw [readFrom_expression kind unassigned, terminated]
      rfl
    | condition keyword paren parenEnd rest some balanced =>
      have condition : readCondition keyword.val
          (paren.val :: (slice ++ parenEnd.val :: rest)) = .error d := by
        simp only [readCondition, paren.property, if_true,
          enclosed?_of_balanced (by decide) parenEnd.property balanced,
          readExpression_of_failed failed some paren.val, bind, Except.bind]
      rw [readFrom.eq_def]
      rcases keyword.property with kind | kind <;>
        simp only [kind, condition, bind, Except.bind]

/-- A group without names that holds a text ends the reading that comes to it. -/
theorem Folds.exists_error {ts : List Token} {inside : Phrase} (folds : Folds ts inside)
    (lexed : ∀ t ∈ ts, t.Lexed) (text : inside.isTextFree = false) :
    ∃ d, read ts = .error d ∧ d.phase = .eval := by
  obtain ⟨us, slice, comes, asks, folds⟩ := folds
  obtain ⟨d, failed, phase⟩ := folds.exists_error
    (fun t member => lexed t (comes.subset (asks.subset member))) text
  exact ⟨d, comes.readFrom_eq_error asks.apart (fun fuel => asks.readFrom_eq_error failed) _
    (Nat.lt_succ_self _), phase⟩

end Ends

/-! ### Scripts that are refused -/

/-- A script that cannot be read is refused with an error, on the line of one of its tokens and so
on a line of its text. The error is one of reading or a literal without a value, and it is the
latter exactly when reading comes to compute a group without names that holds a text. -/
theorem read_complaint (source file : Text) (d : Diagnostic)
    (refused : read (tokenize source file).1 = .error d) :
    d.severity = .error ∧ (∃ t ∈ (tokenize source file).1, d.line = t.line) ∧
      1 ≤ d.line ∧ d.line ≤ 1 + source.count newline ∧
      (d.phase = .parse ∨ d.phase = .eval ∧ d.cause = some .invalidLiteral) ∧
      (d.phase = .eval ↔
        ∃ inside, Folds (tokenize source file).1 inside ∧ inside.isTextFree = false) := by
  have lexed : ∀ t ∈ (tokenize source file).1, t.Lexed := fun t member => ⟨_, _, member⟩
  obtain ⟨⟨t, member, line⟩, phase⟩ := (refused_of_read refused).traits lexed
  obtain ⟨before, after, parts, -, -, -, place, -⟩ :=
    Lexer.locatedIn_of_mem Place.Behind.start (split_divides source) member
  have inside : before.count newline ≤ source.count newline := by
    rw [List.nil_append] at parts
    rw [parts, List.count_append, List.count_append, Nat.add_assoc]
    exact Nat.le_add_right _ _
  have start : d.line = 1 + (before.count newline : Int) := line.trans place
  refine ⟨read_grave _ d refused, ⟨t, member, line⟩, by omega, by omega,
    phase.imp_right fun value => ⟨value.1, value.2.1⟩, ?_, ?_⟩
  · intro eval
    rcases phase with reading | ⟨-, -, folds⟩
    · cases reading.symm.trans eval
    · exact folds
  · rintro ⟨inside, folds, text⟩
    obtain ⟨d', refused', eval⟩ := folds.exists_error lexed text
    cases refused.symm.trans refused'
    exact eval

/-- A script in which a block comes to compute a text. -/
def textInBlock : Text := Text.ofString "let x = 1;\n\x7b x = (x + (2 *\n(\"a\"))); \x7d"

theorem read_complaint_textInBlock :
    ∃ d, read (tokenize textInBlock []).1 = .error d ∧ d.line = 3 ∧
      ∃ inside, Folds (tokenize textInBlock []).1 inside ∧ inside.isTextFree = false := by
  have ends : (problem? (tokenize textInBlock []).1).map (fun d => (d.phase, d.line)) =
      some (.eval, 3) := by decide +kernel
  obtain ⟨d, refused, same⟩ := Option.map_eq_some_iff.mp ends
  obtain ⟨eval, line⟩ := Prod.mk.inj same
  rw [problem?_eq_some_iff] at refused
  obtain ⟨-, -, -, -, -, folds⟩ := read_complaint textInBlock [] d refused
  exact ⟨d, refused, line, folds.mp eval⟩

end NumScript.Program
