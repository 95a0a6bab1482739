import NumScript.Proofs.Program.Flaws

/-! Which delimiters a script is refused for. Statements that are read close the braces they open,
so a brace is only to blame where the braces of the whole script do not match, and a brace that is
left open has no partner anywhere behind it. -/

namespace NumScript.Program

/-! ### Balanced programs -/

theorem Leads.balanced {lead : List Token} (leads : Leads lead) :
    Balanced .leftBrace .rightBrace lead := by
  cases leads with
  | block => exact .nil
  | condition keyword paren condition parenEnd =>
    have rest := Balanced.word paren (by decide) (by decide)
      (condition.brace_balanced.append (.word parenEnd (by decide) (by decide) .nil))
    rcases keyword.property with kind | kind <;> exact .cons (by simp [kind]) (by simp [kind]) rest
  | otherwise keyword paren condition parenEnd brace body braceEnd otherwise =>
    have block := Balanced.enclose (by decide) brace.property braceEnd.property
      body.brace_balanced (.word otherwise (by decide) (by decide) .nil)
    exact .word keyword (by decide) (by decide) (.word paren (by decide) (by decide)
      (condition.brace_balanced.append (.word parenEnd (by decide) (by decide) block)))

/-- In a program that closes its braces, reading comes only to tokens that do. -/
theorem ComesTo.balanced {ts us : List Token} (comes : ComesTo ts us)
    (balanced : Balanced .leftBrace .rightBrace ts) : Balanced .leftBrace .rightBrace us := by
  induction comes with
  | here ts => exact balanced
  | behind s _ ih => exact ih (s.brace_balanced.of_append balanced)
  | inside _ _ _ body _ ih => exact ih body

/-- Reading comes to a brace that is left open only outside of all blocks. -/
theorem ComesTo.exists_before {ts us lead rest : List Token} {brace : Token}
    (comes : ComesTo ts us) (whole : us = lead ++ brace :: rest)
    (front : Balanced .leftBrace .rightBrace lead) (opens : brace.kind = .leftBrace)
    (unclosed : enclosed? .leftBrace .rightBrace 0 rest = none) :
    ∃ before, ts = before ++ brace :: rest ∧ Balanced .leftBrace .rightBrace before := by
  induction comes with
  | here ts => exact ⟨lead, whole, front⟩
  | behind s _ ih =>
    obtain ⟨before, rfl, balanced⟩ := ih whole
    exact ⟨s.tokens ++ before, (List.append_assoc _ _ _).symm, s.brace_balanced.append balanced⟩
  | inside _ _ _ body _ ih =>
    -- The tokens of a block are balanced, so each brace in it is closed.
    obtain ⟨before, rfl, balanced⟩ := ih whole
    obtain ⟨found, closed⟩ := (balanced.of_append body).exists_enclosed? opens
    cases unclosed.symm.trans closed

/-! ### Messages about delimiters -/

/-- The message about a parenthesis quotes its text, so it is never the one about an open brace. -/
theorem unmatched_ne_unmatchedBrace (t brace : Token) :
    Expression.unmatched t ≠ unmatchedBrace brace := by
  intro same
  have message : Text.ofString "unmatched " ++ Text.quoted t.lexeme =
      Text.ofString "unmatched '\x7b': missing '\x7d'" := congrArg Diagnostic.message same
  have parts : Text.ofString "unmatched '\x7b': missing '\x7d'" =
      Text.ofString "unmatched " ++ Text.ofString "'\x7b': missing '\x7d'" := by decide +kernel
  rw [parts] at message
  have first := congrArg List.head? (List.append_cancel_left message)
  have mark : (Text.ofString "'\x7b': missing '\x7d'").head? = some (Text.byte '\'') := by
    decide +kernel
  have quote : Text.ofString "\"" = [Text.byte '"'] := by decide +kernel
  rw [mark, Text.quoted, quote] at first
  cases first

theorem unmatched_ne_strayBrace (t brace : Token) : Expression.unmatched t ≠ strayBrace brace := by
  intro same
  have message : Text.ofString "unmatched " ++ Text.quoted t.lexeme =
      Text.ofString "unexpected '\x7d' without matching '\x7b'" :=
    congrArg Diagnostic.message same
  have first := congrArg (List.take 10) message
  have length : (Text.ofString "unmatched ").length = 10 := by decide +kernel
  rw [← length, List.take_left] at first
  revert first
  decide +kernel

theorem strayBrace_ne_unmatchedBrace (brace brace' : Token) :
    strayBrace brace ≠ unmatchedBrace brace' := by
  intro same
  have message : Text.ofString "unexpected '\x7d' without matching '\x7b'" =
      Text.ofString "unmatched '\x7b': missing '\x7d'" := congrArg Diagnostic.message same
  revert message
  decide +kernel

/-! ### Refused for a delimiter -/

section Refused

variable {ts : List Token} {d : Diagnostic} (refused : Refused ts d)

include refused

/-- Where all braces match, only a parenthesis can be without its partner. -/
theorem exists_paren_of_balanced (balanced : Balanced .leftBrace .rightBrace ts)
    (cause : d.cause = some .unmatchedDelimiter) :
    ∃ t ∈ ts, (t.kind = .leftParen ∨ t.kind = .rightParen) ∧ d = Expression.unmatched t := by
  obtain ⟨us, comes, flaw⟩ := refused
  have whole := comes.balanced balanced
  cases flaw with
  | stray rest closes =>
    unfold Balanced at whole
    rw [depthAfter_cons, depthStep_closer (by decide) 0 closes] at whole
    cases whole
  | unclosed leads opens unclosed =>
    obtain ⟨found, closed⟩ := (leads.balanced.of_append whole).exists_enclosed? opens
    cases unclosed.symm.trans closed
  | @openCondition _ paren _ opens _ =>
    exact ⟨paren, comes.subset (by simp), .inl opens, rfl⟩
  | expression asks failed =>
    obtain ⟨t, member, kind, same⟩ :=
      Expression.exists_unmatched_of_readTree asks.ne_nil failed cause
    exact ⟨t, comes.subset (asks.subset member), kind, same⟩
  | misplaced _ blames => exact absurd cause blames.cause

/-- A brace that is left open stands behind balanced tokens. -/
theorem exists_brace_of_unmatchedBrace {brace : Token} (same : d = unmatchedBrace brace) :
    ∃ before brace' after, ts = before ++ brace' :: after ∧ brace'.kind = .leftBrace ∧
      d = unmatchedBrace brace' ∧ Balanced .leftBrace .rightBrace before ∧
      enclosed? .leftBrace .rightBrace 0 after = none := by
  obtain ⟨us, comes, flaw⟩ := refused
  have cause : d.cause = some .unmatchedDelimiter := by
    rw [same]
    rfl
  cases flaw with
  | stray rest closes => exact absurd same (strayBrace_ne_unmatchedBrace _ _)
  | @unclosed lead rest brace' leads opens unclosed =>
    obtain ⟨before, whole, balanced⟩ := comes.exists_before rfl leads.balanced opens unclosed
    exact ⟨before, brace', rest, whole, opens, rfl, balanced, unclosed⟩
  | openCondition => exact absurd same (unmatched_ne_unmatchedBrace _ _)
  | expression asks failed =>
    obtain ⟨t, -, -, paren⟩ := Expression.exists_unmatched_of_readTree asks.ne_nil failed cause
    exact absurd (paren.symm.trans same) (unmatched_ne_unmatchedBrace _ _)
  | misplaced _ blames => exact absurd cause blames.cause

end Refused

/-- A script whose braces match is never refused for a brace: a delimiter that it is refused for is
one of its parentheses. And where a script is refused for a brace that is left open, that brace
stands behind matching braces, and no brace behind it closes it. -/
theorem read_braces (tokens : List Token) (d : Diagnostic) (failed : read tokens = .error d) :
    (Paired .leftBrace .rightBrace tokens →
      (∀ brace, d ≠ unmatchedBrace brace ∧ d ≠ strayBrace brace) ∧
      (d.cause = some .unmatchedDelimiter → ∃ t ∈ tokens,
        (t.kind = .leftParen ∨ t.kind = .rightParen) ∧ d = Expression.unmatched t)) ∧
    (∀ brace, d = unmatchedBrace brace → ∃ before brace' after,
      tokens = before ++ brace' :: after ∧ brace'.kind = .leftBrace ∧ d = unmatchedBrace brace' ∧
      Paired .leftBrace .rightBrace before ∧
      ∀ inside close rest, after = inside ++ close :: rest → close.kind = .rightBrace →
        ¬ Paired .leftBrace .rightBrace inside) := by
  have distinct : TokenKind.leftBrace ≠ .rightBrace := by decide
  simp only [← balanced_iff_paired distinct]
  have refused := refused_of_read failed
  refine ⟨fun balanced => ⟨fun brace => ⟨?_, ?_⟩, exists_paren_of_balanced refused balanced⟩, ?_⟩
  · rintro rfl
    obtain ⟨t, -, -, same⟩ := exists_paren_of_balanced refused balanced rfl
    exact unmatched_ne_unmatchedBrace t brace same.symm
  · rintro rfl
    obtain ⟨t, -, -, same⟩ := exists_paren_of_balanced refused balanced rfl
    exact unmatched_ne_strayBrace t brace same.symm
  · intro brace same
    obtain ⟨before, brace', after, whole, opens, named, balanced, unclosed⟩ :=
      exists_brace_of_unmatchedBrace refused same
    refine ⟨before, brace', after, whole, opens, named, balanced, ?_⟩
    rintro inside close rest rfl closes inner
    cases unclosed.symm.trans (enclosed?_of_balanced distinct closes inner)

/-- Matching braces around a parenthesis that is left open. -/
def openParen : List Token := (tokenize (Text.ofString "\x7b x = (1; \x7d") []).1

/-- A brace left open between matching ones. -/
def openBrace : List Token := (tokenize (Text.ofString "\x7b\x7d \x7b \x7b\x7d") []).1

theorem read_braces_open :
    (∃ d, read openParen = .error d ∧ Paired .leftBrace .rightBrace openParen ∧
      ∃ t ∈ openParen, (t.kind = .leftParen ∨ t.kind = .rightParen) ∧
        d = Expression.unmatched t) ∧
    ∃ before brace after, openBrace = before ++ brace :: after ∧
      read openBrace = .error (unmatchedBrace brace) ∧
      ∀ inside close rest, after = inside ++ close :: rest → close.kind = .rightBrace →
        ¬ Paired .leftBrace .rightBrace inside := by
  constructor
  · have cause : (problem? openParen).map Diagnostic.cause = some (some .unmatchedDelimiter) := by
      decide +kernel
    obtain ⟨d, failed, named⟩ := Option.map_eq_some_iff.mp cause
    rw [problem?_eq_some_iff] at failed
    have depth : depthAfter .leftBrace .rightBrace 0 openParen = some 0 := by decide +kernel
    have paired := (balanced_iff_paired (by decide)).mp depth
    exact ⟨d, failed, paired, ((read_braces openParen d failed).1 paired).2 named⟩
  · have failed : read openBrace = .error (unmatchedBrace (openBrace[2]?.getD {})) := by
      rw [← problem?_eq_some_iff]
      decide +kernel
    obtain ⟨before, brace, after, whole, -, same, -, behind⟩ :=
      (read_braces openBrace _ failed).2 _ rfl
    exact ⟨before, brace, after, whole, failed.trans (congrArg Except.error same), behind⟩

end NumScript.Program
