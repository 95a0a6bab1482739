import NumScript.Proofs.Expression.Flaws
import NumScript.Proofs.Program.Reading

/-! Why a script is refused. The reader takes the statements in order and goes into every block, and
the first statement with a flaw ends the reading: a brace or a condition without its end, an
expression that is refused, or a token out of place. -/

namespace NumScript.Program

/-! ### Where reading comes to -/

/-- The keyword of a statement with a condition. -/
abbrev ConditionWord : Type := { t : Token // t.kind = .ifWord ∨ t.kind = .whileWord }

/-- The tokens are in front of the brace of a block, from the start of its statement on. -/
inductive Leads : List Token → Prop
  | block : Leads []
  | condition (keyword : ConditionWord) (paren : Word .leftParen) (condition : Slice)
      (parenEnd : Word .rightParen) :
      Leads (keyword.val :: paren.val :: (condition.tokens ++ [parenEnd.val]))
  | otherwise (keyword : Word .ifWord) (paren : Word .leftParen) (condition : Slice)
      (parenEnd : Word .rightParen) (brace : Word .leftBrace) (body : Script)
      (braceEnd : Word .rightBrace) (otherwise : Word .elseWord) :
      Leads (keyword.val :: paren.val :: (condition.tokens ++ parenEnd.val :: brace.val ::
        (body.tokens ++ [braceEnd.val, otherwise.val])))

/-- Reading the first tokens comes to a statement at the start of the second ones, behind complete
statements and inside blocks. -/
inductive ComesTo : List Token → List Token → Prop
  | here (ts : List Token) : ComesTo ts ts
  | behind (s : Script) {rest us : List Token} : ComesTo rest us → ComesTo (s.tokens ++ rest) us
  | inside {lead body after us : List Token} {brace braceEnd : Token} : Leads lead →
      brace.kind = .leftBrace → braceEnd.kind = .rightBrace →
      Balanced .leftBrace .rightBrace body → ComesTo body us →
      ComesTo (lead ++ brace :: (body ++ braceEnd :: after)) us

/-- The tokens of an expression that ends at a semicolon, whether or not it can be read. -/
structure Stretch (ts : List Token) : Prop where
  filled : ts ≠ []
  unended : ∀ t ∈ ts, endsExpression t = false

/-- The first statement of the tokens holds the slice as its expression. -/
inductive Asks : List Token → List Token → Prop
  | define (keyword : DeclareWord) (name : Word .identifier) (equals : Word .assign)
      {slice : List Token} (semicolon : Word .semicolon) (rest : List Token) : Stretch slice →
      Asks (keyword.val :: name.val :: equals.val :: (slice ++ semicolon.val :: rest)) slice
  | assign (name : Word .identifier) (equals : Word .assign) {slice : List Token}
      (semicolon : Word .semicolon) (rest : List Token) : Stretch slice →
      Asks (name.val :: equals.val :: (slice ++ semicolon.val :: rest)) slice
  | expression {t : Token} {more : List Token} (semicolon : Word .semicolon)
      (rest : List Token) : Stretch (t :: more) → t.kind ∈ Phrase.startKinds →
      (t.kind = .identifier → ∀ next ∈ (more ++ semicolon.val :: rest).head?,
        next.kind ≠ .assign) →
      Asks (t :: (more ++ semicolon.val :: rest)) (t :: more)
  | condition (keyword : ConditionWord) (paren : Word .leftParen) {slice : List Token}
      (parenEnd : Word .rightParen) (rest : List Token) : slice ≠ [] →
      Balanced .leftParen .rightParen slice →
      Asks (keyword.val :: paren.val :: (slice ++ parenEnd.val :: rest)) slice

/-- What is wrong with the first statement of the tokens, but not inside one of its blocks. -/
inductive Flaw : List Token → Diagnostic → Prop
  | stray {brace : Token} (rest : List Token) : brace.kind = .rightBrace →
      Flaw (brace :: rest) (strayBrace brace)
  | unclosed {lead rest : List Token} {brace : Token} : Leads lead → brace.kind = .leftBrace →
      enclosed? .leftBrace .rightBrace 0 rest = none →
      Flaw (lead ++ brace :: rest) (unmatchedBrace brace)
  | openCondition (keyword : ConditionWord) {paren : Token} (rest : List Token) :
      paren.kind = .leftParen → enclosed? .leftParen .rightParen 0 rest = none →
      Flaw (keyword.val :: paren :: rest) (Expression.unmatched paren)
  | expression {ts slice : List Token} {d : Diagnostic} : Asks ts slice →
      Expression.readTree slice = .error d → Flaw ts d
  | misplaced {ts : List Token} {t : Token} {d : Diagnostic} : t ∈ ts → d.Blames t → Flaw ts d

/-- Reading comes to a flaw. -/
def Refused (ts : List Token) (d : Diagnostic) : Prop := ∃ us, ComesTo ts us ∧ Flaw us d

namespace Refused

variable {d : Diagnostic}

theorem here {ts : List Token} (flaw : Flaw ts d) : Refused ts d := ⟨ts, .here ts, flaw⟩

theorem behind (s : Script) {rest : List Token} (h : Refused rest d) :
    Refused (s.tokens ++ rest) d := by
  obtain ⟨us, comes, flaw⟩ := h
  exact ⟨us, .behind s comes, flaw⟩

theorem inside {lead body : List Token} {brace braceEnd : Token} (leads : Leads lead)
    (opens : brace.kind = .leftBrace) (closes : braceEnd.kind = .rightBrace)
    (balanced : Balanced .leftBrace .rightBrace body) (h : Refused body d) (after : List Token) :
    Refused (lead ++ brace :: (body ++ braceEnd :: after)) d := by
  obtain ⟨us, comes, flaw⟩ := h
  exact ⟨us, .inside leads opens closes balanced comes, flaw⟩

end Refused

theorem ComesTo.subset {ts us : List Token} (h : ComesTo ts us) : us ⊆ ts := by
  induction h with
  | here ts => exact List.Subset.refl ts
  | behind s _ ih => exact fun t member => List.mem_append_right _ (ih member)
  | inside _ _ _ _ _ ih => exact fun t member => by simp [ih member]

namespace Asks

variable {ts slice : List Token}

theorem subset (h : Asks ts slice) : slice ⊆ ts := by
  intro t member
  cases h with
  | expression => rcases List.mem_cons.mp member with rfl | member <;> simp [*]
  | _ => simp [member]

theorem ne_nil (h : Asks ts slice) : slice ≠ [] := by
  cases h with
  | define _ _ _ _ _ stretch => exact stretch.filled
  | assign _ _ _ _ stretch => exact stretch.filled
  | expression _ _ stretch => exact stretch.filled
  | condition _ _ _ _ some _ => exact some

end Asks

/-! ### Parts of statements that are refused -/

section Parts

variable {d : Diagnostic}

theorem expected_blames (what : Text) (near : Token) (tokens : List Token) :
    ∃ t ∈ near :: tokens, (expected what near tokens).Blames t := by
  cases tokens with
  | nil => exact ⟨near, List.mem_cons_self, .error (by decide) near _ _⟩
  | cons next rest => exact ⟨next, by simp, .error (by decide) next _ _⟩

theorem readExpression_eq_error {after : Token} {tokens : List Token}
    (failed : readExpression after tokens = .error d) :
    d.Blames after ∨ tokens ≠ [] ∧ Expression.readTree tokens = .error d := by
  cases tokens with
  | nil =>
    cases failed
    exact .inl (.error (by decide) after _ _)
  | cons start more =>
    exact .inr ⟨by simp, Except.error_of_bind_ok failed⟩

theorem readTerminated_eq_error {after : Token} {tokens : List Token}
    (failed : readTerminated after tokens = .error d) :
    (∃ t ∈ after :: tokens, d.Blames t) ∨
      ∃ (slice : List Token) (semicolon : Word .semicolon) (rest : List Token),
        tokens = slice ++ semicolon.val :: rest ∧ Stretch slice ∧
          Expression.readTree slice = .error d := by
  have parts := List.takeWhile_append_dropWhile (p := fun t => !endsExpression t) (l := tokens)
  have unended : ∀ t ∈ tokens.takeWhile (fun t => !endsExpression t), endsExpression t = false :=
    fun t member => by simpa using List.all_eq_true.mp List.all_takeWhile t member
  have missing : ∃ t ∈ after :: tokens, (missingSemicolon
      ((tokens.takeWhile fun t => !endsExpression t).getLast?.getD after)).Blames t := by
    refine ⟨_, ?_, .error (by decide) _ _ _⟩
    cases last : (tokens.takeWhile fun t => !endsExpression t).getLast? with
    | none => exact List.mem_cons_self
    | some t =>
      exact List.mem_cons_of_mem _
        ((List.takeWhile_subset _) (List.mem_of_getLast? last))
  unfold readTerminated at failed
  dsimp only at failed
  split at failed
  · cases failed
    exact .inl missing
  · rename_i t rest found
    split at failed
    · rename_i kind
      rcases readExpression_eq_error (Except.error_of_bind_ok failed) with blames | ⟨some, reads⟩
      · exact .inl ⟨after, List.mem_cons_self, blames⟩
      · exact .inr ⟨_, ⟨t, kind⟩, rest, by rw [← found, parts], ⟨some, unended⟩, reads⟩
    · cases failed
      exact .inl missing

theorem readCondition_eq_error (keyword : ConditionWord) {tokens : List Token}
    (failed : readCondition keyword.val tokens = .error d) : Flaw (keyword.val :: tokens) d := by
  have other (what : Text) : Flaw (keyword.val :: tokens) (expected what keyword.val tokens) := by
    obtain ⟨t, member, blames⟩ := expected_blames what keyword.val tokens
    exact .misplaced member blames
  unfold readCondition at failed
  split at failed
  · rename_i paren rest
    split at failed
    · rename_i opens
      split at failed
      · rename_i open'
        cases failed
        exact .openCondition keyword rest opens open'
      · rename_i inside after found
        obtain ⟨c, rfl, closes, balanced⟩ := (enclosed?_eq_some_iff (by decide)).mp found
        rcases readExpression_eq_error (Except.error_of_bind_ok failed) with blames | ⟨some, reads⟩
        · exact .misplaced (by simp) blames
        · exact .expression
            (.condition keyword ⟨paren, opens⟩ ⟨c, closes⟩ after some balanced) reads
    · cases failed
      exact other _
  · cases failed
    exact other _

/-- A block is refused for its brace, or because it does not start at all. -/
theorem cutBlock_eq_error {what : Text} {near : Token} {lead tokens : List Token}
    (leads : Leads lead) (beside : near ∈ lead ++ tokens)
    (failed : cutBlock what near tokens = .error d) : Flaw (lead ++ tokens) d := by
  have other : Flaw (lead ++ tokens) (expected what near tokens) := by
    obtain ⟨t, member, blames⟩ := expected_blames what near tokens
    rcases List.mem_cons.mp member with rfl | behind
    · exact .misplaced beside blames
    · exact .misplaced (List.mem_append_right _ behind) blames
  unfold cutBlock at failed
  split at failed
  · split at failed
    · rename_i opens
      split at failed
      · rename_i open'
        cases failed
        exact .unclosed leads opens open'
      · cases failed
    · cases failed
      exact other
  · cases failed
    exact other

theorem readDeclaration_eq_error (keyword : DeclareWord) {tokens : List Token}
    (failed : readDeclaration keyword.val tokens = .error d) : Flaw (keyword.val :: tokens) d := by
  unfold readDeclaration at failed
  split at failed
  · cases failed
    exact .misplaced List.mem_cons_self (.error (by decide) keyword.val _ _)
  rename_i name rest
  split at failed
  · rename_i identifier
    split at failed
    · cases failed
      exact .misplaced (by simp) (.error (by decide) name _ _)
    rename_i next rest
    split at failed
    · cases failed
    split at failed
    · rename_i assigns
      rcases readTerminated_eq_error (Except.error_of_bind_ok failed) with ⟨t, member, blames⟩ |
        ⟨slice, semicolon, after, rfl, stretch, reads⟩
      · exact .misplaced (List.mem_cons_of_mem _ (List.mem_cons_of_mem _ member)) blames
      · exact .expression (.define keyword ⟨name, identifier⟩ ⟨next, assigns⟩ semicolon after
          stretch) reads
    · cases failed
      exact .misplaced (by simp) (.error (by decide) next _ _)
  · cases failed
    exact .misplaced (by simp) (.error (by decide) name _ _)

end Parts

/-! ### Refused statements -/

section Statements

variable {fuel : Nat} {d : Diagnostic}
  (below : ∀ {ts : List Token}, ts.length < fuel → readFrom fuel ts = .error d → Refused ts d)
  {t : Token} {rest : List Token} (room : rest.length < fuel)
  (failed : readFrom (fuel + 1) (t :: rest) = .error d)

include below room failed

theorem refused_block (kind : t.kind = .leftBrace) : Refused (t :: rest) d := by
  rw [readFrom.eq_def] at failed
  simp only [kind] at failed
  rcases Except.bind_eq_error_iff.mp failed with refused | ⟨⟨brace, inside, after⟩, cut, more⟩
  · exact .here (cutBlock_eq_error .block List.mem_cons_self refused)
  obtain ⟨opens, balanced, ⟨c, closes⟩, same⟩ := cutBlock_eq_ok_iff.mp cut
  cases same
  simp only [List.length_append, List.length_cons] at room
  dsimp only at balanced more
  rcases Except.bind_eq_error_iff.mp more with inner | ⟨body, inner, last⟩
  · exact .inside .block kind closes balanced (below (by omega) inner) after
  obtain ⟨b, rfl, rfl⟩ := exists_script (by omega) inner
  have later := Refused.behind (.block ⟨brace, kind⟩ b ⟨c, closes⟩ .done)
    (below (by omega) (Except.error_of_bind_ok last))
  simpa [Script.tokens] using later

theorem refused_declaration (kind : t.kind = .letWord ∨ t.kind = .constWord) :
    Refused (t :: rest) d := by
  have failed : ((readDeclaration t rest).bind fun found =>
      (readFrom fuel found.2.2).bind fun rest => .ok (declare t found.1 found.2.1 rest)) =
        .error d := by
    rw [readFrom.eq_def] at failed
    rcases kind with kind | kind <;> (simp only [kind] at failed; exact failed)
  rcases Except.bind_eq_error_iff.mp failed with refused | ⟨⟨name, value, after⟩, declared, more⟩
  · exact .here (readDeclaration_eq_error ⟨t, kind⟩ refused)
  have outer : readFrom fuel after = .error d := Except.error_of_bind_ok more
  obtain ⟨identifier, ⟨rfl, semicolon, rfl⟩ | ⟨equals, e, semicolon, rfl, rfl⟩⟩ :=
    readDeclaration_eq_ok_iff.mp declared
  · simp only [List.length_cons] at room
    exact .behind (.declare ⟨t, kind⟩ ⟨name, identifier⟩ semicolon .done)
      (below (by omega) outer)
  · simp only [List.length_append, List.length_cons] at room
    have later := Refused.behind
      (.define ⟨t, kind⟩ ⟨name, identifier⟩ equals e semicolon .done) (below (by omega) outer)
    simpa [Script.tokens] using later

theorem refused_assign {next : Token} {others : List Token} (kind : t.kind = .identifier)
    (whole : rest = next :: others) (assigns : next.kind = .assign) : Refused (t :: rest) d := by
  subst whole
  rw [readFrom.eq_def] at failed
  simp only [kind, assigns, if_true] at failed
  rcases Except.bind_eq_error_iff.mp failed with refused | ⟨⟨e, after⟩, reads, more⟩
  · rcases readTerminated_eq_error refused with ⟨u, member, blames⟩ |
      ⟨slice, semicolon, after, rfl, stretch, reads⟩
    · exact .here (.misplaced (List.mem_cons_of_mem _ member) blames)
    · exact .here (.expression (.assign ⟨t, kind⟩ ⟨next, assigns⟩ semicolon after stretch) reads)
  have outer : readFrom fuel after = .error d := Except.error_of_bind_ok more
  obtain ⟨value, semicolon, rfl, rfl⟩ := readTerminated_eq_ok_iff.mp reads
  simp only [List.length_append, List.length_cons] at room
  have later := Refused.behind (.assign ⟨t, kind⟩ ⟨next, assigns⟩ value semicolon .done)
    (below (by omega) outer)
  simpa [Script.tokens] using later

theorem refused_expression (kind : t.kind ∈ Phrase.startKinds)
    (unassigned : t.kind = .identifier → ∀ next ∈ rest.head?, next.kind ≠ .assign) :
    Refused (t :: rest) d := by
  rw [readFrom_expression kind unassigned] at failed
  rcases Except.bind_eq_error_iff.mp failed with refused | ⟨⟨e, after⟩, reads, more⟩
  · rcases readTerminated_eq_error refused with ⟨u, member, blames⟩ |
      ⟨slice, semicolon, after, whole, stretch, reads⟩
    · exact .here (.misplaced (by simpa using member) blames)
    · obtain ⟨first, others, rfl⟩ := List.exists_cons_of_ne_nil stretch.filled
      cases whole
      exact .here (.expression (.expression semicolon after stretch kind unassigned) reads)
  · obtain ⟨value, semicolon, same, rfl⟩ := readTerminated_eq_ok_iff.mp reads
    have size : (t :: rest).length ≤ fuel := room
    rw [same] at size ⊢
    simp only [List.length_append, List.length_cons] at size
    have later := Refused.behind (.expression value semicolon .done)
      (below (by omega) (Except.map_eq_error_iff.mp more))
    simpa [Script.tokens] using later

omit failed in
/-- A condition and the block behind it are refused, or they are read and what comes next is not. -/
theorem refused_conditional (kind : t.kind = .ifWord ∨ t.kind = .whileWord) {what : Text}
    {next : Expression × List Token → Cut → Program → Except Diagnostic Program}
    (failed : ((readCondition t rest).bind fun found => (cutBlock what t found.2).bind fun cut =>
      (readFrom fuel cut.inside).bind fun body => next found cut body) = .error d) :
    Refused (t :: rest) d ∨
      ∃ (paren : Word .leftParen) (condition : Slice) (parenEnd : Word .rightParen)
        (brace : Word .leftBrace) (body : Script) (braceEnd : Word .rightBrace)
        (after : List Token),
        rest = paren.val :: (condition.tokens ++ parenEnd.val :: brace.val ::
          (body.tokens ++ braceEnd.val :: after)) ∧
        next (condition.expression, brace.val :: (body.tokens ++ braceEnd.val :: after))
          ⟨brace.val, body.tokens, after⟩ body.program = .error d := by
  rcases Except.bind_eq_error_iff.mp failed with refused | ⟨⟨e, behind⟩, reads, more⟩
  · exact .inl (.here (readCondition_eq_error ⟨t, kind⟩ refused))
  obtain ⟨paren, condition, parenEnd, rfl, rfl⟩ := readCondition_eq_ok_iff.mp reads
  have leads := Leads.condition ⟨t, kind⟩ paren condition parenEnd
  rcases Except.bind_eq_error_iff.mp more with refused | ⟨⟨brace, inside, after⟩, cut, bodies⟩
  · have flaw := cutBlock_eq_error leads (by simp) refused
    exact .inl (.here (by simpa using flaw))
  obtain ⟨opens, balanced, ⟨c, closes⟩, rfl⟩ := cutBlock_eq_ok_iff.mp cut
  simp only [List.length_append, List.length_cons] at room
  dsimp only at opens balanced bodies
  rcases Except.bind_eq_error_iff.mp bodies with inner | ⟨body, inner, last⟩
  · have within := Refused.inside leads opens closes balanced (below (by omega) inner) after
    exact .inl (by simpa using within)
  obtain ⟨b, rfl, rfl⟩ := exists_script (by omega) inner
  exact .inr ⟨paren, condition, parenEnd, ⟨brace, opens⟩, b, ⟨c, closes⟩, after, rfl, last⟩

theorem refused_loop (kind : t.kind = .whileWord) : Refused (t :: rest) d := by
  rw [readFrom.eq_def] at failed
  simp only [kind] at failed
  rcases refused_conditional below room (.inr kind) failed with
    refused | ⟨paren, condition, parenEnd, brace, b, braceEnd, after, rfl, last⟩
  · exact refused
  have outer : readFrom fuel after = .error d := Except.error_of_bind_ok last
  simp only [List.length_append, List.length_cons] at room
  have later := Refused.behind
    (.loop ⟨t, kind⟩ paren condition parenEnd brace b braceEnd .done) (below (by omega) outer)
  simpa [Script.tokens] using later

theorem refused_branch (kind : t.kind = .ifWord) : Refused (t :: rest) d := by
  rw [readFrom.eq_def] at failed
  simp only [kind] at failed
  rcases refused_conditional below room (.inl kind) failed with
    refused | ⟨paren, condition, parenEnd, brace, b, braceEnd, after, rfl, last⟩
  · exact refused
  cases after with
  | nil => cases last
  | cons next others =>
    simp only [List.length_append, List.length_cons] at room
    by_cases otherwise : next.kind = .elseWord
    · simp only [otherwise, if_true] at last
      have leads := Leads.otherwise ⟨t, kind⟩ paren condition parenEnd brace b braceEnd
        ⟨next, otherwise⟩
      rcases Except.bind_eq_error_iff.mp last with
        refused | ⟨⟨elseBrace, elseInside, elseAfter⟩, elseCut, bodies⟩
      · have flaw := cutBlock_eq_error leads (by simp) refused
        exact .here (by simpa using flaw)
      obtain ⟨opens, balanced, ⟨c, closes⟩, rfl⟩ := cutBlock_eq_ok_iff.mp elseCut
      simp only [List.length_append, List.length_cons] at room
      dsimp only at opens balanced bodies
      rcases Except.bind_eq_error_iff.mp bodies with inner | ⟨elseBody, inner, ending⟩
      · have within := Refused.inside leads opens closes balanced (below (by omega) inner) elseAfter
        simpa using within
      obtain ⟨b', rfl, rfl⟩ := exists_script (by omega) inner
      have later := Refused.behind (.ifElse ⟨t, kind⟩ paren condition parenEnd brace b braceEnd
        ⟨next, otherwise⟩ ⟨elseBrace, opens⟩ b' ⟨c, closes⟩ .done)
        (below (by omega) (Except.error_of_bind_ok ending))
      simpa [Script.tokens] using later
    · simp only [otherwise, if_false] at last
      have later := Refused.behind
        (.ifThen ⟨t, kind⟩ paren condition parenEnd brace b braceEnd .done)
        (below (by simp only [List.length_cons]; omega) (Except.error_of_bind_ok last))
      simpa [Script.tokens] using later

end Statements

/-- What is refused has a flaw. -/
theorem refused_of_readFrom {fuel : Nat} {ts : List Token} {d : Diagnostic}
    (room : ts.length < fuel) (failed : readFrom fuel ts = .error d) : Refused ts d := by
  induction fuel generalizing ts with
  | zero => omega
  | succ fuel ih =>
    cases ts with
    | nil => cases failed
    | cons t rest =>
      have room : rest.length < fuel := by simpa using room
      cases kind : t.kind with
      | semicolon =>
        rw [readFrom.eq_def] at failed
        simp only [kind] at failed
        exact .behind (.empty ⟨t, kind⟩ .done) (ih room failed)
      | leftBrace => exact refused_block ih room failed kind
      | letWord => exact refused_declaration ih room failed (.inl kind)
      | constWord => exact refused_declaration ih room failed (.inr kind)
      | ifWord => exact refused_branch ih room failed kind
      | whileWord => exact refused_loop ih room failed kind
      | identifier =>
        cases rest with
        | nil => exact refused_expression ih room failed (by rw [kind]; decide) (by simp)
        | cons next others =>
          by_cases assigns : next.kind = .assign
          · exact refused_assign ih room failed kind rfl assigns
          · exact refused_expression ih room failed (by rw [kind]; decide) (by simp [assigns])
      | number | string | plus | minus | bang | leftParen =>
        exact refused_expression ih room failed (by rw [kind]; decide) (by simp [kind])
      | rightBrace =>
        rw [readFrom.eq_def] at failed
        simp only [kind] at failed
        cases failed
        exact .here (.stray rest kind)
      | _ =>
        rw [readFrom.eq_def] at failed
        simp only [kind] at failed
        cases failed
        exact .here (.misplaced List.mem_cons_self (.error (by decide) t _ _))

/-- The problem that tokens are refused for as a script. -/
def problem? (ts : List Token) : Option Diagnostic :=
  match read ts with
  | .error d => some d
  | .ok _ => none

theorem problem?_eq_some_iff {ts : List Token} {d : Diagnostic} :
    problem? ts = some d ↔ read ts = .error d := by
  unfold problem?
  cases read ts <;> simp

theorem refused_of_read {ts : List Token} {d : Diagnostic} (failed : read ts = .error d) :
    Refused ts d :=
  refused_of_readFrom (Nat.lt_succ_self _) failed

end NumScript.Program
