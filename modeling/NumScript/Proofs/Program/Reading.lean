import NumScript.Proofs.Program.Grammar

/-! The reader of programs and their grammar. Each part of a statement is read exactly from the
tokens that the grammar gives it, because expressions hold no semicolon, no brace and no `=`, and
delimiters are found where they balance; so programs are read exactly from scripts. -/

namespace NumScript.Program

/-! ### Parts of statements -/

theorem readExpression_eq_ok_iff {after : Token} {tokens : List Token} {e : Expression} :
    readExpression after tokens = .ok e ↔ ∃ s : Slice, s.tokens = tokens ∧ s.expression = e := by
  cases tokens with
  | nil => simp [readExpression, Slice.tokens]
  | cons start more =>
    constructor
    · intro success
      obtain ⟨tree, reads, same⟩ := Except.bind_eq_ok_iff.mp success
      cases same
      exact ⟨⟨start, more, tree, reads⟩, rfl, rfl⟩
    · rintro ⟨⟨_, _, tree, reads⟩, same, rfl⟩
      cases same
      exact Except.bind_eq_ok_iff.mpr ⟨tree, reads, rfl⟩

/-- Up to its semicolon an expression is read by itself. -/
theorem readTerminated_append (after : Token) {slice : List Token}
    (unended : ∀ t ∈ slice, endsExpression t = false) (semicolon : Word .semicolon)
    (rest : List Token) :
    readTerminated after (slice ++ semicolon.val :: rest) =
      (readExpression after slice).map fun e => (e, rest) := by
  have ends : endsExpression semicolon.val = true := by simp [endsExpression, semicolon.property]
  have inner : ∀ t ∈ slice, (!endsExpression t) = true := fun t member => by
    simp [unended t member]
  have inside : (slice ++ semicolon.val :: rest).takeWhile (fun t => !endsExpression t) =
      slice := by
    rw [List.takeWhile_append_of_pos inner]
    simp [ends]
  have behind : (slice ++ semicolon.val :: rest).dropWhile (fun t => !endsExpression t) =
      semicolon.val :: rest := by
    rw [List.dropWhile_append_of_pos inner]
    simp [ends]
  unfold readTerminated
  simp only [inside, behind, semicolon.property, if_true]
  cases readExpression after slice <;> rfl

/-- An expression with its semicolon is read from the tokens of a slice and a semicolon. -/
theorem readTerminated_eq_ok_iff {after : Token} {tokens rest : List Token} {e : Expression} :
    readTerminated after tokens = .ok (e, rest) ↔
      ∃ (s : Slice) (semicolon : Word .semicolon),
        tokens = s.tokens ++ semicolon.val :: rest ∧ s.expression = e := by
  constructor
  · intro success
    unfold readTerminated at success
    dsimp only at success
    split at success
    · cases success
    · rename_i t behind found
      split at success
      · rename_i kind
        obtain ⟨e', reads, same⟩ := Except.bind_eq_ok_iff.mp success
        cases same
        obtain ⟨s, inside, rfl⟩ := readExpression_eq_ok_iff.mp reads
        refine ⟨s, ⟨t, kind⟩, ?_, rfl⟩
        rw [inside, ← found, List.takeWhile_append_dropWhile]
      · cases success
  · rintro ⟨s, semicolon, rfl, rfl⟩
    rw [readTerminated_append after (fun t => s.not_endsExpression) semicolon rest]
    exact Except.map_eq_ok_iff.mpr ⟨_, readExpression_eq_ok_iff.mpr ⟨s, rfl, rfl⟩, rfl⟩

theorem readTerminated_slice (after : Token) (s : Slice) (semicolon : Word .semicolon)
    (rest : List Token) :
    readTerminated after (s.tokens ++ semicolon.val :: rest) = .ok (s.expression, rest) :=
  readTerminated_eq_ok_iff.mpr ⟨s, semicolon, rfl, rfl⟩

/-- A condition is read from the tokens of a slice in parentheses. -/
theorem readCondition_eq_ok_iff {keyword : Token} {tokens rest : List Token} {e : Expression} :
    readCondition keyword tokens = .ok (e, rest) ↔
      ∃ (paren : Word .leftParen) (s : Slice) (parenEnd : Word .rightParen),
        tokens = paren.val :: (s.tokens ++ parenEnd.val :: rest) ∧ s.expression = e := by
  constructor
  · intro success
    unfold readCondition at success
    split at success
    · rename_i paren behind
      split at success
      · rename_i opens
        split at success
        · cases success
        · rename_i inside after found
          obtain ⟨c, rfl, closes, -⟩ := (enclosed?_eq_some_iff (by decide)).mp found
          obtain ⟨e', reads, same⟩ := Except.bind_eq_ok_iff.mp success
          cases same
          obtain ⟨s, rfl, rfl⟩ := readExpression_eq_ok_iff.mp reads
          exact ⟨⟨paren, opens⟩, s, ⟨c, closes⟩, rfl, rfl⟩
      · cases success
    · cases success
  · rintro ⟨⟨paren, opens⟩, s, ⟨c, closes⟩, rfl, rfl⟩
    simp only [readCondition, opens, if_true,
      enclosed?_of_balanced (by decide) closes s.paren_balanced]
    exact Except.bind_eq_ok_iff.mpr ⟨_, readExpression_eq_ok_iff.mpr ⟨s, rfl, rfl⟩, rfl⟩

theorem readCondition_slice (keyword : Token) (paren : Word .leftParen) (s : Slice)
    (parenEnd : Word .rightParen) (rest : List Token) :
    readCondition keyword (paren.val :: (s.tokens ++ parenEnd.val :: rest)) =
      .ok (s.expression, rest) :=
  readCondition_eq_ok_iff.mpr ⟨paren, s, parenEnd, rfl, rfl⟩

/-- A block is cut out behind tokens that balance their braces. -/
theorem cutBlock_eq_ok_iff {what : Text} {near : Token} {tokens : List Token} {cut : Cut} :
    cutBlock what near tokens = .ok cut ↔
      cut.brace.kind = .leftBrace ∧ Balanced .leftBrace .rightBrace cut.inside ∧
        ∃ braceEnd : Word .rightBrace,
          tokens = cut.brace :: (cut.inside ++ braceEnd.val :: cut.after) := by
  constructor
  · intro success
    unfold cutBlock at success
    split at success
    · rename_i brace behind
      split at success
      · rename_i opens
        split at success
        · cases success
        · rename_i inside after found
          obtain ⟨c, rfl, closes, balanced⟩ := (enclosed?_eq_some_iff (by decide)).mp found
          cases success
          exact ⟨opens, balanced, ⟨c, closes⟩, rfl⟩
      · cases success
    · cases success
  · obtain ⟨brace, inside, after⟩ := cut
    rintro ⟨opens, balanced, ⟨c, closes⟩, rfl⟩
    dsimp only at opens
    simp [cutBlock, opens, enclosed?_of_balanced (by decide) closes balanced]

theorem cutBlock_script (what : Text) (near : Token) (brace : Word .leftBrace) (body : Script)
    (braceEnd : Word .rightBrace) (after : List Token) :
    cutBlock what near (brace.val :: (body.tokens ++ braceEnd.val :: after)) =
      .ok ⟨brace.val, body.tokens, after⟩ :=
  cutBlock_eq_ok_iff.mpr ⟨brace.property, body.brace_balanced, braceEnd, rfl⟩

/-- What a declaration says, from the tokens behind its keyword. -/
theorem readDeclaration_eq_ok_iff {keyword name : Token} {tokens rest : List Token}
    {value : Option Expression} :
    readDeclaration keyword tokens = .ok (name, value, rest) ↔
      name.kind = .identifier ∧
        ((value = none ∧ ∃ semicolon : Word .semicolon,
            tokens = name :: semicolon.val :: rest) ∨
          ∃ (equals : Word .assign) (s : Slice) (semicolon : Word .semicolon),
            tokens = name :: equals.val :: (s.tokens ++ semicolon.val :: rest) ∧
              value = some s.expression) := by
  constructor
  · intro success
    unfold readDeclaration at success
    split at success
    · cases success
    · rename_i name' behind
      split at success
      · rename_i identifier
        split at success
        · cases success
        · rename_i next behind
          split at success
          · rename_i kind
            cases success
            exact ⟨identifier, .inl ⟨rfl, ⟨next, kind⟩, rfl⟩⟩
          · split at success
            · rename_i kind
              obtain ⟨⟨e, rest'⟩, reads, same⟩ := Except.bind_eq_ok_iff.mp success
              cases same
              obtain ⟨s, semicolon, rfl, rfl⟩ := readTerminated_eq_ok_iff.mp reads
              exact ⟨identifier, .inr ⟨⟨next, kind⟩, s, semicolon, rfl, rfl⟩⟩
            · cases success
      · cases success
  · rintro ⟨identifier, ⟨rfl, ⟨t, kind⟩, rfl⟩ | ⟨⟨t, kind⟩, s, semicolon, rfl, rfl⟩⟩
    · simp [readDeclaration, identifier, kind]
    · have reads := readTerminated_slice t s semicolon rest
      simp [readDeclaration, identifier, kind, reads, bind, Except.bind, pure, Except.pure]

/-! ### Scripts are read -/

theorem readFrom_nil (fuel : Nat) : readFrom fuel [] = .ok done := by
  cases fuel <;> rfl

/-- A statement that starts like an expression and is no assignment is an expression. -/
theorem readFrom_expression {fuel : Nat} {t : Token} {rest : List Token}
    (kind : t.kind ∈ Phrase.startKinds)
    (unassigned : t.kind = .identifier → ∀ next ∈ rest.head?, next.kind ≠ .assign) :
    readFrom (fuel + 1) (t :: rest) =
      (readTerminated t (t :: rest)).bind fun (e, rest) =>
        (readFrom fuel rest).map (expression e) := by
  have whole (result : Except Diagnostic (Expression × List Token)) :
      (do
        let (e, rest) ← result
        let rest ← readFrom fuel rest
        return expression e rest) =
      result.bind fun (e, rest) => (readFrom fuel rest).map (expression e) := by
    cases result with
    | error d => rfl
    | ok found =>
      simp only [bind, Except.bind]
      cases readFrom fuel found.2 <;> rfl
  rw [readFrom.eq_def, ← whole]
  simp only [Phrase.startKinds, Phrase.operandKinds, Phrase.signKinds, List.cons_append,
    List.nil_append, List.mem_cons, List.not_mem_nil, or_false] at kind
  rcases kind with kind | kind | kind | kind | kind | kind | kind <;> simp only [kind]
  cases rest with
  | nil => rfl
  | cons next others =>
    have other : next.kind ≠ .assign := unassigned kind next rfl
    simp only [other, if_false]

theorem append_done (p : Program) : p.append done = p := by
  induction p <;> simp_all [append]

/-- Where nothing follows a script, what is read is its program. -/
theorem readFrom_of_append {s : Script} {fuel : Nat}
    (whole : readFrom fuel (s.tokens ++ []) = (Except.ok done).map s.program.append) :
    readFrom fuel s.tokens = .ok s.program := by
  rwa [List.append_nil, Except.map, append_done] at whole

/-- Behind the statements of a script, reading goes on with what follows them. Only an `else` there
would belong to the last of them. -/
theorem readFrom_append (s : Script) {others : List Token} {result : Except Diagnostic Program}
    (apart : ∀ next ∈ others.head?, next.kind ≠ .elseWord)
    (behind : ∀ fuel, others.length < fuel → readFrom fuel others = result) {fuel : Nat}
    (room : (s.tokens ++ others).length < fuel) :
    readFrom fuel (s.tokens ++ others) = result.map s.program.append := by
  induction fuel generalizing s others result with
  | zero => omega
  | succ fuel ih =>
    have body (b : Script) (room : b.tokens.length < fuel) :
        readFrom fuel b.tokens = .ok b.program :=
      readFrom_of_append (ih b (by simp) (fun fuel _ => readFrom_nil fuel) (by simpa))
    cases s with
    | done =>
      rw [Script.tokens, List.nil_append] at room ⊢
      rw [behind _ room]
      cases result <;> rfl
    | empty semicolon rest =>
      simp only [Script.tokens, List.cons_append, List.length_cons] at room ⊢
      rw [readFrom.eq_def]
      simp only [semicolon.property]
      exact ih rest apart behind (by omega)
    | block opening inside closing rest =>
      simp only [Script.tokens, List.cons_append, List.append_assoc, List.length_cons,
        List.length_append] at room ⊢
      have next := ih rest apart behind (by rw [List.length_append]; omega)
      rw [readFrom.eq_def]
      simp only [opening.property, cutBlock_script, body inside (by omega), next, bind,
        Except.bind]
      cases result <;> rfl
    | declare keyword name semicolon rest =>
      simp only [Script.tokens, List.cons_append, List.length_cons] at room ⊢
      have next := ih rest apart behind (by omega)
      have declared : readDeclaration keyword.val
          (name.val :: semicolon.val :: (rest.tokens ++ others)) =
          .ok (name.val, none, rest.tokens ++ others) :=
        readDeclaration_eq_ok_iff.mpr ⟨name.property, .inl ⟨rfl, semicolon, rfl⟩⟩
      rw [readFrom.eq_def]
      rcases keyword.property with kind | kind <;>
        simp only [kind, declared, next, bind, Except.bind] <;> cases result <;> rfl
    | define keyword name equals value semicolon rest =>
      simp only [Script.tokens, List.cons_append, List.append_assoc, List.length_cons,
        List.length_append] at room ⊢
      have next := ih rest apart behind (by rw [List.length_append]; omega)
      have declared : readDeclaration keyword.val
          (name.val :: equals.val :: (value.tokens ++ semicolon.val :: (rest.tokens ++ others))) =
          .ok (name.val, some value.expression, rest.tokens ++ others) :=
        readDeclaration_eq_ok_iff.mpr ⟨name.property, .inr ⟨equals, value, semicolon, rfl, rfl⟩⟩
      rw [readFrom.eq_def]
      rcases keyword.property with kind | kind <;>
        simp only [kind, declared, next, bind, Except.bind] <;> cases result <;> rfl
    | assign name equals value semicolon rest =>
      simp only [Script.tokens, List.cons_append, List.append_assoc, List.length_cons,
        List.length_append] at room ⊢
      have next := ih rest apart behind (by rw [List.length_append]; omega)
      rw [readFrom.eq_def]
      simp only [name.property, equals.property, if_true, readTerminated_slice, next, bind,
        Except.bind]
      cases result <;> rfl
    | expression value semicolon rest =>
      simp only [Script.tokens, List.cons_append, List.append_assoc, List.length_cons,
        List.length_append] at room ⊢
      have next := ih rest apart behind (by rw [List.length_append]; omega)
      have whole : value.tokens ++ semicolon.val :: (rest.tokens ++ others) =
          value.start :: (value.more ++ semicolon.val :: (rest.tokens ++ others)) := rfl
      rw [whole, readFrom_expression value.start_mem
        fun _ => value.next_ne_assign semicolon (rest.tokens ++ others), ← whole,
        readTerminated_slice]
      simp only [Except.bind, next]
      cases result <;> rfl
    | ifThen keyword paren condition parenEnd brace inside braceEnd rest =>
      simp only [Script.tokens, List.cons_append, List.append_assoc, List.length_cons,
        List.length_append] at room ⊢
      have next := ih rest apart behind (by rw [List.length_append]; omega)
      rw [readFrom.eq_def]
      simp only [keyword.property, readCondition_slice, cutBlock_script, body inside (by omega),
        bind, Except.bind]
      -- Either the tokens end behind the block, or a statement follows, which is no `else`.
      cases follow : rest.tokens ++ others with
      | nil =>
        rw [follow, readFrom_nil] at next
        obtain ⟨q, rfl, same⟩ := Except.map_eq_ok_iff.mp next.symm
        simp only [Except.map, Script.program, append, same]
        rfl
      | cons first more =>
        have notElse : first.kind ≠ .elseWord := by
          cases own : rest.tokens with
          | nil =>
            rw [own, List.nil_append] at follow
            exact apart first (by rw [follow]; rfl)
          | cons t others' =>
            rw [own, List.cons_append] at follow
            cases follow
            exact rest.head_ne_else own
        rw [follow] at next
        simp only [notElse, if_false, next]
        cases result <;> rfl
    | ifElse keyword paren condition parenEnd brace inside braceEnd otherwise elseBrace elseInside
        elseEnd rest =>
      simp only [Script.tokens, List.cons_append, List.append_assoc, List.length_cons,
        List.length_append] at room ⊢
      have next := ih rest apart behind (by rw [List.length_append]; omega)
      rw [readFrom.eq_def]
      simp only [keyword.property, readCondition_slice, cutBlock_script, otherwise.property,
        if_true, body inside (by omega), body elseInside (by omega), next, bind, Except.bind]
      cases result <;> rfl
    | loop keyword paren condition parenEnd brace inside braceEnd rest =>
      simp only [Script.tokens, List.cons_append, List.append_assoc, List.length_cons,
        List.length_append] at room ⊢
      have next := ih rest apart behind (by rw [List.length_append]; omega)
      rw [readFrom.eq_def]
      simp only [keyword.property, readCondition_slice, cutBlock_script, body inside (by omega),
        next, bind, Except.bind]
      cases result <;> rfl

/-- A script is read to its program. -/
theorem readFrom_tokens (s : Script) {fuel : Nat} (room : s.tokens.length < fuel) :
    readFrom fuel s.tokens = .ok s.program :=
  readFrom_of_append (readFrom_append s (by simp) (fun fuel _ => readFrom_nil fuel) (by simpa))

/-! ### Only scripts are read -/

section Statements

variable {fuel : Nat}
  (below : ∀ {ts : List Token} {p : Program}, ts.length < fuel → readFrom fuel ts = .ok p →
    ∃ s : Script, s.tokens = ts ∧ s.program = p)
  {t : Token} {rest : List Token} {p : Program} (room : rest.length < fuel)
  (success : readFrom (fuel + 1) (t :: rest) = .ok p)

include below room success

theorem exists_empty (kind : t.kind = .semicolon) :
    ∃ s : Script, s.tokens = t :: rest ∧ s.program = p := by
  rw [readFrom.eq_def] at success
  simp only [kind] at success
  obtain ⟨s, rfl, rfl⟩ := below room success
  exact ⟨.empty ⟨t, kind⟩ s, rfl, rfl⟩

theorem exists_block (kind : t.kind = .leftBrace) :
    ∃ s : Script, s.tokens = t :: rest ∧ s.program = p := by
  rw [readFrom.eq_def] at success
  simp only [kind] at success
  obtain ⟨⟨brace, inside, after⟩, cut, more⟩ := Except.bind_eq_ok_iff.mp success
  obtain ⟨body, inner, more⟩ := Except.bind_eq_ok_iff.mp more
  obtain ⟨others, outer, same⟩ := Except.bind_eq_ok_iff.mp more
  cases same
  obtain ⟨-, -, braceEnd, same⟩ := cutBlock_eq_ok_iff.mp cut
  cases same
  simp only [List.length_append, List.length_cons] at room inner outer
  obtain ⟨b, rfl, rfl⟩ := below (by omega) inner
  obtain ⟨s, rfl, rfl⟩ := below (by omega) outer
  exact ⟨.block ⟨brace, kind⟩ b braceEnd s, rfl, rfl⟩

theorem exists_declaration (kind : t.kind = .letWord ∨ t.kind = .constWord) :
    ∃ s : Script, s.tokens = t :: rest ∧ s.program = p := by
  have success : ((readDeclaration t rest).bind fun found =>
      (readFrom fuel found.2.2).bind fun rest => .ok (declare t found.1 found.2.1 rest)) =
        .ok p := by
    rw [readFrom.eq_def] at success
    rcases kind with kind | kind <;> (simp only [kind] at success; exact success)
  obtain ⟨⟨name, value, after⟩, declared, more⟩ := Except.bind_eq_ok_iff.mp success
  obtain ⟨others, outer, same⟩ := Except.bind_eq_ok_iff.mp more
  cases same
  dsimp only at outer
  obtain ⟨identifier, ⟨rfl, semicolon, rfl⟩ | ⟨equals, e, semicolon, rfl, rfl⟩⟩ :=
    readDeclaration_eq_ok_iff.mp declared
  · simp only [List.length_cons] at room
    obtain ⟨s, rfl, rfl⟩ := below (by omega) outer
    exact ⟨.declare ⟨t, kind⟩ ⟨name, identifier⟩ semicolon s, rfl, rfl⟩
  · simp only [List.length_append, List.length_cons] at room
    obtain ⟨s, rfl, rfl⟩ := below (by omega) outer
    exact ⟨.define ⟨t, kind⟩ ⟨name, identifier⟩ equals e semicolon s, rfl, rfl⟩

theorem exists_assign {next : Token} {others : List Token} (kind : t.kind = .identifier)
    (whole : rest = next :: others) (assigns : next.kind = .assign) :
    ∃ s : Script, s.tokens = t :: rest ∧ s.program = p := by
  subst whole
  rw [readFrom.eq_def] at success
  simp only [kind, assigns, if_true] at success
  obtain ⟨⟨e, after⟩, reads, more⟩ := Except.bind_eq_ok_iff.mp success
  obtain ⟨others, outer, same⟩ := Except.bind_eq_ok_iff.mp more
  cases same
  obtain ⟨value, semicolon, rfl, rfl⟩ := readTerminated_eq_ok_iff.mp reads
  simp only [List.length_append, List.length_cons] at room outer
  obtain ⟨s, rfl, rfl⟩ := below (by omega) outer
  exact ⟨.assign ⟨t, kind⟩ ⟨next, assigns⟩ value semicolon s, rfl, rfl⟩

theorem exists_expression (kind : t.kind ∈ Phrase.startKinds)
    (unassigned : t.kind = .identifier → ∀ next ∈ rest.head?, next.kind ≠ .assign) :
    ∃ s : Script, s.tokens = t :: rest ∧ s.program = p := by
  rw [readFrom_expression kind unassigned] at success
  obtain ⟨⟨e, after⟩, reads, more⟩ := Except.bind_eq_ok_iff.mp success
  obtain ⟨q, outer, rfl⟩ := Except.map_eq_ok_iff.mp more
  obtain ⟨value, semicolon, same, rfl⟩ := readTerminated_eq_ok_iff.mp reads
  have size : (t :: rest).length ≤ fuel := room
  rw [same] at size ⊢
  simp only [List.length_append, List.length_cons] at size
  obtain ⟨s, rfl, rfl⟩ := below (by omega) outer
  exact ⟨.expression value semicolon s, rfl, rfl⟩

theorem exists_loop (kind : t.kind = .whileWord) :
    ∃ s : Script, s.tokens = t :: rest ∧ s.program = p := by
  rw [readFrom.eq_def] at success
  simp only [kind] at success
  obtain ⟨⟨e, behind⟩, reads, more⟩ := Except.bind_eq_ok_iff.mp success
  obtain ⟨⟨brace, inside, after⟩, cut, more⟩ := Except.bind_eq_ok_iff.mp more
  obtain ⟨body, inner, more⟩ := Except.bind_eq_ok_iff.mp more
  obtain ⟨others, outer, same⟩ := Except.bind_eq_ok_iff.mp more
  cases same
  obtain ⟨paren, condition, parenEnd, rfl, rfl⟩ := readCondition_eq_ok_iff.mp reads
  obtain ⟨opens, -, braceEnd, rfl⟩ := cutBlock_eq_ok_iff.mp cut
  simp only [List.length_append, List.length_cons] at room inner outer
  obtain ⟨b, rfl, rfl⟩ := below (by omega) inner
  obtain ⟨s, rfl, rfl⟩ := below (by omega) outer
  exact ⟨.loop ⟨t, kind⟩ paren condition parenEnd ⟨brace, opens⟩ b braceEnd s, rfl, rfl⟩

theorem exists_branch (kind : t.kind = .ifWord) :
    ∃ s : Script, s.tokens = t :: rest ∧ s.program = p := by
  rw [readFrom.eq_def] at success
  simp only [kind] at success
  obtain ⟨⟨e, behind⟩, reads, more⟩ := Except.bind_eq_ok_iff.mp success
  obtain ⟨⟨brace, inside, after⟩, cut, more⟩ := Except.bind_eq_ok_iff.mp more
  obtain ⟨body, inner, more⟩ := Except.bind_eq_ok_iff.mp more
  obtain ⟨paren, condition, parenEnd, rfl, rfl⟩ := readCondition_eq_ok_iff.mp reads
  obtain ⟨opens, -, braceEnd, rfl⟩ := cutBlock_eq_ok_iff.mp cut
  simp only [List.length_append, List.length_cons] at room inner more
  obtain ⟨b, rfl, rfl⟩ := below (by omega) inner
  cases after with
  | nil =>
    cases more
    exact ⟨.ifThen ⟨t, kind⟩ paren condition parenEnd ⟨brace, opens⟩ b braceEnd .done, rfl, rfl⟩
  | cons next behind =>
    simp only [List.length_cons] at room
    by_cases otherwise : next.kind = .elseWord
    · simp only [otherwise, if_true] at more
      obtain ⟨⟨elseBrace, elseInside, elseAfter⟩, elseCut, more⟩ := Except.bind_eq_ok_iff.mp more
      obtain ⟨elseBody, elseInner, more⟩ := Except.bind_eq_ok_iff.mp more
      obtain ⟨others, outer, same⟩ := Except.bind_eq_ok_iff.mp more
      cases same
      obtain ⟨elseOpens, -, elseEnd, rfl⟩ := cutBlock_eq_ok_iff.mp elseCut
      simp only [List.length_append, List.length_cons] at room elseInner outer
      obtain ⟨c, rfl, rfl⟩ := below (by omega) elseInner
      obtain ⟨s, rfl, rfl⟩ := below (by omega) outer
      exact ⟨.ifElse ⟨t, kind⟩ paren condition parenEnd ⟨brace, opens⟩ b braceEnd
        ⟨next, otherwise⟩ ⟨elseBrace, elseOpens⟩ c elseEnd s, rfl, rfl⟩
    · simp only [otherwise, if_false] at more
      obtain ⟨q, outer, same⟩ := Except.bind_eq_ok_iff.mp more
      cases same
      obtain ⟨s, tokens, rfl⟩ := below (by simp only [List.length_cons]; omega) outer
      exact ⟨.ifThen ⟨t, kind⟩ paren condition parenEnd ⟨brace, opens⟩ b braceEnd s,
        by rw [Script.tokens, tokens], rfl⟩

end Statements

/-- What is read is a script. -/
theorem exists_script {fuel : Nat} {ts : List Token} {p : Program} (room : ts.length < fuel)
    (success : readFrom fuel ts = .ok p) : ∃ s : Script, s.tokens = ts ∧ s.program = p := by
  induction fuel generalizing ts p with
  | zero => omega
  | succ fuel ih =>
    cases ts with
    | nil =>
      cases success
      exact ⟨.done, rfl, rfl⟩
    | cons t rest =>
      have room : rest.length < fuel := by simpa using room
      cases kind : t.kind with
      | semicolon => exact exists_empty ih room success kind
      | leftBrace => exact exists_block ih room success kind
      | letWord => exact exists_declaration ih room success (.inl kind)
      | constWord => exact exists_declaration ih room success (.inr kind)
      | ifWord => exact exists_branch ih room success kind
      | whileWord => exact exists_loop ih room success kind
      | identifier =>
        cases rest with
        | nil => exact exists_expression ih room success (by rw [kind]; decide) (by simp)
        | cons next others =>
          by_cases assigns : next.kind = .assign
          · exact exists_assign ih room success kind rfl assigns
          · exact exists_expression ih room success (by rw [kind]; decide) (by simp [assigns])
      | number | string | plus | minus | bang | leftParen =>
        exact exists_expression ih room success (by rw [kind]; decide) (by simp [kind])
      | _ =>
        rw [readFrom.eq_def] at success
        simp only [kind] at success
        cases success

end NumScript.Program
