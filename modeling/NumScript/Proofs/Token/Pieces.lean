import NumScript.Token.Piece

/-! The pieces of a script. `Piece.FollowedBy` says of each kind of piece what it looks like and
where it ends, without a word about how it is found. Splitting a script finds a division of it into
such pieces: put together they are the script, and each stands before what it may stand before. -/

namespace NumScript

/-! ### Characters -/

namespace Text

theorem le_of_isTail {b : UInt8} (tail : isTail b = true) : 0x80 ≤ b := by
  simp only [isTail, Bool.and_eq_true, decide_eq_true_eq] at tail
  exact tail.1

theorem rune?_of_ascii {b : UInt8} (ascii : b < 0x80) (rest : Text) :
    rune? (b :: rest) = some (b.toNat, 1) := by
  simp [rune?, ascii]

/-- A character that is spelled is an ASCII byte, or its bytes are all outside ASCII. -/
theorem width_of_rune? {b : UInt8} {rest : Text} {code width : Nat}
    (spelled : rune? (b :: rest) = some (code, width)) :
    b < 0x80 ∧ width = 1 ∨
      0x80 ≤ b ∧ ∃ more after, rest = more ++ after ∧ width = more.length + 1 ∧
        ∀ c ∈ more, 0x80 ≤ c := by
  by_cases ascii : b < 0x80
  · rw [rune?_of_ascii ascii] at spelled
    cases spelled
    exact .inl ⟨ascii, rfl⟩
  · refine .inr ⟨UInt8.not_lt.mp ascii, ?_⟩
    simp only [rune?, if_neg ascii] at spelled
    split at spelled
    · split at spelled
      · rename_i c after
        split at spelled
        · rename_i tail
          cases spelled
          exact ⟨[c], after, rfl, rfl, by simpa using le_of_isTail tail⟩
        · cases spelled
      · cases spelled
    · split at spelled
      · split at spelled
        · rename_i c d after
          split at spelled
          · rename_i tails
            cases spelled
            simp only [Bool.and_eq_true] at tails
            exact ⟨[c, d], after, rfl, rfl, by
              simpa using ⟨le_of_isTail tails.1.1.1, le_of_isTail tails.1.1.2⟩⟩
          · cases spelled
        · cases spelled
      · split at spelled
        · split at spelled
          · rename_i c d e after
            split at spelled
            · rename_i tails
              cases spelled
              simp only [Bool.and_eq_true] at tails
              exact ⟨[c, d, e], after, rfl, rfl, by
                simpa using ⟨le_of_isTail tails.1.1.1.1, le_of_isTail tails.1.1.1.2,
                  le_of_isTail tails.1.1.2⟩⟩
            · cases spelled
          · cases spelled
        · cases spelled

/-- The first character of a text: an ASCII byte, or bytes that are all outside ASCII. -/
theorem exists_frontRune (b : UInt8) (rest : Text) :
    ∃ more after, rest = more ++ after ∧ (frontRune (b :: rest)).2 = more.length + 1 ∧
      (b < 0x80 ∧ more = [] ∨ ∀ c ∈ b :: more, 0x80 ≤ c) := by
  unfold frontRune
  cases spelled : rune? (b :: rest) with
  | none =>
    have high : ¬ b < 0x80 := by
      intro ascii
      rw [rune?_of_ascii ascii] at spelled
      cases spelled
    exact ⟨[], rest, rfl, rfl, .inr (by simpa using UInt8.not_lt.mp high)⟩
  | some character =>
    rcases width_of_rune? spelled with ⟨ascii, width⟩ | ⟨high, more, after, parts, width, tail⟩
    · exact ⟨[], rest, rfl, width, .inl ⟨ascii, rfl⟩⟩
    · exact ⟨more, after, parts, width, .inr (List.forall_mem_cons.mpr ⟨high, tail⟩)⟩

end Text

namespace Piece

/-- The byte of a line feed. -/
abbrev newline : UInt8 := Text.byte '\n'

/-- Two slashes. -/
def slashes : Text := Text.ofString "//"

/-- The byte starts a token. -/
def startsToken (b : UInt8) : Bool :=
  isLetter b || Text.isDigit b || b = quoteMark || b = Text.byte '&' || b = Text.byte '|' ||
    TokenKind.symbols.any fun kind => kind.spelling.head? = some b

/-- The piece is whole when `rest` comes after it. -/
inductive FollowedBy : Piece → Text → Prop
  | blank {b : UInt8} {rest : Text} : isBlank b = true → FollowedBy (.blank b) rest
  /-- A comment runs up to the end of its line. -/
  | comment {body rest : Text} : newline ∉ body → (∀ b ∈ rest.head?, b = newline) →
      FollowedBy (.comment (slashes ++ body)) rest
  | word {b : UInt8} {body rest : Text} : isLetter b = true → (∀ c ∈ body, isWordByte c = true) →
      (∀ c ∈ rest.head?, isWordByte c = false) →
      FollowedBy (.token (TokenKind.ofWord (b :: body)) (b :: body)) rest
  | whole {digits rest : Text} : digits ≠ [] → (∀ b ∈ digits, Text.isDigit b = true) →
      (∀ b ∈ rest.head?, Text.isDigit b = false) →
      (∀ b more, rest = Text.byte '.' :: b :: more → Text.isDigit b = false) →
      FollowedBy (.token .number digits) rest
  | fraction {digits places rest : Text} : digits ≠ [] → places ≠ [] →
      (∀ b ∈ digits ++ places, Text.isDigit b = true) →
      (∀ b ∈ rest.head?, Text.isDigit b = false) →
      FollowedBy (.token .number (digits ++ Text.byte '.' :: places)) rest
  | string {body rest : Text} : quoteMark ∉ body →
      FollowedBy (.token .string (quoteMark :: body ++ [quoteMark])) rest
  /-- No longer symbol, and no comment, starts where a symbol does. -/
  | symbol {kind : TokenKind} {rest : Text} : kind ∈ TokenKind.symbols →
      ¬ slashes <+: kind.spelling ++ rest →
      (∀ other ∈ TokenKind.symbols, other.spelling <+: kind.spelling ++ rest →
        other.spelling.length ≤ kind.spelling.length) →
      FollowedBy (.token kind kind.spelling) rest
  | lone {b : UInt8} {rest : Text} : b = Text.byte '&' ∨ b = Text.byte '|' →
      rest.head? ≠ some b → FollowedBy (.token .error [b]) rest
  /-- A character that starts neither a token nor anything else. -/
  | rejected {b : UInt8} {more rest : Text} : isBlank b = false → startsToken b = false →
      (Text.frontRune (b :: more ++ rest)).2 = more.length + 1 →
      (b < 0x80 ∧ more = [] ∨ ∀ c ∈ b :: more, 0x80 ≤ c) →
      FollowedBy (.rejected (b :: more)) rest
  /-- A string that is not closed takes everything that is left. -/
  | openString {body : Text} : quoteMark ∉ body → FollowedBy (.openString (quoteMark :: body)) []

/-- The piece stands at the front of the text. -/
def StandsAt (piece : Piece) (s : Text) : Prop :=
  ∃ rest, s = piece.text ++ rest ∧ piece.FollowedBy rest

theorem FollowedBy.text_ne_nil {piece : Piece} {rest : Text} (h : piece.FollowedBy rest) :
    piece.text ≠ [] := by
  have spelled : ∀ kind ∈ TokenKind.symbols, kind.spelling ≠ [] := by decide
  have marked : slashes ≠ [] := by decide
  cases h with
  | whole digits => exact digits
  | symbol known _ _ => exact spelled _ known
  | _ => simp [text, marked]

/-! ### The piece at the front -/

/-- A run of bytes of one class ends where a byte of another class comes. -/
theorem run_ends (p : UInt8 → Bool) (s : Text) :
    (∀ b ∈ s.takeWhile p, p b = true) ∧ ∀ b ∈ (s.dropWhile p).head?, p b = false := by
  refine ⟨List.all_eq_true.mp List.all_takeWhile, fun b here => ?_⟩
  have stop := List.head?_dropWhile_not p s
  rw [Option.mem_def.mp here] at stop
  exact stop

theorem standsAt_comment {s : Text} (opens : slashes <+: s) :
    (comment (s.takeWhile (· ≠ newline))).StandsAt s := by
  obtain ⟨body, rfl⟩ := opens
  have start : (slashes ++ body).takeWhile (· ≠ newline) =
      slashes ++ body.takeWhile (· ≠ newline) :=
    List.takeWhile_append_of_pos (List.all_eq_true.mp (by decide))
  obtain ⟨inside, stop⟩ := run_ends (· ≠ newline) body
  rw [start]
  refine ⟨body.dropWhile (· ≠ newline), ?_, .comment ?_ ?_⟩
  · rw [text, List.append_assoc, List.takeWhile_append_dropWhile]
  · intro here
    simpa using inside newline here
  · intro b here
    simpa using stop b here

theorem standsAt_word {b : UInt8} (letter : isLetter b = true) (rest : Text) :
    (token (TokenKind.ofWord ((b :: rest).takeWhile isWordByte))
      ((b :: rest).takeWhile isWordByte)).StandsAt (b :: rest) := by
  have first : isWordByte b = true := by simp [isWordByte, letter]
  obtain ⟨inside, stop⟩ := run_ends isWordByte rest
  rw [List.takeWhile_cons, if_pos first]
  refine ⟨rest.dropWhile isWordByte, ?_, .word letter inside stop⟩
  rw [text, List.cons_append, List.takeWhile_append_dropWhile]

theorem standsAt_number {b : UInt8} (digit : Text.isDigit b = true) (rest : Text) :
    (token .number (numberText (b :: rest))).StandsAt (b :: rest) := by
  obtain ⟨inside, stop⟩ := run_ends Text.isDigit (b :: rest)
  have filled : (b :: rest).takeWhile Text.isDigit ≠ [] := by simp [digit]
  have parts : (b :: rest).takeWhile Text.isDigit ++ (b :: rest).dropWhile Text.isDigit =
    b :: rest := List.takeWhile_append_dropWhile
  unfold numberText
  dsimp only
  revert inside stop filled parts
  generalize (b :: rest).takeWhile Text.isDigit = digits
  generalize (b :: rest).dropWhile Text.isDigit = after
  intro inside stop filled parts
  split
  · rename_i point next more
    split
    · rename_i fraction
      simp only [Bool.and_eq_true, decide_eq_true_eq] at fraction
      obtain ⟨rfl, first⟩ := fraction
      obtain ⟨places, end_⟩ := run_ends Text.isDigit (next :: more)
      refine ⟨(next :: more).dropWhile Text.isDigit, ?_, .fraction filled ?_ ?_ end_⟩
      · rw [text, List.append_assoc, List.cons_append, List.takeWhile_append_dropWhile, parts]
      · simp [first]
      · exact List.forall_mem_append.mpr ⟨inside, places⟩
    · rename_i bare
      refine ⟨point :: next :: more, parts.symm, .whole filled inside stop ?_⟩
      intro c others same
      cases same
      simpa using bare
  · rename_i short
    refine ⟨after, parts.symm, .whole filled inside stop ?_⟩
    intro c others same
    exact absurd same (short _ _ _)

theorem standsAt_quote (rest : Text) :
    (if (rest.takeWhile (· ≠ quoteMark)).length < rest.length then
      token .string (quoteMark :: rest.takeWhile (· ≠ quoteMark) ++ [quoteMark])
    else openString (quoteMark :: rest)).StandsAt (quoteMark :: rest) := by
  obtain ⟨inside, stop⟩ := run_ends (· ≠ quoteMark) rest
  have parts : rest.takeWhile (· ≠ quoteMark) ++ rest.dropWhile (· ≠ quoteMark) = rest :=
    List.takeWhile_append_dropWhile
  revert inside stop parts
  generalize rest.takeWhile (· ≠ quoteMark) = body
  generalize rest.dropWhile (· ≠ quoteMark) = tail
  intro inside stop parts
  have free : quoteMark ∉ body := by
    intro here
    simpa using inside quoteMark here
  subst parts
  rw [List.length_append]
  split
  · rename_i shorter
    cases tail with
    | nil => simp at shorter
    | cons mark after =>
      have same : mark = quoteMark := by simpa using stop mark rfl
      subst same
      exact ⟨after, by simp [text], .string free⟩
  · rename_i whole
    obtain rfl : tail = [] := List.eq_nil_of_length_eq_zero (by omega)
    rw [List.append_nil]
    exact ⟨[], by simp [text], .openString free⟩

/-- The symbol that is found is the longest: the symbols come in order of their lengths. -/
theorem length_le_of_find? {s : Text} {kind : TokenKind}
    (found : TokenKind.symbols.find? (fun kind => kind.spelling.isPrefixOf s) = some kind) :
    ∀ other ∈ TokenKind.symbols, other.spelling <+: s →
      other.spelling.length ≤ kind.spelling.length := by
  have order : TokenKind.symbols.Pairwise fun a b => b.spelling.length ≤ a.spelling.length := by
    decide
  obtain ⟨-, before, after, parts, shut⟩ := List.find?_eq_some_iff_append.mp found
  intro other known fits
  rw [parts] at order known
  rcases List.mem_append.mp known with earlier | later
  · have refused := shut other earlier
    rw [List.isPrefixOf_iff_prefix.mpr fits] at refused
    cases refused
  · rcases List.mem_cons.mp later with rfl | later
    · exact Nat.le_refl _
    · exact (List.pairwise_cons.mp (List.pairwise_append.mp order).2.1).1 other later

theorem standsAt_symbol {s : Text} {kind : TokenKind}
    (found : TokenKind.symbols.find? (fun kind => kind.spelling.isPrefixOf s) = some kind)
    (code : ¬ slashes <+: s) : (token kind kind.spelling).StandsAt s := by
  have longest := length_le_of_find? found
  have known : kind ∈ TokenKind.symbols := List.mem_of_find?_eq_some found
  obtain ⟨spelled, -⟩ := List.find?_eq_some_iff_append.mp found
  obtain ⟨rest, rfl⟩ := List.isPrefixOf_iff_prefix.mp spelled
  exact ⟨rest, rfl, .symbol known code longest⟩

/-- A byte that no token starts with: each symbol of two bytes goes on from one of a single byte,
apart from `&&` and `||`. -/
theorem startsToken_eq_false {b : UInt8} {rest : Text} (letter : isLetter b = false)
    (digit : Text.isDigit b = false) (quote : b ≠ quoteMark)
    (unlisted : TokenKind.symbols.find? (fun kind => kind.spelling.isPrefixOf (b :: rest)) = none)
    (sign : ¬ (b = Text.byte '&' ∨ b = Text.byte '|')) : startsToken b = false := by
  have single : ∀ kind ∈ TokenKind.symbols,
      kind.spelling.head? = some (Text.byte '&') ∨ kind.spelling.head? = some (Text.byte '|') ∨
      ∃ other ∈ TokenKind.symbols, other.spelling = kind.spelling.take 1 := by decide
  have symbol : (TokenKind.symbols.any fun kind => kind.spelling.head? = some b) = false := by
    rw [List.any_eq_false]
    intro kind known starts
    have first : kind.spelling.head? = some b := by simpa using starts
    rcases single kind known with same | same | ⟨other, known', short⟩
    · exact sign (.inl (Option.some.inj (first.symm.trans same)))
    · exact sign (.inr (Option.some.inj (first.symm.trans same)))
    · have spelling : other.spelling = [b] := by
        rw [short]
        cases spelled : kind.spelling <;> simp_all
      have refused := List.find?_eq_none.mp unlisted other known'
      simp [spelling] at refused
  have signs : b ≠ Text.byte '&' ∧ b ≠ Text.byte '|' := not_or.mp sign
  simp [startsToken, letter, digit, quote, symbol, signs]

theorem standsAt_lone {b : UInt8} {rest : Text} (sign : b = Text.byte '&' ∨ b = Text.byte '|')
    (unlisted : TokenKind.symbols.find? (fun kind => kind.spelling.isPrefixOf (b :: rest)) = none) :
    (token .error [b]).StandsAt (b :: rest) := by
  have double : ∀ c : UInt8, c = Text.byte '&' ∨ c = Text.byte '|' →
      ∃ kind ∈ TokenKind.symbols, kind.spelling = [c, c] := by
    rintro c (rfl | rfl)
    · exact ⟨.and, by decide, by decide⟩
    · exact ⟨.or, by decide, by decide⟩
  refine ⟨rest, rfl, .lone sign fun twice => ?_⟩
  obtain ⟨kind, known, spelling⟩ := double b sign
  have refused := List.find?_eq_none.mp unlisted kind known
  cases rest with
  | nil => cases twice
  | cons c more =>
    cases twice
    simp [spelling] at refused

theorem standsAt_rejected {b : UInt8} {rest : Text} (blank : isBlank b = false)
    (starts : startsToken b = false) :
    (rejected ((b :: rest).take (Text.frontRune (b :: rest)).2)).StandsAt (b :: rest) := by
  obtain ⟨more, after, rfl, width, bytes⟩ := Text.exists_frontRune b rest
  have front : (b :: (more ++ after)).take (more.length + 1) = b :: more := by simp
  rw [width, front]
  exact ⟨after, rfl, .rejected blank starts width bytes⟩

theorem standsAt_front (b : UInt8) (rest : Text) : (front b rest).StandsAt (b :: rest) := by
  unfold front
  dsimp only
  split
  · rename_i blank
    exact ⟨rest, rfl, .blank blank⟩
  · rename_i visible
    split
    · rename_i opens
      exact standsAt_comment (List.isPrefixOf_iff_prefix.mp opens)
    · rename_i code
      have code : ¬ slashes <+: b :: rest := fun opens =>
        code (List.isPrefixOf_iff_prefix.mpr opens)
      split
      · rename_i letter
        exact standsAt_word letter rest
      · rename_i letter
        split
        · rename_i digit
          exact standsAt_number digit rest
        · rename_i digit
          split
          · rename_i quote
            subst quote
            exact standsAt_quote rest
          · rename_i quote
            split
            · rename_i kind found
              exact standsAt_symbol found code
            · rename_i unlisted
              split
              · rename_i sign
                exact standsAt_lone (by simpa using sign) unlisted
              · rename_i sign
                refine standsAt_rejected (by simpa using visible) ?_
                exact startsToken_eq_false (by simpa using letter) (by simpa using digit) quote
                  unlisted (by simpa using sign)

/-! ### All pieces -/

/-- The pieces are a division of the source: put together they are the source, and each is whole
where it stands. -/
structure Divides (pieces : List Piece) (source : Text) : Prop where
  joined : pieces.flatMap text = source
  whole : ∀ before piece after, pieces = before ++ piece :: after →
    piece.FollowedBy (after.flatMap text)

theorem splitFrom_eq_drop (skip : Nat) (s : Text) :
    splitFrom skip s = splitFrom 0 (s.drop skip) := by
  induction s generalizing skip with
  | nil => cases skip <;> rfl
  | cons b rest ih =>
    cases skip with
    | zero => rfl
    | succ skip => rw [splitFrom, ih, List.drop_succ_cons]

theorem Divides.nil : Divides [] [] where
  joined := rfl
  whole before piece after parts := by simp at parts

theorem Divides.cons {piece : Piece} {pieces : List Piece} {rest : Text}
    (follows : piece.FollowedBy rest) (h : Divides pieces rest) :
    Divides (piece :: pieces) (piece.text ++ rest) where
  joined := by rw [List.flatMap_cons, h.joined]
  whole before other after parts := by
    cases before with
    | nil =>
      cases parts
      rw [h.joined]
      exact follows
    | cons first before =>
      cases parts
      exact h.whole before other after rfl

/-- The first piece of a division, with the division of what comes behind it. -/
theorem Divides.uncons {piece : Piece} {pieces : List Piece} {source : Text}
    (h : Divides (piece :: pieces) source) :
    piece.FollowedBy (pieces.flatMap text) ∧ source = piece.text ++ pieces.flatMap text ∧
      Divides pieces (pieces.flatMap text) := by
  refine ⟨h.whole [] piece pieces rfl, h.joined.symm, rfl, fun before other after parts => ?_⟩
  exact h.whole (piece :: before) other after (congrArg (piece :: ·) parts)

/-- No piece is empty, so there are no more pieces than bytes. -/
theorem Divides.length_le {pieces : List Piece} {source : Text} (h : Divides pieces source) :
    pieces.length ≤ source.length := by
  induction pieces generalizing source with
  | nil => exact Nat.zero_le _
  | cons piece pieces ih =>
    obtain ⟨follows, rfl, below⟩ := h.uncons
    have size := List.length_pos_iff.mpr follows.text_ne_nil
    have later := ih below
    rw [List.length_append, List.length_cons]
    omega

/-- The pieces that a script is split into are a division of it. -/
theorem split_divides (source : Text) : Divides (split source) source := by
  unfold split
  induction size : source.length using Nat.strongRecOn generalizing source with
  | _ n ih =>
    cases source with
    | nil => exact .nil
    | cons b rest =>
      obtain ⟨after, parts, follows⟩ := standsAt_front b rest
      have filled := List.length_pos_iff.mpr follows.text_ne_nil
      have length := congrArg List.length parts
      rw [List.length_append, List.length_cons] at length
      -- The first byte of the piece is passed over here, the others by skipping.
      have skipped : rest.drop ((front b rest).text.length - 1) = after := by
        have dropped := congrArg (List.drop (front b rest).text.length) parts
        rw [List.drop_left] at dropped
        rw [← dropped, ← Nat.sub_add_cancel filled, List.drop_succ_cons, Nat.add_sub_cancel]
      rw [splitFrom, splitFrom_eq_drop, skipped, parts]
      simp only [List.length_cons] at size
      exact .cons follows (ih after.length (by omega) after rfl)

end Piece

end NumScript
