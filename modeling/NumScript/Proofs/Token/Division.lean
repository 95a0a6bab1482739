import NumScript.Proofs.Token.Pieces

/-! A script has one division into pieces, for what a piece looks like and where it ends settles
which piece stands at the front. To know how a script is split it is enough to write down a
division of it. -/

namespace NumScript

namespace Piece

/-! ### Bytes of different classes -/

theorem isBlank_of_isWordByte {b : UInt8} (word : isWordByte b = true) : isBlank b = false := by
  cases blank : isBlank b with
  | false => rfl
  | true =>
    simp only [isBlank, Bool.or_eq_true, decide_eq_true_eq] at blank
    rcases blank with ((rfl | rfl) | rfl) | rfl <;> cases word

theorem ne_of_isWordByte {b c : UInt8} (word : isWordByte b = true) (other : isWordByte c = false) :
    b ≠ c := by
  rintro rfl
  rw [word] at other
  cases other

theorem isLetter_of_isDigit {b : UInt8} (digit : Text.isDigit b = true) : isLetter b = false := by
  simp only [Text.isDigit, Bool.and_eq_true, decide_eq_true_eq, UInt8.le_iff_toNat_le] at digit
  have low : (Text.byte '9').toNat < (Text.byte 'A').toNat := by decide
  have mark : (Text.byte '9').toNat < (Text.byte '_').toNat := by decide
  have high : (Text.byte '9').toNat < (Text.byte 'a').toNat := by decide
  have other : b ≠ Text.byte '_' := by
    rintro rfl
    omega
  simp only [isLetter, Text.isLower, Text.isUpper, UInt8.le_iff_toNat_le, other, decide_false,
    Bool.or_false, Bool.or_eq_false_iff, Bool.and_eq_false_iff, decide_eq_false_iff_not]
  omega

theorem isPrefixOf_slashes {b : UInt8} (other : b ≠ Text.byte '/') (rest : Text) :
    (Text.ofString "//").isPrefixOf (b :: rest) = false := by
  have spelling : Text.ofString "//" = [Text.byte '/', Text.byte '/'] := by decide
  simp [spelling, List.isPrefixOf, Ne.symm other]

theorem not_slashes {b : UInt8} (other : b ≠ Text.byte '/') {rest : Text} :
    ¬ slashes <+: b :: rest := by
  rw [← List.isPrefixOf_iff_prefix]
  simp [slashes, isPrefixOf_slashes other]

/-- A run of bytes of one class in front of a byte of another class. -/
theorem takeWhile_run {p : UInt8 → Bool} {run rest : Text} (inside : ∀ b ∈ run, p b = true)
    (stop : ∀ b ∈ rest.head?, p b = false) : (run ++ rest).takeWhile p = run := by
  rw [List.takeWhile_append_of_pos inside]
  cases rest with
  | nil => simp
  | cons b more => simp [stop b rfl]

theorem dropWhile_run {p : UInt8 → Bool} {run rest : Text} (inside : ∀ b ∈ run, p b = true)
    (stop : ∀ b ∈ rest.head?, p b = false) : (run ++ rest).dropWhile p = rest := by
  rw [List.dropWhile_append_of_pos inside]
  cases rest with
  | nil => rfl
  | cons b more => simp [stop b rfl]

theorem run_of_not_mem {mark : UInt8} {run : Text} (free : mark ∉ run) :
    ∀ b ∈ run, decide (b ≠ mark) = true := by
  intro b here
  rw [decide_eq_true_eq]
  rintro rfl
  exact free here

/-! ### The piece at the front -/

theorem front_comment {b : UInt8} {tail body rest : Text} (text : slashes ++ body = b :: tail)
    (inside : newline ∉ body) (stop : ∀ b ∈ rest.head?, b = newline) :
    front b (tail ++ rest) = comment (slashes ++ body) := by
  have visible : isBlank b = false := by
    cases text
    rfl
  have opens : (Text.ofString "//").isPrefixOf (b :: (tail ++ rest)) = true := by
    rw [List.isPrefixOf_iff_prefix, ← List.cons_append, ← text, List.append_assoc]
    exact List.prefix_append _ _
  have run : (b :: (tail ++ rest)).takeWhile (· ≠ newline) = slashes ++ body := by
    rw [← List.cons_append, ← text]
    apply takeWhile_run
    · apply run_of_not_mem
      intro here
      rcases List.mem_append.mp here with mark | below
      · exact absurd mark (by decide)
      · exact inside below
    · intro c here
      simpa using stop c here
  simp only [front, visible, opens, if_true, Bool.false_eq_true, if_false]
  rw [run]

theorem front_word {b : UInt8} {body rest : Text} (letter : isLetter b = true)
    (inside : ∀ c ∈ body, isWordByte c = true) (stop : ∀ c ∈ rest.head?, isWordByte c = false) :
    front b (body ++ rest) = token (TokenKind.ofWord (b :: body)) (b :: body) := by
  have first : isWordByte b = true := by simp [isWordByte, letter]
  have run : (b :: (body ++ rest)).takeWhile isWordByte = b :: body := by
    rw [← List.cons_append]
    exact takeWhile_run (List.forall_mem_cons.mpr ⟨first, inside⟩) stop
  simp only [front, isBlank_of_isWordByte first, letter, run, Bool.false_eq_true, if_false, if_true,
    isPrefixOf_slashes (ne_of_isWordByte first (by decide))]

theorem front_number {b : UInt8} {rest : Text} (digit : Text.isDigit b = true) :
    front b rest = token .number (numberText (b :: rest)) := by
  have first : isWordByte b = true := by simp [isWordByte, digit]
  simp only [front, isBlank_of_isWordByte first, isLetter_of_isDigit digit, digit,
    Bool.false_eq_true, if_false, if_true,
    isPrefixOf_slashes (ne_of_isWordByte first (by decide))]

theorem numberText_whole {digits rest : Text} (inside : ∀ b ∈ digits, Text.isDigit b = true)
    (stop : ∀ b ∈ rest.head?, Text.isDigit b = false)
    (bare : ∀ b more, rest = Text.byte '.' :: b :: more → Text.isDigit b = false) :
    numberText (digits ++ rest) = digits := by
  unfold numberText
  rw [takeWhile_run inside stop, dropWhile_run inside stop]
  split
  · rename_i point digit more
    by_cases pointed : point = Text.byte '.'
    · subst pointed
      simp [bare digit more rfl]
    · simp [pointed]
  · rfl

theorem numberText_fraction {digits places rest : Text} (fractional : places ≠ [])
    (inside : ∀ b ∈ digits ++ places, Text.isDigit b = true)
    (stop : ∀ b ∈ rest.head?, Text.isDigit b = false) :
    numberText (digits ++ Text.byte '.' :: places ++ rest) = digits ++ Text.byte '.' :: places := by
  obtain ⟨before, behind⟩ := List.forall_mem_append.mp inside
  obtain ⟨first, more, rfl⟩ := List.exists_cons_of_ne_nil fractional
  have point : ∀ b ∈ (Text.byte '.' :: (first :: more ++ rest)).head?,
      Text.isDigit b = false := by
    intro b here
    cases here
    decide
  unfold numberText
  rw [List.append_assoc, List.cons_append, takeWhile_run before point, dropWhile_run before point,
    List.cons_append]
  simp only [behind first List.mem_cons_self, Bool.and_true, decide_true, if_true]
  rw [← List.cons_append, takeWhile_run behind stop]

theorem front_quote {rest : Text} :
    front quoteMark rest =
      if (rest.takeWhile (· ≠ quoteMark)).length < rest.length then
        token .string (quoteMark :: rest.takeWhile (· ≠ quoteMark) ++ [quoteMark])
      else openString (quoteMark :: rest) := by
  have visible : isBlank quoteMark = false := by decide
  have letter : isLetter quoteMark = false := by decide
  have digit : Text.isDigit quoteMark = false := by decide
  simp only [front, visible, letter, digit, Bool.false_eq_true, if_false, if_true,
    isPrefixOf_slashes (show quoteMark ≠ Text.byte '/' by decide)]

/-- What stands at the front when it is neither layout nor a word, a number or a string. -/
theorem front_sign {b : UInt8} {rest : Text} (visible : isBlank b = false)
    (code : ¬ slashes <+: b :: rest) (letter : isLetter b = false)
    (digit : Text.isDigit b = false) (quote : b ≠ quoteMark) :
    front b rest =
      ((TokenKind.symbols.find? fun kind => kind.spelling.isPrefixOf (b :: rest)).map
        fun kind => token kind kind.spelling).getD
        (if b = Text.byte '&' || b = Text.byte '|' then token .error [b]
        else rejected ((b :: rest).take (Text.frontRune (b :: rest)).2)) := by
  have code : (Text.ofString "//").isPrefixOf (b :: rest) = false := by
    rw [← Bool.not_eq_true, List.isPrefixOf_iff_prefix]
    exact code
  simp only [front, visible, letter, digit, quote, code, Bool.false_eq_true, if_false]
  cases TokenKind.symbols.find? fun kind => kind.spelling.isPrefixOf (b :: rest) <;> rfl

theorem find?_symbols {kind : TokenKind} {rest : Text} (known : kind ∈ TokenKind.symbols)
    (longest : ∀ other ∈ TokenKind.symbols, other.spelling <+: kind.spelling ++ rest →
      other.spelling.length ≤ kind.spelling.length) :
    TokenKind.symbols.find? (fun other => other.spelling.isPrefixOf (kind.spelling ++ rest)) =
      some kind := by
  have distinct : ∀ kind ∈ TokenKind.symbols, ∀ other ∈ TokenKind.symbols,
      kind.spelling = other.spelling → kind = other := by decide
  have own : kind.spelling <+: kind.spelling ++ rest := List.prefix_append _ _
  cases found : TokenKind.symbols.find?
      (fun other => other.spelling.isPrefixOf (kind.spelling ++ rest)) with
  | none =>
    have refused := List.find?_eq_none.mp found kind known
    exact absurd (List.isPrefixOf_iff_prefix.mpr own) refused
  | some other =>
    have known' : other ∈ TokenKind.symbols := List.mem_of_find?_eq_some found
    obtain ⟨spelled, -⟩ := List.find?_eq_some_iff_append.mp found
    have spelled := List.isPrefixOf_iff_prefix.mp spelled
    have short := longest other known' spelled
    have long := length_le_of_find? found kind known own
    have spelling : other.spelling = kind.spelling :=
      (List.prefix_of_prefix_length_le spelled own short).eq_of_length_le long
    rw [distinct other known' kind known spelling]

/-- A symbol starts with the byte that it is found at. -/
theorem head?_of_isPrefixOf {kind : TokenKind} {b : UInt8} {rest : Text}
    (known : kind ∈ TokenKind.symbols) (fits : kind.spelling.isPrefixOf (b :: rest) = true) :
    kind.spelling.head? = some b := by
  have spelled : ∀ kind ∈ TokenKind.symbols, kind.spelling ≠ [] := by decide
  obtain ⟨first, more, spelling⟩ := List.exists_cons_of_ne_nil (spelled kind known)
  rw [spelling, List.isPrefixOf_iff_prefix, List.cons_prefix_cons] at fits
  rw [spelling, fits.1, List.head?_cons]

/-- A lone sign is followed by no other of its kind, and so no symbol. -/
theorem find?_lone {b : UInt8} {rest : Text} (either : b = Text.byte '&' ∨ b = Text.byte '|')
    (single : rest.head? ≠ some b) :
    TokenKind.symbols.find? (fun kind => kind.spelling.isPrefixOf (b :: rest)) = none := by
  have twice : ∀ kind ∈ TokenKind.symbols, kind.spelling.head? = some b →
      kind.spelling = [b, b] := by
    rcases either with rfl | rfl <;> decide
  rw [List.find?_eq_none]
  intro kind known fits
  have spelling := twice kind known (head?_of_isPrefixOf known fits)
  rw [spelling, List.isPrefixOf_iff_prefix, List.cons_prefix_cons] at fits
  obtain ⟨after, parts⟩ := fits.2
  rw [← parts] at single
  exact single rfl

theorem front_string {body rest : Text} (inside : quoteMark ∉ body) :
    front quoteMark (body ++ [quoteMark] ++ rest) =
      token .string (quoteMark :: body ++ [quoteMark]) := by
  have run : (body ++ [quoteMark] ++ rest).takeWhile (· ≠ quoteMark) = body := by
    rw [List.append_assoc]
    apply takeWhile_run (run_of_not_mem inside)
    intro c here
    cases here
    decide
  rw [front_quote, run, if_pos (by simp)]

theorem front_openString {body : Text} (inside : quoteMark ∉ body) :
    front quoteMark body = openString (quoteMark :: body) := by
  have run : (body ++ []).takeWhile (· ≠ quoteMark) = body :=
    takeWhile_run (run_of_not_mem inside) (by simp)
  rw [List.append_nil] at run
  rw [front_quote, run, if_neg (Nat.lt_irrefl _)]

theorem front_symbol {kind : TokenKind} {b : UInt8} {tail rest : Text}
    (text : kind.spelling = b :: tail) (known : kind ∈ TokenKind.symbols)
    (code : ¬ slashes <+: kind.spelling ++ rest)
    (longest : ∀ other ∈ TokenKind.symbols, other.spelling <+: kind.spelling ++ rest →
      other.spelling.length ≤ kind.spelling.length) :
    front b (tail ++ rest) = token kind kind.spelling := by
  have signs : ∀ kind ∈ TokenKind.symbols, kind.spelling.head?.all (fun c =>
    !isBlank c && !isLetter c && !Text.isDigit c && c ≠ quoteMark) = true := by decide
  have sign := signs kind known
  rw [text] at sign
  simp only [List.head?_cons, Option.all_some, Bool.and_eq_true, Bool.not_eq_true',
    decide_eq_true_eq] at sign
  obtain ⟨⟨⟨visible, letter⟩, digit⟩, quote⟩ := sign
  have found := find?_symbols known longest
  rw [show kind.spelling ++ rest = b :: (tail ++ rest) by rw [text, List.cons_append]] at code found
  rw [front_sign visible code letter digit quote, found, Option.map_some, Option.getD_some]

theorem front_lone {b : UInt8} {rest : Text} (either : b = Text.byte '&' ∨ b = Text.byte '|')
    (single : rest.head? ≠ some b) : front b rest = token .error [b] := by
  obtain ⟨visible, letter, digit, quote, other⟩ : isBlank b = false ∧ isLetter b = false ∧
      Text.isDigit b = false ∧ b ≠ quoteMark ∧ b ≠ Text.byte '/' := by
    rcases either with rfl | rfl <;> decide
  rw [front_sign visible (not_slashes other) letter digit quote, find?_lone either single]
  simp [either]

theorem front_rejected {b : UInt8} {more rest : Text} (visible : isBlank b = false)
    (starts : startsToken b = false)
    (width : (Text.frontRune (b :: (more ++ rest))).2 = more.length + 1) :
    front b (more ++ rest) = rejected (b :: more) := by
  simp only [startsToken, Bool.or_eq_false_iff, decide_eq_false_iff_not] at starts
  obtain ⟨⟨⟨⟨⟨letter, digit⟩, quote⟩, ampersand⟩, bar⟩, symbol⟩ := starts
  have other : b ≠ Text.byte '/' := by
    rintro rfl
    revert symbol
    decide
  have unlisted : TokenKind.symbols.find?
      (fun kind => kind.spelling.isPrefixOf (b :: (more ++ rest))) = none := by
    rw [List.find?_eq_none]
    intro kind known fits
    have refused := List.any_eq_false.mp symbol kind known
    simp [head?_of_isPrefixOf known fits] at refused
  rw [front_sign visible (not_slashes other) letter digit quote, unlisted, width]
  simp [ampersand, bar]

/-- A piece that is whole where it stands is the one at the front. -/
theorem FollowedBy.front_eq {piece : Piece} {b : UInt8} {tail rest : Text}
    (follows : piece.FollowedBy rest) (text : piece.text = b :: tail) :
    front b (tail ++ rest) = piece := by
  cases follows with
  | blank blank =>
    cases text
    simp [front, blank]
  | comment inside stop => exact front_comment text inside stop
  | word letter inside stop =>
    cases text
    exact front_word letter inside stop
  | whole _ inside stop bare =>
    cases text
    rw [front_number (inside b List.mem_cons_self), ← List.cons_append,
      numberText_whole inside stop bare]
  | @fraction digits places _ filled fractional inside stop =>
    have first : Text.isDigit b = true := by
      obtain ⟨d, more, rfl⟩ := List.exists_cons_of_ne_nil filled
      cases text
      exact inside b List.mem_cons_self
    rw [front_number first, ← List.cons_append, ← text]
    exact congrArg _ (numberText_fraction fractional inside stop)
  | string inside =>
    cases text
    exact front_string inside
  | symbol known code longest => exact front_symbol text known code longest
  | lone either single =>
    cases text
    exact front_lone either single
  | rejected visible starts width _ =>
    cases text
    exact front_rejected visible starts width
  | openString inside =>
    cases text
    rw [List.append_nil]
    exact front_openString inside

/-! ### Behind a symbol -/

/-- The bytes that make another symbol, or a comment, of the symbol in front of them. -/
def doublings : Text := Text.ofString "=/&|"

theorem length_le_of_prefix {kind : TokenKind} {word rest : Text}
    (known : kind ∈ TokenKind.symbols)
    (mark : word ∈ slashes :: TokenKind.symbols.map TokenKind.spelling)
    (stop : ∀ b ∈ rest.head?, b ∉ doublings) (fits : word <+: kind.spelling ++ rest) :
    word.length ≤ kind.spelling.length := by
  have doubled : ∀ kind ∈ TokenKind.symbols,
      ∀ word ∈ slashes :: TokenKind.symbols.map TokenKind.spelling, kind.spelling <+: word →
        (word.drop kind.spelling.length).head?.all (fun b => b ∈ doublings) = true := by decide
  by_cases short : word.length ≤ kind.spelling.length
  · exact short
  · exfalso
    have own : kind.spelling <+: word :=
      List.prefix_of_prefix_length_le (List.prefix_append _ _) fits (by omega)
    obtain ⟨more, rfl⟩ := own
    cases more with
    | nil => simp at short
    | cons b more =>
      have last := doubled kind known _ mark (List.prefix_append _ _)
      rw [List.drop_left, List.head?_cons, Option.all_some, decide_eq_true_eq] at last
      obtain ⟨after, rfl⟩ := (List.prefix_append_right_inj _).mp fits
      exact stop b rfl last

/-- A symbol is whole unless it is doubled. -/
theorem followedBy_symbol {kind : TokenKind} {rest : Text} (known : kind ∈ TokenKind.symbols)
    (stop : ∀ b ∈ rest.head?, b ∉ doublings) :
    (token kind kind.spelling).FollowedBy rest := by
  apply FollowedBy.symbol known
  · intro opens
    have code : ∀ kind ∈ TokenKind.symbols, ¬ slashes <+: kind.spelling := by decide
    have short := length_le_of_prefix known List.mem_cons_self stop opens
    exact code kind known (List.prefix_of_prefix_length_le opens (List.prefix_append _ _) short)
  · intro other known' fits
    refine length_le_of_prefix known ?_ stop fits
    exact List.mem_cons_of_mem _ (List.mem_map_of_mem known')

/-- The byte goes on with no token that stands in front of it. -/
def separates (b : UInt8) : Bool :=
  !isWordByte b && b ≠ Text.byte '.' && b ∉ doublings

theorem separates_of_isBlank {b : UInt8} (blank : isBlank b = true) : separates b = true := by
  simp only [isBlank, Bool.or_eq_true, decide_eq_true_eq] at blank
  rcases blank with ((rfl | rfl) | rfl) | rfl <;> decide

/-- A token that is whole somewhere is whole in front of a byte that separates it from what comes
behind. -/
theorem FollowedBy.apart {kind : TokenKind} {word before rest : Text}
    (h : (token kind word).FollowedBy before) (stop : ∀ b ∈ rest.head?, separates b = true) :
    (token kind word).FollowedBy rest := by
  simp only [separates, Bool.and_eq_true, Bool.not_eq_true', decide_eq_true_eq] at stop
  have digit : ∀ b ∈ rest.head?, Text.isDigit b = false := by
    intro b here
    have word := (stop b here).1.1
    rw [isWordByte, Bool.or_eq_false_iff] at word
    exact word.2
  cases h with
  | word letter inside _ => exact .word letter inside fun b here => (stop b here).1.1
  | whole filled inside _ _ =>
    refine .whole filled inside digit ?_
    rintro b more rfl
    exact absurd rfl (stop _ rfl).1.2
  | fraction filled fractional inside _ => exact .fraction filled fractional inside digit
  | string free => exact .string free
  | symbol known _ _ => exact followedBy_symbol known fun b here => (stop b here).2
  | lone either _ =>
    refine .lone either ?_
    intro twice
    have apart := (stop _ twice).2
    rcases either with rfl | rfl <;> exact apart (by decide)

/-! ### All pieces -/

/-- A division of a script is the one that reading finds. -/
theorem Divides.split_eq {pieces : List Piece} {source : Text} (h : Divides pieces source) :
    split source = pieces := by
  induction pieces generalizing source with
  | nil =>
    obtain ⟨rfl, -⟩ := h
    rfl
  | cons piece rest ih =>
    obtain ⟨follows, rfl, later⟩ := h.uncons
    obtain ⟨b, tail, text⟩ := List.exists_cons_of_ne_nil follows.text_ne_nil
    have below := ih later
    unfold split at below ⊢
    rw [text, List.cons_append, splitFrom, follows.front_eq text, text, splitFrom_eq_drop,
      List.length_cons, Nat.add_sub_cancel, List.drop_left, below]

end Piece

end NumScript
