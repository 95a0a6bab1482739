import NumScript.Proofs.Token.Division
import NumScript.Proofs.Token.Spans
import NumScript.Token.Scanner

/-! A reader that keeps count as it goes is always where its pieces lead. Of the pieces only blanks
and strings hold line feeds, and these are where the reader starts a new line, so the place that it
notes for a token is the one that counting every byte gives. -/

namespace NumScript

open Piece

/-! ### Characters -/

namespace Text

theorem frontRune_of_ascii {b : UInt8} (ascii : b < 0x80) (rest : Text) :
    frontRune (b :: rest) = (b.toNat, 1) := by
  rw [frontRune, rune?_of_ascii ascii, Option.getD_some]

theorem peek_of_ascii {b : UInt8} (ascii : b < 0x80) (rest : Text) :
    peek (b :: rest) = b.toNat := by
  rw [peek, frontRune_of_ascii ascii]

/-- A character that starts outside ASCII is outside ASCII. -/
theorem le_peek {b : UInt8} (wide : 0x80 ≤ b) (rest : Text) : 0x80 ≤ peek (b :: rest) := by
  rw [peek, frontRune]
  cases spelled : rune? (b :: rest) with
  | none => decide
  | some found =>
    simp only [UInt8.le_iff_toNat_le, UInt8.reduceToNat] at wide
    simp only [rune?, UInt8.lt_iff_toNat_lt, UInt8.le_iff_toNat_le, UInt8.reduceToNat] at spelled
    rw [Option.getD_some]
    grind

/-- A text is empty, or a character and a text: an ASCII byte, or bytes that are all outside
ASCII. -/
theorem character_induction {motive : Text → Prop} (nil : motive [])
    (ascii : ∀ b rest, b < 0x80 → motive rest → motive (b :: rest))
    (wide : ∀ b more rest, (∀ c ∈ b :: more, 0x80 ≤ c) →
      (frontRune (b :: (more ++ rest))).2 = more.length + 1 → motive rest →
      motive (b :: (more ++ rest)))
    (s : Text) : motive s := by
  induction size : s.length using Nat.strongRecOn generalizing s with
  | _ n ih =>
    subst size
    cases s with
    | nil => exact nil
    | cons b rest =>
      obtain ⟨more, after, rfl, width, ⟨narrow, rfl⟩ | high⟩ := exists_frontRune b rest
      · exact ascii b after narrow (ih after.length (by simp) after rfl)
      · refine wide b more after high width (ih after.length ?_ after rfl)
        simp only [List.length_cons, List.length_append]
        omega

/-- The characters of one class start with the bytes of the other, and no character has bytes of
different classes. -/
structure Agrees (p : Nat → Bool) (q : UInt8 → Bool) : Prop where
  front : ∀ b rest, p (peek (b :: rest)) = q b
  wide : ∀ b c, 0x80 ≤ b → 0x80 ≤ c → q b = q c

theorem agrees_ofClass {q : UInt8 → Bool} (ascii : ∀ b, q b = true → b < 0x80) :
    Agrees (ofClass q) q := by
  have refused : ∀ b, 0x80 ≤ b → q b = false := fun b wide =>
    Bool.eq_false_iff.mpr fun inside => absurd (ascii b inside) (UInt8.not_lt.mpr wide)
  refine ⟨fun b rest => ?_, fun b c wide wide' => by rw [refused b wide, refused c wide']⟩
  by_cases narrow : b < 0x80
  · have small : b.toNat < 0x80 := UInt8.lt_iff_toNat_lt.mp narrow
    simp [ofClass, peek_of_ascii narrow, small]
  · have wide := UInt8.not_lt.mp narrow
    simp [ofClass, refused b wide, Nat.not_lt.mpr (le_peek wide rest)]

theorem agrees_wordByte : Agrees (ofClass isWordByte) isWordByte :=
  agrees_ofClass fun _ => lt_of_isWordByte

theorem agrees_letter : Agrees (ofClass Piece.isLetter) Piece.isLetter :=
  agrees_ofClass fun b letter => lt_of_isWordByte (by simp [isWordByte, letter])

theorem agrees_digit : Agrees (ofClass isDigit) isDigit :=
  agrees_ofClass fun b digit => lt_of_isWordByte (by simp [isWordByte, digit])

/-- An ASCII character is the next one exactly when its byte is. -/
theorem peek_eq_iff {c : UInt8} (ascii : c < 0x80) (b : UInt8) (rest : Text) :
    peek (b :: rest) = c.toNat ↔ b = c := by
  by_cases narrow : b < 0x80
  · rw [peek_of_ascii narrow, UInt8.toNat_inj]
  · have wide := UInt8.not_lt.mp narrow
    have far := le_peek wide rest
    have near : c.toNat < 0x80 := UInt8.lt_iff_toNat_lt.mp ascii
    refine iff_of_false (by omega) ?_
    rintro rfl
    exact narrow ascii

theorem agrees_ne {c : UInt8} (ascii : c < 0x80) : Agrees (· ≠ c.toNat) (· ≠ c) where
  front b rest := by simp [peek_eq_iff ascii]
  wide b b' wide wide' := by
    have other {b : UInt8} (wide : 0x80 ≤ b) : b ≠ c := by
      rintro rfl
      exact absurd ascii (UInt8.not_lt.mpr wide)
    simp [other wide, other wide']

end Text

/-! ### Counts -/

/-- In the script `source`, `rest` comes at the place. -/
def Place.Faces (p : Place) (source rest : Text) : Prop :=
  ∃ before, source = before ++ rest ∧ p.Behind before

namespace Place.Faces

variable {p : Place} {source t rest : Text}

theorem start (source : Text) : ({} : Place).Faces source source := ⟨[], rfl, .start⟩

theorem after (faces : p.Faces source (t ++ rest)) : (p.after t).Faces source rest := by
  obtain ⟨before, parts, behind⟩ := faces
  exact ⟨before ++ t, by rw [parts, List.append_assoc], behind.after t⟩

theorem drop (faces : p.Faces source rest) : source.drop p.offset = rest := by
  obtain ⟨before, rfl, behind⟩ := faces
  rw [behind.offset, List.drop_left]

theorem length (faces : p.Faces source rest) : source.length = p.offset + rest.length := by
  obtain ⟨before, rfl, behind⟩ := faces
  rw [behind.offset, List.length_append]

/-- The column counts from the start of the line. -/
theorem column (faces : p.Faces source rest) : 1 ≤ p.column ∧ p.column ≤ p.offset + 1 := by
  obtain ⟨before, -, behind⟩ := faces
  obtain ⟨start, -, column⟩ := behind.column
  have offset := behind.offset
  omega

end Place.Faces

namespace Place

theorem after_append (p : Place) (t u : Text) : p.after (t ++ u) = (p.after t).after u :=
  List.foldl_append

theorem offset_after (p : Place) (t : Text) : (p.after t).offset = p.offset + t.length := by
  induction t generalizing p with
  | nil => rfl
  | cons b rest ih =>
    have step : (p.step b).offset = p.offset + 1 := by
      unfold Place.step
      split <;> rfl
    rw [← List.singleton_append, after_append, ih, after, List.foldl_cons, List.foldl_nil, step,
      List.length_append, List.length_singleton, Nat.add_assoc]

end Place

namespace Scanner

/-- The reader with the counts that belong to a place. -/
def moveTo (s : Scanner) (p : Place) : Scanner :=
  { s with current := p.offset, line := p.line, lineStart := p.offset + 1 - p.column }

variable {s : Scanner} {p : Place} {t rest : Text}

section

variable (faces : p.Faces s.source rest)

include faces

theorem rest_moveTo : (s.moveTo p).rest = rest := faces.drop

theorem peek_moveTo : (s.moveTo p).peek = rest.peek := by rw [peek, rest_moveTo faces]

theorem atEnd_moveTo : (s.moveTo p).atEnd = rest.isEmpty := by
  have length := faces.length
  simp only [atEnd, moveTo, length]
  cases rest <;> simp

end

/-- Passing over a character that is no line feed leads on in the line. -/
theorem advance_moveTo (faces : p.Faces s.source (t ++ rest)) (filled : t ≠ [])
    (width : (Text.frontRune (t ++ rest)).2 = t.length) (free : newline ∉ t) :
    (s.moveTo p).advance = s.moveTo (p.after t) := by
  have more : (s.moveTo p).atEnd = false := by simp [atEnd_moveTo faces, filled]
  rw [advance, more, rest_moveTo faces, width, Place.after_of_not_mem p free]
  simp only [moveTo, Bool.false_eq_true, if_false, Scanner.mk.injEq, true_and, and_true]
  omega

section

variable {b : UInt8} (faces : p.Faces s.source (b :: rest))

include faces

theorem advance_ascii (ascii : b < 0x80) (other : b ≠ newline) :
    (s.moveTo p).advance = s.moveTo (p.after [b]) := by
  refine advance_moveTo (t := [b]) faces (List.cons_ne_nil _ _) ?_ (by simpa using other.symm)
  exact congrArg Prod.snd (Text.frontRune_of_ascii ascii rest)

/-- Passing over a line feed and starting a line leads to the next line. -/
theorem startLine_advance (feed : b = newline) :
    (s.moveTo p).advance.startLine = s.moveTo (p.after [b]) := by
  subst feed
  have more : (s.moveTo p).atEnd = false := by simp [atEnd_moveTo faces]
  rw [advance, more, rest_moveTo faces, Text.frontRune_of_ascii (by decide)]
  simp [moveTo, startLine, Place.after, Place.step]

end

/-- A run of one class is passed over as far as its bytes go. -/
theorem passWhile_moveTo {inClass : Nat → Bool} {q : UInt8 → Bool} (agrees : Text.Agrees inClass q)
    (line : q newline = false) (faces : p.Faces s.source rest) :
    (s.moveTo p).passWhile inClass = s.moveTo (p.after (rest.takeWhile q)) := by
  induction rest using Text.character_induction generalizing p with
  | nil =>
    rw [passWhile, if_pos (by rw [atEnd_moveTo faces]; rfl)]
    rfl
  | ascii b rest narrow ih =>
    have more : ¬ (s.moveTo p).atEnd := by simp [atEnd_moveTo faces]
    have first : inClass (s.moveTo p).peek = q b := by rw [peek_moveTo faces, agrees.front]
    rw [passWhile, if_neg more, first]
    by_cases inside : q b = true
    · have other : b ≠ newline := by
        rintro rfl
        simp [inside] at line
      rw [if_pos inside, advance_ascii faces narrow other, ih (faces.after (t := [b])),
        ← Place.after_append, List.takeWhile_cons_of_pos inside, List.singleton_append]
    · rw [if_neg inside, List.takeWhile_cons_of_neg inside]
      rfl
  | wide b more rest high width ih =>
    have left : ¬ (s.moveTo p).atEnd := by simp [atEnd_moveTo faces]
    have first : inClass (s.moveTo p).peek = q b := by rw [peek_moveTo faces, agrees.front]
    rw [passWhile, if_neg left, first]
    by_cases inside : q b = true
    · have all : ∀ c ∈ b :: more, q c = true := fun c here =>
        (agrees.wide c b (high c here) (high b List.mem_cons_self)).trans inside
      have free : newline ∉ b :: more := fun here => absurd (high _ here) (by decide)
      rw [if_pos inside, advance_moveTo (t := b :: more) faces (List.cons_ne_nil _ _) width free,
        ih (faces.after (t := b :: more)), ← Place.after_append, ← List.cons_append,
        List.takeWhile_append_of_pos all]
    · rw [if_neg inside, List.takeWhile_cons_of_neg inside]
      rfl

theorem getElem?_advance (faces : p.Faces s.source (t ++ rest)) (filled : t ≠ [])
    (width : (Text.frontRune (t ++ rest)).2 = t.length) :
    (s.moveTo p).advance.source[(s.moveTo p).advance.current - 1]? = t.getLast? := by
  have more : (s.moveTo p).atEnd = false := by simp [atEnd_moveTo faces, filled]
  have current : (s.moveTo p).advance.current = p.offset + t.length := by
    rw [advance, more, rest_moveTo faces, width]
    rfl
  have size := List.length_pos_iff.mpr filled
  obtain ⟨before, parts, behind⟩ := faces
  have source : (s.moveTo p).advance.source = before ++ (t ++ rest) := by
    rw [source_advance]
    exact parts
  rw [current, source, behind.offset, List.getLast?_eq_getElem?,
    List.getElem?_append_right (by omega), List.getElem?_append_left (by omega)]
  congr 1
  omega

/-- The text of a string is passed over up to the quotation mark, line by line. -/
theorem passString_moveTo (faces : p.Faces s.source rest) :
    (s.moveTo p).passString = s.moveTo (p.after (rest.takeWhile (· ≠ quoteMark))) := by
  induction rest using Text.character_induction generalizing p with
  | nil =>
    rw [passString, if_pos (by rw [atEnd_moveTo faces]; rfl)]
    rfl
  | ascii b rest narrow ih =>
    have more : ¬ (s.moveTo p).atEnd := by simp [atEnd_moveTo faces]
    have last : (s.moveTo p).advance.source[(s.moveTo p).advance.current - 1]? = some b :=
      getElem?_advance (t := [b]) faces (List.cons_ne_nil _ _)
        (congrArg Prod.snd (Text.frontRune_of_ascii narrow rest))
    have later := ih (faces.after (t := [b]))
    rw [passString, if_neg more, peek_moveTo faces, last]
    simp only [Text.peek_eq_iff (show quoteMark < 0x80 by decide), Option.some.injEq]
    by_cases quote : b = quoteMark
    · rw [if_pos quote, List.takeWhile_cons_of_neg (by simp [quote])]
      rfl
    · rw [if_neg quote, List.takeWhile_cons_of_pos (by simp [quote]), ← List.singleton_append,
        Place.after_append, ← later]
      by_cases feed : b = newline
      · rw [if_pos feed, startLine_advance faces feed]
      · rw [if_neg feed, advance_ascii faces narrow feed]
  | wide b more rest high width ih =>
    have left : ¬ (s.moveTo p).atEnd := by simp [atEnd_moveTo faces]
    have other {c : UInt8} (narrow : c < 0x80) : c ∉ b :: more := fun here =>
      absurd narrow (UInt8.not_lt.mpr (high c here))
    have inside : ∀ c ∈ b :: more, decide (c ≠ quoteMark) = true :=
      run_of_not_mem (other (by decide))
    have quote : b ≠ quoteMark := by simpa using inside b List.mem_cons_self
    have line : (b :: more).getLast? ≠ some newline := fun feed =>
      other (by decide) (List.mem_of_getLast? feed)
    have start : Text.peek (b :: (more ++ rest)) ≠ quoteMark.toNat :=
      mt (Text.peek_eq_iff (by decide) b _).mp quote
    rw [passString, if_neg left, peek_moveTo faces, if_neg start,
      getElem?_advance (t := b :: more) faces (List.cons_ne_nil _ _) width, if_neg line,
      advance_moveTo (t := b :: more) faces (List.cons_ne_nil _ _) width (other (by decide)),
      ih (faces.after (t := b :: more)), ← Place.after_append, ← List.cons_append,
      List.takeWhile_append_of_pos inside]

/-! ### Blanks and comments -/

theorem peekNext_moveTo {b : UInt8} (ascii : b < 0x80) (faces : p.Faces s.source (b :: rest)) :
    (s.moveTo p).peekNext = rest.peek := by
  rw [peekNext, rest_moveTo faces, Text.frontRune_of_ascii ascii, List.drop_succ_cons,
    List.drop_zero]

theorem skipLayout_blank {b : UInt8} (blank : isBlank b = true)
    (faces : p.Faces s.source (b :: rest)) :
    (s.moveTo p).skipLayout = (s.moveTo (p.after [b])).skipLayout := by
  have more : ¬ (s.moveTo p).atEnd := by simp [atEnd_moveTo faces]
  have narrow : b < 0x80 := by
    simp only [isBlank, Bool.or_eq_true, decide_eq_true_eq] at blank
    rcases blank with ((rfl | rfl) | rfl) | rfl <;> decide
  rw [skipLayout, if_neg more, peek_moveTo faces, Text.peek_of_ascii narrow]
  by_cases feed : b = newline
  · have other : ¬ (decide (newline.toNat = ' '.toNat) || decide (newline.toNat = '\r'.toNat) ||
        decide (newline.toNat = '\t'.toNat)) = true := by decide
    rw [← startLine_advance faces feed]
    subst feed
    rw [if_neg other, if_pos (show newline.toNat = '\n'.toNat from rfl)]
  · have space : (decide (b.toNat = ' '.toNat) || decide (b.toNat = '\r'.toNat) ||
        decide (b.toNat = '\t'.toNat)) = true := by
      simp only [isBlank, Bool.or_eq_true, decide_eq_true_eq] at blank
      rcases blank with ((rfl | rfl) | rfl) | rfl
      · rfl
      · rfl
      · rfl
      · exact absurd rfl feed
    rw [if_pos space, advance_ascii faces narrow feed]

theorem skipLayout_comment {body : Text} (inside : newline ∉ body)
    (stop : ∀ b ∈ rest.head?, b = newline) (faces : p.Faces s.source (slashes ++ body ++ rest)) :
    (s.moveTo p).skipLayout = (s.moveTo (p.after (slashes ++ body))).skipLayout := by
  have opens : slashes ++ body ++ rest = Text.byte '/' :: Text.byte '/' :: (body ++ rest) := rfl
  have run : (slashes ++ body ++ rest).takeWhile (· ≠ newline) = slashes ++ body := by
    refine takeWhile_run (run_of_not_mem ?_) fun b here => by simp [stop b here]
    rw [List.mem_append, not_or]
    exact ⟨by decide, inside⟩
  have passed := passWhile_moveTo (Text.agrees_ne (c := newline) (by decide)) (by simp) faces
  rw [run] at passed
  rw [opens] at faces
  have more : ¬ (s.moveTo p).atEnd := by simp [atEnd_moveTo faces]
  have first : (s.moveTo p).peek = '/'.toNat := by
    rw [peek_moveTo faces, Text.peek_of_ascii (by decide)]
    rfl
  have second : (s.moveTo p).peekNext = '/'.toNat := by
    rw [peekNext_moveTo (by decide) faces, Text.peek_of_ascii (by decide)]
    rfl
  rw [skipLayout, if_neg more, first, second]
  exact congrArg skipLayout passed

theorem skipLayout_nil (faces : p.Faces s.source []) :
    (s.moveTo p).skipLayout = s.moveTo p := by
  rw [skipLayout, if_pos (by rw [atEnd_moveTo faces]; rfl)]

/-- Nothing is passed over where neither a blank nor a comment stands. -/
theorem skipLayout_visible {b : UInt8} (visible : isBlank b = false)
    (code : ¬ slashes <+: b :: rest) (faces : p.Faces s.source (b :: rest)) :
    (s.moveTo p).skipLayout = s.moveTo p := by
  have more : ¬ (s.moveTo p).atEnd := by simp [atEnd_moveTo faces]
  have other {c : UInt8} (ascii : c < 0x80) (blank : isBlank c = true) :
      (s.moveTo p).peek ≠ c.toNat := by
    rw [peek_moveTo faces]
    intro same
    rw [(Text.peek_eq_iff ascii b rest).mp same, blank] at visible
    cases visible
  have bare : ¬ ((s.moveTo p).peek = '/'.toNat ∧ (s.moveTo p).peekNext = '/'.toNat) := by
    rintro ⟨first, second⟩
    rw [peek_moveTo faces] at first
    obtain rfl : b = Text.byte '/' := (Text.peek_eq_iff (by decide) b rest).mp first
    rw [peekNext_moveTo (by decide) faces] at second
    cases rest with
    | nil => cases second
    | cons c tail =>
      obtain rfl : c = Text.byte '/' := (Text.peek_eq_iff (by decide) c tail).mp second
      exact code ⟨tail, rfl⟩
  have space := other (c := Text.byte ' ') (by decide) (by decide)
  have feed : (s.moveTo p).peek ≠ '\n'.toNat := other (c := newline) (by decide) (by decide)
  have back := other (c := Text.byte '\r') (by decide) (by decide)
  have tab := other (c := Text.byte '\t') (by decide) (by decide)
  rw [skipLayout, if_neg more, if_neg (by simpa using ⟨⟨space, back⟩, tab⟩), if_neg feed,
    if_neg (by simpa using bare)]

/-! ### Inside a token -/

/-- The reader with a place noted as the start of a token. -/
def noting (s : Scanner) (p : Place) : Scanner :=
  { s with start := p.offset, tokenLine := p.line, tokenLineStart := p.offset + 1 - p.column }

/-- The reader that has read `t` from the start of a token at `p`. -/
def reading (s : Scanner) (p : Place) (t : Text) : Scanner := (s.noting p).moveTo (p.after t)

section

variable (faces : p.Faces s.source (t ++ rest))

include faces

theorem peek_reading : (s.reading p t).peek = rest.peek := peek_moveTo faces.after

theorem atEnd_reading : (s.reading p t).atEnd = rest.isEmpty := atEnd_moveTo faces.after

theorem text_reading : (s.reading p t).text = t := by
  have start : (s.reading p t).source.drop p.offset = t ++ rest := faces.drop
  have size : (p.after t).offset - p.offset = t.length := by
    rw [Place.offset_after]
    omega
  change ((s.reading p t).source.drop p.offset).take ((p.after t).offset - p.offset) = t
  rw [start, size, List.take_left]

/-- The place noted is the place where the token starts. -/
theorem position_reading : (s.reading p t).position = p.position s.file := by
  have column := faces.column
  simp only [position, reading, noting, moveTo, Place.position, Position.mk.injEq, true_and,
    and_true]
  omega

theorem token_reading (kind : TokenKind) (lexeme : Text) (literal : Literal) :
    (s.reading p t).token kind lexeme literal =
      { kind := kind
        lexeme := lexeme
        literal := literal
        position := p.position s.file
        length := t.length } := by
  have length : ((s.reading p t).current : Int) - (s.reading p t).start = t.length := by
    change (((p.after t).offset : Nat) : Int) - (p.offset : Int) = t.length
    rw [Place.offset_after]
    omega
  rw [token, position_reading faces, length]

end

theorem advance_reading {u : Text} (filled : u ≠ [])
    (width : (Text.frontRune (u ++ rest)).2 = u.length) (free : newline ∉ u)
    (faces : p.Faces s.source (t ++ (u ++ rest))) :
    (s.reading p t).advance = s.reading p (t ++ u) := by
  rw [reading, reading, Place.after_append]
  exact advance_moveTo faces.after filled width free

theorem advance_reading_ascii {b : UInt8} (ascii : b < 0x80) (other : b ≠ newline)
    (faces : p.Faces s.source (t ++ b :: rest)) :
    (s.reading p t).advance = s.reading p (t ++ [b]) := by
  rw [reading, reading, Place.after_append]
  exact advance_ascii faces.after ascii other

theorem peekNext_reading {b : UInt8} (ascii : b < 0x80)
    (faces : p.Faces s.source (t ++ b :: rest)) : (s.reading p t).peekNext = rest.peek :=
  peekNext_moveTo ascii faces.after

theorem passWhile_reading {inClass : Nat → Bool} {q : UInt8 → Bool} {run : Text}
    (agrees : Text.Agrees inClass q) (line : q newline = false) (inside : ∀ b ∈ run, q b = true)
    (stop : ∀ b ∈ rest.head?, q b = false) (faces : p.Faces s.source (t ++ (run ++ rest))) :
    (s.reading p t).passWhile inClass = s.reading p (t ++ run) := by
  rw [reading, reading, Place.after_append]
  have passed := passWhile_moveTo (s := s.noting p) agrees line faces.after
  rw [takeWhile_run inside stop] at passed
  exact passed

/-- What a reader answers to a piece that starts at a place: the token that the piece is, or an
empty one with the error, and the reader behind the piece. -/
def answer (s : Scanner) (p : Place) (piece : Piece) : (Token × Option Diagnostic) × Scanner :=
  let problem := piece.problem? p.line
  (((piece.token? s.file p).getD {}, problem.filter Diagnostic.isError),
    { s.reading p piece.text with log := s.log.report? problem })

theorem give_token {kind : TokenKind} {literal : Literal}
    (value : literal = Literal.ofLexeme kind t) (faces : p.Faces s.source (t ++ rest)) :
    (s.reading p t).give (.token kind t) ((s.reading p t).token kind t literal) =
      s.answer p (.token kind t) := by
  rw [token_reading faces, value]
  rfl

theorem word_reading {b : UInt8} {body : Text} (inside : ∀ c ∈ body, isWordByte c = true)
    (stop : ∀ c ∈ rest.head?, isWordByte c = false)
    (faces : p.Faces s.source (b :: body ++ rest)) :
    (s.reading p [b]).word =
      s.answer p (.token (TokenKind.ofWord (b :: body)) (b :: body)) := by
  have kinds : ∀ kind ∈ TokenKind.keywords, kind ≠ .number ∧ kind ≠ .string := by decide
  have value : Literal.none = Literal.ofLexeme (TokenKind.ofWord (b :: body)) (b :: body) := by
    unfold TokenKind.ofWord
    cases found : TokenKind.keywords.find? fun kind => kind.spelling = b :: body with
    | none => rfl
    | some kind =>
      have other := kinds kind (List.mem_of_find?_eq_some found)
      cases kind <;> simp_all [Literal.ofLexeme]
  rw [word, passWhile_reading (t := [b]) Text.agrees_wordByte (by decide) inside stop faces,
    List.singleton_append, text_reading faces]
  exact give_token value faces

/-- A run of digits is the number when no fraction comes behind it. -/
theorem number_whole {b : UInt8} {more : Text} (inside : ∀ c ∈ more, Text.isDigit c = true)
    (stop : ∀ c ∈ rest.head?, Text.isDigit c = false)
    (bare : ∀ c tail, rest = Text.byte '.' :: c :: tail → Text.isDigit c = false)
    (faces : p.Faces s.source (b :: more ++ rest)) :
    (s.reading p [b]).number = s.answer p (.token .number (b :: more)) := by
  have alone : ((s.reading p (b :: more)).peek = '.'.toNat &&
      Text.ofClass Text.isDigit (s.reading p (b :: more)).peekNext) = false := by
    rw [Bool.and_eq_false_iff, decide_eq_false_iff_not]
    by_cases point : (s.reading p (b :: more)).peek = '.'.toNat
    · rw [peek_reading faces] at point
      refine .inr ?_
      cases rest with
      | nil => cases point
      | cons c tail =>
        obtain rfl : c = Text.byte '.' := (Text.peek_eq_iff (by decide) c tail).mp point
        rw [peekNext_reading (by decide) faces]
        cases tail with
        | nil => rfl
        | cons d last => rw [Text.agrees_digit.front, bare d last rfl]
    · exact .inl point
  rw [number, passWhile_reading (t := [b]) Text.agrees_digit (by decide) inside stop faces,
    List.singleton_append, alone, if_neg Bool.false_ne_true, text_reading faces]
  exact give_token rfl faces

theorem number_fraction {b : UInt8} {more places : Text} (fractional : places ≠ [])
    (inside : ∀ c ∈ more ++ places, Text.isDigit c = true)
    (stop : ∀ c ∈ rest.head?, Text.isDigit c = false)
    (faces : p.Faces s.source (b :: more ++ Text.byte '.' :: places ++ rest)) :
    (s.reading p [b]).number =
      s.answer p (.token .number (b :: more ++ Text.byte '.' :: places)) := by
  obtain ⟨whole, fraction⟩ := List.forall_mem_append.mp inside
  have parts : b :: more ++ Text.byte '.' :: places ++ rest =
      b :: more ++ Text.byte '.' :: (places ++ rest) := by simp
  have point : ∀ c ∈ (Text.byte '.' :: (places ++ rest)).head?, Text.isDigit c = false := by
    rintro c ⟨⟩
    decide
  have faces' := faces
  rw [parts] at faces'
  have next : ((s.reading p (b :: more)).peek = '.'.toNat &&
      Text.ofClass Text.isDigit (s.reading p (b :: more)).peekNext) = true := by
    obtain ⟨d, last, rfl⟩ := List.exists_cons_of_ne_nil fractional
    rw [peek_reading faces', peekNext_reading (by decide) faces', List.cons_append,
      Text.agrees_digit.front, fraction d List.mem_cons_self, Text.peek_of_ascii (by decide)]
    rfl
  have behind : p.Faces s.source (b :: more ++ [Text.byte '.'] ++ (places ++ rest)) := by
    simpa using faces'
  rw [number, passWhile_reading (t := [b]) Text.agrees_digit (by decide) whole point faces',
    List.singleton_append, next, if_pos rfl, advance_reading_ascii (by decide) (by decide) faces',
    passWhile_reading Text.agrees_digit (by decide) fraction stop behind]
  have text : b :: more ++ [Text.byte '.'] ++ places = b :: more ++ Text.byte '.' :: places := by
    simp
  rw [text, text_reading faces]
  exact give_token rfl faces

theorem passString_reading {body : Text} (free : quoteMark ∉ body)
    (stop : ∀ b ∈ rest.head?, b = quoteMark) (faces : p.Faces s.source (t ++ (body ++ rest))) :
    (s.reading p t).passString = s.reading p (t ++ body) := by
  have passed := passString_moveTo (s := s.noting p) faces.after
  rw [takeWhile_run (run_of_not_mem free) fun b here => by simp [stop b here],
    ← Place.after_append] at passed
  exact passed

theorem string_closed {body : Text} (free : quoteMark ∉ body)
    (faces : p.Faces s.source (quoteMark :: body ++ [quoteMark] ++ rest)) :
    (s.reading p [quoteMark]).string =
      s.answer p (.token .string (quoteMark :: body ++ [quoteMark])) := by
  have parts : quoteMark :: body ++ [quoteMark] ++ rest =
      quoteMark :: body ++ quoteMark :: rest := by simp
  have stop : ∀ b ∈ (quoteMark :: rest).head?, b = quoteMark := by
    rintro b ⟨⟩
    rfl
  have faces' := faces
  rw [parts] at faces'
  have inner : (s.reading p (quoteMark :: body ++ [quoteMark])).slice
      ((s.reading p (quoteMark :: body ++ [quoteMark])).start + 1)
      ((s.reading p (quoteMark :: body ++ [quoteMark])).current - 1) = body := by
    have start : s.source.drop (p.offset + 1) = body ++ quoteMark :: rest := by
      rw [← List.drop_drop, faces'.drop]
      rfl
    have size : (p.after (quoteMark :: body ++ [quoteMark])).offset - 1 - (p.offset + 1) =
        body.length := by
      rw [Place.offset_after, List.length_append, List.length_cons, List.length_singleton]
      omega
    change (s.source.drop (p.offset + 1)).take
      ((p.after (quoteMark :: body ++ [quoteMark])).offset - 1 - (p.offset + 1)) = body
    rw [start, size, List.take_left]
  have value : Literal.text body = .ofLexeme .string (quoteMark :: body ++ [quoteMark]) := by
    simp [Literal.ofLexeme]
  rw [string, passString_reading (t := [quoteMark]) free stop faces', List.singleton_append,
    atEnd_reading faces', if_neg (by simp), advance_reading_ascii (by decide) (by decide) faces']
  dsimp only
  rw [text_reading faces, inner]
  exact give_token value faces

theorem string_open {body : Text} (free : quoteMark ∉ body)
    (faces : p.Faces s.source (quoteMark :: body)) :
    (s.reading p [quoteMark]).string = s.answer p (.openString (quoteMark :: body)) := by
  have all : p.Faces s.source (quoteMark :: body ++ []) := by simpa using faces
  rw [string, passString_reading (t := [quoteMark]) free (by simp) all, List.singleton_append,
    atEnd_reading all, if_pos List.isEmpty_nil, text_reading all]
  rfl

/-! ### Symbols -/

/-- What the table of signs says: a sign and what makes it longer are ASCII characters, and the
longer symbol is spelled by both. -/
theorem sign_spelled : ∀ sign ∈ Sign.all,
    (Text.byte sign.first < 0x80 ∧ Text.byte sign.first ≠ newline ∧
      (Text.byte sign.first).toNat = sign.first.toNat ∧ sign.single ≠ .number ∧
      sign.single ≠ .string) ∧
    ∀ second ∈ sign.second.toList, second.2 ∈ TokenKind.symbols ∧
      second.2.spelling = [Text.byte sign.first, Text.byte second.1] ∧
      Text.byte second.1 < 0x80 ∧ Text.byte second.1 ≠ newline ∧
      (Text.byte second.1).toNat = second.1.toNat ∧ second.2 ≠ .number ∧ second.2 ≠ .string := by
  decide +kernel

/-- Every symbol is a sign on its own or made longer. -/
theorem exists_sign : ∀ kind ∈ TokenKind.symbols, ∃ sign ∈ Sign.all,
    sign.single = kind ∧ kind.spelling = [Text.byte sign.first] ∨
      ∃ second ∈ sign.second.toList, second.2 = kind := by
  decide +kernel

theorem find?_sign : ∀ sign ∈ Sign.all,
    (Sign.all.find? fun other => other.first.toNat = sign.first.toNat) = some sign := by
  decide +kernel

theorem ofLexeme_eq_none {kind : TokenKind} (number : kind ≠ .number) (string : kind ≠ .string)
    (text : Text) : Literal.ofLexeme kind text = .none := by
  cases kind <;> simp_all [Literal.ofLexeme]

theorem accept?_reading {c : Char} (ascii : Text.byte c < 0x80) (other : Text.byte c ≠ newline)
    (code : (Text.byte c).toNat = c.toNat) (faces : p.Faces s.source (t ++ Text.byte c :: rest)) :
    (s.reading p t).accept? c = some (s.reading p (t ++ [Text.byte c])) := by
  have first : (s.reading p t).peek = c.toNat := by
    rw [peek_reading faces, Text.peek_of_ascii ascii, code]
  have more : (s.reading p t).atEnd = false := by simp [atEnd_reading faces]
  rw [accept?, more, first, if_pos (by simp), advance_reading_ascii ascii other faces]

theorem accept?_eq_none {c : Char} (ascii : Text.byte c < 0x80)
    (code : (Text.byte c).toNat = c.toNat) (refused : rest.head? ≠ some (Text.byte c))
    (faces : p.Faces s.source (t ++ rest)) : (s.reading p t).accept? c = none := by
  rw [accept?, if_neg]
  rw [atEnd_reading faces, peek_reading faces]
  cases rest with
  | nil => simp
  | cons b tail =>
    have start : Text.peek (b :: tail) ≠ c.toNat := by
      rw [← code]
      intro same
      exact refused (congrArg some ((Text.peek_eq_iff ascii b tail).mp same))
    simp [start]

theorem symbol_longer {sign : Sign} {second : Char × TokenKind} (known : sign ∈ Sign.all)
    (longer : second ∈ sign.second)
    (faces : p.Faces s.source ([Text.byte sign.first] ++ Text.byte second.1 :: rest)) :
    (s.reading p [Text.byte sign.first]).symbol sign =
      s.answer p (.token second.2 second.2.spelling) := by
  obtain ⟨-, seconds⟩ := sign_spelled sign known
  obtain ⟨-, spelling, ascii, other, code, number, string⟩ :=
    seconds second (Option.mem_toList.mpr longer)
  have whole : p.Faces s.source ([Text.byte sign.first, Text.byte second.1] ++ rest) := faces
  rw [symbol, Option.mem_def.mp longer, Option.bind_some, accept?_reading ascii other code faces,
    spelling]
  exact give_token (ofLexeme_eq_none number string _).symm whole

theorem symbol_single {sign : Sign} (known : sign ∈ Sign.all)
    (refused : ∀ second ∈ sign.second, rest.head? ≠ some (Text.byte second.1))
    (faces : p.Faces s.source ([Text.byte sign.first] ++ rest)) :
    (s.reading p [Text.byte sign.first]).symbol sign =
      s.answer p (.token sign.single [Text.byte sign.first]) := by
  obtain ⟨⟨-, -, -, number, string⟩, seconds⟩ := sign_spelled sign known
  have short : (sign.second.bind fun second =>
      ((s.reading p [Text.byte sign.first]).accept? second.1).map fun s =>
        (s, second.2, [Text.byte sign.first, Text.byte second.1])) = none := by
    cases longer : sign.second with
    | none => rfl
    | some second =>
      obtain ⟨-, -, ascii, -, code, -⟩ := seconds second (Option.mem_toList.mpr longer)
      rw [Option.bind_some, accept?_eq_none ascii code (refused second longer) faces,
        Option.map_none]
  rw [symbol, short]
  exact give_token (ofLexeme_eq_none number string _).symm faces

/-! ### One token -/

theorem scan_nil (faces : p.Faces s.source []) :
    (s.reading p []).scan =
      (({ position := p.position s.file }, none), s.reading p []) := by
  have all : p.Faces s.source ([] ++ []) := faces
  rw [scan, atEnd_reading all, if_pos List.isEmpty_nil, token_reading all]
  rfl

section

variable {b : UInt8} (faces : p.Faces s.source (b :: rest))

include faces

/-- A token is read by the class of its first character, behind that character. -/
theorem scan_cons :
    (s.reading p []).scan =
      if isLetter b then (s.reading p []).advance.word
      else if Text.isDigit b then (s.reading p []).advance.number
      else if b = quoteMark then (s.reading p []).advance.string
      else
        ((Sign.all.find? fun sign => sign.first.toNat = Text.peek (b :: rest)).map
          (s.reading p []).advance.symbol).getD
          ((s.reading p []).advance.give (.rejected (s.reading p []).advance.text)) := by
  have all : p.Faces s.source ([] ++ b :: rest) := faces
  rw [scan, atEnd_reading all, if_neg (by simp), peek_reading all]
  simp only [Text.agrees_letter.front, Text.agrees_digit.front,
    Text.peek_eq_iff (show quoteMark < 0x80 by decide)]
  congr 3
  cases Sign.all.find? fun sign => sign.first.toNat = Text.peek (b :: rest) <;> rfl

theorem scan_sign {sign : Sign} (known : sign ∈ Sign.all) (first : b = Text.byte sign.first) :
    (s.reading p []).scan = (s.reading p [b]).symbol sign := by
  have apart : ∀ sign ∈ Sign.all, isLetter (Text.byte sign.first) = false ∧
      Text.isDigit (Text.byte sign.first) = false ∧ Text.byte sign.first ≠ quoteMark := by
    decide +kernel
  obtain ⟨letter, digit, quote⟩ := apart sign known
  obtain ⟨⟨ascii, other, code, -⟩, -⟩ := sign_spelled sign known
  subst first
  have all : p.Faces s.source ([] ++ Text.byte sign.first :: rest) := faces
  rw [scan_cons faces, letter, digit, if_neg Bool.false_ne_true, if_neg Bool.false_ne_true,
    if_neg quote, Text.peek_of_ascii ascii, code, find?_sign sign known,
    advance_reading_ascii ascii other all]
  rfl

end

theorem scan_word {b : UInt8} {body : Text} (letter : isLetter b = true)
    (inside : ∀ c ∈ body, isWordByte c = true) (stop : ∀ c ∈ rest.head?, isWordByte c = false)
    (faces : p.Faces s.source (b :: body ++ rest)) :
    (s.reading p []).scan = s.answer p (.token (TokenKind.ofWord (b :: body)) (b :: body)) := by
  have first : isWordByte b = true := by simp [isWordByte, letter]
  have all : p.Faces s.source ([] ++ b :: (body ++ rest)) := faces
  rw [scan_cons all, if_pos letter,
    advance_reading_ascii (lt_of_isWordByte first) (ne_of_isWordByte first (by decide)) all]
  exact word_reading inside stop faces

theorem scan_digit {b : UInt8} (digit : Text.isDigit b = true)
    (faces : p.Faces s.source (b :: rest)) :
    (s.reading p []).scan = (s.reading p [b]).number := by
  have first : isWordByte b = true := by simp [isWordByte, digit]
  have all : p.Faces s.source ([] ++ b :: rest) := faces
  rw [scan_cons all, isLetter_of_isDigit digit, if_neg Bool.false_ne_true, if_pos digit,
    advance_reading_ascii (lt_of_isWordByte first) (ne_of_isWordByte first (by decide)) all]
  rfl

theorem scan_quote (faces : p.Faces s.source (quoteMark :: rest)) :
    (s.reading p []).scan = (s.reading p [quoteMark]).string := by
  have all : p.Faces s.source ([] ++ quoteMark :: rest) := faces
  rw [scan_cons all, show isLetter quoteMark = false by decide,
    show Text.isDigit quoteMark = false by decide, if_neg Bool.false_ne_true,
    if_neg Bool.false_ne_true, if_pos rfl, advance_reading_ascii (by decide) (by decide) all]
  rfl

theorem scan_symbol {kind : TokenKind} (known : kind ∈ TokenKind.symbols)
    (longest : ∀ other ∈ TokenKind.symbols, other.spelling <+: kind.spelling ++ rest →
      other.spelling.length ≤ kind.spelling.length)
    (faces : p.Faces s.source (kind.spelling ++ rest)) :
    (s.reading p []).scan = s.answer p (.token kind kind.spelling) := by
  obtain ⟨sign, listed, ⟨rfl, spelling⟩ | ⟨second, longer, rfl⟩⟩ := exists_sign kind known
  · rw [spelling] at faces longest ⊢
    rw [scan_sign faces listed rfl]
    refine symbol_single listed ?_ faces
    -- Otherwise the longer symbol would stand here.
    intro second longer next
    obtain ⟨known', spelling', -⟩ :=
      (sign_spelled sign listed).2 second (Option.mem_toList.mpr longer)
    cases rest with
    | nil => cases next
    | cons c tail =>
      cases next
      have short := longest second.2 known' (by rw [spelling']; exact ⟨tail, rfl⟩)
      rw [spelling'] at short
      exact absurd short (by simp)
  · obtain ⟨-, spelling, -⟩ := (sign_spelled sign listed).2 second longer
    rw [spelling] at faces
    rw [scan_sign faces listed rfl]
    exact symbol_longer listed (Option.mem_toList.mp longer) faces

theorem scan_lone {b : UInt8} (either : b = Text.byte '&' ∨ b = Text.byte '|')
    (single : rest.head? ≠ some b) (faces : p.Faces s.source (b :: rest)) :
    (s.reading p []).scan = s.answer p (.token .error [b]) := by
  have lone : ∃ sign ∈ Sign.all, b = Text.byte sign.first ∧ sign.single = .error ∧
      ∀ second ∈ sign.second.toList, Text.byte second.1 = b := by
    rcases either with rfl | rfl <;> decide +kernel
  obtain ⟨sign, listed, first, error, twice⟩ := lone
  rw [scan_sign faces listed first, ← error]
  subst first
  refine symbol_single listed ?_ faces
  intro second longer
  rw [twice second (Option.mem_toList.mpr longer)]
  exact single

theorem scan_rejected {b : UInt8} {more : Text} (starts : startsToken b = false)
    (width : (Text.frontRune (b :: more ++ rest)).2 = more.length + 1)
    (bytes : b < 0x80 ∧ more = [] ∨ ∀ c ∈ b :: more, 0x80 ≤ c)
    (blank : isBlank b = false) (faces : p.Faces s.source (b :: more ++ rest)) :
    (s.reading p []).scan = s.answer p (.rejected (b :: more)) := by
  have all : p.Faces s.source ([] ++ (b :: more ++ rest)) := faces
  have unlisted : (Sign.all.find? fun sign =>
      sign.first.toNat = Text.peek (b :: (more ++ rest))) = none := by
    have started : ∀ sign ∈ Sign.all, startsToken (Text.byte sign.first) = true := by
      decide +kernel
    rw [List.find?_eq_none]
    intro sign listed same
    obtain ⟨⟨ascii, -, code, -⟩, -⟩ := sign_spelled sign listed
    rw [decide_eq_true_eq, ← code, eq_comm, Text.peek_eq_iff ascii] at same
    rw [same, started sign listed] at starts
    cases starts
  have free : newline ∉ b :: more := by
    intro here
    rcases bytes with ⟨-, rfl⟩ | wide
    · rw [← List.mem_singleton.mp here] at blank
      cases blank
    · exact absurd (wide newline here) (by decide)
  simp only [startsToken, Bool.or_eq_false_iff, decide_eq_false_iff_not] at starts
  obtain ⟨⟨⟨⟨⟨letter, digit⟩, quote⟩, -⟩, -⟩, -⟩ := starts
  have front : p.Faces s.source (b :: (more ++ rest)) := faces
  rw [scan_cons front, letter, digit, if_neg Bool.false_ne_true,
    if_neg Bool.false_ne_true, if_neg quote, unlisted,
    advance_reading (u := b :: more) (List.cons_ne_nil _ _) width free all, List.nil_append,
    text_reading faces]
  rfl

/-- The token, or the error, that is read is the piece that stands here. -/
theorem scan_piece {piece : Piece} (follows : piece.FollowedBy rest)
    (visible : piece.isLayout = false) (faces : p.Faces s.source (piece.text ++ rest)) :
    (s.reading p []).scan = s.answer p piece := by
  cases follows with
  | blank | comment => cases visible
  | word letter inside stop => exact scan_word letter inside stop faces
  | @whole digits _ filled inside stop bare =>
    obtain ⟨b, more, rfl⟩ := List.exists_cons_of_ne_nil filled
    obtain ⟨digit, inside⟩ := List.forall_mem_cons.mp inside
    exact (scan_digit digit faces).trans (number_whole inside stop bare faces)
  | @fraction digits places _ filled fractional inside stop =>
    obtain ⟨b, more, rfl⟩ := List.exists_cons_of_ne_nil filled
    obtain ⟨digit, inside⟩ := List.forall_mem_cons.mp inside
    exact (scan_digit digit faces).trans (number_fraction fractional inside stop faces)
  | string free => exact (scan_quote faces).trans (string_closed free faces)
  | symbol known _ longest => exact scan_symbol known longest faces
  | lone either single => exact scan_lone either single faces
  | rejected blank starts width bytes => exact scan_rejected starts width bytes blank faces
  | @openString body free =>
    have all : p.Faces s.source (quoteMark :: body) := by simpa [Piece.text] using faces
    exact (scan_quote all).trans (string_open free all)

/-! ### All tokens -/

theorem next_nil (faces : p.Faces s.source []) :
    (s.moveTo p).next = (({ position := p.position s.file }, none), s.reading p []) := by
  rw [next, skipLayout_nil faces]
  exact scan_nil faces

theorem next_layout {piece : Piece} (follows : piece.FollowedBy rest)
    (layout : piece.isLayout = true) (faces : p.Faces s.source (piece.text ++ rest)) :
    (s.moveTo p).next = (s.moveTo (p.after piece.text)).next := by
  cases follows with
  | blank blank => rw [next, skipLayout_blank blank faces, Piece.text, ← next]
  | comment inside stop => rw [next, skipLayout_comment inside stop faces, Piece.text, ← next]
  | _ => cases layout

theorem next_visible {piece : Piece} (follows : piece.FollowedBy rest)
    (visible : piece.isLayout = false) (faces : p.Faces s.source (piece.text ++ rest)) :
    (s.moveTo p).next = s.answer p piece := by
  obtain ⟨b, tail, text⟩ := List.exists_cons_of_ne_nil follows.text_ne_nil
  have front := follows.front_eq text
  have dark : isBlank b = false := by
    refine Bool.eq_false_iff.mpr fun blank => ?_
    rw [← front, Piece.front, if_pos blank] at visible
    cases visible
  have code : ¬ slashes <+: b :: (tail ++ rest) := by
    intro opens
    have opens : (Text.ofString "//").isPrefixOf (b :: (tail ++ rest)) = true :=
      List.isPrefixOf_iff_prefix.mpr opens
    rw [← front, Piece.front, dark, if_neg Bool.false_ne_true, if_pos opens] at visible
    cases visible
  have here := faces
  rw [text, List.cons_append] at here
  rw [next, skipLayout_visible dark code here]
  exact scan_piece follows visible faces

/-- A visible piece is a token, and no end of the script, or it is an error. -/
theorem visible_cases {piece : Piece} (follows : piece.FollowedBy rest)
    (visible : piece.isLayout = false) :
    (∃ kind text, piece = .token kind text ∧ kind ≠ .eof) ∨
      (∀ file place, piece.token? file place = none) ∧
        ∀ line, ((piece.problem? line).filter Diagnostic.isError).isNone = false := by
  have words : ∀ kind ∈ TokenKind.keywords, kind ≠ .eof := by decide
  have symbols : ∀ kind ∈ TokenKind.symbols, kind ≠ .eof := by decide
  cases follows with
  | blank | comment => cases visible
  | @word b body _ =>
    refine .inl ⟨_, _, rfl, ?_⟩
    unfold TokenKind.ofWord
    cases found : TokenKind.keywords.find? fun kind => kind.spelling = b :: body with
    | none => exact fun h => nomatch h
    | some kind => exact words kind (List.mem_of_find?_eq_some found)
  | whole | fraction | string | lone => exact .inl ⟨_, _, rfl, fun h => nomatch h⟩
  | symbol known _ _ => exact .inl ⟨_, _, rfl, symbols _ known⟩
  | rejected | openString => exact .inr ⟨fun _ _ => rfl, fun _ => rfl⟩

theorem collect_token {calls : Nat} (more : s.next.1.1.kind ≠ .eof) :
    s.collect (calls + 1) =
      (s.next.1.1 :: (s.next.2.collect calls).1, (s.next.2.collect calls).2) := by
  rcases answered : s.next with ⟨⟨token, error⟩, later⟩
  rw [answered] at more
  rw [collect, answered]
  exact if_neg more

theorem collect_error {calls : Nat} (empty : s.next.1.1.kind = .eof)
    (error : s.next.1.2.isNone = false) : s.collect (calls + 1) = s.next.2.collect calls := by
  rcases answered : s.next with ⟨⟨token, problem⟩, later⟩
  rw [answered] at empty error
  rw [collect, answered]
  dsimp only at empty error ⊢
  rw [if_pos empty, error, if_neg Bool.false_ne_true]

/-- Reading on from a place gives the tokens of the pieces that come there, and reports the
problems of these pieces. -/
theorem collect_moveTo {pieces : List Piece} {calls : Nat} (enough : pieces.length < calls)
    (divides : Divides pieces rest) (faces : p.Faces s.source rest) :
    (s.moveTo p).collect calls =
      ((Lexer.readFrom s.file p pieces).1,
        s.log.reportAll (Lexer.readFrom s.file p pieces).2) := by
  induction pieces generalizing s p rest calls with
  | nil =>
    obtain ⟨calls, rfl⟩ := Nat.exists_eq_add_one_of_ne_zero (Nat.ne_zero_of_lt enough)
    obtain ⟨rfl, -⟩ := divides
    rw [collect, next_nil faces]
    rfl
  | cons piece more ih =>
    obtain ⟨follows, rfl, below⟩ := divides.uncons
    obtain ⟨calls, rfl⟩ := Nat.exists_eq_add_one_of_ne_zero (Nat.ne_zero_of_lt enough)
    rw [List.length_cons] at enough
    cases layout : piece.isLayout with
    | true =>
      have silent : Lexer.readFrom s.file p (piece :: more) =
          Lexer.readFrom s.file (p.after piece.text) more := by
        cases piece with
        | blank | comment => rfl
        | _ => cases layout
      have fewer : more.length < calls + 1 := Nat.lt_of_succ_lt enough
      have later := ih (s := s) fewer below faces.after
      rw [collect, next_layout follows layout faces, ← collect, later, silent]
    | false =>
      have answered := next_visible follows layout faces
      have later := ih (s := { s.noting p with log := s.log.report? (piece.problem? p.line) })
        (Nat.lt_of_succ_lt_succ enough) below faces.after
      have next : (s.answer p piece).2.collect calls =
          ((Lexer.readFrom s.file (p.after piece.text) more).1,
            s.log.reportAll ((piece.problem? p.line).toList ++
              (Lexer.readFrom s.file (p.after piece.text) more).2)) := by
        refine later.trans ?_
        cases piece.problem? p.line <;> rfl
      rcases visible_cases follows layout with ⟨kind, text, rfl, more⟩ | ⟨silent, error⟩
      · rw [collect_token (by rw [answered]; exact more), answered, next]
        rfl
      · have empty : (s.answer p piece).1.1 = {} := by rw [answer, silent, Option.getD_none]
        have wrong : (s.moveTo p).next.1.2.isNone = false := by
          rw [answered]
          exact error p.line
        rw [collect_error (by rw [answered, empty]) wrong, answered, next, Lexer.readFrom, silent]
        rfl

/-- The reader that keeps count finds the tokens and problems, at the places, that counting byte by
byte over the pieces of the script finds. -/
theorem tokenize_eq (source file : Text) :
    Scanner.tokenize source file = NumScript.tokenize source file := by
  have divides := split_divides source
  exact collect_moveTo (s := { source := source, file := file })
    (Nat.lt_succ_of_le divides.length_le) divides (.start source)

end Scanner

end NumScript
