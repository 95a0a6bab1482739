import NumScript.Proofs.Token.Division
import NumScript.Proofs.Token.Places

/-! Where the span of a token ends. The end of a span is reckoned from the start of the token, one
column for every character and on the same line. The first byte behind the token is there only when
the token stays on its line and each of its characters is one byte, which every token does but some
strings. -/

namespace NumScript

open Piece

/-! ### Characters and places -/

theorem Text.runeCount_of_ascii {s : Text} (ascii : ∀ b ∈ s, b < 0x80) :
    runeCount s = s.length := by
  unfold runeCount characters
  induction s with
  | nil => rfl
  | cons b rest ih =>
    obtain ⟨first, below⟩ := List.forall_mem_cons.mp ascii
    rw [charactersFrom, rune?_of_ascii first, List.length_cons, List.length_cons]
    exact congrArg (· + 1) (ih below)

/-- A line has only one start. -/
theorem Text.LineStart.le {before : Text} {start start' : Nat} (h : before.LineStart start)
    (h' : before.LineStart start') : start ≤ start' := by
  obtain ⟨-, free, -⟩ := h'
  obtain ⟨-, -, first | feed⟩ := h
  · omega
  · rcases Nat.lt_or_ge start' start with later | done
    · exfalso
      apply free
      rw [List.mem_iff_getElem?]
      refine ⟨start - 1 - start', ?_⟩
      rw [List.getElem?_drop, show start' + (start - 1 - start') = start - 1 by omega, feed]
    · exact done

namespace Place

/-- There is one place behind a text. -/
theorem Behind.unique {p q : Place} {before : Text} (h : p.Behind before) (h' : q.Behind before) :
    p = q := by
  obtain ⟨line, offset, start, edge, column⟩ := h
  obtain ⟨line', offset', start', edge', column'⟩ := h'
  have same : start = start' := Nat.le_antisymm (edge.le edge') (edge'.le edge)
  cases p
  cases q
  simp_all

/-- Bytes of one line lead on in that line. -/
theorem after_of_not_mem (p : Place) {s : Text} (free : newline ∉ s) :
    p.after s = ⟨p.line, p.column + s.length, p.offset + s.length⟩ := by
  induction s generalizing p with
  | nil => rfl
  | cons b rest ih =>
    rw [List.mem_cons, not_or] at free
    obtain ⟨other, below⟩ := free
    have next := ih (p.step b) below
    rw [step, if_neg (Ne.symm other)] at next
    rw [after, List.foldl_cons, step, if_neg (Ne.symm other)]
    refine next.trans ?_
    simp only [List.length_cons, Nat.add_assoc, Nat.add_comm 1]

end Place

/-! ### Tokens of a script -/

/-- A token is made from a piece, in the place behind the pieces in front of it. -/
theorem Lexer.exists_piece_of_mem {file : Text} {place : Place} {pieces : List Piece} {t : Token}
    (member : t ∈ (readFrom file place pieces).1) :
    ∃ first last, pieces = first ++ Piece.token t.kind t.lexeme :: last ∧
      t.position = (place.after (first.flatMap Piece.text)).position file ∧
      t.length = t.lexeme.length := by
  induction pieces generalizing place with
  | nil => cases member
  | cons piece rest ih =>
    rcases List.mem_append.mp member with here | below
    · cases piece with
      | token kind text =>
        obtain rfl := List.mem_singleton.mp here
        exact ⟨[], rest, rfl, rfl, rfl⟩
      | _ => cases here
    · obtain ⟨first, last, rfl, position, length⟩ := ih below
      refine ⟨piece :: first, last, rfl, ?_, length⟩
      rw [position, List.flatMap_cons, Place.after, Place.after, Place.after, List.foldl_append]

theorem Piece.lt_of_isWordByte {b : UInt8} (word : isWordByte b = true) : b < 0x80 := by
  have lower : (Text.byte 'z').toNat < 0x80 := by decide
  have upper : (Text.byte 'Z').toNat < 0x80 := by decide
  have digit : (Text.byte '9').toNat < 0x80 := by decide
  simp only [isWordByte, isLetter, Text.isLower, Text.isUpper, Text.isDigit, Bool.or_eq_true,
    Bool.and_eq_true, decide_eq_true_eq, UInt8.le_iff_toNat_le] at word
  rw [UInt8.lt_iff_toNat_lt]
  rcases word with ((⟨-, high⟩ | ⟨-, high⟩) | rfl) | ⟨-, high⟩
  · exact Nat.lt_of_le_of_lt high lower
  · exact Nat.lt_of_le_of_lt high upper
  · decide
  · exact Nat.lt_of_le_of_lt high digit

/-- A token that is no string is written in ASCII and on one line. -/
theorem Piece.FollowedBy.plain {kind : TokenKind} {text rest : Text}
    (h : (Piece.token kind text).FollowedBy rest) (other : kind ≠ .string) :
    ∀ b ∈ text, b < 0x80 ∧ b ≠ newline := by
  have word {b : UInt8} (word : isWordByte b = true) : b < 0x80 ∧ b ≠ newline :=
    ⟨lt_of_isWordByte word, ne_of_isWordByte word (by decide)⟩
  have digit {b : UInt8} (digit : Text.isDigit b = true) : b < 0x80 ∧ b ≠ newline :=
    word (by simp [isWordByte, digit])
  have symbols : ∀ kind ∈ TokenKind.symbols, ∀ b ∈ kind.spelling, b < 0x80 ∧ b ≠ newline := by
    decide +kernel
  cases h with
  | word letter inside _ =>
    exact List.forall_mem_cons.mpr
      ⟨word (by simp [isWordByte, letter]), fun b here => word (inside b here)⟩
  | whole _ inside _ _ => exact fun b here => digit (inside b here)
  | fraction _ _ inside _ =>
    obtain ⟨digits, places⟩ := List.forall_mem_append.mp inside
    exact List.forall_mem_append.mpr ⟨fun b here => digit (digits b here),
      List.forall_mem_cons.mpr ⟨by decide, fun b here => digit (places b here)⟩⟩
  | string _ => exact absurd rfl other
  | symbol known _ _ => exact symbols _ known
  | lone either _ =>
    refine List.forall_mem_singleton.mpr ?_
    rcases either with rfl | rfl <;> decide

/-! ### Spans -/

/-- In the script `file` with the text `source`, the first byte behind the token is at `stop`. -/
def Token.StopsAt (t : Token) (source file : Text) (stop : Position) : Prop :=
  ∃ (before after : Text) (place : Place), source = before ++ t.lexeme ++ after ∧
    t.position.offset = before.length ∧ place.Behind (before ++ t.lexeme) ∧
    stop = place.position file

/-- The token stays on its line, and each of its characters is one byte. -/
def Token.Plain (t : Token) : Prop :=
  newline ∉ t.lexeme ∧ Text.runeCount t.lexeme = t.lexeme.length

/-- A script is cut at both ends of a token, and the token starts behind what comes before it. -/
theorem Lexer.exists_place_of_mem {source file : Text} {t : Token}
    (member : t ∈ (tokenize source file).1) :
    ∃ (before after : Text) (place : Place), source = before ++ t.lexeme ++ after ∧
      place.Behind before ∧ t.position = place.position file ∧ t.length = t.lexeme.length ∧
      (Piece.token t.kind t.lexeme).FollowedBy after := by
  obtain ⟨joined, whole⟩ := split_divides source
  obtain ⟨first, last, parts, position, length⟩ := exists_piece_of_mem member
  refine ⟨first.flatMap Piece.text, last.flatMap Piece.text, _, ?_,
    Place.Behind.start.after (first.flatMap Piece.text), position, length,
    whole first _ last parts⟩
  rw [← joined, parts, List.flatMap_append, List.flatMap_cons, List.append_assoc]
  rfl

namespace Token

section Spans

variable {source file before after : Text} {place : Place} {t : Token}
  (parts : source = before ++ t.lexeme ++ after) (behind : place.Behind before)
  (position : t.position = place.position file)

include parts behind position

/-- The first byte behind a token is at one place. -/
theorem stopsAt_iff {stop : Position} :
    t.StopsAt source file stop ↔ stop = (place.after t.lexeme).position file := by
  have offset : t.position.offset = before.length := by
    simp [position, Place.position, behind.offset]
  constructor
  · rintro ⟨before', after', place', parts', offset', behind', rfl⟩
    have whole : before ++ (t.lexeme ++ after) = before' ++ (t.lexeme ++ after') := by
      rw [← List.append_assoc, ← parts, parts', List.append_assoc]
    obtain ⟨rfl, -⟩ := List.append_inj whole (by omega)
    rw [behind'.unique (behind.after t.lexeme)]
  · rintro rfl
    exact ⟨before, after, _, parts, offset, behind.after t.lexeme, rfl⟩

/-- A span ends behind its token just when the token is plain. -/
theorem stopsAt_span_iff (length : t.length = t.lexeme.length) :
    t.StopsAt source file t.span.stop ↔ t.Plain := by
  rw [stopsAt_iff parts behind position, span, Place.position, position, Place.position, length]
  constructor
  · intro same
    simp only [Position.mk.injEq] at same
    obtain ⟨-, line, column, -⟩ := same
    have next := (behind.after t.lexeme).line
    rw [List.count_append, ← Nat.add_assoc, ← behind.line] at next
    have free : newline ∉ t.lexeme := List.count_eq_zero.mp (by omega)
    rw [Place.after_of_not_mem _ free] at column
    exact ⟨free, by push_cast at column; omega⟩
  · rintro ⟨free, characters⟩
    rw [Place.after_of_not_mem _ free, characters]
    simp

end Spans

/-- A token that is no string is plain. -/
theorem plain_of_ne_string {t : Token} {after : Text}
    (followed : (Piece.token t.kind t.lexeme).FollowedBy after) (other : t.kind ≠ .string) :
    t.Plain :=
  have each := followed.plain other
  ⟨fun inside => (each _ inside).2 rfl, Text.runeCount_of_ascii fun b inside => (each b inside).1⟩

end Token

/-- The span of a token ends in the right script and at the right offset. Its end has the line and
the column of the first byte behind the token just when the token is plain, as every token is that
is no string. -/
theorem tokenize_span (source file : Text) :
    ∀ t ∈ (tokenize source file).1, ∃ stop,
      (∀ stop', t.StopsAt source file stop' ↔ stop' = stop) ∧
      t.span.stop.file = stop.file ∧ t.span.stop.offset = stop.offset ∧
      (t.span.stop = stop ↔ t.Plain) ∧ (t.kind ≠ .string → t.Plain) := by
  intro t member
  obtain ⟨before, after, place, parts, behind, position, length, followed⟩ :=
    Lexer.exists_place_of_mem member
  have unique (stop : Position) :
      t.StopsAt source file stop ↔ stop = (place.after t.lexeme).position file :=
    t.stopsAt_iff parts behind position
  refine ⟨_, unique, ?_, ?_, ?_, t.plain_of_ne_string followed⟩
  · simp [Token.span, position, Place.position]
  · have offset := (behind.after t.lexeme).offset
    rw [List.length_append, ← behind.offset] at offset
    simp [Token.span, position, Place.position, length, offset]
  · rw [← unique, t.stopsAt_span_iff parts behind position length]

/-- A string of one character that has two bytes. -/
def accented : Text := Text.ofString "\"é\""

/-- The string of `accented`. -/
def accentedString : Token :=
  { kind := .string, lexeme := accented, literal := .text (Text.ofString "é")
    position := { line := 1, column := 1 }, length := 4 }

theorem tokenize_accented : (tokenize accented []).1 = [accentedString] := by
  decide +kernel

theorem accentedString_not_plain : ¬ accentedString.Plain := by
  rintro ⟨-, characters⟩
  revert characters
  decide +kernel

/-- The span of a string can end in front of its last byte. -/
theorem tokenize_span_accented : accentedString ∈ (tokenize accented []).1 ∧
    ∃ stop, accentedString.span.stop.offset = stop.offset ∧ accentedString.span.stop ≠ stop ∧
      accentedString.StopsAt accented [] stop := by
  have member : accentedString ∈ (tokenize accented []).1 := by simp [tokenize_accented]
  obtain ⟨stop, unique, -, offset, same, -⟩ := tokenize_span accented [] accentedString member
  exact ⟨member, stop, offset, mt same.mp accentedString_not_plain, (unique stop).mpr rfl⟩

/-- Not every span ends behind its token. -/
theorem not_stopsAt_span :
    ¬ ∀ source file, ∀ t ∈ (tokenize source file).1, t.StopsAt source file t.span.stop := by
  intro every
  have member : accentedString ∈ (tokenize accented []).1 := by simp [tokenize_accented]
  obtain ⟨before, after, place, parts, behind, position, length, -⟩ :=
    Lexer.exists_place_of_mem member
  have stops := every accented [] accentedString member
  rw [Token.stopsAt_span_iff parts behind position length] at stops
  exact accentedString_not_plain stops

end NumScript
