import NumScript.Proofs.Diagnostic.Log
import NumScript.Proofs.Token.Pieces
import NumScript.Token.Lexer

/-! Where tokens and errors are. A place counts what was read before it, so every token tells the
very bytes it was made from, and every error the line on which the text that caused it starts. -/

namespace NumScript

open Piece

/-- The line that goes on behind `before` starts at offset `start`. -/
def Text.LineStart (before : Text) (start : Nat) : Prop :=
  start ≤ before.length ∧ newline ∉ before.drop start ∧
    (start = 0 ∨ before[start - 1]? = some newline)

/-- The place behind the text `before`. -/
structure Place.Behind (p : Place) (before : Text) : Prop where
  line : p.line = 1 + before.count newline
  offset : p.offset = before.length
  column : ∃ start, before.LineStart start ∧ p.column = before.length - start + 1

namespace Place.Behind

theorem start : Behind {} [] where
  line := rfl
  offset := rfl
  column := ⟨0, ⟨Nat.le_refl 0, by simp, .inl rfl⟩, rfl⟩

theorem step {p : Place} {before : Text} (h : p.Behind before) (b : UInt8) :
    (p.step b).Behind (before ++ [b]) := by
  obtain ⟨line, offset, first, ⟨inside, free, edge⟩, column⟩ := h
  have length : (before ++ [b]).length = before.length + 1 := by simp
  unfold Place.step
  split
  · rename_i feed
    subst feed
    refine ⟨?_, by simp [offset], before.length + 1, ⟨by simp, by simp, .inr (by simp)⟩, by simp⟩
    simp only [line, List.count_append, List.count_singleton_self]
    omega
  · rename_i same
    refine ⟨by simp [line, List.count_append, same], by simp [offset], first, ⟨?_, ?_, ?_⟩, ?_⟩
    · omega
    · rw [List.drop_append_of_le_length inside]
      simpa [List.mem_append, Ne.symm same] using free
    · refine edge.imp_right fun feed => ?_
      obtain ⟨bound, -⟩ := List.getElem?_eq_some_iff.mp feed
      rw [List.getElem?_append_left bound, feed]
    · simp only [column, length]
      omega

theorem after {p : Place} {before : Text} (h : p.Behind before) (s : Text) :
    (p.after s).Behind (before ++ s) := by
  induction s generalizing p before with
  | nil => simpa [Place.after] using h
  | cons b rest ih =>
    have next := ih (h.step b)
    rw [List.append_assoc, List.singleton_append] at next
    exact next

end Place.Behind

/-- The token is made from the bytes of the source that its position and length tell. -/
def Token.LocatedIn (t : Token) (source : Text) : Prop :=
  ∃ before after, source = before ++ t.lexeme ++ after ∧ t.lexeme ≠ [] ∧
    t.length = t.lexeme.length ∧ t.position.offset = before.length ∧
    t.position.line = 1 + before.count newline ∧
    ∃ start, before.LineStart start ∧ t.position.column = before.length - start + 1

namespace Piece

/-- Each piece with the offset where it starts. -/
def located (offset : Nat) : List Piece → List (Nat × Piece)
  | [] => []
  | piece :: rest => (offset, piece) :: located (offset + piece.text.length) rest

/-- The offset, the kind and the text of a piece that is a token. -/
def spelledAt? : Nat × Piece → Option (Int × TokenKind × Text)
  | (offset, token kind text) => some (offset, kind, text)
  | _ => none

/-- Why a piece is an error: it is a rejected character, an open string or a lone sign. -/
def fault? : Piece → Option Cause
  | rejected _ => some .unexpectedCharacter
  | openString _ => some .unterminatedString
  | token .error _ => some .malformedOperator
  | _ => none

/-- The line of the source on which a faulty piece starts, and why it is an error. -/
def faultAt? (source : Text) (place : Nat × Piece) : Option (Int × Option Cause) :=
  place.2.fault?.map fun cause => (1 + (source.take place.1).count newline, some cause)

theorem filter_problem? (line : Int) (piece : Piece) :
    ((piece.problem? line).toList.filter Diagnostic.isError).map (fun d => (d.line, d.cause)) =
      (piece.fault?.map fun cause => (line, some cause)).toList := by
  cases piece with
  | token kind text =>
    cases kind with
    | identifier =>
      simp only [problem?, fault?]
      split <;> rfl
    | _ => rfl
  | _ => rfl

theorem exists_mem_located {piece : Piece} {pieces : List Piece} (member : piece ∈ pieces)
    (offset : Nat) : ∃ start, (start, piece) ∈ located offset pieces := by
  induction pieces generalizing offset with
  | nil => cases member
  | cons first rest ih =>
    rcases List.mem_cons.mp member with rfl | below
    · exact ⟨offset, List.mem_cons_self⟩
    · obtain ⟨start, found⟩ := ih below (offset + first.text.length)
      exact ⟨start, List.mem_cons_of_mem _ found⟩

end Piece

namespace Lexer

variable {file source before : Text} {place : Place} {pieces : List Piece}

/-- The tokens are the pieces that are tokens, at their offsets. -/
theorem map_readFrom_tokens (behind : place.Behind before) (file : Text) (pieces : List Piece) :
    (readFrom file place pieces).1.map (fun t => (t.position.offset, t.kind, t.lexeme)) =
      (located before.length pieces).filterMap spelledAt? := by
  induction pieces generalizing place before with
  | nil => rfl
  | cons piece rest ih =>
    have later := ih (behind.after piece.text)
    rw [List.length_append] at later
    rw [readFrom, located, List.map_append, later, List.filterMap_cons]
    cases piece with
    | token kind text =>
      have offset : (place.position file).offset = before.length := by
        simp [Place.position, behind.offset]
      simp [token?, spelledAt?, offset]
    | _ => rfl

/-- The errors are those of the faulty pieces, each on the line where its piece starts. -/
theorem map_readFrom_errors (file : Text) (behind : place.Behind before)
    (parts : before ++ pieces.flatMap Piece.text = source) :
    ((readFrom file place pieces).2.filter Diagnostic.isError).map (fun d => (d.line, d.cause)) =
      (located before.length pieces).filterMap (faultAt? source) := by
  induction pieces generalizing place before with
  | nil => rfl
  | cons piece rest ih =>
    rw [List.flatMap_cons, ← List.append_assoc] at parts
    have later := ih (behind.after piece.text) parts
    rw [List.length_append] at later
    have line : (place.line : Int) = 1 + (source.take before.length).count newline := by
      rw [← parts, List.append_assoc, List.take_left, behind.line]
      simp
    rw [readFrom, located, List.filter_append, List.map_append, later, filter_problem?, line,
      List.filterMap_cons, faultAt?]
    cases piece.fault? <;> rfl

theorem offset_le_of_mem (behind : place.Behind before) {t : Token}
    (member : t ∈ (readFrom file place pieces).1) : (before.length : Int) ≤ t.position.offset := by
  induction pieces generalizing place before with
  | nil => cases member
  | cons piece rest ih =>
    rcases List.mem_append.mp member with here | below
    · cases piece with
      | token kind text =>
        obtain rfl := List.mem_singleton.mp here
        simp [Place.position, behind.offset]
      | _ => cases here
    · have later := ih (behind.after piece.text) below
      rw [List.length_append] at later
      omega

theorem readFrom_ordered (behind : place.Behind before) (file : Text) (pieces : List Piece) :
    (readFrom file place pieces).1.Pairwise fun t t' =>
      t.position.offset + t.length ≤ t'.position.offset := by
  induction pieces generalizing place before with
  | nil => exact .nil
  | cons piece rest ih =>
    refine List.pairwise_append.mpr ⟨?_, ih (behind.after piece.text), ?_⟩
    · cases piece <;> simp [token?]
    · intro t here t' below
      have later := offset_le_of_mem (behind.after piece.text) below
      rw [List.length_append] at later
      cases piece with
      | token kind text =>
        obtain rfl := List.mem_singleton.mp here
        simp only [Place.position, behind.offset]
        simpa [Piece.text] using later
      | _ => cases here

theorem locatedIn_of_mem (behind : place.Behind before) (divides : Divides pieces source)
    {t : Token} (member : t ∈ (readFrom file place pieces).1) :
    t.LocatedIn (before ++ source) := by
  induction pieces generalizing place before source with
  | nil => cases member
  | cons piece rest ih =>
    obtain ⟨follows, rfl, later⟩ := divides.uncons
    rcases List.mem_append.mp member with here | below
    · cases piece with
      | token kind text =>
        obtain rfl := List.mem_singleton.mp here
        obtain ⟨start, line, column⟩ := behind.column
        refine ⟨before, rest.flatMap Piece.text, by simp [Piece.text], ?_, rfl, ?_, ?_, start, line,
          ?_⟩
        · exact follows.text_ne_nil
        · simp [Place.position, behind.offset]
        · simp [Place.position, behind.line]
        · have bound := line.1
          simp only [Place.position, column]
          omega
      | _ => cases here
    · have inside := ih (behind.after piece.text) later below
      rw [List.append_assoc] at inside
      exact inside

end Lexer

/-- Reading a script cuts it into tokens, blanks, comments, rejected characters and at most one open
string at its end. Each token tells the bytes it is made from and its place, tokens do not overlap
and come in order, and the errors are, one for one and in order, the rejected characters, the open
string and the lone signs, each on the line where it starts. Without errors there is nothing
between the tokens but blanks and comments. -/
theorem tokenize_divides (source file : Text) :
    let tokens := (tokenize source file).1
    let errors := (tokenize source file).2.items.filter Diagnostic.isError
    (∀ t ∈ tokens, t.LocatedIn source) ∧
    tokens.Pairwise (fun t t' => t.position.offset + t.length ≤ t'.position.offset) ∧
    ∃ pieces, Divides pieces source ∧
      tokens.map (fun t => (t.position.offset, t.kind, t.lexeme)) =
        (located 0 pieces).filterMap spelledAt? ∧
      errors.map (fun d => (d.line, d.cause)) =
        (located 0 pieces).filterMap (faultAt? source) ∧
      (errors = [] → ∀ piece ∈ pieces,
        piece.isLayout = true ∨ ∃ kind text, piece = .token kind text) := by
  have divides := split_divides source
  have items : (tokenize source file).2.items = (Lexer.readFrom file {} (split source)).2 :=
    Log.items_reportAll {} _
  have errors := Lexer.map_readFrom_errors file Place.Behind.start divides.joined
  dsimp only
  rw [items]
  refine ⟨?_, ?_, split source, divides, ?_, errors, ?_⟩
  · intro t member
    exact Lexer.locatedIn_of_mem Place.Behind.start divides member
  · exact Lexer.readFrom_ordered Place.Behind.start file (split source)
  · exact Lexer.map_readFrom_tokens Place.Behind.start file (split source)
  · intro clean piece member
    rw [clean] at errors
    obtain ⟨start, found⟩ := exists_mem_located member 0
    have sound := List.filterMap_eq_nil_iff.mp errors.symm (start, piece) found
    cases piece with
    | blank | comment => exact .inl rfl
    | token kind text => exact .inr ⟨kind, text, rfl⟩
    | rejected | openString => cases sound

end NumScript
