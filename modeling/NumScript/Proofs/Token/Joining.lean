import Mathlib.Data.List.Find
import NumScript.Proofs.Token.Places

/-! Two scripts, one after the other. A line feed ends every token and every comment, so that
behind a script without errors and a line feed another script is cut as it is by itself. Its tokens
are the same too, but for their places, which are moved. -/

namespace NumScript

/-! ### Pieces in front of a line feed -/

namespace Piece

/-- A text without a line feed starts there as it does without what the line feed begins. -/
theorem isPrefixOf_newline {word : Text} (free : newline ∉ word) (s more : Text) :
    word.isPrefixOf (s ++ newline :: more) = word.isPrefixOf s := by
  induction s generalizing word with
  | nil =>
    cases word with
    | nil => rfl
    | cons b rest =>
      have other : b ≠ newline := fun same => free (same ▸ List.mem_cons_self)
      simp [List.isPrefixOf, other]
  | cons c s ih =>
    cases word with
    | nil => rfl
    | cons b rest =>
      simp only [List.cons_append, List.isPrefixOf]
      rw [ih fun below => free (List.mem_cons_of_mem _ below)]

theorem takeWhile_newline {p : UInt8 → Bool} (stops : p newline = false) (s more : Text) :
    (s ++ newline :: more).takeWhile p = s.takeWhile p := by
  induction s with
  | nil => simp [stops]
  | cons b rest ih => simp only [List.cons_append, List.takeWhile_cons, ih]

theorem dropWhile_newline {p : UInt8 → Bool} (stops : p newline = false) (s more : Text) :
    (s ++ newline :: more).dropWhile p = s.dropWhile p ++ newline :: more := by
  induction s with
  | nil => simp [stops]
  | cons b rest ih =>
    simp only [List.cons_append, List.dropWhile_cons, ih]
    split <;> rfl

theorem numberText_newline (s more : Text) :
    numberText (s ++ newline :: more) = numberText s := by
  have feed : Text.isDigit newline = false := by decide
  have point : newline ≠ Text.byte '.' := by decide
  unfold numberText
  rw [takeWhile_newline feed, dropWhile_newline feed]
  rcases s.dropWhile Text.isDigit with _ | ⟨first, _ | ⟨second, rest⟩⟩
  · cases more <;> simp [point]
  · simp [feed]
  · simp only [List.cons_append]
    rw [← List.cons_append, takeWhile_newline feed]

/-- A string that is closed before the line feed is closed in the same place. -/
theorem body_newline {s : Text} (closed : (s.takeWhile (· ≠ quoteMark)).length < s.length)
    (more : Text) :
    (s ++ newline :: more).takeWhile (· ≠ quoteMark) = s.takeWhile (· ≠ quoteMark) := by
  rw [List.takeWhile_append, if_neg (by omega)]

theorem symbol_newline (s more : Text) :
    TokenKind.symbols.find? (fun kind => kind.spelling.isPrefixOf (s ++ newline :: more)) =
      TokenKind.symbols.find? (fun kind => kind.spelling.isPrefixOf s) := by
  have free : ∀ kind ∈ TokenKind.symbols, newline ∉ kind.spelling := by decide
  exact List.find?_congr fun kind known => isPrefixOf_newline (free kind known) s more

/-- A line feed and what comes after it change nothing about a piece without fault. -/
theorem front_newline {b : UInt8} {rest : Text} (sound : (front b rest).fault? = none)
    (more : Text) : front b (rest ++ newline :: more) = front b rest := by
  have slashed : newline ∉ Text.ofString "//" := by decide
  have word : isWordByte newline = false := by decide
  unfold front at sound ⊢
  simp only [← List.cons_append, isPrefixOf_newline slashed, takeWhile_newline word,
    numberText_newline, symbol_newline] at sound ⊢
  by_cases blank : isBlank b = true
  · simp only [if_pos blank]
  by_cases comment : (Text.ofString "//").isPrefixOf (b :: rest) = true
  · simp only [if_neg blank, if_pos comment]
    exact congrArg Piece.comment (takeWhile_newline (by decide) _ more)
  by_cases letter : isLetter b = true
  · simp only [if_neg blank, if_neg comment, if_pos letter]
  by_cases digit : Text.isDigit b = true
  · simp only [if_neg blank, if_neg comment, if_neg letter, if_pos digit]
  simp only [if_neg blank, if_neg comment, if_neg letter, if_neg digit] at sound ⊢
  by_cases quote : b = quoteMark
  · -- A string that is open at the line feed would be a fault.
    simp only [if_pos quote] at sound ⊢
    split at sound
    · rename_i closed
      have longer : (rest.takeWhile (· ≠ quoteMark)).length <
          (rest ++ newline :: more).length := by
        rw [List.length_append]
        omega
      rw [body_newline closed, if_pos closed, if_pos longer]
    · cases sound
  · simp only [if_neg quote] at sound ⊢
    split at sound
    · rfl
    · split at sound <;> cases sound

/-- A script without faulty pieces, a line feed and another script are cut as the two scripts are
by themselves. -/
theorem splitFrom_newline {skip : Nat} {first : Text} (within : skip ≤ first.length)
    (sound : ∀ piece ∈ splitFrom skip first, piece.fault? = none) (second : Text) :
    splitFrom skip (first ++ newline :: second) =
      splitFrom skip first ++ blank newline :: split second := by
  -- The induction is on the bytes of the first script; `skip` of them belong to a piece that has
  -- been cut already and ends inside the first script.
  induction first generalizing skip with
  | nil =>
    obtain rfl : skip = 0 := Nat.le_zero.mp within
    rfl
  | cons b rest ih =>
    cases skip with
    | succ skip => exact ih (Nat.le_of_succ_le_succ within) sound
    | zero =>
      simp only [splitFrom, List.forall_mem_cons] at sound
      obtain ⟨after, parts, -⟩ := standsAt_front b rest
      have length := congrArg List.length parts
      rw [List.length_append, List.length_cons] at length
      simp only [List.cons_append, splitFrom, front_newline sound.1]
      rw [ih (by omega) sound.2]

end Piece

/-! ### Errors -/

namespace Lexer

theorem any_readFrom_errors (file : Text) (place : Place) (pieces : List Piece) :
    (readFrom file place pieces).2.any Diagnostic.isError =
      pieces.any fun piece => piece.fault?.isSome := by
  induction pieces generalizing place with
  | nil => rfl
  | cons piece rest ih =>
    have first : (piece.problem? place.line).toList.any Diagnostic.isError =
        piece.fault?.isSome := by
      have told := congrArg List.length (Piece.filter_problem? place.line piece)
      rw [List.length_map, ← List.countP_eq_length_filter] at told
      rw [Bool.eq_iff_iff, List.any_eq_true, ← List.countP_pos_iff, told]
      cases piece.fault? <;> simp
    rw [readFrom, List.any_cons, ← ih (place.after piece.text), ← first]
    exact List.any_append

end Lexer

/-- The errors of a script are counted. -/
theorem exact_tokenize (source file : Text) : (tokenize source file).2.Exact :=
  Log.exact_empty.reportAll _

theorem hasErrors_tokenize (source file : Text) :
    (tokenize source file).2.hasErrors =
      (Piece.split source).any fun piece => piece.fault?.isSome := by
  rw [(exact_tokenize source file).hasErrors_eq, ← Lexer.any_readFrom_errors file {}]
  exact congrArg (List.any · _) (Log.items_reportAll {} _)

/-! ### Moved places -/

/-- How far a script stands behind the place where it would stand by itself. -/
structure Shift where
  lines : Nat
  bytes : Nat

/-- The shift behind a script and a line feed. -/
def Shift.behind (source : Text) : Shift := ⟨source.count Piece.newline + 1, source.length + 1⟩

def Position.moved (shift : Shift) (p : Position) : Position :=
  { p with line := p.line + shift.lines, offset := p.offset + shift.bytes }

def Place.moved (shift : Shift) (p : Place) : Place :=
  { p with line := p.line + shift.lines, offset := p.offset + shift.bytes }

def Token.moved (shift : Shift) (t : Token) : Token :=
  { t with position := t.position.moved shift }

namespace Place

variable (shift : Shift) (p : Place)

theorem position_moved (file : Text) :
    (p.moved shift).position file = (p.position file).moved shift := by
  simp [position, moved, Position.moved]

theorem step_moved (b : UInt8) : (p.moved shift).step b = (p.step b).moved shift := by
  unfold step
  split <;> simp [moved] <;> omega

theorem after_moved (s : Text) : (p.moved shift).after s = (p.after s).moved shift := by
  induction s generalizing p with
  | nil => rfl
  | cons b rest ih =>
    have next := ih (p.step b)
    rw [← step_moved] at next
    exact next

/-- Behind a script and a line feed a new line starts. -/
theorem after_newline (source : Text) :
    ({} : Place).after (source ++ [Piece.newline]) = ({} : Place).moved (.behind source) := by
  have behind := Behind.start.after source
  rw [List.nil_append] at behind
  simp only [after, List.foldl_append, List.foldl_cons, List.foldl_nil]
  change (({} : Place).after source).step Piece.newline = _
  simp only [step, if_true, behind.line, behind.offset, moved, Shift.behind]
  congr 1
  omega

end Place

namespace Lexer

theorem readFrom_cons (file : Text) (place : Place) (piece : Piece) (rest : List Piece) :
    (readFrom file place (piece :: rest)).1 =
      (piece.token? file place).toList ++ (readFrom file (place.after piece.text) rest).1 := rfl

theorem readFrom_moved (file : Text) (shift : Shift) (place : Place) (pieces : List Piece) :
    (readFrom file (place.moved shift) pieces).1 =
      (readFrom file place pieces).1.map (Token.moved shift) := by
  induction pieces generalizing place with
  | nil => rfl
  | cons piece rest ih =>
    have first : (piece.token? file (place.moved shift)).toList =
        (piece.token? file place).toList.map (Token.moved shift) := by
      cases piece with
      | token kind text => simp [Piece.token?, Token.moved, Place.position_moved]
      | _ => rfl
    rw [readFrom_cons, readFrom_cons, List.map_append, first, Place.after_moved, ih]

theorem readFrom_append (file : Text) (place : Place) (before behind : List Piece) :
    (readFrom file place (before ++ behind)).1 =
      (readFrom file place before).1 ++
        (readFrom file (place.after (before.flatMap Piece.text)) behind).1 := by
  induction before generalizing place with
  | nil => rfl
  | cons piece rest ih =>
    have parts : (place.after piece.text).after (rest.flatMap Piece.text) =
        place.after ((piece :: rest).flatMap Piece.text) := by
      simp only [Place.after, List.flatMap_cons, List.foldl_append]
    rw [List.cons_append, readFrom_cons, ih, parts, readFrom_cons, List.append_assoc]

end Lexer

/-- Behind a script without errors and a line feed, another script is cut into the same tokens as
by itself, in places that are moved, and it has errors if it has some by itself. -/
theorem tokenize_newline {first : Text} (second file : Text)
    (clean : (tokenize first file).2.hasErrors = false) :
    (tokenize (first ++ Piece.newline :: second) file).1 =
        (tokenize first file).1 ++
          (tokenize second file).1.map (Token.moved (.behind first)) ∧
      (tokenize (first ++ Piece.newline :: second) file).2.hasErrors =
        (tokenize second file).2.hasErrors := by
  rw [hasErrors_tokenize] at clean
  have sound : ∀ piece ∈ Piece.split first, piece.fault? = none := by
    intro piece member
    have faultless := List.any_eq_false.mp clean piece member
    simpa using faultless
  have pieces : Piece.split (first ++ Piece.newline :: second) =
      Piece.split first ++ .blank Piece.newline :: Piece.split second :=
    Piece.splitFrom_newline (Nat.zero_le _) sound second
  constructor
  · have place : (({} : Place).after first).after (Piece.blank Piece.newline).text =
        ({} : Place).moved (.behind first) := by
      rw [← Place.after_newline]
      exact (List.foldl_append ..).symm
    change (Lexer.readFrom file {} (Piece.split _)).1 = _
    rw [pieces, Lexer.readFrom_append, (Piece.split_divides first).joined, Lexer.readFrom_cons,
      place, Lexer.readFrom_moved]
    rfl
  · rw [hasErrors_tokenize, hasErrors_tokenize, pieces, List.any_append, List.any_cons]
    change ((Piece.split first).any _ || (false || _)) = _
    rw [clean, Bool.false_or, Bool.false_or]

end NumScript
