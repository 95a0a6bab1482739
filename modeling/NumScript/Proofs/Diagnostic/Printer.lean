import NumScript.Diagnostic.Printer

/-! What a printed line tells. Whatever the colours, a line holds the place of its problem, the
phase that found it, how grave it is, and its message, in this order and with nothing between them
but codes for the terminal. -/

namespace NumScript.Diagnostic

/-- A code that switches the style of a terminal, or nothing. -/
inductive IsCode : Text → Prop
  | nothing : IsCode []
  | switch {style : Text} (plain : ∀ b ∈ style, Text.isDigit b = true ∨ b = Text.byte ';') :
      IsCode ("\x1b[" ++ style ++ "m")

/-- The text in front of what is told of a line in a file. The name of the file may be missing, and
a line that is not positive is no line. -/
inductive IsPlace : Text → Int → Text → Prop
  | nowhere {line : Int} (unknown : line ≤ 0) : IsPlace [] line []
  | inFile {file : Text} {line : Int} (named : file ≠ []) (unknown : line ≤ 0) :
      IsPlace file line (file ++ ": ")
  | onLine {line : Int} (known : 0 < line) : IsPlace [] line (Text.ofInt line ++ ": ")
  | inFileOnLine {file : Text} {line : Int} (named : file ≠ []) (known : 0 < line) :
      IsPlace file line (file ++ ":" ++ Text.ofInt line ++ ": ")

/-- The line tells of a problem in a file: where it is, then its phase and severity, then its
message. -/
def Tells (file : Text) (d : Diagnostic) (line : Text) : Prop :=
  ∃ bold place thin colored plain, IsCode bold ∧ IsPlace file d.line place ∧ IsCode thin ∧
    IsCode colored ∧ IsCode plain ∧
    line = bold ++ place ++ thin ++ colored ++ (d.phase.name : Text) ++ " " ++
      (d.severity.name : Text) ++ plain ++ ": " ++ d.message ++ "\n"

/-- A styled text stands between two codes. -/
theorem exists_styled (color : Bool) (style : Style) (s : Text) :
    ∃ on off, IsCode on ∧ IsCode off ∧ styled color style s = on ++ s ++ off := by
  cases color with
  | false => exact ⟨[], [], .nothing, .nothing, by simp [styled]⟩
  | true =>
    have code (style : String) (plain : ∀ b ∈ Text.ofString style, Text.isDigit b = true ∨
        b = Text.byte ';') : IsCode ("\x1b[" ++ (style : Text) ++ "m") := .switch plain
    cases style with
    | bold => exact ⟨_, _, code "1" (by decide +kernel), code "0" (by decide +kernel), rfl⟩
    | red => exact ⟨_, _, code "31;1" (by decide +kernel), code "0" (by decide +kernel), rfl⟩
    | yellow => exact ⟨_, _, code "33;1" (by decide +kernel), code "0" (by decide +kernel), rfl⟩

theorem ofInt_ne_nil {n : Int} (positive : 0 < n) : Text.ofInt n ≠ [] := by
  obtain ⟨m, rfl⟩ := Int.eq_ofNat_of_zero_le (Int.le_of_lt positive)
  change (Nat.toDigits 10 m).map Text.byte ≠ []
  rw [Ne, List.map_eq_nil_iff]
  exact Nat.toDigits_ne_nil

/-- What is printed in front of a problem is its place. -/
theorem exists_location (color : Bool) (file : Text) (d : Diagnostic) :
    ∃ on place off, IsCode on ∧ IsPlace file d.line place ∧ IsCode off ∧
      (if (d.location file).isEmpty then [] else styled color .bold (d.location file ++ ": ")) =
        on ++ place ++ off := by
  obtain ⟨on, off, isOn, isOff, same⟩ := exists_styled color .bold (d.location file ++ ": ")
  by_cases known : 0 < d.line
  · have digits := ofInt_ne_nil known
    cases file with
    | nil =>
      exact ⟨on, _, off, isOn, .onLine known, isOff,
        by simpa [location, known, digits] using same⟩
    | cons =>
      exact ⟨on, _, off, isOn, .inFileOnLine nofun known, isOff,
        by simpa [location, known, Int.not_le.mpr known] using same⟩
  · have unknown : d.line ≤ 0 := Int.not_lt.mp known
    cases file with
    | nil =>
      exact ⟨[], _, [], .nothing, .nowhere unknown, .nothing, by simp [location, known, unknown]⟩
    | cons =>
      exact ⟨on, _, off, isOn, .inFile nofun unknown, isOff,
        by simpa [location, known, unknown] using same⟩

/-- Every printed line tells of its problem. -/
theorem tells_printed (color : Bool) (file : Text) (d : Diagnostic) :
    d.Tells file (d.printed color file) := by
  obtain ⟨bold, place, thin, isBold, isPlace, isThin, located⟩ := exists_location color file d
  obtain ⟨colored, plain, isColored, isPlain, labelled⟩ :=
    exists_styled color (if d.isError then .red else .yellow) d.label
  refine ⟨bold, place, thin, colored, plain, isBold, isPlace, isThin, isColored, isPlain, ?_⟩
  have line : d.printed color file =
      (if (d.location file).isEmpty then [] else styled color .bold (d.location file ++ ": ")) ++
        styled color (if d.isError then .red else .yellow) d.label ++ ": " ++ d.message ++ "\n" :=
    rfl
  rw [line, located, labelled]
  simp only [label, List.append_assoc]

end NumScript.Diagnostic
