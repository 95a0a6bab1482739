import NumScript.Proofs.Token.Pieces
import NumScript.Yaml.Printer
import NumScript.Yaml.Token

/-! YAML texts in ASCII. When a text is made of printable bytes and line feeds, every byte spells a
character, and the text is read without a fault. -/

namespace NumScript

/-- A printable byte of ASCII. -/
def Text.isPrintableByte (b : UInt8) : Bool := 0x20 ≤ b && b ≤ 0x7E

namespace Yaml

/-! ### Bytes as characters -/

/-- The character of an ASCII byte. -/
def charOf (b : UInt8) : Char := Char.ofNat b.toNat

/-- The characters of a text in ASCII. -/
def spell (s : Text) : List Char := s.map charOf

@[simp]
theorem spell_append (s t : Text) : spell (s ++ t) = spell s ++ spell t := List.map_append

@[simp]
theorem spell_cons (b : UInt8) (s : Text) : spell (b :: s) = charOf b :: spell s := rfl

@[simp]
theorem spell_nil : spell [] = [] := rfl

@[simp]
theorem length_spell (s : Text) : (spell s).length = s.length := List.length_map _

theorem toNat_charOf (b : UInt8) : (charOf b).toNat = b.toNat := by
  have valid : b.toNat.isValidChar := .inl (Nat.lt_of_lt_of_le b.toNat_lt (by decide))
  rw [charOf, Char.ofNat, dif_pos valid]
  rfl

theorem charOf_eq_iff {b : UInt8} {c : Char} (ascii : c.toNat < 256) :
    charOf b = c ↔ b = Text.byte c := by
  rw [← Char.toNat_inj, toNat_charOf, ← UInt8.toNat_inj]
  have same : (Text.byte c).toNat = c.toNat := by
    rw [Text.byte, Char.toUInt8, UInt32.toNat_toUInt8]
    exact Nat.mod_eq_of_lt ascii
  rw [same]

theorem lt_of_isPrintableByte {b : UInt8} (printable : Text.isPrintableByte b = true) :
    b < 0x80 := by
  simp only [Text.isPrintableByte, Bool.and_eq_true, decide_eq_true_eq] at printable
  exact UInt8.lt_of_le_of_lt printable.2 (by decide)

/-- What holds of each printable byte, one after the other, holds of all of them. -/
theorem forall_printable {p : UInt8 → Prop} (each : ∀ n < 127, 32 ≤ n → p (UInt8.ofNat n))
    {b : UInt8} (printable : Text.isPrintableByte b = true) : p b := by
  simp only [Text.isPrintableByte, Bool.and_eq_true, decide_eq_true_eq] at printable
  have low : 32 ≤ b.toNat := UInt8.le_iff_toNat_le.mp printable.1
  have high : b.toNat ≤ 126 := UInt8.le_iff_toNat_le.mp printable.2
  simpa using each b.toNat (by omega) low

theorem isBreak_charOf {b : UInt8} (printable : Text.isPrintableByte b = true) :
    isBreak (charOf b) = false :=
  forall_printable (p := fun b => isBreak (charOf b) = false) (by decide +kernel) printable

theorem isLayout_charOf {b : UInt8} (printable : Text.isPrintableByte b = true) :
    isLayout (charOf b) = decide (b = Text.byte ' ') :=
  forall_printable (p := fun b => isLayout (charOf b) = decide (b = Text.byte ' '))
    (by decide +kernel) printable

theorem isAllowed_of_isPrintableByte {b : UInt8} (printable : Text.isPrintableByte b = true) :
    isAllowed b.toNat = true :=
  forall_printable (p := fun b => isAllowed b.toNat = true) (by decide +kernel) printable

theorem isWritable_of_isPrintableByte {b : UInt8} (printable : Text.isPrintableByte b = true) :
    isWritable b.toNat = true :=
  forall_printable (p := fun b => isWritable b.toNat = true) (by decide +kernel) printable

theorem ofRune_toNat {b : UInt8} (ascii : b < 0x80) : Text.ofRune b.toNat = [b] := by
  have low : b.toNat < 0x80 := UInt8.lt_iff_toNat_lt.mp ascii
  simp [Text.ofRune, low]

theorem textOf_spell {s : Text} (ascii : ∀ b ∈ s, b < 0x80) : textOf (spell s) = s := by
  induction s with
  | nil => rfl
  | cons b rest ih =>
    obtain ⟨first, below⟩ := List.forall_mem_cons.mp ascii
    rw [spell_cons, textOf, List.flatMap_cons, toNat_charOf, ofRune_toNat first, ← textOf, ih below]
    rfl

theorem characters_of_ascii {s : Text} (ascii : ∀ b ∈ s, b < 0x80) :
    Text.characters s = s.map fun b => .rune b.toNat := by
  unfold Text.characters
  induction s with
  | nil => rfl
  | cons b rest ih =>
    obtain ⟨first, below⟩ := List.forall_mem_cons.mp ascii
    rw [Text.charactersFrom, Text.rune?_of_ascii first]
    exact congrArg (_ :: ·) (ih below)

/-! ### Reading -/

/-- A text whose bytes are all printable or line feeds. -/
def Lined (s : Text) : Prop := ∀ b ∈ s, b = 10 ∨ Text.isPrintableByte b = true

theorem Lined.ascii {s : Text} (lined : Lined s) : ∀ b ∈ s, b < 0x80 := fun b member => by
  obtain rfl | printable := lined b member
  · decide
  · exact lt_of_isPrintableByte printable

theorem Lined.faultFrom {s : Text} (lined : Lined s) (index start room : Nat) :
    faultFrom index start room 0 s = none := by
  induction s generalizing index start room with
  | nil => rfl
  | cons b rest ih =>
    obtain ⟨first, below⟩ := List.forall_mem_cons.mp lined
    have ascii : b < 0x80 := lined.ascii b List.mem_cons_self
    have allowed : isAllowed b.toNat = true := by
      obtain rfl | printable := first
      · decide
      · exact isAllowed_of_isPrintableByte printable
    rw [Yaml.faultFrom, Text.rune?_of_ascii ascii]
    simp only [allowed, if_true]
    exact ih below _ _ _

theorem lineFeeds_of_forall_ne {chars : List Char} (free : ∀ c ∈ chars, c ≠ '\r') :
    lineFeeds chars = chars := by
  induction chars with
  | nil => rfl
  | cons c rest ih =>
    obtain ⟨first, below⟩ := List.forall_mem_cons.mp free
    rw [lineFeeds.eq_3 c rest fun _ same _ => first same, if_neg first, ih below]

theorem Lined.lineFeeds {s : Text} (lined : Lined s) : lineFeeds (spell s) = spell s := by
  refine lineFeeds_of_forall_ne fun c member => ?_
  obtain ⟨b, inside, rfl⟩ := List.mem_map.mp member
  rw [Ne, charOf_eq_iff (by decide)]
  rintro rfl
  have impossible := lined _ inside
  revert impossible
  decide

/-- Every byte of a text of printable bytes and line feeds is read as its character. -/
theorem Lined.ofText {s : Text} (lined : Lined s) : Input.ofText s = { chars := spell s } := by
  have unmarked : s.take 3 ≠ Text.ofRune byteOrderMark.toNat := fun marked => by
    have inside : (0xEF : UInt8) ∈ s.take 3 := by rw [marked]; decide
    exact absurd (lined.ascii _ (List.mem_of_mem_take inside)) (by decide)
  have chars : charsOf s = spell s := by
    rw [charsOf, characters_of_ascii lined.ascii, List.map_map]
    rfl
  simp only [Input.ofText, unmarked, if_false, lined.faultFrom 0 0 portionSize, chars,
    lined.lineFeeds]

end Yaml

end NumScript
