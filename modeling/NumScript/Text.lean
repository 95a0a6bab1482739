/-! Text as the interpreter reads and writes it: a sequence of bytes, and the characters that a
sequence of bytes spells in UTF-8. -/

namespace NumScript

/-- Text is a sequence of bytes. It is UTF-8 by habit only: a script may hold any bytes. -/
abbrev Text := List UInt8

namespace Text

/-- The UTF-8 bytes of a string. -/
def ofString (s : String) : Text := s.toByteArray.data.toList

instance : Coe String Text := ⟨ofString⟩

/-- The byte of an ASCII character. -/
abbrev byte (c : Char) : UInt8 := c.toUInt8

/-- A natural number in decimal digits. -/
def ofNat (n : Nat) : Text := (Nat.toDigits 10 n).map byte

/-- An integer in decimal digits, with a minus sign when it is negative. -/
def ofInt : Int → Text
  | .ofNat n => ofNat n
  | .negSucc n => byte '-' :: ofNat (n + 1)

/-- A number in lower-case hexadecimal digits, padded with zeros on the left up to `width`. -/
def ofHex (width n : Nat) : Text :=
  let digits := (Nat.toDigits 16 n).map byte
  List.replicate (width - digits.length) (byte '0') ++ digits

/-- Each piece of text followed by a line feed. -/
def unlines (lines : List Text) : Text := lines.flatMap (· ++ [byte '\n'])

/-- The parts of a text between the bytes that are `mark`. -/
def parts (mark : UInt8) : Text → List Text
  | [] => [[]]
  | b :: rest =>
    match parts mark rest with
    | [] => [[b]]
    | part :: more => if b = mark then [] :: part :: more else (b :: part) :: more

/-- Each piece of text behind a bullet. -/
def bulleted (bullet : Text) (items : List Text) : Text := items.flatMap (bullet ++ ·)

def isDigit (b : UInt8) : Bool := byte '0' ≤ b && b ≤ byte '9'

def isUpper (b : UInt8) : Bool := byte 'A' ≤ b && b ≤ byte 'Z'

def isLower (b : UInt8) : Bool := byte 'a' ≤ b && b ≤ byte 'z'

/-- The lower-case form of an ASCII letter; every other byte is kept. -/
def lower (b : UInt8) : UInt8 := if isUpper b then b + 32 else b

/-- The value of a decimal digit. -/
def digitValue (b : UInt8) : Nat := b.toNat - 48

/-- The value of a run of decimal digits, most significant first. -/
def decimalValue (digits : Text) : Nat :=
  digits.foldl (fun value b => 10 * value + digitValue b) 0

/-! ### Characters -/

/-- A continuation byte of a longer UTF-8 sequence. -/
def isTail (b : UInt8) : Bool := 0x80 ≤ b && b ≤ 0xBF

/-- The code point that the front of the text spells and the number of its bytes. Overlong forms,
surrogates and values past U+10FFFF spell nothing. -/
def rune? : Text → Option (Nat × Nat)
  | a :: rest =>
    if a < 0x80 then some (a.toNat, 1)
    else if 0xC2 ≤ a && a ≤ 0xDF then
      match rest with
      | b :: _ =>
        if isTail b then some (a.toNat % 32 * 64 + b.toNat % 64, 2) else none
      | [] => none
    else if 0xE0 ≤ a && a ≤ 0xEF then
      match rest with
      | b :: c :: _ =>
        let code := a.toNat % 16 * 4096 + b.toNat % 64 * 64 + c.toNat % 64
        if isTail b && isTail c && 0x800 ≤ code && (code < 0xD800 || 0xDFFF < code) then
          some (code, 3)
        else none
      | _ => none
    else if 0xF0 ≤ a && a ≤ 0xF4 then
      match rest with
      | b :: c :: d :: _ =>
        let code := a.toNat % 8 * 262144 + b.toNat % 64 * 4096 + c.toNat % 64 * 64 + d.toNat % 64
        if isTail b && isTail c && isTail d && 0x10000 ≤ code && code ≤ 0x10FFFF then
          some (code, 4)
        else none
      | _ => none
    else none
  | [] => none

/-- The code point that stands in for bytes which spell nothing. -/
def replacement : Nat := 0xFFFD

/-- The code point at the front of the text and the number of bytes it takes. A byte that starts no
code point counts as one replacement character. -/
def frontRune (s : Text) : Nat × Nat := (rune? s).getD (replacement, 1)

/-- The UTF-8 bytes of a code point. -/
def ofRune (code : Nat) : Text :=
  if code < 0x80 then [code.toUInt8]
  else if code < 0x800 then [(0xC0 + code / 64).toUInt8, (0x80 + code % 64).toUInt8]
  else if code < 0x10000 then
    [(0xE0 + code / 4096).toUInt8, (0x80 + code / 64 % 64).toUInt8, (0x80 + code % 64).toUInt8]
  else
    [(0xF0 + code / 262144).toUInt8, (0x80 + code / 4096 % 64).toUInt8,
      (0x80 + code / 64 % 64).toUInt8, (0x80 + code % 64).toUInt8]

/-- One character of a text: a code point, or a byte that spells none. -/
inductive Character where
  | rune (code : Nat)
  | stray (b : UInt8)
  deriving DecidableEq, Repr

/-- The characters after the first `skip` bytes. -/
def charactersFrom : Nat → Text → List Character
  | _, [] => []
  | skip + 1, _ :: rest => charactersFrom skip rest
  | 0, b :: rest =>
    match rune? (b :: rest) with
    | some (code, width) => .rune code :: charactersFrom (width - 1) rest
    | none => .stray b :: charactersFrom 0 rest

/-- The characters of a text, from left to right. -/
def characters (s : Text) : List Character := charactersFrom 0 s

/-- The number of characters of a text. -/
def runeCount (s : Text) : Nat := (characters s).length

/-- The text as a string, when its bytes are UTF-8 throughout. -/
def toString? (s : Text) : Option String := String.fromUTF8? ⟨s.toArray⟩

end Text

end NumScript
