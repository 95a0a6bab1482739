import NumScript.Text

/-! Bytes written in base 64: three bytes in four letters, where an equals sign fills up the last
four. -/

namespace NumScript.Text.Base64

/-- The letter of a number below 64. -/
def letter (n : Nat) : UInt8 :=
  if n < 26 then (n + 65).toUInt8
  else if n < 52 then (n + 71).toUInt8
  else if n < 62 then (n - 4).toUInt8
  else if n = 62 then byte '+'
  else byte '/'

/-- The number of a letter. -/
def sextet? (b : UInt8) : Option Nat :=
  if isUpper b then some (b.toNat - 65)
  else if isLower b then some (b.toNat - 71)
  else if isDigit b then some (b.toNat + 4)
  else if b = byte '+' then some 62
  else if b = byte '/' then some 63
  else none

/-- The filler of the last four letters. -/
def filler : UInt8 := byte '='

/-- The letters of some bytes. -/
def encode : Text → Text
  | a :: b :: c :: rest =>
    let n := 0x10000 * a.toNat + 0x100 * b.toNat + c.toNat
    letter (n / 0x40000) :: letter (n / 0x1000 % 64) :: letter (n / 64 % 64) :: letter (n % 64) ::
      encode rest
  | [a, b] =>
    let n := 0x400 * a.toNat + 4 * b.toNat
    [letter (n / 0x1000), letter (n / 64 % 64), letter (n % 64), filler]
  | [a] =>
    let n := 16 * a.toNat
    [letter (n / 64), letter (n % 64), filler, filler]
  | [] => []

/-- The bytes that letters stand for. Only the last four letters may be filled up. -/
def decodeLetters? : Text → Option Text
  | [] => some []
  | a :: b :: c :: d :: rest => do
    let x ← sextet? a
    let y ← sextet? b
    let first := (4 * x + y / 16).toUInt8
    if d = filler && !rest.isEmpty then none
    else if c = filler && d = filler then return [first]
    else
      let z ← sextet? c
      let second := (y % 16 * 16 + z / 4).toUInt8
      if d = filler then return [first, second]
      else
        let w ← sextet? d
        let more ← decodeLetters? rest
        return first :: second :: (z % 4 * 64 + w).toUInt8 :: more
  | _ => none

/-- The bytes that a text stands for; line breaks in it do not count. -/
def decode? (s : Text) : Option Text := decodeLetters? (s.filter fun b => b ≠ 10 && b ≠ 13)

end NumScript.Text.Base64
