import NumScript.Text
import NumScript.Number.Shortest

/-! The text of a number: the fewest digits that read back, positional from 0.0001 up to below a
million and with an exponent of at least two digits elsewhere. -/

namespace NumScript.Number

/-- The exponents of the leading digit that are written positionally. -/
def positional (exponent : Int) : Bool := -4 ≤ exponent && exponent < 6

/-- A decimal in positional notation. -/
def Decimal.plain (d : Decimal) : Text :=
  let digits := Text.ofNat d.digits
  if 0 ≤ d.exponent then digits ++ List.replicate d.exponent.toNat (Text.byte '0')
  else
    let places := (-d.exponent).toNat
    if places < digits.length then
      digits.take (digits.length - places) ++ "." ++ digits.drop (digits.length - places)
    else "0." ++ List.replicate (places - digits.length) (Text.byte '0') ++ digits

/-- A decimal as one leading digit, a fraction and an exponent. -/
def Decimal.scientific (d : Decimal) : Text :=
  let digits := Text.ofNat d.digits
  let exponent := d.exponent + digits.length - 1
  let magnitude := Text.ofNat exponent.natAbs
  let padded := if magnitude.length < 2 then "0" ++ magnitude else magnitude
  let fraction : Text := if digits.length ≤ 1 then [] else "." ++ digits.drop 1
  digits.take 1 ++ fraction ++ (if exponent < 0 then "e-" else "e+") ++ padded

def Decimal.text (d : Decimal) : Text :=
  if positional (d.exponent + (Text.ofNat d.digits).length - 1) then d.plain else d.scientific

/-- The text of a number, in the fewest digits that read back. -/
def text (v : Float) : Text :=
  let bits := v.toBits.toNat
  let negative := signBit ≤ bits
  let magnitude := bits % signBit
  let sign : Text := if negative then "-" else []
  if magnitude = 0 then sign ++ "0"
  else if magnitude < 0x7FF0000000000000 then sign ++ (shortest magnitude).text
  else if magnitude = 0x7FF0000000000000 then (if negative then "-Inf" else "+Inf")
  else "NaN"

end NumScript.Number
