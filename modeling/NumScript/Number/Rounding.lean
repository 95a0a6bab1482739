/-! Rounding an exact quotient to a binary64 number, half to even. -/

namespace NumScript.Number

/-- The quotient of two natural numbers, a half going to the even neighbour. -/
def roundDiv (num den : Nat) : Nat :=
  let quotient := num / den
  let rest := num % den
  if den < 2 * rest || (2 * rest = den && quotient % 2 = 1) then quotient + 1 else quotient

/-- The leading bit of a significand, which is 2^52 and not stored. -/
def hiddenBit : Nat := 0x10000000000000

/-- The bit that tells a negative number, which is 2^63. -/
def signBit : Nat := 0x8000000000000000

/-- The bits of positive infinity. -/
def infinityBits : Nat := 0x7FF0000000000000

/-- The bits of the binary64 number nearest to the positive quotient `num / den`. The significand
has 53 bits, fewer only next to zero, where the exponent stops at -1074; past the largest finite
number the answer is infinity. -/
def ratioBits (num den : Nat) : Nat :=
  let guess : Int := (num.log2 : Int) - den.log2 - 52
  let exponent :=
    if num * Nat.pow 2 (-guess).toNat < hiddenBit * (den * Nat.pow 2 guess.toNat) then guess - 1
    else guess
  let exponent := max exponent (-1074)
  let significand := roundDiv (num * Nat.pow 2 (-exponent).toNat) (den * Nat.pow 2 exponent.toNat)
  min ((exponent + 1074).toNat * hiddenBit + significand) infinityBits

/-- The binary64 number nearest to `num / den`, negated when `negative`. -/
def ofRatio (negative : Bool) (num den : Nat) : Float :=
  let bits := if num = 0 then 0 else ratioBits num den
  Float.ofBits ((if negative then bits + signBit else bits).toUInt64)

end NumScript.Number
