import NumScript.Text
import NumScript.Number.Rounding

/-! Reading numbers from text: decimal and hexadecimal numerals with underscores between digits,
and the names of infinity and of not-a-number. -/

namespace NumScript

/-- What the text of a number says, before rounding. -/
inductive Numeral where
  /-- `digits * base ^ exponent`, with the sign of the text. -/
  | finite (negative : Bool) (digits base : Nat) (exponent : Int)
  | infinite (negative : Bool)
  | notANumber
  deriving DecidableEq, Repr

namespace Numeral

/-- The text spells `word` when case is ignored. -/
def spells (word : String) (s : Text) : Bool := s.map Text.lower = Text.ofString word

/-- The sign of a text and what follows it. -/
def sign : Text → Bool × Text
  | b :: rest =>
    if b = Text.byte '-' then (true, rest)
    else if b = Text.byte '+' then (false, rest)
    else (false, b :: rest)
  | [] => (false, [])

/-- The value of a digit in base ten or sixteen. -/
def digit? (hex : Bool) (b : UInt8) : Option Nat :=
  if Text.isDigit b then some (Text.digitValue b)
  else
    let letter := Text.lower b
    if hex && Text.byte 'a' ≤ letter && letter ≤ Text.byte 'f' then some (letter.toNat - 87)
    else none

/-- The digits of a numeral before its exponent. -/
structure Mantissa where
  digits : Nat
  /-- Digits after the point. -/
  places : Nat
  /-- A point has been read. -/
  pointed : Bool
  /-- A digit has been read. -/
  present : Bool
  deriving DecidableEq, Repr

/-- Reads digits, underscores and at most one point; returns what is left. -/
def mantissa (hex : Bool) (m : Mantissa) : Text → Mantissa × Text
  | b :: rest =>
    if b = Text.byte '_' then mantissa hex m rest
    else if b = Text.byte '.' then
      if m.pointed then (m, b :: rest) else mantissa hex { m with pointed := true } rest
    else match digit? hex b with
      | some d =>
        mantissa hex
          { m with
            digits := (if hex then 16 else 10) * m.digits + d
            places := if m.pointed then m.places + 1 else m.places
            present := true } rest
      | none => (m, b :: rest)
  | [] => (m, [])

/-- The value of the digits of an exponent. From 10000 on further digits do not count. -/
def exponentValue (digits : Text) : Nat :=
  digits.foldl (fun n b => if n < 10000 then 10 * n + Text.digitValue b else n) 0

/-- The exponent written after its letter: an optional sign, then digits, the first of which is not
an underscore, to the end of the text. -/
def exponent? (s : Text) : Option Int :=
  let (negative, digits) := sign s
  match digits with
  | first :: _ =>
    if Text.isDigit first && digits.all fun b => Text.isDigit b || b = Text.byte '_' then
      let value := exponentValue (digits.filter Text.isDigit)
      some (if negative then -(value : Int) else value)
    else none
  | [] => none

/-- The class of the last byte seen while checking underscores. -/
inductive Seen where
  | start
  | digit
  | underscore
  | other
  deriving DecidableEq, Repr

/-- Every underscore follows a digit and is followed by one. -/
def separated (hex : Bool) (seen : Seen) : Text → Bool
  | [] => seen ≠ .underscore
  | b :: rest =>
    if (digit? hex b).isSome then separated hex .digit rest
    else if b = Text.byte '_' then seen = .digit && separated hex .underscore rest
    else seen ≠ .underscore && separated hex .other rest

/-- A base mark counts as a digit for the underscore after it. -/
def separators (s : Text) : Bool :=
  match s with
  | zero :: letter :: rest =>
    let mark := Text.lower letter
    if zero = Text.byte '0' &&
      (mark = Text.byte 'x' || mark = Text.byte 'b' || mark = Text.byte 'o')
    then separated (mark = Text.byte 'x') .digit rest
    else separated false .start s
  | _ => separated false .start s

/-- A finite numeral without its sign. A hexadecimal one must have a binary exponent. -/
def unsigned? (negative : Bool) (s : Text) : Option Numeral :=
  let hex := match s with
    | zero :: letter :: _ :: _ => zero = Text.byte '0' && Text.lower letter = Text.byte 'x'
    | _ => false
  let (m, rest) := mantissa hex ⟨0, 0, false, false⟩ (if hex then s.drop 2 else s)
  if !m.present || !separators s then none
  else
    let shift : Int := -(m.places : Int)
    match rest with
    | [] => if hex then none else some (.finite negative m.digits 10 shift)
    | letter :: exponent =>
      if Text.lower letter = Text.byte (if hex then 'p' else 'e') then
        (exponent? exponent).map fun e =>
          if hex then .finite negative m.digits 2 (4 * shift + e)
          else .finite negative m.digits 10 (shift + e)
      else none

/-- The numeral that a whole text spells. -/
def ofText? (s : Text) : Option Numeral :=
  if spells "nan" s then some .notANumber
  else
    let (negative, rest) := sign s
    if spells "inf" rest || spells "infinity" rest then some (.infinite negative)
    else unsigned? negative rest

/-- The bits of the binary64 number nearest to `digits * base ^ exponent`. Exponents far outside
the range of binary64 are settled without computing the power. -/
def magnitudeBits (digits base : Nat) (exponent : Int) : Nat :=
  if digits = 0 then 0
  else if 0 ≤ exponent then
    if 1100 < digits.log2 + exponent * base.log2 then Number.infinityBits
    else Number.ratioBits (digits * Nat.pow base exponent.toNat) 1
  else if (digits.log2 : Int) + 1100 < -exponent * base.log2 then 0
  else Number.ratioBits digits (Nat.pow base (-exponent).toNat)

/-- The nearest binary64 number. -/
def value : Numeral → Float
  | .finite negative digits base exponent =>
    let bits := magnitudeBits digits base exponent
    Float.ofBits (if negative then bits + Number.signBit else bits).toUInt64
  | .infinite negative => if negative then -1.0 / 0.0 else 1.0 / 0.0
  | .notANumber => 0.0 / 0.0

/-- A finite numeral too large for binary64. -/
def overflows : Numeral → Bool
  | .finite _ digits base exponent => magnitudeBits digits base exponent = Number.infinityBits
  | _ => false

end Numeral

/-- The number that a whole text spells; a finite numeral that is too large spells none. -/
def Number.read? (s : Text) : Option Float :=
  match Numeral.ofText? s with
  | some n => if n.overflows then none else some n.value
  | none => none

end NumScript
