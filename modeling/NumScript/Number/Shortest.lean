import NumScript.Number.Rounding

/-! The shortest decimal that reads back as a given binary64 number. A finite positive number is
`significand * 2 ^ exponent`; the decimals that round to it form an interval around it, and the
shortest one is sought on coarser and coarser decimal grids, the nearest of two and, at equal
distance, the even one. -/

namespace NumScript.Number

/-- A decimal number: `digits * 10 ^ exponent`. -/
structure Decimal where
  digits : Nat
  exponent : Int
  deriving DecidableEq, Repr

/-- A positive binary number, `significand * 2 ^ exponent`, with what bounds its interval: whether
its lower neighbour is only half as far away as its upper one. -/
structure Binary where
  significand : Nat
  exponent : Int
  narrowBelow : Bool
  deriving DecidableEq, Repr

/-- The positive finite number with these bits. -/
def Binary.ofBits (bits : Nat) : Binary :=
  let field : Nat := bits / hiddenBit % 2048
  let fraction : Nat := bits % hiddenBit
  if field = 0 then ⟨fraction, -1074, false⟩
  else ⟨hiddenBit + fraction, (field : Int) - 1075, fraction = 0 && 1 < field⟩

/-- The number and the ends of its interval over a common denominator, in quarters of a unit in
the last place. -/
structure Interval where
  low : Nat
  value : Nat
  high : Nat
  /-- What one quarter of a unit is worth: `num / den`. -/
  num : Nat
  den : Nat
  /-- The ends themselves read back as the number. -/
  closed : Bool
  deriving DecidableEq, Repr

def Binary.interval (b : Binary) : Interval :=
  { low := 4 * b.significand - (if b.narrowBelow then 1 else 2)
    value := 4 * b.significand
    high := 4 * b.significand + 2
    num := Nat.pow 2 (b.exponent - 2).toNat
    den := Nat.pow 2 (2 - b.exponent).toNat
    closed := b.significand % 2 = 0 }

/-- `digits * 10 ^ scale`, compared with multiples of a quarter unit of `i`: the left side of the
comparison, whose right side is `weigh`. -/
def Interval.decimal (i : Interval) (scale : Int) (digits : Nat) : Nat :=
  digits * Nat.pow 10 scale.toNat * i.den

/-- A number of quarter units of `i`, brought to the common denominator of `decimal`. -/
def Interval.weigh (i : Interval) (scale : Int) (quarters : Nat) : Nat :=
  quarters * Nat.pow 10 (-scale).toNat * i.num

/-- `digits * 10 ^ scale` reads back as the number. -/
def Interval.holds (i : Interval) (scale : Int) (digits : Nat) : Bool :=
  let x := i.decimal scale digits
  let low := i.weigh scale i.low
  let high := i.weigh scale i.high
  if i.closed then low ≤ x && x ≤ high else low < x && x < high

/-- The decimal on the grid of step `10 ^ scale` that reads back as the number, if there is one:
one of the two grid points around the number, the nearer of the two when both do. -/
def Interval.onGrid? (i : Interval) (scale : Int) : Option Decimal :=
  let below := i.weigh scale i.value / i.decimal scale 1
  let above := below + 1
  match i.holds scale below, i.holds scale above with
  | true, true =>
    let down := i.weigh scale i.value - i.decimal scale below
    let up := i.decimal scale above - i.weigh scale i.value
    if down < up || (down = up && below % 2 = 0) then some ⟨below, scale⟩ else some ⟨above, scale⟩
  | true, false => some ⟨below, scale⟩
  | false, true => some ⟨above, scale⟩
  | false, false => none

/-- The least `k` with `value < 10 ^ k`, found from the binary exponent. -/
def Interval.magnitude (i : Interval) : Int :=
  let binary : Int := (i.value.log2 : Int) + i.num.log2 - i.den.log2
  let guess := Int.fdiv (binary * 30103) 100000 + 1
  if i.weigh guess i.value < i.decimal guess 1 then guess else guess + 1

/-- The first hit on grids with `tried`, `tried + 1`, … digits, at most `fuel` of them. -/
def Interval.search (i : Interval) (magnitude : Int) : Nat → Nat → Decimal
  | 0, tried => ⟨i.weigh (magnitude - tried) i.value / i.decimal (magnitude - tried) 1,
      magnitude - tried⟩
  | fuel + 1, tried =>
    match i.onGrid? (magnitude - tried) with
    | some d => d
    | none => i.search magnitude fuel (tried + 1)

/-- Trailing zero digits move into the exponent, at most `fuel` of them. -/
def Decimal.trim : Nat → Decimal → Decimal
  | 0, d => d
  | fuel + 1, d =>
    if d.digits ≠ 0 && d.digits % 10 = 0 then Decimal.trim fuel ⟨d.digits / 10, d.exponent + 1⟩
    else d

/-- The shortest decimal that reads back as the positive finite number with these bits. Seventeen
digits always do. -/
def shortest (bits : Nat) : Decimal :=
  let i := (Binary.ofBits bits).interval
  (i.search i.magnitude 17 1).trim 17

end NumScript.Number
