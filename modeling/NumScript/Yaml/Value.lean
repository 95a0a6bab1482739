import NumScript.Number.Numeral
import NumScript.Text.Base64
import NumScript.Yaml.Error
import NumScript.Yaml.Timestamp

/-! What a scalar means: nothing, a truth value, an integer, a number, a point in time, or else a
text. -/

namespace NumScript.Yaml

/-- The meaning of a scalar. -/
inductive Value where
  | null
  | bool (b : Bool)
  | int (n : Int)
  | float (v : Float)
  | timestamp
  | text (s : Text)
  deriving DecidableEq

namespace Value

/-- The name of the kind of value. -/
def tag : Value → String
  | null => "!!null"
  | bool _ => "!!bool"
  | int _ => "!!int"
  | float _ => "!!float"
  | timestamp => "!!timestamp"
  | text _ => "!!str"

/-- The text is one of some words. -/
def isOneOf (words : List String) (s : Text) : Bool := words.any fun word => Text.ofString word = s

/-- The meaning of the words that stand for a value. -/
def ofWord? (s : Text) : Option Value :=
  if isOneOf ["", "~", "null", "Null", "NULL"] s then some null
  else if isOneOf ["true", "True", "TRUE"] s then some (bool true)
  else if isOneOf ["false", "False", "FALSE"] s then some (bool false)
  else if isOneOf [".nan", ".NaN", ".NAN"] s then some (float (0.0 / 0.0))
  else if isOneOf [".inf", ".Inf", ".INF", "+.inf", "+.Inf", "+.INF"] s then
    some (float (1.0 / 0.0))
  else if isOneOf ["-.inf", "-.Inf", "-.INF"] s then some (float (-1.0 / 0.0))
  else none

/-- The value of digits in a base. -/
def digits? (base : Nat) (s : Text) : Option Nat :=
  s.foldl
    (fun value b => value.bind fun v =>
      (Numeral.digit? true b).bind fun d => if d < base then some (base * v + d) else none)
    (some 0)

/-- The value of an integer without sign: the base is 16, 8 or 2 behind `0x`, `0o` and `0b`, 8
behind a zero, and 10 otherwise. -/
def magnitude? (s : Text) : Option Nat :=
  match s with
  | [] => none
  | 48 :: letter :: first :: rest =>
    let mark := Text.lower letter
    if mark = Text.byte 'x' then digits? 16 (first :: rest)
    else if mark = Text.byte 'o' then digits? 8 (first :: rest)
    else if mark = Text.byte 'b' then digits? 2 (first :: rest)
    else digits? 8 (letter :: first :: rest)
  | 48 :: rest => digits? 8 rest
  | _ => digits? 10 s

/-- The integer with a sign, if one of 64 bits can hold it. -/
def signed? (negative : Bool) (n : Nat) : Option Int :=
  if negative then (if n ≤ 0x8000000000000000 then some (-(n : Int)) else none)
  else if n < 0x8000000000000000 then some n
  else none

/-- The integer that a text spells: one of 64 bits with sign, or without a sign one of 64 bits
without sign. -/
def int? (s : Text) : Option Int :=
  let (negative, rest) := Numeral.sign s
  match magnitude? rest with
  | none => none
  | some n =>
    if rest = s && n < 0x10000000000000000 then some n else signed? negative n

/-- An integer in base 2 or 8 that has its sign behind the mark of the base. -/
def innerSigned? (s : Text) : Option Int :=
  match s with
  | zero :: mark :: rest =>
    let (negative, digits) := Numeral.sign rest
    let base := if mark = Text.byte 'b' then 2 else 8
    if zero = Text.byte '0' && (mark = Text.byte 'b' || mark = Text.byte 'o') &&
        !digits.isEmpty then
      (digits? base digits).bind (signed? negative)
    else none
  | _ => none

/-- A byte of a decimal number. -/
def isDecimal (b : UInt8) : Bool :=
  Text.isDigit b || (Text.ofString "+-.eE").contains b

/-- The number that a text spells in decimal digits. -/
def decimal? (s : Text) : Option Float := if s.all isDecimal then Number.read? s else none

/-- The number that a text spells. Underscores in it do not count. -/
def number? (s : Text) : Option Value :=
  let digits := s.filter (· ≠ Text.byte '_')
  match int? digits, decimal? digits, innerSigned? digits with
  | some n, _, _ => some (int n)
  | none, some v, _ => some (float v)
  | none, none, some n => some (int n)
  | none, none, none => none

/-- The meaning of a scalar whose kind is not told; `timed` tells whether it may be a point in
time. -/
def resolve (timed : Bool) (s : Text) : Value :=
  match ofWord? s with
  | some v => v
  | none =>
    match s with
    | [] => text s
    | first :: _ =>
      if first = Text.byte '.' then ((Number.read? s).map float).getD (text s)
      else if Text.isDigit first || first = Text.byte '+' || first = Text.byte '-' then
        if timed && isTimestamp s then timestamp else (number? s).getD (text s)
      else text s

/-- The meaning of a plain scalar. -/
def ofPlain (s : Text) : Value := resolve true s

/-- The kinds of values that a text is checked against. -/
def checkedTags : List String := ["!!null", "!!bool", "!!int", "!!float", "!!timestamp"]

/-- The meaning of a scalar that is told to be of a kind. An integer of 64 bits with sign is a
number, too. A scalar of a kind that is not known is a text. -/
def ofTagged (tag s : Text) : Except Problem Value :=
  if tag = Text.ofString "!!binary" then
    match Text.Base64.decode? s with
    | some bytes => .ok (text bytes)
    | none => .error .invalidBase64
  else if isOneOf checkedTags tag then
    let value := resolve (tag = Text.ofString "!!timestamp") s
    let wrong := .error (.undecodable value.tag s tag)
    if Text.ofString value.tag = tag then .ok value
    else match value with
      | int n =>
        if tag = Text.ofString "!!float" && n < 0x8000000000000000 then
          .ok (float (Numeral.value (.finite (n < 0) n.natAbs 10 0)))
        else wrong
      | _ => wrong
  else .ok (text s)

/-- The meaning of a scalar. In quotes it is its text, unless a kind is told. -/
def ofScalar (tag : Option Text) (s : Text) (plain : Bool) : Except Problem Value :=
  match tag with
  | some tag => ofTagged tag s
  | none => .ok (if plain then ofPlain s else text s)

end Value

end NumScript.Yaml
