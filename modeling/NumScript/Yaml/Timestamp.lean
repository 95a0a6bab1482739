import NumScript.Text

/-! Points in time: a date, or a date and a time of day. A zone is told exactly when a letter stands
between the date and the time. -/

namespace NumScript.Yaml

namespace Timestamp

/-- Reads a number of one or two digits. -/
def number? (s : Text) : Option (Nat × Text) :=
  match s.takeWhile Text.isDigit with
  | [] => none
  | [a] => some (Text.digitValue a, s.drop 1)
  | a :: b :: _ => some (10 * Text.digitValue a + Text.digitValue b, s.drop 2)

/-- Passes over a byte. -/
def mark? (mark : Char) : Text → Option Text
  | [] => none
  | b :: rest => if b = Text.byte mark then some rest else none

def isLeap (year : Nat) : Bool := year % 4 = 0 && (year % 100 ≠ 0 || year % 400 = 0)

def daysIn (year month : Nat) : Nat :=
  if month = 2 then if isLeap year then 29 else 28
  else if month = 4 || month = 6 || month = 9 || month = 11 then 30
  else 31

/-- Passes over a date: a year of four digits, a month and a day. -/
def date? (s : Text) : Option Text := do
  let year := s.takeWhile Text.isDigit
  if year.length ≠ 4 then none
  else
    let (month, s) ← number? (← mark? '-' (s.drop 4))
    let (day, s) ← number? (← mark? '-' s)
    if 1 ≤ month && month ≤ 12 && 1 ≤ day && day ≤ daysIn (Text.decimalValue year) month then
      some s
    else none

/-- Passes over parts of a second, if there are some. -/
def afterFraction (s : Text) : Text :=
  match s with
  | mark :: digit :: rest =>
    if (mark = Text.byte '.' || mark = Text.byte ',') && Text.isDigit digit then
      rest.dropWhile Text.isDigit
    else s
  | _ => s

/-- Passes over a time of day. -/
def time? (s : Text) : Option Text := do
  let (hour, s) ← number? s
  let (minute, s) ← number? (← mark? ':' s)
  let (second, s) ← number? (← mark? ':' s)
  if hour < 24 && minute < 60 && second < 60 then some (afterFraction s) else none

/-- The text is a zone: a letter for none, or hours and minutes of two digits each. -/
def isZone (s : Text) : Bool :=
  match s with
  | [letter] => letter = Text.byte 'Z'
  | [sign, a, b, colon, c, d] =>
    (sign = Text.byte '+' || sign = Text.byte '-') && colon = Text.byte ':' &&
      [a, b, c, d].all Text.isDigit && Text.decimalValue [a, b] ≤ 24 &&
      Text.decimalValue [c, d] ≤ 60
  | _ => false

/-- What follows a date is nothing or a time of day. -/
def isRest (s : Text) : Bool :=
  match s with
  | [] => true
  | b :: rest =>
    if b = Text.byte 'T' || b = Text.byte 't' then (time? rest).any isZone
    else if b = Text.byte ' ' then (time? (rest.dropWhile (· = Text.byte ' '))).any (·.isEmpty)
    else false

end Timestamp

/-- The text is a point in time. -/
def isTimestamp (s : Text) : Bool := (Timestamp.date? s).any Timestamp.isRest

end NumScript.Yaml
