import NumScript.Text

/-! The natural order of names, in which `x2` stands before `x10`. Names are in ASCII: letters,
digits and underscores. -/

namespace NumScript.Text

def isLetter (b : UInt8) : Bool := isUpper b || isLower b

/-- The number that digits spell behind a leading `start`, in 64 bits. -/
def numberFrom (start : Int64) (digits : Text) : Int64 :=
  digits.foldl (fun n b => 10 * n + (digitValue b : Int).toInt64) start

/-- Two texts that go on differently behind a common part, which is given in reverse. Letters are
compared as such and stand behind other bytes, or before them when a digit precedes. Otherwise the
numbers that start here are compared, then their lengths. -/
def naturalFork (before : Text) (a b : Text) (x y : UInt8) : Bool :=
  if isLetter x && isLetter y then x < y
  else if isLetter x || isLetter y then
    if before.head?.any isDigit then isLetter x else isLetter y
  else
    let zero := x = byte '0' || y = byte '0'
    let lead : Int64 :=
      if zero && (before.takeWhile isDigit).any (· ≠ byte '0') then 1 else 0
    let left := a.takeWhile isDigit
    let right := b.takeWhile isDigit
    let n := numberFrom lead left
    let m := numberFrom lead right
    if n ≠ m then n < m
    else if left.length ≠ right.length then left.length < right.length
    else x < y

/-- The first text stands before the second behind a common part, which is given in reverse. -/
def naturalFrom (before : Text) : Text → Text → Bool
  | _, [] => false
  | [], _ :: _ => true
  | x :: a, y :: b =>
    if x = y then naturalFrom (x :: before) a b else naturalFork before (x :: a) (y :: b) x y

/-- The first text stands before the second. -/
def naturalLess (a b : Text) : Bool := naturalFrom [] a b

end NumScript.Text
