import NumScript.Yaml.Error

/-! The characters of a YAML text. A text is taken in by portions of 512 bytes, and a portion with a
fault in it cannot be read at all; but the fault shows only when the reading comes to that
portion. The line breaks of ASCII are read as line feeds. -/

namespace NumScript.Yaml

/-- A code point that may stand in a YAML text. -/
def isAllowed (code : Nat) : Bool :=
  code = 9 || code = 10 || code = 13 || (0x20 ≤ code && code ≤ 0x7E) || code = 0x85 ||
    (0xA0 ≤ code && code ≤ 0xD7FF) || (0xE000 ≤ code && code ≤ 0xFFFD) || 0x10000 ≤ code

/-- What is wrong with bytes that spell no code point. -/
def strayProblem (s : Text) : Problem :=
  match s with
  | [] => .incompleteSequence
  | b :: rest =>
    if b < 0xC0 || 0xF8 ≤ b then .leadingOctet
    else
      let tails := rest.take (if b < 0xE0 then 1 else if b < 0xF0 then 2 else 3)
      if (b < 0xE0 && tails.length < 1) || (0xE0 ≤ b && b < 0xF0 && tails.length < 2) ||
          (0xF0 ≤ b && tails.length < 3) then .incompleteSequence
      else if !tails.all Text.isTail then .trailingOctet
      else if b < 0xC2 || (b = 0xE0 && tails.head?.any (· < 0xA0)) ||
          (b = 0xF0 && tails.head?.any (· < 0x90)) then .sequenceLength
      else .invalidCharacter

/-- The number of bytes in a portion. -/
def portionSize : Nat := 512

/-- The first fault of a text: the number of characters before the portion that it is in, and what
is wrong. `index` characters have been passed, `start` of them before the present portion, which
has room for `room` more bytes; the first `skip` bytes belong to the last character. A character
that does not fit into a portion starts the next one. -/
def faultFrom (index start room : Nat) : Nat → Text → Option (Nat × Problem)
  | _, [] => none
  | skip + 1, _ :: rest => faultFrom index start room skip rest
  | 0, b :: rest =>
    match Text.rune? (b :: rest) with
    | none => some (if room = 0 then index else start, strayProblem (b :: rest))
    | some (code, width) =>
      let (start, room) := if room < width then (index, portionSize) else (start, room)
      if isAllowed code then faultFrom (index + 1) start (room - width) (width - 1) rest
      else some (start, .controlCharacter)

/-- The mark that may stand at the very start of a text. -/
def byteOrderMark : Char := Char.ofNat 0xFEFF

/-- Every line break of ASCII as a line feed; those of Unicode stay as they are. -/
def lineFeeds : List Char → List Char
  | [] => []
  | '\r' :: '\n' :: rest => '\n' :: lineFeeds rest
  | c :: rest => (if c = '\r' then '\n' else c) :: lineFeeds rest

/-- The characters that a text spells. -/
def charsOf (s : Text) : List Char :=
  (Text.characters s).map fun
    | .rune code => Char.ofNat code
    | .stray _ => Char.ofNat Text.replacement

/-- The characters of a text up to the portion that cannot be read, if there is one, and why. -/
structure Input where
  chars : List Char
  fault : Option Problem := none
  deriving DecidableEq, Repr

/-- The characters of a text. A byte order mark at its start does not count. -/
def Input.ofText (s : Text) : Input :=
  let marked := s.take 3 = Text.ofRune byteOrderMark.toNat
  let body := if marked then s.drop 3 else s
  let room := if marked then portionSize - 3 else portionSize
  match faultFrom 0 0 room 0 body with
  | none => { chars := lineFeeds (charsOf body) }
  | some (n, problem) => { chars := lineFeeds ((charsOf body).take n), fault := some problem }

end NumScript.Yaml
