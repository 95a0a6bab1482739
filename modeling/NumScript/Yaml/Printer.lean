import NumScript.Yaml.Value

/-! Writing scalars. A text is written plainly when it reads back as the same text, and in quotes
otherwise. Bytes that spell no text are written in base 64. -/

namespace NumScript.Yaml

def isBreakByte (b : UInt8) : Bool := b = 10 || b = 13

def isBlankByte (b : UInt8) : Bool := b = Text.byte ' ' || b = 9

/-- A mark that cannot be the first byte of a plain text. -/
def isLeadingMark (b : UInt8) : Bool := (Text.ofString "#,[]\x7b\x7d&*!|>'\"%@\x60").contains b

/-- The next byte is a blank, or there is none. -/
def beforeBlank : Text → Bool
  | [] => true
  | b :: _ => isBlankByte b

/-- The first byte of a text stands for something else than text. -/
def leadingMark : Text → Bool
  | [] => false
  | b :: rest =>
    isLeadingMark b || ((b = Text.byte '?' || b = Text.byte ':' || b = Text.byte '-') &&
      beforeBlank rest)

/-- A later byte ends a plain text: a colon before a blank, or a hash after one. -/
def innerMark (afterBlank : Bool) : Text → Bool
  | [] => false
  | b :: rest =>
    (b = Text.byte ':' && beforeBlank rest) || (b = Text.byte '#' && afterBlank) ||
      innerMark (isBlankByte b || isBreakByte b) rest

/-- A code point that may be written as it is. -/
def isWritable (code : Nat) : Bool :=
  code = 10 || (0x20 ≤ code && code ≤ 0x7E) ||
    (0xA0 ≤ code && code ≤ 0xFFFD && code ≠ 0xFEFF && code ≠ 0x2028 && code ≠ 0x2029)

/-- Every character of a text may be written as it is. -/
def allWritable (s : Text) : Bool :=
  (Text.characters s).all fun c => match c with
    | .rune code => isWritable code
    | .stray _ => false

/-- A line ends in a space. -/
def spaceBeforeBreak : Text → Bool
  | [] => false
  | [b] => b = Text.byte ' '
  | a :: b :: rest => (a = Text.byte ' ' && isBreakByte b) || spaceBeforeBreak (b :: rest)

/-- The text can stand without quotes. -/
def plainAllowed (s : Text) : Bool :=
  !leadingMark s && !innerMark false (s.drop 1) && allWritable s &&
    s.head? ≠ some (Text.byte ' ') && s.getLast? ≠ some (Text.byte ' ') && !s.any isBreakByte &&
    s.take 3 ≠ Text.ofString "---" && s.take 3 ≠ Text.ofString "..."

/-- The words that once stood for truth values. -/
def isOldBool (s : Text) : Bool :=
  Value.isOneOf ["y", "Y", "yes", "Yes", "YES", "on", "On", "ON", "n", "N", "no", "No", "NO", "off",
    "Off", "OFF"] s

/-- A part of a number in base sixty: one or two digits, the first of two below six. -/
def isSixtieth : Text → Bool
  | [a] => Text.isDigit a
  | [a, b] => Text.isDigit a && a < Text.byte '6' && Text.isDigit b
  | _ => false

/-- Digits and underscores. -/
def isSpacedDigits (s : Text) : Bool := s.all fun b => Text.isDigit b || b = Text.byte '_'

/-- The text was once a number in base sixty: digits, then parts of base sixty behind colons, then
perhaps a fraction. -/
def isBaseSixty (s : Text) : Bool :=
  let unsigned := (Numeral.sign s).2
  let whole := unsigned.takeWhile (· ≠ Text.byte '.')
  let fraction := (unsigned.dropWhile (· ≠ Text.byte '.')).drop 1
  match Text.parts (Text.byte ':') whole with
  | first :: second :: more =>
    first.head?.any Text.isDigit && isSpacedDigits first && (second :: more).all isSixtieth &&
      isSpacedDigits fraction
  | _ => false

/-- The text would be read as something else if it stood without quotes. -/
def isAmbiguous (s : Text) : Bool := Value.ofPlain s ≠ .text s || isOldBool s || isBaseSixty s

/-- A text in single quotes, where a quote is written twice. -/
def singleQuoted (s : Text) : Text :=
  "'" ++ (s.flatMap fun b => if b = 0x27 then [b, b] else [b]) ++ "'"

/-- The letter of an escape that is a single letter. -/
def escapeLetter? : Nat → Option Char
  | 0 => some '0'
  | 7 => some 'a'
  | 8 => some 'b'
  | 9 => some 't'
  | 10 => some 'n'
  | 11 => some 'v'
  | 12 => some 'f'
  | 13 => some 'r'
  | 27 => some 'e'
  | 0x85 => some 'N'
  | 0x2028 => some 'L'
  | 0x2029 => some 'P'
  | _ => none

/-- A number in upper-case hexadecimal digits. -/
def upperHex (width n : Nat) : Text :=
  (Text.ofHex width n).map fun b => if Text.isLower b then b - 32 else b

/-- One code point in double quotes. -/
def escaped (code : Nat) : Text :=
  if code = 0x22 || code = 0x5C then Text.byte '\\' :: Text.ofRune code
  else if isWritable code && code ≠ 10 then Text.ofRune code
  else match escapeLetter? code with
    | some letter => [Text.byte '\\', Text.byte letter]
    | none =>
      if code ≤ 0xFF then "\\x" ++ upperHex 2 code
      else if code ≤ 0xFFFF then "\\u" ++ upperHex 4 code
      else "\\U" ++ upperHex 8 code

/-- A text in double quotes. -/
def doubleQuoted (s : Text) : Text :=
  "\"" ++ ((Text.characters s).flatMap fun c => match c with
    | .rune code => escaped code
    | .stray b => [b]) ++ "\""

/-- The text can stand as indented lines. -/
def literalAllowed (s : Text) : Bool := allWritable (s.filter (· ≠ 9)) && !spaceBeforeBreak s

/-- The lines of a text, each indented, under a mark that tells how the text starts and ends. -/
def literal (indent : Nat) (s : Text) : Text :=
  let lines := Text.parts 10 s
  let margin := List.replicate indent (Text.byte ' ')
  let front : Text := if s.head? = some (Text.byte ' ') || s.head? = some 10 then "4" else []
  let ending : Text :=
    if lines.getLast? ≠ some [] then "-" else if lines.dropLast.getLast? = some [] then "+" else []
  let body := if lines.getLast? = some [] then lines.dropLast else lines
  "|" ++ front ++ ending ++
    Text.bulleted "\n" (body.map fun line => if line.isEmpty then [] else margin ++ line)

/-- The pieces of a text that have `width` bytes each, but for the last one. -/
def pieces (width : Nat) : Nat → Text → List Text
  | 0, _ => []
  | fuel + 1, s => if s.isEmpty then [] else s.take width :: pieces width fuel (s.drop width)

/-- Bytes in base 64, on lines of 70 letters when there are more. -/
def binaryText (indent : Nat) (s : Text) : Text :=
  let letters := Text.Base64.encode s
  "!!binary " ++ (if letters.length < 70 then letters
    else literal indent (Text.unlines (pieces 70 letters.length letters)))

/-- The bytes spell characters. -/
def isCharacters (s : Text) : Bool :=
  (Text.characters s).all fun c => match c with
    | .rune _ => true
    | .stray _ => false

/-- A text as a scalar; further lines of it are indented by `indent`. -/
def scalarText (indent : Nat) (s : Text) : Text :=
  if !isCharacters s then binaryText indent s
  else if s.contains 10 then if literalAllowed s then literal indent s else doubleQuoted s
  else if isAmbiguous s then doubleQuoted s
  else if plainAllowed s then s
  else if allWritable s then singleQuoted s
  else doubleQuoted s

def boolText (b : Bool) : Text := if b then "true" else "false"

end NumScript.Yaml
