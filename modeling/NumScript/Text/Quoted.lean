import NumScript.Text
import NumScript.Text.Printable

/-! Quoted text, as messages show it: printable characters as they are, everything else by an
escape, so that the quoted form is always readable UTF-8. -/

namespace NumScript.Text

/-- The letter of a control character that has a short escape. -/
def shortEscape? : Nat → Option Char
  | 7 => some 'a'
  | 8 => some 'b'
  | 9 => some 't'
  | 10 => some 'n'
  | 11 => some 'v'
  | 12 => some 'f'
  | 13 => some 'r'
  | _ => none

/-- One code point between quotation marks `mark`: the mark itself and the backslash get a
backslash, printable characters stay, and the rest is escaped by name or by number. -/
def escapeRune (mark code : Nat) : Text :=
  if code = mark || code = 0x5C then byte '\\' :: ofRune code
  else if isPrintable code then ofRune code
  else match shortEscape? code with
    | some letter => [byte '\\', byte letter]
    | none =>
      if code < 0x80 then "\\x" ++ ofHex 2 code
      else if code < 0x10000 then "\\u" ++ ofHex 4 code
      else "\\U" ++ ofHex 8 code

/-- One character between quotation marks; a byte that spells no character is given by number. -/
def escapeCharacter (mark : Nat) : Character → Text
  | .rune code => escapeRune mark code
  | .stray b => "\\x" ++ ofHex 2 b.toNat

/-- A text in double quotes. -/
def quoted (s : Text) : Text :=
  "\"" ++ (characters s).flatMap (escapeCharacter 0x22) ++ "\""

/-- A code point in single quotes. -/
def quotedRune (code : Nat) : Text := "'" ++ escapeRune 0x27 code ++ "'"

end NumScript.Text
