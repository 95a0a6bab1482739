import NumScript.Text

/-! Texts in JSON. Besides what JSON asks for, the marks of HTML and the separators U+2028 and
U+2029 are escaped, so that the text may stand inside a page or a script. -/

namespace NumScript.Text

/-- An escape by number. -/
def jsonEscape (code : Nat) : Text := "\\u" ++ ofHex 4 code

/-- One code point of a JSON string. -/
def jsonRune (code : Nat) : Text :=
  if code = 0x22 || code = 0x5C then byte '\\' :: ofRune code
  else if code = 8 then "\\b"
  else if code = 9 then "\\t"
  else if code = 10 then "\\n"
  else if code = 12 then "\\f"
  else if code = 13 then "\\r"
  else if code < 0x20 || code = 0x3C || code = 0x3E || code = 0x26 || code = 0x2028 ||
      code = 0x2029 then
    jsonEscape code
  else ofRune code

/-- A text as a JSON string. A byte that spells no character counts as a replacement character. -/
def json (s : Text) : Text :=
  "\"" ++ ((characters s).flatMap fun c => match c with
    | .rune code => jsonRune code
    | .stray _ => jsonEscape replacement) ++ "\""

/-- Texts with commas between them. -/
def commas (items : List Text) : Text := (bulleted "," items).drop 1

/-- A JSON object with its members in order. -/
def jsonObject (members : List (Text × Text)) : Text :=
  "\x7b" ++ commas (members.map fun (name, value) => json name ++ ":" ++ value) ++ "\x7d"

/-- A JSON array. -/
def jsonArray (items : List Text) : Text := "[" ++ commas items ++ "]"

end NumScript.Text
