import NumScript.Yaml.Token.Scalar

/-! Tags, which tell the kind of a value, and directives, which stand before a document. -/

namespace NumScript.Yaml

/-- Reads the characters of a name. -/
def readName (c : Cursor) : Text × Cursor :=
  (textOf (c.rest.takeWhile isNameChar), c.skipWhile isNameChar)

/-! ### Tags -/

/-- A character that may stand in a tag besides those of names. -/
def isTagMark (c : Char) : Bool := ";/?:@&=+$,.!~*\x27()[]%".toList.contains c

/-- The number of bytes of the code point that a byte starts. -/
def octetWidth? (b : Nat) : Option Nat :=
  if b < 0x80 then some 1
  else if b < 0xC0 then none
  else if b < 0xE0 then some 2
  else if b < 0xF0 then some 3
  else if b < 0xF8 then some 4
  else none

/-- The byte behind a percent sign, which two hexadecimal digits spell. -/
def escapedOctet? : List Char → Option Nat
  | '%' :: high :: low :: _ => hexNumber? [high, low]
  | _ => none

/-- Reads `n` further bytes of a code point, each behind a percent sign. -/
def readOctets : Nat → Cursor → Reading (Text × Cursor)
  | 0, c => .ok ([], c)
  | n + 1, c =>
    match escapedOctet? c.rest with
    | none => .error (.octetExpected, c)
    | some b =>
      if 0x80 ≤ b && b < 0xC0 then do
        let (more, c) ← readOctets n (c.advance 3)
        return (b.toUInt8 :: more, c)
      else .error (.escapedTrailingOctet, c)

/-- Reads a code point whose bytes stand behind percent signs. -/
def readEscaped (c : Cursor) : Reading (Text × Cursor) :=
  match escapedOctet? c.rest with
  | none => .error (.octetExpected, c)
  | some b =>
    match octetWidth? b with
    | none => .error (.escapedLeadingOctet, c)
    | some width => do
      let (more, c) ← readOctets (width - 1) (c.advance 3)
      return (b.toUInt8 :: more, c)

/-- Reads at most `fuel` parts of a tag. -/
def readUriFrom : Nat → Cursor → Reading (Text × Cursor)
  | 0, c => .ok ([], c)
  | fuel + 1, c =>
    match c.rest with
    | [] => .ok ([], c)
    | d :: _ =>
      if d = '%' then do
        let (bytes, c) ← readEscaped c
        let (more, c) ← readUriFrom fuel c
        return (bytes ++ more, c)
      else if isNameChar d || isTagMark d then do
        let (more, c) ← readUriFrom fuel (c.advance 1)
        return (textOf [d] ++ more, c)
      else .ok ([], c)

/-- Reads a tag or the start of one, which must not be empty. -/
def readUri (c : Cursor) : Reading (Text × Cursor) := do
  let (uri, after) ← readUriFrom (c.rest.length + 1) c
  if uri.isEmpty then .error (.uriExpected, after) else return (uri, after)

/-- Reads a handle: a name between two exclamation marks, or only what starts like one. -/
def readHandle (c : Cursor) : Reading (Text × Cursor) :=
  if c.faces '!' then
    let (name, c) := readName (c.advance 1)
    let opening := Text.byte '!' :: name
    if c.faces '!' then .ok (opening ++ [Text.byte '!'], c.advance 1) else .ok (opening, c)
  else .error (.handleExpected, c)

/-- The text is a whole handle. -/
def isHandle (s : Text) : Bool := 1 < s.length && s.getLast? = some (Text.byte '!')

/-- Reads a tag: one in angle brackets, a handle and what follows it, or a local tag behind a
single exclamation mark. -/
def readTag (c : Cursor) : Reading (TokenKind × Cursor) := do
  let (kind, c) ←
    if (c.advance 1).faces '<' then do
      let (uri, c) ← readUri (c.advance 2)
      if c.faces '>' then pure (TokenKind.tag [] uri, c.advance 1)
      else .error (.angleExpected, c)
    else do
      let (handle, c) ← readHandle c
      if isHandle handle then
        let (uri, c) ← readUri c
        pure (TokenKind.tag handle uri, c)
      else
        let (uri, c) ← readUriFrom (c.rest.length + 1) c
        let suffix := handle.drop 1 ++ uri
        pure (if suffix.isEmpty then TokenKind.tag [] handle else .tag [Text.byte '!'] suffix, c)
  if startsBlank c.rest then return (kind, c) else .error (.blankOrBreakExpected, c)

/-! ### Directives -/

/-- Reads a number of a version, which has at most two digits. -/
def readVersionNumber (c : Cursor) : Reading (Nat × Cursor) :=
  let digits := c.rest.takeWhile Char.isDigit
  if digits.isEmpty then .error (.versionExpected, c)
  else if 2 < digits.length then .error (.versionTooLong, c.advance 2)
  else .ok (Text.decimalValue (textOf digits), c.advance digits.length)

/-- Reads a version: two numbers with a point between them. -/
def readVersion (c : Cursor) : Reading (TokenKind × Cursor) := do
  let (major, c) ← readVersionNumber (c.skipWhile isBlank)
  if c.faces '.' then
    let (minor, c) ← readVersionNumber (c.advance 1)
    return (.version major minor, c)
  else .error (.versionDotExpected, c)

/-- Reads a handle and what it stands for. -/
def readExpansion (c : Cursor) : Reading (TokenKind × Cursor) := do
  let (handle, c) ← readHandle (c.skipWhile isBlank)
  if !isHandle handle && handle ≠ [Text.byte '!'] then .error (.handleExpected, c)
  else if !c.rest.head?.any isBlank then .error (.blankExpected, c)
  else
    let (uri, c) ← readUri (c.skipWhile isBlank)
    if startsBlank c.rest then return (.handle handle uri, c)
    else .error (.blankOrBreakExpected, c)

/-- Reads a directive behind its percent sign, up to the next line. -/
def readDirective (c : Cursor) : Reading (TokenKind × Cursor) := do
  let (name, c) := readName c
  if name.isEmpty then .error (.directiveNameExpected, c)
  else if !startsBlank c.rest then .error (.directiveNameEnd, c)
  else
    let (kind, c) ←
      if name = Text.ofString "YAML" then readVersion c
      else if name = Text.ofString "TAG" then readExpansion c
      else .error (.unknownDirective, c)
    let c := c.skipWhile isBlank
    let c := if c.faces '#' then c.skipWhile (!isBreak ·) else c
    if startsBreak c.rest then return (kind, c.advance 1) else .error (.lineEndExpected, c)

end NumScript.Yaml
