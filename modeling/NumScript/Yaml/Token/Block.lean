import NumScript.Yaml.Token

/-! Block scalars: the lines that are indented below a mark. The mark tells whether line breaks are
kept or read as spaces, what becomes of the breaks at the end, and perhaps the indent. -/

namespace NumScript.Yaml

/-- What becomes of the line breaks at the end of a block scalar. -/
inductive Ending where
  /-- None is kept. -/
  | strip
  /-- One is kept. -/
  | clip
  /-- All are kept. -/
  | keep
  deriving DecidableEq, Repr

/-- What stands behind the mark of a block scalar. -/
structure BlockHeader where
  ending : Ending := .clip
  /-- How much deeper the lines are indented than the collection around them, if it is told. -/
  increment : Option Nat := none
  deriving DecidableEq, Repr

/-- Reads the digit that tells the indent, if there is one. -/
def readIncrement (c : Cursor) : Reading (Option Nat × Cursor) :=
  match c.rest with
  | d :: _ =>
    if d = '0' then .error (.zeroIndentation, c)
    else if d.isDigit then .ok (some (d.toNat - 48), c.advance 1)
    else .ok (none, c)
  | [] => .ok (none, c)

/-- Reads the sign that tells the ending, if there is one. -/
def readEnding (c : Cursor) : Option Ending × Cursor :=
  match c.rest with
  | '+' :: _ => (some .keep, c.advance 1)
  | '-' :: _ => (some .strip, c.advance 1)
  | _ => (none, c)

/-- Reads what stands behind the mark: a sign and a digit, in either order. -/
def readBlockHeader (c : Cursor) : Reading (BlockHeader × Cursor) :=
  match readEnding c with
  | (some ending, c) => do
    let (increment, c) ← readIncrement c
    return (⟨ending, increment⟩, c)
  | (none, c) => do
    let (increment, c) ← readIncrement c
    if increment.isSome then
      let (ending, c) := readEnding c
      return (⟨ending.getD .clip, increment⟩, c)
    else return ({}, c)

/-- Passes over blanks, a comment and the line break. -/
def skipToNextLine (c : Cursor) : Reading Cursor :=
  let c := c.skipWhile isBlank
  let c := if c.faces '#' then c.skipWhile (!isBreak ·) else c
  if startsBreak c.rest then .ok (c.advance 1) else .error (.lineEndExpected, c)

/-- The line breaks of empty lines and the place of the next text. `indent` is the column up to
which spaces are passed over, if it is known; the answer tells the deepest column reached. -/
structure Gap where
  breaks : List Char := []
  deepest : Nat := 0
  deriving DecidableEq, Repr

/-- Passes over at most `fuel` empty lines. -/
def readGap (indent : Option Nat) : Nat → Gap → Cursor → Reading (Gap × Cursor)
  | 0, gap, c => .ok (gap, c)
  | fuel + 1, gap, c =>
    let spaces := (c.rest.takeWhile (· = ' ')).length
    let c := c.advance (match indent with
      | some n => min spaces (n - c.mark.column)
      | none => spaces)
    let gap := { gap with deepest := max gap.deepest c.mark.column }
    match c.rest with
    | [] => .ok (gap, c)
    | d :: _ =>
      if d = '\t' && indent.all (c.mark.column < ·) then .error (.tabInBlock, c)
      else if isBreak d then
        readGap indent fuel { gap with breaks := gap.breaks ++ breaksIn [d] } (c.advance 1)
      else .ok (gap, c)

/-- The state between two lines of a block scalar. -/
structure BlockLines where
  /-- The last line starts with a blank. -/
  blank : Bool := false
  /-- The break that ended the last line. -/
  last : List Char := []
  /-- The breaks of the empty lines since. -/
  empty : List Char := []
  deriving DecidableEq, Repr

/-- What stands between the last line and a further one: in a folded scalar a single line feed
reads as a space and the first of several is dropped, unless one of the lines starts with a
blank. -/
def BlockLines.joint (b : BlockLines) (literal blank : Bool) : List Char :=
  if !literal && !b.blank && !blank && b.last.head? = some '\n' then
    if b.empty.isEmpty then [' '] else b.empty
  else b.last ++ b.empty

/-- What stands behind the last line. -/
def BlockLines.tail (b : BlockLines) : Ending → List Char
  | .strip => []
  | .clip => b.last
  | .keep => b.last ++ b.empty

/-- Reads at most `fuel` lines that are indented to column `indent`. -/
def readLines (literal : Bool) (ending : Ending) (indent : Nat) :
    Nat → BlockLines → Cursor → Reading (List Char × Cursor)
  | 0, b, c => .ok (b.tail ending, c)
  | fuel + 1, b, c =>
    if c.mark.column = indent && !c.rest.isEmpty then do
      let blank := c.rest.head?.any isBlank
      let line := c.rest.takeWhile (!isBreak ·)
      let c := c.advance line.length
      let last := breaksIn (c.rest.take 1)
      let (gap, c) ← readGap (some indent) (c.rest.length + 1) {} (c.advance 1)
      let (more, c) ← readLines literal ending indent fuel ⟨blank, last, gap.breaks⟩ c
      return (b.joint literal blank ++ line ++ more, c)
    else .ok (b.tail ending, c)

/-- Reads a block scalar behind its mark. `around` is the column of the collection around it, if
there is one. The indent that is not told is that of the first line with text, or of the longest
empty line before it, but deeper than the collection. -/
def readBlock (literal : Bool) (around : Option Nat) (c : Cursor) :
    Reading (List Char × Cursor) := do
  let (header, c) ← readBlockHeader c
  let c ← skipToNextLine c
  let indent := header.increment.map (around.getD 0 + ·)
  let (gap, c) ← readGap indent (c.rest.length + 1) {} c
  let least := match around with
    | some column => column + 1
    | none => 1
  readLines literal header.ending (indent.getD (max gap.deepest least)) (c.rest.length + 1)
    { empty := gap.breaks } c

end NumScript.Yaml
