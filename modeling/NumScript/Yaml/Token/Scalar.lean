import NumScript.Yaml.Token

/-! Plain and quoted scalars. A scalar may go on over several lines; a single line feed inside it
reads as a space, and of several the first is dropped. -/

namespace NumScript.Yaml

/-- What line breaks inside a scalar read as. -/
def foldedBreaks (breaks : List Char) : List Char :=
  match breaks with
  | [] => []
  | ['\n'] => [' ']
  | first :: more => if first = '\n' then more else first :: more

/-- What a run of blanks and line breaks inside a scalar reads as. Blanks count only when there is
no line break. -/
def folded (run : List Char) : List Char :=
  match breaksIn run with
  | [] => run
  | breaks => foldedBreaks breaks

/-! ### Plain scalars -/

/-- The character ends a plain scalar: a colon before a blank, or a mark of the flow collection
around it. -/
def endsPlain (flow : Bool) (c : Char) (rest : List Char) : Bool :=
  (c = ':' && startsBlank rest) ||
    (flow && (c = ',' || c = '?' || c = '[' || c = ']' || c = '\x7b' || c = '\x7d'))

/-- The characters of a plain scalar up to the next blank. -/
def plainWord (flow : Bool) : List Char → List Char
  | [] => []
  | c :: rest =>
    if isLayout c || endsPlain flow c rest then [] else c :: plainWord flow rest

/-- Passes over the blanks and line breaks behind a word. A tab before column `indent` of a further
line is refused; `fresh` tells that a line has been started. -/
def skipRun (indent : Nat) (fresh : Bool) (mark : Mark) : List Char → Except Cursor Cursor
  | [] => .ok ⟨[], mark⟩
  | c :: rest =>
    if isBreak c then skipRun indent true (mark.step c) rest
    else if c = '\t' && fresh && mark.column < indent then .error ⟨c :: rest, mark⟩
    else if isBlank c then skipRun indent fresh (mark.step c) rest
    else .ok ⟨c :: rest, mark⟩

/-- A plain scalar that has been read. -/
structure Plain where
  chars : List Char
  /-- The blanks behind the scalar, which are read along, hold a line break. -/
  broken : Bool := false
  deriving DecidableEq, Repr

/-- A plain scalar goes on behind a run of blanks that ends at `after`. -/
def continues (flow : Bool) (indent : Nat) (broken : Bool) (after : Cursor) : Bool :=
  (flow || !broken || indent ≤ after.mark.column) && !after.faces '#' && !after.atMarker &&
    plainWord flow after.rest ≠ []

/-- Reads a plain scalar of at most `fuel` words. -/
def plainFrom (flow : Bool) (indent : Nat) : Nat → Cursor → Reading (Plain × Cursor)
  | 0, c => .ok ({ chars := [] }, c)
  | fuel + 1, c => do
    let word := plainWord flow c.rest
    let c := c.advance word.length
    match skipRun indent false c.mark c.rest with
    | .error stray => .error (.tabIndentation, stray)
    | .ok after =>
      let run := c.rest.takeWhile isLayout
      let broken := run.any isBreak
      if run ≠ [] && continues flow indent broken after then
        let (more, c) ← plainFrom flow indent fuel after
        return ({ more with chars := word ++ folded run ++ more.chars }, c)
      else return ({ chars := word, broken := broken }, after)

/-- Reads a plain scalar. Its further lines are indented to column `indent` or deeper. -/
def plain (flow : Bool) (indent : Nat) (c : Cursor) : Reading (Plain × Cursor) :=
  plainFrom flow indent c.rest.length c

/-! ### Quoted scalars -/

/-- Characters in front of what is read. -/
def before (chars : List Char) (r : Reading (List Char × Cursor)) :
    Reading (List Char × Cursor) :=
  r.map fun (more, c) => (chars ++ more, c)

/-- Goes on behind a run of blanks inside quotes. -/
def afterRun (c : Cursor) (readAs : List Char → List Char)
    (next : Cursor → Reading (List Char × Cursor)) : Reading (List Char × Cursor) :=
  let after := c.skipWhile isLayout
  if after.atMarker then .error (.markerInQuotes, after)
  else before (readAs (c.rest.takeWhile isLayout)) (next after)

/-- The inside of single quotes, where a quote is written twice. -/
def singleFrom : Nat → Cursor → Reading (List Char × Cursor)
  | 0, c => .error (.endInQuotes, c)
  | fuel + 1, c =>
    match c.rest with
    | [] => .error (.endInQuotes, c)
    | d :: rest =>
      if isLayout d then afterRun c folded (singleFrom fuel)
      else if d = '\x27' then
        if rest.head? = some '\x27' then before ['\x27'] (singleFrom fuel (c.advance 2))
        else .ok ([], c.advance 1)
      else before [d] (singleFrom fuel (c.advance 1))

/-- The code point of an escape that is a single letter. -/
def letterEscape? : Char → Option Nat
  | '0' => some 0
  | 'a' => some 7
  | 'b' => some 8
  | 't' => some 9
  | '\t' => some 9
  | 'n' => some 10
  | 'v' => some 11
  | 'f' => some 12
  | 'r' => some 13
  | 'e' => some 27
  | ' ' => some 0x20
  | '\x22' => some 0x22
  | '\x27' => some 0x27
  | '\\' => some 0x5C
  | 'N' => some 0x85
  | '_' => some 0xA0
  | 'L' => some 0x2028
  | 'P' => some 0x2029
  | _ => none

/-- The number of hexadecimal digits of an escape by number. -/
def escapeWidth? : Char → Option Nat
  | 'x' => some 2
  | 'u' => some 4
  | 'U' => some 8
  | _ => none

/-- The value of a hexadecimal digit. -/
def hexDigit? (c : Char) : Option Nat :=
  if '0' ≤ c && c ≤ '9' then some (c.toNat - 48)
  else if 'a' ≤ c && c ≤ 'f' then some (c.toNat - 87)
  else if 'A' ≤ c && c ≤ 'F' then some (c.toNat - 55)
  else none

/-- The value of hexadecimal digits. -/
def hexNumber? (digits : List Char) : Option Nat :=
  digits.foldl (fun value c => value.bind fun v => (hexDigit? c).map (16 * v + ·)) (some 0)

/-- The code point of an escape by number. -/
def numberEscape (width : Nat) (s : List Char) : Except Problem Nat :=
  if s.length < width then .error .hexExpected
  else match hexNumber? (s.take width) with
    | none => .error .hexExpected
    | some code =>
      if (0xD800 ≤ code && code ≤ 0xDFFF) || 0x10FFFF < code then .error .invalidCode
      else .ok code

/-- The inside of double quotes, where a backslash starts an escape. A line break behind a
backslash reads as nothing. -/
def doubleFrom : Nat → Cursor → Reading (List Char × Cursor)
  | 0, c => .error (.endInQuotes, c)
  | fuel + 1, c =>
    match c.rest with
    | [] => .error (.endInQuotes, c)
    | '\x22' :: _ => .ok ([], c.advance 1)
    | '\\' :: [] => .error (.unknownEscape, c)
    | '\\' :: letter :: more =>
      if isBreak letter then
        afterRun (c.advance 1) (fun run => (breaksIn run).drop 1) (doubleFrom fuel)
      else match letterEscape? letter, escapeWidth? letter with
        | some code, _ => before [Char.ofNat code] (doubleFrom fuel (c.advance 2))
        | none, some width =>
          match numberEscape width more with
          | .ok code => before [Char.ofNat code] (doubleFrom fuel (c.advance (width + 2)))
          | .error problem => .error (problem, c.advance 2)
        | none, none => .error (.unknownEscape, c)
    | d :: _ =>
      if isLayout d then afterRun c folded (doubleFrom fuel)
      else before [d] (doubleFrom fuel (c.advance 1))

/-- Reads on behind an opening quote. -/
def quoted (quote : Char) (c : Cursor) : Reading (List Char × Cursor) :=
  if quote = '\x27' then singleFrom (c.rest.length + 1) c else doubleFrom (c.rest.length + 1) c

end NumScript.Yaml
