import NumScript.Yaml.Token.Block
import NumScript.Yaml.Token.Tag

/-! Cutting a YAML text into tokens. The columns of the open block collections tell where a
collection starts and ends. That a node was a key shows only when its colon comes; then the mark of
a key is put in front of it. Tokens therefore wait in a queue: a token is handed out when two more
have been cut, and not as long as it may turn out to start a key. -/

namespace NumScript.Yaml

/-- A place where a key may have started. -/
structure Candidate where
  /-- The number of the token there. -/
  number : Nat := 0
  mark : Mark := {}
  /-- Nothing but a key may stand there. -/
  required : Bool := false
  /-- It may still turn out to be a key. -/
  possible : Bool := false
  deriving DecidableEq, Repr

/-- A key stands on one line with its colon, which is at most 1024 characters away. -/
def Candidate.isLate (k : Candidate) (m : Mark) : Bool :=
  k.mark.line < m.line || k.mark.column + 1024 < m.column

/-- The state between two tokens. -/
structure Scanner extends Cursor where
  /-- Why the text cannot be read on behind `rest`. -/
  fault : Option Problem := none
  /-- The columns of the open block collections, the innermost first. -/
  indents : List Nat := []
  /-- The last candidate outside flow collections. -/
  candidate : Candidate := {}
  /-- The last candidate in each open flow collection, that of the innermost first. -/
  flowCandidates : List Candidate := []
  /-- The numbers of tokens that wait for a candidate, each with the number of flow collections
  around it. -/
  waiting : List (Nat × Nat) := []
  /-- A key may start at the next token. -/
  keyAllowed : Bool := true
  /-- The tokens that have not been handed out. -/
  queue : List Token := [⟨.streamStart, 0⟩]
  /-- The number of tokens that have been handed out. -/
  handed : Nat := 0
  deriving DecidableEq, Repr

namespace Scanner

/-- The state in front of a text. A second byte order mark takes up a column. -/
def ofInput (input : Input) : Scanner :=
  let start : Cursor := ⟨input.chars, {}⟩
  { toCursor := if start.faces byteOrderMark then start.advance 1 else start
    fault := input.fault }

/-- Inside a flow collection. -/
def flow (s : Scanner) : Bool := !s.flowCandidates.isEmpty

def goTo (s : Scanner) (c : Cursor) : Scanner := { s with toCursor := c }

/-- An error in a token that starts on line `start`. Where the text cannot be read on, that is
told instead. -/
def error (s : Scanner) (problem : Problem) (start : Nat) (place : Cursor) : Error :=
  match s.fault with
  | some fault => if place.rest.isEmpty then ⟨fault, 0⟩ else .within problem start place.line
  | none => .within problem start place.line

/-- An error at the place of the scanner. -/
def errorHere (s : Scanner) (problem : Problem) : Error := s.error problem s.line s.toCursor

/-- There are `n` characters that can be read, or the text ends before. -/
def require (s : Scanner) (n : Nat) : Except Error Unit :=
  match s.fault with
  | some fault => if s.rest.length < n then .error ⟨fault, 0⟩ else .ok ()
  | none => .ok ()

/-- What a token reads as, and the scanner behind it. -/
def read {α : Type} (s : Scanner) (start : Nat) (r : Reading (α × Cursor)) :
    Except Error (α × Scanner) :=
  match r with
  | .ok (a, c) => .ok (a, s.goTo c)
  | .error (problem, c) => .error (s.error problem start c)

/-! ### The queue -/

/-- The number of the next token. -/
def nextNumber (s : Scanner) : Nat := s.handed + s.queue.length

def push (s : Scanner) (kind : TokenKind) (line : Nat) : Scanner :=
  { s with queue := s.queue ++ [⟨kind, line⟩] }

/-- Puts a token in front of the one with a number; at the end, when that one is gone already. -/
def insert (s : Scanner) (number : Nat) (kind : TokenKind) (line : Nat) : Scanner :=
  if number < s.handed then s.push kind line
  else
    let place := number - s.handed
    { s with queue := s.queue.take place ++ ⟨kind, line⟩ :: s.queue.drop place }

/-! ### Candidates -/

/-- The last candidate in the innermost collection. -/
def innermost (s : Scanner) : Candidate := s.flowCandidates.headD s.candidate

def setInnermost (s : Scanner) (k : Candidate) : Scanner :=
  match s.flowCandidates with
  | [] => { s with candidate := k }
  | _ :: outer => { s with flowCandidates := k :: outer }

/-- The last candidate inside `depth` flow collections. -/
def candidateAt (s : Scanner) (depth : Nat) : Candidate :=
  if depth = 0 then s.candidate
  else (s.flowCandidates.drop (s.flowCandidates.length - depth)).headD s.candidate

def setCandidateAt (s : Scanner) (depth : Nat) (k : Candidate) : Scanner :=
  if depth = 0 then { s with candidate := k }
  else { s with flowCandidates := s.flowCandidates.set (s.flowCandidates.length - depth) k }

/-- The token with a number waits no longer. -/
def release (s : Scanner) (number : Nat) : Scanner :=
  { s with waiting := s.waiting.filter (·.1 ≠ number) }

/-- Gives up the last candidate in the innermost collection, unless a key is required there. -/
def dropCandidate (s : Scanner) : Except Error Scanner :=
  let k := s.innermost
  if k.possible && k.required then .error (s.error .colonExpected k.mark.line s.toCursor)
  else if k.possible then .ok ((s.setInnermost { k with possible := false }).release k.number)
  else .ok s

/-- Makes the next token a candidate where a key is allowed. A key is required in the column of the
innermost block collection. -/
def markCandidate (s : Scanner) : Except Error Scanner := do
  if s.keyAllowed then
    let s ← s.dropCandidate
    let k : Candidate :=
      { number := s.nextNumber
        mark := s.mark
        required := !s.flow && s.indents.head? = some s.mark.column
        possible := true }
    let s := (s.setInnermost k).release k.number
    return { s with waiting := (k.number, s.flowCandidates.length) :: s.waiting }
  else return s

/-- The front of the queue has to wait for a further token. -/
def mustWait (s : Scanner) : Except Error (Bool × Scanner) :=
  if s.queue.length < 3 then .ok (true, s)
  else match s.waiting.lookup s.handed with
    | none => .ok (false, s)
    | some depth =>
      let k := s.candidateAt depth
      if !k.possible then .ok (false, s)
      else if !k.isLate s.mark then .ok (true, s)
      else if k.required then .error (s.error .colonExpected k.mark.line s.toCursor)
      else .ok (false, s.setCandidateAt depth { k with possible := false })

/-! ### Layout -/

/-- Where in the layout between two tokens a character stands. -/
inductive Layout where
  | blank
  | comment
  /-- Between two comments. -/
  | between
  deriving DecidableEq, Repr

/-- Only blanks and line feeds stand before a further comment. -/
def commentFollows (s : List Char) : Bool :=
  let gap := s.takeWhile fun c => isBlank c || c = '\n'
  gap.length < 511 && (s.drop gap.length).head? = some '#'

/-- Passes over blanks, line breaks and comments; tells whether a key is allowed behind them.
Outside flow collections a key is allowed on every new line, and where a key is allowed a tab is no
blank, unless it stands between two comments. -/
def layout (flow : Bool) : Layout → Bool → Mark → List Char → Bool × Cursor
  | _, keyAllowed, m, [] => (keyAllowed, ⟨[], m⟩)
  | .between, keyAllowed, m, c :: rest =>
    layout flow (if c = '#' then .comment else .between) keyAllowed (m.step c) rest
  | .comment, keyAllowed, m, c :: rest =>
    if c = '\n' && commentFollows rest then layout flow .between keyAllowed (m.step c) rest
    else if isBreak c then layout flow .blank (keyAllowed || !flow) (m.step c) rest
    else layout flow .comment keyAllowed (m.step c) rest
  | .blank, keyAllowed, m, c :: rest =>
    if isBreak c then layout flow .blank (keyAllowed || !flow) (m.step c) rest
    else if c = ' ' || (c = '\t' && (flow || !keyAllowed)) then
      layout flow .blank keyAllowed (m.step c) rest
    else if c = '#' then layout flow .comment keyAllowed (m.step c) rest
    else (keyAllowed, ⟨c :: rest, m⟩)

def skipLayout (s : Scanner) : Scanner :=
  let (keyAllowed, c) := layout s.flow .blank s.keyAllowed s.mark s.rest
  { s.goTo c with keyAllowed := keyAllowed }

/-- Passes over a comment on the line of the last token. -/
def skipComment (s : Scanner) : Scanner :=
  let gap := (s.rest.takeWhile isBlank).length
  let c := s.advance gap
  if gap < 512 && c.faces '#' then s.goTo (c.skipWhile (!isBreak ·)) else s

/-! ### Collections -/

/-- Block collections and flow collections are nested no deeper than this. -/
def depthLimit : Nat := 10000

/-- Closes the block collections that are indented deeper than `column`; none closes inside a flow
collection. Without a column all are closed. -/
def close (s : Scanner) (column : Option Nat) (line : Nat) : Scanner :=
  if s.flow then s
  else
    let deeper (indent : Nat) : Bool := column.all (· < indent)
    { s with
      indents := s.indents.dropWhile deeper
      queue := s.queue ++ (s.indents.takeWhile deeper).map fun _ => ⟨.blockEnd, line⟩ }

/-- Opens a block collection at a mark that is indented deeper than those that are open, in front of
the token with a number. -/
def openAt (s : Scanner) (kind : TokenKind) (m : Mark) (number : Nat) : Except Error Scanner :=
  if s.flow || s.indents.head?.any (m.column ≤ ·) then .ok s
  else if depthLimit ≤ s.indents.length then
    .error (s.error .tooDeep s.innermost.mark.line s.toCursor)
  else .ok ({ s with indents := m.column :: s.indents }.insert number kind m.line)

/-- A token of one character; `keyAllowed` tells whether a key may follow it. -/
def punctuation (s : Scanner) (kind : TokenKind) (keyAllowed : Bool) : Scanner :=
  { (s.push kind s.line).goTo (s.advance 1) with keyAllowed := keyAllowed }

def flowStart (s : Scanner) (kind : TokenKind) : Except Error Scanner := do
  let s ← s.markCandidate
  if depthLimit ≤ s.flowCandidates.length then .error (s.errorHere .tooDeep)
  else
    let inner : Candidate := { number := s.nextNumber, mark := s.mark }
    return { s with flowCandidates := inner :: s.flowCandidates }.punctuation kind true

/-- Leaves the innermost flow collection. When no candidate was marked in it, the token that opened
it waits no longer. -/
def leaveFlow (s : Scanner) : Scanner :=
  match s.flowCandidates with
  | [] => s
  | k :: outer => { s with flowCandidates := outer }.release k.number

def flowEnd (s : Scanner) (kind : TokenKind) : Except Error Scanner := do
  let s ← s.dropCandidate
  return s.leaveFlow.punctuation kind false

def flowEntry (s : Scanner) : Except Error Scanner := do
  let s ← s.dropCandidate
  return s.punctuation .flowEntry true

/-- A dash before an item of a block sequence. -/
def blockEntry (s : Scanner) : Except Error Scanner := do
  if !s.flow && !s.keyAllowed then .error (s.errorHere .entryNotAllowed)
  else
    let s ← s.openAt .blockSequenceStart s.mark s.nextNumber
    let s ← s.dropCandidate
    return s.punctuation .blockEntry true

/-- A question mark before a key. -/
def key (s : Scanner) : Except Error Scanner := do
  if !s.flow && !s.keyAllowed then .error (s.errorHere .keyNotAllowed)
  else
    let s ← s.openAt .blockMappingStart s.mark s.nextNumber
    let s ← s.dropCandidate
    return s.punctuation .key (!s.flow)

/-- A colon before a value. The last candidate turns out to be a key when the colon comes in
time. -/
def value (s : Scanner) : Except Error Scanner := do
  let k := s.innermost
  if k.possible && !k.isLate s.mark then
    let s ← (s.insert k.number .key k.mark.line).openAt .blockMappingStart k.mark k.number
    let s := (s.setInnermost { k with possible := false }).release k.number
    return s.punctuation .value false
  else if k.possible && k.required then .error (s.error .colonExpected k.mark.line s.toCursor)
  else
    let s := s.setInnermost { k with possible := false }
    if !s.flow && !s.keyAllowed then .error (s.errorHere .valueNotAllowed)
    else
      let s ← s.openAt .blockMappingStart s.mark s.nextNumber
      return s.punctuation .value (!s.flow)

/-! ### Scalars and what is said about them -/

/-- A token that may start a key, and none may start behind it. -/
def keyPart (s : Scanner) (read : Cursor → Reading (TokenKind × Cursor)) :
    Except Error Scanner := do
  let s ← s.markCandidate
  let (kind, after) ← s.read s.line (read s.toCursor)
  return { after.push kind s.line with keyAllowed := false }

/-- What may follow a name for a value. -/
def endsName : List Char → Bool
  | [] => true
  | c :: _ => isLayout c || "?:,]\x7d%@\x60".toList.contains c

/-- Reads a name that a value has or gets, behind its mark. -/
def readAnchor (kind : Text → TokenKind) (c : Cursor) : Reading (TokenKind × Cursor) :=
  let (name, c) := readName (c.advance 1)
  if name.isEmpty || !endsName c.rest then .error (.nameExpected, c) else .ok (kind name, c)

/-- Reads a scalar in quotes. -/
def readQuoted (quote : Char) (c : Cursor) : Reading (TokenKind × Cursor) :=
  (quoted quote (c.advance 1)).map fun (chars, c) => (.scalar (textOf chars) false, c)

/-- A plain scalar. Behind one that ends with a line break a key may start. -/
def plainScalar (s : Scanner) : Except Error Scanner := do
  let s ← s.markCandidate
  let indent := match s.indents with
    | [] => 0
    | column :: _ => column + 1
  let (p, after) ← s.read s.line (plain s.flow indent s.toCursor)
  let after := { after.push (.scalar (textOf p.chars) true) s.line with keyAllowed := p.broken }
  return if p.broken then after else after.skipComment

/-- A block scalar. It is never a key, and behind it a key may start. -/
def blockScalar (s : Scanner) (literal : Bool) : Except Error Scanner := do
  let s ← s.dropCandidate
  let (chars, after) ← s.read s.line (readBlock literal s.indents.head? (s.advance 1))
  return { after.push (.scalar (textOf chars) false) s.line with keyAllowed := true }

/-- The characters that start no plain scalar. -/
def isIndicator (c : Char) : Bool := "-?:,[]\x7b\x7d#&*!|>\x27\x22%@\x60".toList.contains c

/-- A plain scalar may start here: with no indicator, or with a dash, question mark or colon that a
further character follows. -/
def startsPlain (flow : Bool) (c : Char) (rest : List Char) : Bool :=
  !(isLayout c || isIndicator c) || (c = '-' && !rest.head?.any isBlank) ||
    (!flow && (c = '?' || c = ':') && !startsBlank rest)

/-! ### Steps -/

/-- The end of the text. It counts as the start of a line. -/
def finish (s : Scanner) : Except Error Scanner := do
  let s := if s.mark.column ≠ 0 then { s with mark := ⟨s.line + 1, 0⟩ } else s
  let s ← (s.close none s.line).dropCandidate
  return { s.push .streamEnd s.line with keyAllowed := false }

/-- A marker between documents. -/
def document (s : Scanner) (kind : TokenKind) : Except Error Scanner := do
  let s ← (s.close none s.line).dropCandidate
  return { (s.push kind s.line).goTo (s.advance 3) with keyAllowed := false }

/-- A directive. -/
def directive (s : Scanner) : Except Error Scanner := do
  let s ← (s.close none s.line).dropCandidate
  let (kind, after) ← s.read s.line (readDirective (s.advance 1))
  return { after.push kind s.line with keyAllowed := false }

/-- A token that starts with the character `c`. -/
def tokenHere (s : Scanner) (c : Char) (rest : List Char) : Except Error Scanner :=
  if c = '[' then return (← s.flowStart .flowSequenceStart).skipComment
  else if c = '\x7b' then return (← s.flowStart .flowMappingStart).skipComment
  else if c = ']' then return (← s.flowEnd .flowSequenceEnd).skipComment
  else if c = '\x7d' then return (← s.flowEnd .flowMappingEnd).skipComment
  else if c = ',' then return (← s.flowEntry).skipComment
  else if c = '-' && startsBlank rest then s.blockEntry
  else if c = '?' && (s.flow || startsBlank rest) then return (← s.key).skipComment
  else if c = ':' && (s.flow || startsBlank rest) then return (← s.value).skipComment
  else if c = '*' then return (← s.keyPart (readAnchor .reference)).skipComment
  else if c = '&' then return (← s.keyPart (readAnchor .anchor)).skipComment
  else if c = '!' then return (← s.keyPart readTag).skipComment
  else if c = '|' && !s.flow then s.blockScalar true
  else if c = '>' && !s.flow then s.blockScalar false
  else if c = '\x27' || c = '\x22' then return (← s.keyPart (readQuoted c)).skipComment
  else if startsPlain s.flow c rest then s.plainScalar
  else .error (s.errorHere .strayCharacter)

/-- Cuts the next token: layout is passed over, block collections close, and a token is read. -/
def cut (s : Scanner) : Except Error Scanner := do
  let line := s.line
  let s := s.skipLayout
  let s := s.close (some s.mark.column) line
  s.require 4
  match s.rest with
  | [] => s.finish
  | c :: rest =>
    let s ← match if s.mark.column = 0 then marker? s.rest else none with
      | some kind => s.document kind
      | none => if s.mark.column = 0 && c = '%' then s.directive else s.tokenHere c rest
    s.require 1
    return s

/-- The tokens that are handed out in at most `fuel` steps, and the error that ended the cutting
early, if one did. -/
def run : Nat → Scanner → List Token × Option Error
  | 0, _ => ([], none)
  | fuel + 1, s =>
    match s.mustWait with
    | .error e => ([], some e)
    | .ok (true, s) =>
      match s.cut with
      | .error e => ([], some e)
      | .ok s => run fuel s
    | .ok (false, s) =>
      match s.queue with
      | [] => ([], none)
      | t :: queue =>
        if t.kind = .streamEnd then ([t], none)
        else
          let (tokens, error) := run fuel { s with queue := queue, handed := s.handed + 1 }
          (t :: tokens, error)

end Scanner

/-- The tokens of a text up to its end or up to the error that ended the cutting early. Every
character starts at most one token, and every token opens and closes at most one collection. -/
def tokenize (s : Text) : List Token × Option Error :=
  let input := Input.ofText s
  Scanner.run (8 * input.chars.length + 32) (Scanner.ofInput input)

end NumScript.Yaml
