import NumScript.Yaml.Input

/-! The tokens of a YAML text: the marks that open, divide and close collections, scalars, and what
is said about them by names, tags and directives. -/

namespace NumScript.Yaml

/-! ### Characters -/

/-- The line break of Unicode that means the same as a line feed. -/
def nextLine : Char := Char.ofNat 0x85

/-- A line feed, or one of the line breaks of Unicode. -/
def isBreak (c : Char) : Bool :=
  c = '\n' || c = nextLine || c = Char.ofNat 0x2028 || c = Char.ofNat 0x2029

/-- The line breaks among some characters, as they are read inside a scalar. -/
def breaksIn (chars : List Char) : List Char :=
  (chars.filter isBreak).map fun c => if c = nextLine then '\n' else c

def isBlank (c : Char) : Bool := c = ' ' || c = '\t'

/-- Blanks and line breaks. -/
def isLayout (c : Char) : Bool := isBlank c || isBreak c

/-- The characters start with a blank or a line break, or there are none. -/
def startsBlank : List Char → Bool
  | [] => true
  | c :: _ => isLayout c

/-- The characters start with a line break, or there are none. -/
def startsBreak : List Char → Bool
  | [] => true
  | c :: _ => isBreak c

/-- A character of a name: a letter, a digit, an underscore or a dash. -/
def isNameChar (c : Char) : Bool := c.isAlphanum || c = '_' || c = '-'

/-- The bytes of some characters. -/
def textOf (chars : List Char) : Text := chars.flatMap fun c => Text.ofRune c.toNat

/-! ### Places -/

/-- A place in a text; lines and columns count from 0. -/
structure Mark where
  line : Nat := 0
  column : Nat := 0
  deriving DecidableEq, Repr

/-- The place behind one more character. -/
def Mark.step (m : Mark) (c : Char) : Mark :=
  if isBreak c then ⟨m.line + 1, 0⟩ else ⟨m.line, m.column + 1⟩

/-- The characters still to be read and where they start. -/
structure Cursor where
  rest : List Char
  mark : Mark := {}
  deriving DecidableEq, Repr

namespace Cursor

/-- Passes over `n` characters. -/
def advance (c : Cursor) (n : Nat) : Cursor :=
  ⟨c.rest.drop n, (c.rest.take n).foldl Mark.step c.mark⟩

/-- Passes over the characters that have a property. -/
def skipWhile (c : Cursor) (p : Char → Bool) : Cursor := c.advance (c.rest.takeWhile p).length

def line (c : Cursor) : Nat := c.mark.line

/-- The next character is `d`. -/
def faces (c : Cursor) (d : Char) : Bool := c.rest.head? = some d

end Cursor

/-- What is read, or what is wrong and where. -/
abbrev Reading := Except (Problem × Cursor)

/-! ### Tokens -/

inductive TokenKind where
  | streamStart
  | streamEnd
  /-- The version of the language. -/
  | version (major minor : Nat)
  /-- An abbreviation for the start of tags. -/
  | handle (name expansion : Text)
  | documentStart
  | documentEnd
  | blockSequenceStart
  | blockMappingStart
  | blockEnd
  | flowSequenceStart
  | flowSequenceEnd
  | flowMappingStart
  | flowMappingEnd
  | blockEntry
  | flowEntry
  | key
  | value
  /-- A scalar; `plain` tells that it stands without quotes and on lines of no special form. -/
  | scalar (text : Text) (plain : Bool)
  /-- A name for the value that follows. -/
  | anchor (name : Text)
  /-- The value that has a name. -/
  | reference (name : Text)
  /-- The kind of the value that follows: a handle, which may be empty, and what is put behind
  its expansion. -/
  | tag (handle suffix : Text)
  deriving DecidableEq, Repr

/-- A token and the line it starts on, counted from 0. -/
structure Token where
  kind : TokenKind
  line : Nat
  deriving DecidableEq, Repr

/-- The marker of a new document or of the end of one, at the front of a line. -/
def marker? (s : List Char) : Option TokenKind :=
  match s with
  | '-' :: '-' :: '-' :: rest => if startsBlank rest then some .documentStart else none
  | '.' :: '.' :: '.' :: rest => if startsBlank rest then some .documentEnd else none
  | _ => none

/-- A marker stands at the cursor. -/
def Cursor.atMarker (c : Cursor) : Bool := c.mark.column = 0 && (marker? c.rest).isSome

end NumScript.Yaml
