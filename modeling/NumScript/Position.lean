import NumScript.Text

/-! Places in a script. Lines and columns count from 1 and offsets from 0; columns and offsets count
bytes. -/

namespace NumScript

/-- A place in a script. Line 0 stands for no place at all. -/
structure Position where
  /-- The name of the script, empty when it has none. -/
  file : Text := []
  line : Int := 0
  column : Int := 0
  offset : Int := 0
  deriving DecidableEq, Repr, Inhabited

/-- `file:line:column`, or `line:column` when there is no file name. -/
def Position.text (p : Position) : Text :=
  let place := Text.ofInt p.line ++ ":" ++ Text.ofInt p.column
  if p.file.isEmpty then place else p.file ++ ":" ++ place

/-- A range of a script, from `start` up to but not including `stop`. -/
structure Span where
  start : Position
  stop : Position
  deriving DecidableEq, Repr

/-- A span on one line shows only the columns it runs between. -/
def Span.text (s : Span) : Text :=
  if s.start.line = s.stop.line then s.start.text ++ "-" ++ Text.ofInt s.stop.column
  else s.start.text ++ "-" ++ Text.ofInt s.stop.line ++ ":" ++ Text.ofInt s.stop.column

/-- A place reached by reading bytes, without the name of the script. -/
structure Place where
  line : Nat := 1
  column : Nat := 1
  offset : Nat := 0
  deriving DecidableEq, Repr

/-- The place after one more byte: a line feed starts the next line. -/
def Place.step (p : Place) (b : UInt8) : Place :=
  if b = Text.byte '\n' then ⟨p.line + 1, 1, p.offset + 1⟩
  else ⟨p.line, p.column + 1, p.offset + 1⟩

/-- The place after reading `s`. -/
def Place.after (p : Place) (s : Text) : Place := s.foldl Place.step p

def Place.position (p : Place) (file : Text) : Position :=
  { file := file, line := p.line, column := p.column, offset := p.offset }

end NumScript
