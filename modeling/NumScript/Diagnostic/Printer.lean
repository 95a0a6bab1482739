import NumScript.Diagnostic

/-! Problems as the terminal shows them, one a line, with or without colour. -/

namespace NumScript.Diagnostic

/-- How the terminal marks a part of a line. -/
inductive Style where
  | bold
  | red
  | yellow
  deriving DecidableEq, Repr

/-- The part of a line between the codes that switch its style on and off. -/
def styled (color : Bool) (style : Style) (s : Text) : Text :=
  let code := match style with
    | .bold => "1"
    | .red => "31;1"
    | .yellow => "33;1"
  if color then "\x1b[" ++ (code : Text) ++ "m" ++ s ++ "\x1b[0m" else s

/-- The place of a problem: file name and line, as far as they are known. -/
def location (file : Text) (d : Diagnostic) : Text :=
  let name : Text := if file.isEmpty || d.line ≤ 0 then file else file ++ ":"
  if 0 < d.line then name ++ Text.ofInt d.line else name

/-- One problem on a line of its own: `file:3: parse error: …`. -/
def printed (color : Bool) (file : Text) (d : Diagnostic) : Text :=
  let place := d.location file
  let place : Text := if place.isEmpty then [] else styled color .bold (place ++ ": ")
  place ++ styled color (if d.isError then .red else .yellow) d.label ++ ": " ++ d.message ++ "\n"

def printedAll (color : Bool) (file : Text) (ds : List Diagnostic) : Text :=
  ds.flatMap (printed color file)

end NumScript.Diagnostic
