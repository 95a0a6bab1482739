import NumScript.Text

/-! Paths and what stands behind them. The files that a command sees are a value: the name of the
working directory, and what opening a path comes to. -/

namespace NumScript

/-- The names on the way to a file. A path that starts with a slash starts at the root. -/
structure Path where
  rooted : Bool
  names : List Text
  deriving DecidableEq, Repr

namespace Path

def slash : UInt8 := Text.byte '/'

def here : Text := Text.ofString "."

def up : Text := Text.ofString ".."

/-- The path as it is written, with every name between slashes. -/
def ofText (s : Text) : Path :=
  match s with
  | [] => ⟨false, []⟩
  | b :: rest => if b = slash then ⟨true, Text.parts slash rest⟩ else ⟨false, Text.parts slash s⟩

/-- Adds a name at the end of a path that is kept in reverse. A step up takes back the name before
it; above the root there is nothing. -/
def push (rooted : Bool) (reversed : List Text) (name : Text) : List Text :=
  if name = [] || name = here then reversed
  else if name = up then
    match reversed with
    | [] => if rooted then [] else [up]
    | last :: before => if last = up then up :: reversed else before
  else name :: reversed

/-- The path without empty names, steps to the same place and steps up behind a name. -/
def clean (p : Path) : Path := { p with names := (p.names.foldl (push p.rooted) []).reverse }

def text (p : Path) : Text :=
  let joined := ((p.names.map fun name => slash :: name).flatten).drop 1
  if p.rooted then slash :: joined else if p.names.isEmpty then here else joined

/-- The clean text of one path behind another; an empty one does not count. -/
def join (directory name : Text) : Text :=
  if directory.isEmpty then (ofText name).clean.text
  else (ofText (directory ++ [slash] ++ name)).clean.text

end Path

/-- What a path leads to. -/
inductive Entry where
  | file (content : Text)
  | directory
  deriving DecidableEq, Repr

/-- Why a path cannot be read. -/
inductive FileProblem where
  | missing
  | notDirectory
  | isDirectory
  deriving DecidableEq, Repr

def FileProblem.text : FileProblem → String
  | missing => "no such file or directory"
  | notDirectory => "not a directory"
  | isDirectory => "is a directory"

/-- The files that a command sees. -/
structure Files where
  /-- The absolute name of the working directory. -/
  directory : Text
  /-- What opening a path comes to. -/
  find : Text → Except FileProblem Entry

namespace Files

/-- The absolute and clean form of a path. -/
def absolute (files : Files) (path : Text) : Text :=
  if (Path.ofText path).rooted then (Path.ofText path).clean.text
  else Path.join files.directory path

/-! ### Files given one by one -/

/-- What stands at a place below the working directory, which is given by the names that lead to
it, in reverse. Every name of `entries` that goes on behind the place makes it a directory, and so
does a slash at its end. Above the working directory there are only directories. -/
def entryAt (entries : List (Text × Text)) (reversed : List Text) : Option Entry :=
  let place := reversed.reverse
  if place.all (· = Path.up) then some .directory
  else
    match entries.find? fun (name, _) => Text.parts Path.slash name = place with
    | some (_, content) => some (.file content)
    | none =>
      if entries.any fun (name, _) => place.isPrefixOf (Text.parts Path.slash name) then
        some .directory
      else none

/-- Follows names from a place, one after the other. Each has to start from a directory. -/
def follow (entries : List (Text × Text)) : List Text → List Text → Except FileProblem Entry
  | reversed, [] => match entryAt entries reversed with
    | some entry => .ok entry
    | none => .error .missing
  | reversed, name :: rest =>
    match entryAt entries reversed with
    | none => .error .missing
    | some (.file _) => .error .notDirectory
    | some .directory => follow entries (Path.push false reversed name) rest

/-- The files of a list: contents by names relative to the working directory, where a name that
ends in a slash is a directory. No other file exists. -/
def ofList (directory : Text) (entries : List (Text × Text)) : Files where
  directory := directory
  find path :=
    let inside := directory ++ [Path.slash]
    if path.isEmpty then .error .missing
    else if path = directory then .ok .directory
    else if inside.isPrefixOf path then
      follow entries [] (Path.ofText (path.drop inside.length)).names
    else
      let p := Path.ofText path
      if !p.rooted then follow entries [] p.names
      else if p.clean.names.isEmpty then .ok .directory
      else .error .missing

end Files

end NumScript
