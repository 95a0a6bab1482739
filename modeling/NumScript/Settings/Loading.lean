import NumScript.Files
import NumScript.Settings.Reading

/-! Settings from files: a file that is asked for must be there, the one in the working directory
may be missing. -/

namespace NumScript.Settings

/-- The name of the file that settings are looked for in. -/
def defaultFile : Text := Text.ofString ".tinyscript.yml"

/-- Why settings could not be had from a file. -/
inductive LoadFailure where
  | noPath
  | unknown (path : Text) (problem : FileProblem)
  | unopened (path : Text) (problem : FileProblem)
  | refused (path : Text) (failure : Failure)
  deriving DecidableEq, Repr

namespace LoadFailure

def text : LoadFailure → Text
  | noPath => "config: empty path"
  | unknown path problem =>
    "config: stat " ++ path ++ ": stat " ++ path ++ ": " ++ (problem.text : Text)
  | unopened path problem =>
    "config: open " ++ path ++ ": open " ++ path ++ ": " ++ (problem.text : Text)
  | refused path failure => "config: " ++ path ++ ": " ++ failure.text

/-- The file is not there. -/
def isMissing : LoadFailure → Bool
  | unopened _ problem => problem = .missing
  | _ => false

/-- The settings were read, but break rules. -/
def isInvalid : LoadFailure → Bool
  | refused _ (.invalid _) => true
  | _ => false

end LoadFailure

/-- What is said of a directory that is read like a file. -/
def directoryRead (path : Text) : Text :=
  "read " ++ path ++ ": " ++ (FileProblem.isDirectory.text : Text)

/-- The settings in the file at a path. A directory can be opened, but not read. -/
def load (files : Files) (path : Text) (yaml : Yaml.Library := Yaml.library) :
    Except LoadFailure Settings :=
  if path.isEmpty then .error .noPath
  else
    let path := files.absolute path
    match files.find path with
    | .error problem => .error (.unopened path problem)
    | .ok .directory => .error (.refused path (.unread (yaml.unreadable (directoryRead path))))
    | .ok (.file content) =>
      match ofText content yaml with
      | .error failure => .error (.refused path failure)
      | .ok s => .ok { s with path := path }

/-- The settings in the usual file of a directory, or the defaults when there is no such file. -/
def loadDefault (files : Files) (directory : Text) (yaml : Yaml.Library := Yaml.library) :
    Except LoadFailure Settings :=
  let path := Path.join directory defaultFile
  match files.find path with
  | .error .missing => .ok {}
  | .error problem => .error (.unknown path problem)
  | .ok _ => load files path yaml

end NumScript.Settings
