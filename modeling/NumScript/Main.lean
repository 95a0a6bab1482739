import NumScript.Command

/-! The command as a program: it gathers the words, the input and the files of a call, and writes
what the call comes to. -/

namespace NumScript.Main

/-- Everything that a stream still holds. -/
partial def readAll (stream : IO.FS.Stream) (before : ByteArray) : IO ByteArray := do
  let chunk ← stream.read 65536
  if chunk.isEmpty then return before else readAll stream (before ++ chunk)

/-- What opening a path comes to. The numbers are those by which the system tells that a directory
stands where a file is expected, or a file where a directory is. -/
def lookUp (path : Text) : IO (Except FileProblem Entry) := do
  match Text.toString? path with
  | none => return .error .missing
  | some name =>
    match ← (IO.FS.readBinFile name).toBaseIO with
    | .ok content => return .ok (.file content.toList)
    | .error (.inappropriateType _ 21 _) => return .ok .directory
    | .error (.inappropriateType _ 20 _) => return .error .notDirectory
    | .error _ => return .error .missing

/-- The paths that a call may open. -/
def paths (directory : Text) (words : List Text) : List Text :=
  match Command.Options.ofWords words with
  | .ok (some o) =>
    let files : Files := ⟨directory, fun _ => .error .missing⟩
    let settings := if o.settings.isEmpty then Settings.defaultFile else o.settings
    [settings, files.absolute settings, o.file]
  | _ => []

/-- The files that a call sees. -/
def filesFor (words : List Text) : IO Files := do
  let directory := Text.ofString (← IO.currentDir).toString
  let found ← (paths directory words).mapM fun path => return (path, ← lookUp path)
  return { directory := directory, find := fun path => (found.lookup path).getD (.error .missing) }

end NumScript.Main

open NumScript in
/-- Runs the command. A loop without a limit is given up after a great many rounds. -/
def main (arguments : List String) : IO UInt32 := do
  let stdout ← IO.getStdout
  let stderr ← IO.getStderr
  let words := arguments.map Text.ofString
  let stdin ← if words.contains (Text.ofString "-") then
      Main.readAll (← IO.getStdin) ByteArray.empty
    else pure ByteArray.empty
  let call : Command.Call :=
    { words := words
      stdin := stdin.toList
      files := ← Main.filesFor words
      terminal := ← stdout.isTty }
  match Command.execute call 1000000000000 with
  | none => return 1
  | some outcome =>
    stdout.write ⟨outcome.stdout.toArray⟩
    stderr.write ⟨outcome.stderr.toArray⟩
    return outcome.code.toUInt32
