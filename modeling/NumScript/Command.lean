import NumScript.Command.Options
import NumScript.Command.Prepare
import NumScript.Command.Snapshot
import NumScript.Diagnostic.Printer
import NumScript.Settings.Loading
import NumScript.Settings.Printer

/-! The command: it runs a script, or shows its tokens, its outline or the values it leaves behind.
What the command does is a function of its words, its input and the files it sees. -/

namespace NumScript.Command

/-- A call of the command. -/
structure Call where
  words : List Text
  stdin : Text
  files : Files
  /-- The command writes to a terminal, which can show colours. -/
  terminal : Bool

/-- How a call ends. -/
structure Outcome where
  code : Nat
  stdout : Text := []
  stderr : Text := []
  deriving DecidableEq, Repr

/-- Text in front of what is written to standard error. -/
def Outcome.after (stderr : Text) (o : Outcome) : Outcome := { o with stderr := stderr ++ o.stderr }

/-- A note on standard error, which ends a line. -/
def note (s : Text) : Text :=
  let ending : Text := if s.getLast? = some 10 then [] else "\n"
  name ++ ": " ++ s ++ ending

/-- A call that fails with a note. -/
def failure (s : Text) : Outcome := { code := 1, stderr := note s }

/-! ### Settings and script -/

/-- The settings for a call: those of a file, changed by the options, or why there are none. -/
def settings (files : Files) (o : Options) : Except Text Settings :=
  let loaded := if o.settings.isEmpty then Settings.loadDefault files Path.here
    else Settings.load files o.settings
  match loaded with
  | .error failure => .error failure.text
  | .ok s =>
    let s := { s with
      color := s.color && !o.noColor
      optimize := s.optimize && !o.noOptimize
      scoping := if o.scoping.isEmpty then s.scoping else o.scoping
      maxIterations := o.budget.getD s.maxIterations }
    match s.validate with
    | .error failure => .error failure.text
    | .ok s => .ok s

/-- The note on where the settings come from and what they are. -/
def settingsNote (s : Settings) : Text :=
  let origin : Text := if s.path.isEmpty then "defaults" else s.path
  note ("settings from " ++ origin ++ ":\n" ++ s.text)

/-- The text of a script and the name it goes by, or why it cannot be read. -/
def script (call : Call) (file : Text) : Except Text (Text × Text) :=
  if file = Text.ofString "-" then .ok (call.stdin, Text.ofString "<stdin>")
  else
    match call.files.find file with
    | .ok (.file content) => .ok (content, file)
    | .ok .directory =>
      .error ("reading " ++ file ++ ": read " ++ file ++ ": " ++
        (FileProblem.isDirectory.text : Text))
    | .error problem =>
      .error ("reading " ++ file ++ ": open " ++ file ++ ": " ++ (problem.text : Text))

/-! ### Tools -/

/-- What the tools are told: the settings, whether to tell more, how to show problems. -/
structure Task where
  settings : Settings
  verbose : Bool
  color : Bool
  /-- The name of the script. -/
  file : Text
  source : Text

namespace Task

/-- Notes that are given only when asked for. -/
def notes (t : Task) (lines : List Text) : Text := if t.verbose then lines.flatMap note else []

def printed (t : Task) (problems : List Diagnostic) : Text :=
  Diagnostic.printedAll t.color t.file problems

/-- One token on a line: where it stands, what it is, and its text. -/
def tokenLine (t : Token) : Text :=
  t.span.text ++ "\t" ++ (t.kind.className : Text) ++ "\t" ++ (t.kind.name : Text) ++ "(" ++
    t.lexeme ++ ")\n"

/-- Shows the tokens of the script. -/
def tokens (t : Task) : Outcome :=
  let (tokens, log) := tokenize t.source t.file
  { code := if log.hasErrors then 1 else 0
    stdout := tokens.flatMap tokenLine
    stderr := t.printed log.items }

/-- The program to run and what is told on the way to it. -/
def program (t : Task) : Option Program × Text :=
  let p := prepare t.settings t.source
  let globals := match p.globals with
    | some env => t.notes ["semantic: globals:\n" ++ env.debugText]
    | none => []
  let told := globals ++ t.printed p.problems
  match p.program with
  | none => (none, told)
  | some program =>
    if t.settings.optimize then
      let o := program.optimize t.settings.optimizeRounds
      (some o.program, told ++ t.notes o.log)
    else (some program, told)

/-- Shows the outline of the program. -/
def outline (t : Task) : Outcome :=
  match t.program with
  | (none, told) => { code := 1, stderr := told }
  | (some p, told) => { code := 0, stdout := p.outline, stderr := told }

/-- Runs the program and shows the value of its last expression statement, or all values. There is
no outcome as long as a loop without a limit goes on. -/
def run (t : Task) (patience : Nat) (all : Bool) : Option Outcome :=
  match t.program with
  | (none, told) => some { code := 1, stderr := told }
  | (some p, told) =>
    let o := p.run (t.settings.limits patience) {}
    if o.fault = some .exhausted then none
    else
      let stdout : Text :=
        if all then snapshotYaml o.machine.env
        else match o.fault, o.machine.result with
          | none, some v => Number.text v ++ "\n"
          | _, _ => []
      some
        { code := if o.fault.isNone then 0 else 1
          stdout := stdout
          stderr := told ++ t.notes o.machine.trace ++ t.printed o.problem?.toList ++
            t.notes ["final environment:\n" ++ o.machine.env.debugText] }

end Task

/-! ### The playground -/

/-- The port of an address. -/
def portOf (address : Text) : Text :=
  (address.reverse.takeWhile (· ≠ Text.byte ':')).reverse

/-- The port is a number that no port has. -/
def isInvalidPort (port : Text) : Bool :=
  let (negative, digits) := Numeral.sign port
  digits.all Text.isDigit &&
    (if negative then 0 < Text.decimalValue digits else 65535 < Text.decimalValue digits)

/-- Starts the playground. There is no outcome as long as it goes on. -/
def serve (s : Settings) : Option Outcome :=
  let address := s.playground.address
  let port := portOf address
  if isInvalidPort port then
    some
      { code := 1
        stderr := note ("Starting playground on " ++ Text.quoted address) ++
          note ("error in ListenAndServe: listen tcp4: address " ++ port ++ ": invalid port") }
  else none

/-! ### Calls -/

/-- Does what the options ask for. -/
def perform (call : Call) (patience : Nat) (o : Options) (s : Settings) : Option Outcome :=
  if o.tool = .serve then serve s
  else
    match script call o.file with
    | .error reason => some (failure reason)
    | .ok (source, file) =>
      let task : Task :=
        { settings := s
          verbose := o.verbose
          color := call.terminal && s.color
          file := file
          source := source }
      match o.tool with
      | .tokens => some task.tokens
      | .ast => some task.outline
      | .env => task.run patience true
      | _ => task.run patience false

/-- How a call ends. There is no outcome as long as it goes on. -/
def execute (call : Call) (patience : Nat) : Option Outcome :=
  match Options.ofWords call.words with
  | .error problem =>
    some { code := 2, stderr := name ++ ": " ++ problem.text ++ "\n\n" ++ usage }
  | .ok none => some { code := 0, stdout := usage }
  | .ok (some o) =>
    match settings call.files o with
    | .error reason => some (failure reason)
    | .ok s =>
      let told : Text := if o.verbose then settingsNote s else []
      (perform call patience o s).map (Outcome.after told)

end NumScript.Command
