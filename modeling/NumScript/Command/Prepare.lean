import NumScript.Check
import NumScript.Optimize
import NumScript.Program.Reading
import NumScript.Settings
import NumScript.Token.Lexer

/-! Preparing a script for the command: everything that comes before running it. -/

namespace NumScript.Command

/-- A script that has been read and checked. -/
structure Prepared where
  /-- The program, when no error stopped it. -/
  program : Option Program
  /-- The names that the check left behind, when there was one. -/
  globals : Option Env
  problems : List Diagnostic

/-- Reads and checks a script. Only a script that could be read is checked; warnings become errors
at the very end. -/
def prepare (settings : Settings) (source : Text) : Prepared :=
  let (tokens, log) := tokenize source []
  let (program, log) :=
    if log.hasErrors then (none, log)
    else match Program.read tokens with
      | .error d => (none, log.report d)
      | .ok program => (some program, log)
  let checker := if settings.analyze then program.map (Program.check · {}) else none
  let log := match checker with
    | some c => log.reportAll c.findings
    | none => log
  let log := if settings.warningsAsErrors then log.promoteWarnings else log
  { program := if log.hasErrors then none else program
    globals := checker.map (·.env)
    problems := log.items }

end NumScript.Command
