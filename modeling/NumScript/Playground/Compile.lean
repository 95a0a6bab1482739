import NumScript.Check
import NumScript.Optimize
import NumScript.Program.Reading
import NumScript.Settings
import NumScript.Token.Lexer

/-! Compiling a script for the playground: everything that comes before running it. -/

namespace NumScript.Playground

/-- A script that is ready to run, or was stopped by an error, and the problems found in it. -/
structure Compiled where
  /-- The program, when no error stopped it. -/
  program : Option Program
  problems : List Diagnostic

/-- Reads, checks and optimizes a script. An error of one phase leaves out the phases after it;
warnings become errors only when a script could be read. -/
def compile (settings : Settings) (source : Text) : Compiled :=
  let (tokens, log) := tokenize source []
  if log.hasErrors then ⟨none, log.items⟩
  else
    match Program.read tokens with
    | .error d => ⟨none, (log.report d).items⟩
    | .ok program =>
      let log := if settings.analyze then log.reportAll program.findings else log
      let log := if settings.warningsAsErrors then log.promoteWarnings else log
      if log.hasErrors then ⟨none, log.items⟩
      else if settings.optimize then
        ⟨some (program.optimize settings.optimizeRounds).program, log.items⟩
      else ⟨some program, log.items⟩

end NumScript.Playground
