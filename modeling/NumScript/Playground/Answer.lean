import NumScript.Playground.Compile
import NumScript.Text.Json

/-! What the playground tells of a script: its result, the names it leaves behind, its problems and
the number of loop iterations. Numbers are texts, so that infinity can be told too. -/

namespace NumScript.Playground

/-- The outcome of a script. -/
structure Answer where
  /-- The value of the last expression statement. -/
  result : Option Text := none
  /-- The values by their names, in increasing order of the names. -/
  env : List (Text × Text) := []
  problems : List Diagnostic
  iterations : Nat := 0
  /-- The script had been compiled before. -/
  cached : Bool
  /-- The script ran to its end. -/
  completed : Bool := false
  deriving DecidableEq, Repr

namespace Answer

/-- Runs a compiled script. There is no answer as long as a loop without a limit goes on. -/
def ofCompiled? (limits : Limits) (c : Compiled) (cached : Bool) : Option Answer :=
  match c.program with
  | none => some { problems := c.problems, cached := cached }
  | some program =>
    let o := program.run limits {}
    if o.fault = some .exhausted then none
    else some
      { result := o.machine.result.map Number.text
        env := o.machine.env.snapshot.map fun (name, v) => (name, Number.text v)
        problems := c.problems ++ o.problem?.toList
        iterations := o.machine.iterations
        cached := cached
        completed := o.fault.isNone }

/-- One problem as a JSON object; a line 0 and an empty text are left out. -/
def problemJson (d : Diagnostic) : Text :=
  let line : List (Text × Text) := if d.line = 0 then [] else [("line", Text.ofInt d.line)]
  let lexeme : List (Text × Text) :=
    if d.lexeme.isEmpty then [] else [("lexeme", Text.json d.lexeme)]
  Text.jsonObject ([(("severity" : Text), Text.json d.severity.name),
    (("kind" : Text), Text.json d.phase.name)] ++ line ++ lexeme ++
    [(("message" : Text), Text.json d.message)])

/-- The answer as a JSON object. -/
def json (a : Answer) : Text :=
  Text.jsonObject
    [("result", match a.result with
      | some text => Text.json text
      | none => "null"),
    ("env", Text.jsonObject (a.env.map fun (name, value) => (name, Text.json value))),
    ("diagnostics", Text.jsonArray (a.problems.map problemJson)),
    ("iterations", Text.ofNat a.iterations),
    ("cached", if a.cached then "true" else "false")]

end Answer

end NumScript.Playground
