import NumScript.Env
import NumScript.Text.Natural
import NumScript.Yaml.Printer

/-! The values of an environment as a YAML mapping, in the natural order of their names. -/

namespace NumScript.Command

/-- A number in YAML, which has names of its own for infinity and for not-a-number. -/
def numberYaml (v : Float) : Text :=
  let text := Number.text v
  if text = Text.ofString "+Inf" then ".inf"
  else if text = Text.ofString "-Inf" then "-.inf"
  else if text = Text.ofString "NaN" then ".nan"
  else text

/-- One entry. A name of more than 128 bytes is set apart from its value. -/
def entryYaml (name : Text) (v : Float) : Text :=
  let key := Yaml.scalarText 4 name
  if 128 < name.length then "? " ++ key ++ "\n: " ++ numberYaml v else key ++ ": " ++ numberYaml v

/-- The values of an environment. -/
def snapshotYaml (env : Env) : Text :=
  let entries := env.snapshot.mergeSort fun a b => !Text.naturalLess b.1 a.1
  if entries.isEmpty then "\x7b\x7d\n"
  else Text.unlines (entries.map fun (name, v) => entryYaml name v)

end NumScript.Command
