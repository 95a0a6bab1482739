import NumScript.Settings
import NumScript.Yaml.Schema

/-! What stands for the settings in a YAML document. The path of their file does not stand there. -/

namespace NumScript.Settings

/-- The settings of the playground by their names. -/
def playgroundFields : List (Text × Yaml.Field Settings) :=
  [("addr", .text (·.playground.address) fun v s => { s with playground.address := v }),
    ("cache_size", .int (·.playground.cacheSize) fun v s => { s with playground.cacheSize := v }),
    ("max_body_bytes",
      .int (·.playground.maxBodyBytes) fun v s => { s with playground.maxBodyBytes := v })]

/-- The settings by their names. -/
def schema : Yaml.Schema Settings where
  type := "config.Config"
  members :=
    [("scoping", .field (.text (·.scoping) fun v s => { s with scoping := v })),
      ("max_iterations", .field (.int (·.maxIterations) fun v s => { s with maxIterations := v })),
      ("optimize", .field (.bool (·.optimize) fun v s => { s with optimize := v })),
      ("optimize_rounds",
        .field (.int (·.optimizeRounds) fun v s => { s with optimizeRounds := v })),
      ("analyze", .field (.bool (·.analyze) fun v s => { s with analyze := v })),
      ("warnings_as_errors",
        .field (.bool (·.warningsAsErrors) fun v s => { s with warningsAsErrors := v })),
      ("color", .field (.bool (·.color) fun v s => { s with color := v })),
      ("playground", .inner "config.Playground" playgroundFields)]

end NumScript.Settings
