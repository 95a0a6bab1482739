import NumScript.Settings.Schema
import NumScript.Yaml.Library

/-! Settings as a YAML text. -/

namespace NumScript.Settings

def text (s : Settings) (yaml : Yaml.Library := Yaml.library) : Text := yaml.marshal schema s

end NumScript.Settings
