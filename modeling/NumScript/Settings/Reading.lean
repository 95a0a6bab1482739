import NumScript.Settings.Schema
import NumScript.Yaml.Library

/-! Reading settings from a YAML text. Settings that the text leaves out keep their defaults, and
settings it does not know are refused. -/

namespace NumScript.Settings

/-- Why settings could not be had. -/
inductive Failure where
  /-- The text is no YAML, or does not fit the settings. -/
  | unread (reason : Text)
  /-- The settings break rules. -/
  | invalid (issues : List Issue)
  deriving DecidableEq, Repr

def Failure.text : Failure → Text
  | unread reason => "parse: " ++ reason
  | invalid issues => "config validation failed:" ++ Text.bulleted "\n- " (issues.map Issue.text)

/-- The settings themselves, or the rules they break. -/
def validate (s : Settings) : Except Failure Settings :=
  match s.issues with
  | [] => .ok s
  | issues => .error (.invalid issues)

/-- The settings that a text describes, over the defaults and checked against the rules. A text
without a document describes the defaults. -/
def ofText (s : Text) (yaml : Yaml.Library := Yaml.library) : Except Failure Settings :=
  match yaml.unmarshal schema s {} with
  | .error reason => .error (.unread reason)
  | .ok none => validate {}
  | .ok (some settings) => settings.validate

end NumScript.Settings
