import NumScript.Yaml.Printer
import NumScript.Yaml.Record
import NumScript.Yaml.Schema

/-! A library for YAML. A record is written with every member on a line of its own, and read from
the nodes of a document; a scalar is a node. -/

namespace NumScript.Yaml

/-! ### Writing -/

namespace Field

variable {α : Type}

/-- The value of a field; further lines of it are indented by `indent`. -/
def written (indent : Nat) (a : α) : Field α → Text
  | text get _ => scalarText indent (get a)
  | int get _ => Text.ofInt (get a)
  | bool get _ => boolText (get a)

/-- The line of a field. -/
def line (indent : Nat) (a : α) (name : Text) (f : Field α) : Text :=
  name ++ (": " ++ f.written indent a)

/-- How a field is read. -/
def update : Field α → Update α
  | text _ store => .store decodeText store
  | int _ store => .store decodeInt store
  | bool _ store => .store decodeBool store

end Field

namespace Member

variable {α : Type}

/-- The lines of a member; those of an inner record are indented below its name. -/
def lines (a : α) (name : Text) : Member α → List Text
  | field f => [f.line 4 a name]
  | inner _ fields =>
    (name ++ ":") :: fields.map fun (name, f) => "    " ++ f.line 8 a name

/-- How a member is read. -/
def update : Member α → Update α
  | field f => f.update
  | inner type fields =>
    Record.update ⟨type, fun name => (fields.lookup name).map Field.update⟩

end Member

namespace Schema

variable {α : Type}

/-- A record as a document. -/
def text (schema : Schema α) (a : α) : Text :=
  Text.unlines (schema.members.flatMap fun (name, member) => member.lines a name)

/-- The record as it is read. -/
def record (schema : Schema α) : Record α :=
  ⟨schema.type, fun name => (schema.members.lookup name).map Member.update⟩

/-- Reads a document over a record, and collects all its faults. The document itself counts as a
node. -/
def ofText (schema : Schema α) (s : Text) (a : α) : Except Text (Option α) :=
  match Document.ofText? s with
  | .error e => .error e.text
  | .ok none => .ok none
  | .ok (some document) =>
    match (schema.record.update ⟨document, []⟩ document.root a).run { read := 1 } with
    | .error e => .error e.text
    | .ok (a, findings) =>
      match findings.faults with
      | [] => .ok (some a)
      | faults => .error ("yaml: unmarshal errors:" ++ Text.bulleted "\n  " faults)

end Schema

/-! ### Scalars -/

/-- The node of a text that is written: one without quotes stands as it is. -/
def textNode (s : Text) : Node :=
  if isCharacters s then .scalar 1 none s (scalarText 4 s = s)
  else .scalar 1 (some "!!binary") (Text.Base64.encode s) true

/-- What is read of a node that stands alone. -/
def decodeAlone {β : Type} (decode : Context → Node → Decoding (Option β)) (node : Node) :
    Option β :=
  match (decode ⟨{ root := node, size := 1 }, []⟩ node).run { read := 1 } with
  | .error _ => none
  | .ok (b, findings) => if findings.faults.isEmpty then b else none

def library : Library where
  Scalar := Node
  ofText := textNode
  ofInt n := .scalar 1 none (Text.ofInt n) true
  ofBool b := .scalar 1 none (boolText b) true
  text? := decodeAlone decodeText
  int? := decodeAlone decodeInt
  bool? := decodeAlone decodeBool
  marshal := Schema.text
  unmarshal := Schema.ofText
  unreadable reason := "yaml: input error: " ++ reason

end NumScript.Yaml
