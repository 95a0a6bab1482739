import NumScript.Text

/-! What a YAML library is to a program. The program describes its records, and the library writes
and reads them; how a document looks, and how a scalar stands in it, is the library's own. -/

namespace NumScript.Yaml

/-- A field of a record that holds a scalar: how its value is had, and how it is stored. -/
inductive Field (α : Type) where
  | text (get : α → Text) (store : Text → α → α)
  | int (get : α → Int) (store : Int → α → α)
  | bool (get : α → Bool) (store : Bool → α → α)

/-- What a record has under a name. -/
inductive Member (α : Type) where
  | field (f : Field α)
  /-- A record of scalars inside the record. -/
  | inner (type : String) (fields : List (Text × Field α))

/-- The description of a record: the name of its type and its members by their names, in the order
in which they are written. What is not described is neither written nor read. -/
structure Schema (α : Type) where
  type : String
  members : List (Text × Member α)

/-- A library for YAML. -/
structure Library where
  /-- A scalar as it stands in a document. -/
  Scalar : Type
  ofText : Text → Scalar
  ofInt : Int → Scalar
  ofBool : Bool → Scalar
  text? : Scalar → Option Text
  int? : Scalar → Option Int
  bool? : Scalar → Option Bool
  /-- Writes a record as a document. -/
  marshal : {α : Type} → Schema α → α → Text
  /-- Reads a document over a record: members that the document leaves out stay as they are, names
  that the record does not have are refused. Nothing is read of a text without a document. -/
  unmarshal : {α : Type} → Schema α → Text → α → Except Text (Option α)
  /-- What is said of an input that cannot be read, for some reason. -/
  unreadable : Text → Text

end NumScript.Yaml
