import NumScript.Text.Quoted
import NumScript.Yaml.Node
import NumScript.Yaml.Value

/-! Reading texts, integers and truth values from the nodes of a document. A node that does not fit
is a fault, and faults are collected; a document that cannot be read at all ends the reading. -/

namespace NumScript.Yaml

/-- What has been found so far while a document is read. -/
structure Findings where
  /-- The parts of the document that do not fit, from first to last. -/
  faults : List Text := []
  /-- The number of nodes that have been read. -/
  read : Nat := 0
  /-- The number of those that were read on behalf of an alias. -/
  aliased : Nat := 0
  deriving DecidableEq, Repr

/-- Nearly all nodes were read on behalf of aliases. Of up to 400000 nodes 99 in a hundred may be,
of 4000000 and more 10 in a hundred, and in between the share falls evenly. -/
def Findings.excessive (f : Findings) : Bool :=
  let excess := min f.read 4000000 - 400000
  100 < f.aliased && 1000 < f.read &&
    f.read * (99 * 3600000 - 89 * excess) < f.aliased * (100 * 3600000)

/-- A step of the reading of a document. -/
abbrev Decoding := StateT Findings (Except Error)

namespace Decoding

/-- Notes a part that does not fit. -/
def report (fault : Text) : Decoding Unit :=
  modify fun f => { f with faults := f.faults ++ [fault] }

/-- Ends the reading. -/
def fail {α : Type} (problem : Problem) : Decoding α := throw ⟨problem, 0⟩

/-- Counts a node that is read. -/
def count (aliased : Bool) : Decoding Unit := do
  modify fun f =>
    { f with read := f.read + 1, aliased := if aliased then f.aliased + 1 else f.aliased }
  if (← get).excessive then fail .excessiveAliasing

end Decoding

/-- Where a node stands: its document, and the numbers of the aliases that led to it. -/
structure Context where
  document : Document
  aliases : List Nat := []

/-- The node with a number. -/
def Context.target (c : Context) (number : Nat) : Node :=
  (c.document.named.lookup number).getD (.missing 0)

/-- Reads a node, or the node that an alias stands for. An alias does not lead to itself. -/
def Context.visit {α : Type} (c : Context) (node : Node) (read : Context → Node → Decoding α) :
    Decoding α := do
  Decoding.count !c.aliases.isEmpty
  match node with
  | .reference _ name number target =>
    if c.aliases.contains number then Decoding.fail (.selfReference name)
    else
      Decoding.count true
      read { c with aliases := number :: c.aliases } (c.target target)
  | _ => read c node

/-! ### Faults -/

/-- The kind of a scalar as it is told with a fault. -/
def scalarTag (tag : Option Text) (s : Text) (plain : Bool) : Text :=
  match tag with
  | some tag => tag
  | none =>
    if !plain then "!!str"
    else if s = Text.ofString "<<" then "!!merge"
    else (Value.ofPlain s).tag

/-- The kind of a node as it is told with a fault. -/
def Node.kindName : Node → Text
  | scalar _ tag text plain => scalarTag tag text plain
  | sequence _ tag _ => tag.getD "!!seq"
  | mapping _ tag _ => tag.getD "!!map"
  | reference _ _ _ _ => []

/-- What a node says itself: the text of a scalar or the name of an alias. -/
def Node.content : Node → Text
  | scalar _ _ text _ => text
  | reference _ name _ _ => name
  | _ => []

/-- A node that does not fit: its kind, its text unless the kind is that of a collection, and what
was wanted. A long text is cut. -/
def mismatch (node : Node) (wanted : String) : Text :=
  let kind := node.kindName
  let text := node.content
  let shown : Text :=
    if Value.isOneOf ["!!seq", "!!map"] kind then text
    else " \x60" ++ (if 10 < text.length then text.take 7 ++ "..." else text) ++ "\x60"
  "line " ++ Text.ofNat node.line ++ ": cannot unmarshal " ++ kind ++ shown ++ " into " ++
    (wanted : Text)

/-- Two keys are written alike. -/
def sameKey : Node → Node → Bool
  | .scalar _ _ a _, .scalar _ _ b _ => a = b
  | .sequence _ _ _, .sequence _ _ _ => true
  | .mapping _ _ _, .mapping _ _ _ => true
  | .reference _ a _ _, .reference _ b _ _ => a = b
  | _, _ => false

/-- The keys that stand in a mapping more than once, each with the place where it stood before. -/
def clashes : List (Node × Node) → List Text
  | [] => []
  | (key, _) :: rest =>
    (rest.filter fun (other, _) => sameKey key other).map (fun (other, _) =>
      "line " ++ Text.ofNat other.line ++ ": mapping key " ++ Text.quoted other.content ++
        " already defined at line " ++ Text.ofNat key.line) ++ clashes rest

/-- Notes a node that is not what was wanted. Of a mapping whose keys clash only that is told. -/
def reportMismatch (node : Node) (wanted : String) : Decoding Unit :=
  let repeated := match node with
    | .mapping _ _ entries => clashes entries
    | _ => []
  match repeated with
  | [] => Decoding.report (mismatch node wanted)
  | faults => faults.forM Decoding.report

/-! ### Values -/

/-- The meaning of a scalar. -/
def decodeScalar (tag : Option Text) (s : Text) (plain : Bool) : Decoding Value :=
  match Value.ofScalar tag s plain with
  | .ok value => return value
  | .error problem => Decoding.fail problem

/-- Reads what a scalar means into something that is called `wanted`. Nothing is read where the
value is missing, or does not fit. -/
def decodeValue {α : Type} (wanted : String) (convert? : Text → Value → Option α) (c : Context)
    (node : Node) : Decoding (Option α) :=
  c.visit node fun _ node => do
    match node with
    | .scalar _ tag text plain =>
      let value ← decodeScalar tag text plain
      if value = .null then return none
      else match convert? text value with
        | some a => return some a
        | none => do
          reportMismatch node wanted
          return none
    | _ => do
      reportMismatch node wanted
      return none

/-- Reads a text. Any scalar is taken as it stands. -/
def decodeText : Context → Node → Decoding (Option Text) :=
  decodeValue "string" fun written value =>
    match value with
    | .text s => some s
    | _ => some written

/-- The integer part of a number, for those that an integer of 64 bits can hold. A number below
them counts as the least one, and so does 2^63 itself. -/
def truncate? (v : Float) : Option Int :=
  if v < 9223372036854775808.0 then some v.toInt64.toInt
  else if v == 9223372036854775808.0 then some (-0x8000000000000000)
  else none

/-- Reads an integer of 64 bits. -/
def decodeInt : Context → Node → Decoding (Option Int) :=
  decodeValue "int" fun _ value =>
    match value with
    | .int n => if n < 0x8000000000000000 then some n else none
    | .float v => truncate? v
    | _ => none

/-- Reads a truth value. The words that once stood for one are taken, in quotes too. -/
def decodeBool : Context → Node → Decoding (Option Bool) :=
  decodeValue "bool" fun _ value =>
    match value with
    | .bool b => some b
    | .text s =>
      if Value.isOneOf ["y", "Y", "yes", "Yes", "YES", "on", "On", "ON"] s then some true
      else if Value.isOneOf ["n", "N", "no", "No", "NO", "off", "Off", "OFF"] s then some false
      else none
    | _ => none

end NumScript.Yaml
