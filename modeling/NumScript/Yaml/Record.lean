import NumScript.Yaml.Decoding

/-! Reading a mapping into a record. Fields that the mapping leaves out keep their values, and
names that are no fields are faults. One entry of a mapping may merge other mappings into it, which
give the fields that the mapping itself does not give. -/

namespace NumScript.Yaml

/-- What a node changes in a value of type `α`. -/
abbrev Update (α : Type) := Context → Node → α → Decoding α

/-- The update that stores what is read, if something is. -/
def Update.store {α β : Type} (decode : Context → Node → Decoding (Option β)) (set : β → α → α) :
    Update α := fun c node a => do
  match ← decode c node with
  | some b => return set b a
  | none => return a

/-- A record: the name of its type, and how its fields are read. -/
structure Record (α : Type) where
  type : String
  field? : Text → Option (Update α)

/-- The key of the entry that merges mappings. -/
def Node.isMerge : Node → Bool
  | scalar _ tag text plain =>
    text = Text.ofString "<<" &&
      match tag with
      | some tag => tag = Text.ofString "!!merge"
      | none => plain
  | _ => false

def Node.isMapping : Node → Bool
  | mapping _ _ _ => true
  | _ => false

/-- Names that have been given and count no more. Outside a merge they are not kept. -/
abbrev Given := Option (List Text)

namespace Record

/-- Notes a fault at the key of a field. -/
def reportField {α : Type} (r : Record α) (key : Node) (name : Text) (what : String) :
    Decoding Unit :=
  Decoding.report ("line " ++ Text.ofNat key.line ++ ": field " ++ name ++ (what : Text) ++
    " in type " ++ (r.type : Text))

/-- Reads the entries of a mapping from first to last; `done` holds the fields that were set. -/
def readEntries {α : Type} (r : Record α) (c : Context) :
    List (Node × Node) → List Text → Given → α → Decoding (α × Given)
  | [], _, given, a => return (a, given)
  | (key, value) :: rest, done, given, a => do
    if key.isMerge then r.readEntries c rest done given a
    else match ← decodeText c key with
      | none => r.readEntries c rest done given a
      | some name =>
        if given.any (·.contains name) then r.readEntries c rest done given a
        else
          let given := given.map (name :: ·)
          match r.field? name with
          | none => do
            r.reportField key name " not found"
            r.readEntries c rest done given a
          | some update =>
            if done.contains name then do
              r.reportField key name " already set"
              r.readEntries c rest done given a
            else do
              let a ← update c value a
              r.readEntries c rest (name :: done) given a

/-- The text that a key means, if it means one. -/
def keyText? (c : Context) (key : Node) : Decoding (Option Text) :=
  c.visit key fun _ key => do
    match key with
    | .scalar _ tag text plain =>
      match ← decodeScalar tag text plain with
      | .text s => return some s
      | _ => return none
    | .mapping _ _ entries => do
      (clashes entries).forM Decoding.report
      return none
    | _ => return none

/-- The texts that the keys of a mapping mean. -/
def keyTexts (c : Context) : List (Node × Node) → Decoding (List Text)
  | [] => return []
  | (key, _) :: rest => do
    let text ← keyText? c key
    let texts ← keyTexts c rest
    return text.toList ++ texts

/-- Reads a node with the names that are given before it; what is given after it comes back. -/
abbrev Merge (α : Type) := Context → Node → Given → α → Decoding (α × Given)

/-- Merges a mapping, or the mapping that an alias stands for. -/
def mergeMapping {α : Type} (read : Merge α) : Merge α := fun c node given a =>
  let isMapping := match node with
    | .reference _ _ _ target => (c.target target).isMapping
    | node => node.isMapping
  if isMapping then c.visit node fun c node => read c node given a
  else Decoding.fail .mergeExpected

/-- Merges mappings from first to last. -/
def mergeAll {α : Type} (read : Merge α) (c : Context) :
    List Node → Given → α → Decoding (α × Given)
  | [], given, a => return (a, given)
  | node :: rest, given, a => do
    let (a, given) ← mergeMapping read c node given a
    mergeAll read c rest given a

/-- Merges into a mapping what stands behind its merging key, one mapping or several. What the
mapping itself gives goes before, unless it is merged into another one itself. -/
def merge {α : Type} (read : Merge α) (c : Context) (entries : List (Node × Node)) (given : Given)
    (a : α) : Decoding (α × Given) := do
  match entries.find? (·.1.isMerge) with
  | none => return (a, given)
  | some (_, value) =>
    let before ← match given with
      | some names => pure names
      | none => keyTexts c entries
    let (a, after) ← match value with
      | .sequence _ _ items => mergeAll read c items (some before) a
      | value => mergeMapping read c value (some before) a
    return (a, if given.isSome then after else none)

/-- Reads a node that is no alias, through merges that are nested at most `fuel` deep. When keys
clash nothing of the mapping is read; a missing value changes nothing. -/
def readNode {α : Type} (r : Record α) : Nat → Merge α
  | 0, _, _, given, a => return (a, given)
  | fuel + 1, c, node, given, a => do
    match node with
    | .mapping _ _ entries =>
      match clashes entries with
      | [] =>
        let (a, given) ← r.readEntries c entries [] given a
        merge (r.readNode fuel) c entries given a
      | faults =>
        faults.forM Decoding.report
        return (a, given)
    | .scalar _ tag text plain =>
      if (← decodeScalar tag text plain) ≠ .null then reportMismatch node r.type
      return (a, given)
    | _ =>
      reportMismatch node r.type
      return (a, given)

/-- Reads a record. A merge is nested no deeper than the nodes of the document are, once for each
alias. -/
def update {α : Type} (r : Record α) : Update α := fun c node a =>
  c.visit node fun c node => do
    let size := c.document.size + 1
    let (a, _) ← r.readNode (size * size) c node none a
    return a

end Record

end NumScript.Yaml
