import NumScript.Yaml.Token.Scanner

/-! The value that a YAML text describes, as a tree of scalars and collections. A node may have a
name, and an alias stands for the node of that name, which may be one that the alias is part of.
Only the first document of a text counts; behind it no more than one token is looked at. -/

namespace NumScript.Yaml

/-- A scalar, a sequence, a mapping, or an alias, with the line it starts on, counted from 1, and
the kind it is told to be, if one is told. -/
inductive Node where
  | scalar (line : Nat) (tag : Option Text) (text : Text) (plain : Bool)
  | sequence (line : Nat) (tag : Option Text) (items : List Node)
  | mapping (line : Nat) (tag : Option Text) (entries : List (Node × Node))
  /-- The node with the number `target`. The alias has a number of its own. -/
  | reference (line : Nat) (name : Text) (number target : Nat)

/-- A value, and the nodes that have names by their numbers. -/
structure Document where
  root : Node
  named : List (Nat × Node) := []
  /-- The number of tokens that the text has, which no nesting of nodes exceeds. -/
  size : Nat := 0

namespace Node

/-- The node that stands for something left out. -/
def missing (line : Nat) : Node := scalar (line + 1) none [] true

def line : Node → Nat
  | scalar line _ _ _ => line
  | sequence line _ _ => line
  | mapping line _ _ => line
  | reference line _ _ _ => line

/-! ### Tags -/

/-- What the tags of the standard kinds start with. -/
def standardTags : Text := Text.ofString "tag:yaml.org,2002:"

/-- What handles stand for when no directive tells. -/
def standardHandles : List (Text × Text) :=
  [(Text.ofString "!", Text.ofString "!"), (Text.ofString "!!", standardTags)]

/-- The short form of a tag. An empty tag and a single exclamation mark tell nothing. -/
def shortTag? (tag : Text) : Option Text :=
  if tag.isEmpty || tag = Text.ofString "!" then none
  else if tag.take standardTags.length = standardTags then
    some ("!!" ++ tag.drop standardTags.length)
  else some tag

/-! ### Tokens -/

/-- Tokens still to be read, the error that ended the cutting of the text, if one did, and what has
been learnt from the tokens before. -/
structure Supply where
  tokens : List Token
  error : Option Error
  /-- What handles stand for, the first that fits. -/
  handles : List (Text × Text) := []
  /-- The numbers of the nodes that have names, the latest first. -/
  names : List (Text × Nat) := []
  /-- The named nodes that have been read, by number. -/
  named : List (Nat × Node) := []
  /-- The number of aliases that have been read. -/
  aliases : Nat := 0

/-- What stands in front of a node and tells about it. -/
structure Properties where
  /-- The line of the first of them, or of the node itself. -/
  line : Nat
  anchor : Option Text := none
  /-- A handle, what follows it, and the line they stand on. -/
  tag : Option (Text × Text × Nat) := none
  deriving DecidableEq, Repr

namespace Supply

/-- The next token. -/
def peek (s : Supply) : Except Error Token :=
  match s.tokens, s.error with
  | t :: _, _ => .ok t
  | [], some e => .error e
  | [], none => .ok ⟨.streamEnd, 0⟩

def skip (s : Supply) : Supply := { s with tokens := s.tokens.tail }

/-- Passes over the comma in front of a further item of a flow collection; the first item has
none, and none is needed before the mark that closes the collection. -/
def separator (s : Supply) (closing : TokenKind) (problem : Problem) (start : Nat) (first : Bool) :
    Except Error Supply := do
  let t ← s.peek
  if first || t.kind = closing then return s
  else if t.kind = .flowEntry then return s.skip
  else .error (.between problem start t.line)

/-- Passes over a name and a tag in front of a node, which stand in either order. -/
def properties (s : Supply) : Except Error (Properties × Supply) := do
  let t ← s.peek
  match t.kind with
  | .anchor name =>
    let next ← s.skip.peek
    match next.kind with
    | .tag handle suffix =>
      return (⟨t.line, some name, some (handle, suffix, next.line)⟩, s.skip.skip)
    | _ => return (⟨t.line, some name, none⟩, s.skip)
  | .tag handle suffix =>
    let next ← s.skip.peek
    match next.kind with
    | .anchor name => return (⟨t.line, some name, some (handle, suffix, t.line)⟩, s.skip.skip)
    | _ => return (⟨t.line, none, some (handle, suffix, t.line)⟩, s.skip)
  | _ => return (⟨t.line, none, none⟩, s)

/-- The whole tag that properties tell, empty for none. -/
def wholeTag (s : Supply) (p : Properties) : Except Error Text :=
  match p.tag with
  | none => .ok []
  | some (handle, suffix, line) =>
    if handle.isEmpty then .ok suffix
    else match s.handles.lookup handle with
      | some expansion => .ok (expansion ++ suffix)
      | none => .error (.between .undefinedHandle p.line line)

/-- Gives the node that comes next a name, so that aliases inside it find it. -/
def announce (s : Supply) (anchor : Option Text) : Supply :=
  match anchor with
  | none => s
  | some name => { s with names := (name, s.names.length) :: s.names }

/-- Keeps the node that has the name with a number. -/
def keep (s : Supply) (anchor : Option Text) (number : Nat) (node : Node) : Supply :=
  match anchor with
  | none => s
  | some _ => { s with named := (number, node) :: s.named }

/-- Reads an alias. -/
def readAlias (s : Supply) (line : Nat) (name : Text) : Except Error (Node × Supply) :=
  match s.names.lookup name with
  | none => .error ⟨.unknownAnchor name, 0⟩
  | some target =>
    .ok (reference (line + 1) name s.aliases target, { s.skip with aliases := s.aliases + 1 })

end Supply

/-! ### Nodes -/

mutual

/-- Reads a node. In a block, block collections are allowed; as the value of a key, a sequence may
stand in the column of the key. -/
def read : Nat → Bool → Bool → Supply → Except Error (Node × Supply)
  | 0, _, _, _ => .error ⟨.contentExpected, 0⟩
  | fuel + 1, block, loose, s => do
    let t ← s.peek
    match t.kind with
    | .reference name => s.readAlias t.line name
    | _ =>
      let (p, s) ← s.properties
      let _ ← s.peek
      let tag ← s.wholeTag p
      let number := s.names.length
      let bare := p.anchor.isNone && tag.isEmpty
      let (node, s) ←
        readContent fuel block loose bare p.line (shortTag? tag) (s.announce p.anchor)
      return (node, s.keep p.anchor number node)

/-- Reads a node behind what tells about it. The node may be left out when something does. -/
def readContent : Nat → Bool → Bool → Bool → Nat → Option Text → Supply →
    Except Error (Node × Supply)
  | 0, _, _, _, _, _, _ => .error ⟨.contentExpected, 0⟩
  | fuel + 1, block, loose, bare, line, tag, s => do
    let t ← s.peek
    let absent : Except Error (Node × Supply) :=
      if bare then .error (.between .contentExpected line t.line)
      else .ok (scalar (line + 1) tag [] true, s)
    match t.kind with
    | .scalar text plain => return (scalar (line + 1) tag text plain, s.skip)
    | .flowSequenceStart =>
      let (items, s) ← readFlowItems fuel t.line true s.skip
      return (sequence (line + 1) tag items, s)
    | .flowMappingStart =>
      let (entries, s) ← readFlowEntries fuel t.line true s.skip
      return (mapping (line + 1) tag entries, s)
    | .blockEntry =>
      if loose then
        let (items, s) ← readLooseItems fuel s
        return (sequence (line + 1) tag items, s)
      else absent
    | .blockSequenceStart =>
      if block then
        let (items, s) ← readItems fuel t.line s.skip
        return (sequence (line + 1) tag items, s)
      else absent
    | .blockMappingStart =>
      if block then
        let (entries, s) ← readEntries fuel t.line s.skip
        return (mapping (line + 1) tag entries, s)
      else absent
    | _ => absent

/-- Reads a node unless the next token is one of `stops`; then the node is missing. -/
def readUnless : Nat → Bool → Bool → List TokenKind → Nat → Supply → Except Error (Node × Supply)
  | 0, _, _, _, _, _ => .error ⟨.contentExpected, 0⟩
  | fuel + 1, block, loose, stops, line, s => do
    let t ← s.peek
    if stops.contains t.kind then return (missing line, s) else read fuel block loose s

/-- Reads the part behind the colon of an entry, if there is a colon. -/
def readValue : Nat → Bool → Bool → List TokenKind → Supply → Except Error (Node × Supply)
  | 0, _, _, _, _ => .error ⟨.contentExpected, 0⟩
  | fuel + 1, block, loose, stops, s => do
    let t ← s.peek
    if t.kind = .value then readUnless fuel block loose stops t.line s.skip
    else return (missing t.line, s)

/-- Reads the items of a block sequence. -/
def readItems : Nat → Nat → Supply → Except Error (List Node × Supply)
  | 0, _, _ => .error ⟨.contentExpected, 0⟩
  | fuel + 1, start, s => do
    let t ← s.peek
    match t.kind with
    | .blockEntry =>
      let (item, s) ← readUnless fuel true false [.blockEntry, .blockEnd] t.line s.skip
      let (items, s) ← readItems fuel start s
      return (item :: items, s)
    | .blockEnd => return ([], s.skip)
    | _ => .error (.between .dashExpected start t.line)

/-- Reads the items of a sequence that stands in the column of its key. -/
def readLooseItems : Nat → Supply → Except Error (List Node × Supply)
  | 0, _ => .error ⟨.contentExpected, 0⟩
  | fuel + 1, s => do
    let t ← s.peek
    match t.kind with
    | .blockEntry =>
      let (item, s) ←
        readUnless fuel true false [.blockEntry, .key, .value, .blockEnd] t.line s.skip
      let (items, s) ← readLooseItems fuel s
      return (item :: items, s)
    | _ => return ([], s)

/-- Reads the entries of a block mapping. -/
def readEntries : Nat → Nat → Supply → Except Error (List (Node × Node) × Supply)
  | 0, _, _ => .error ⟨.contentExpected, 0⟩
  | fuel + 1, start, s => do
    let t ← s.peek
    match t.kind with
    | .key =>
      let (key, s) ← readUnless fuel true true [.key, .value, .blockEnd] t.line s.skip
      let (value, s) ← readValue fuel true true [.key, .value, .blockEnd] s
      let (entries, s) ← readEntries fuel start s
      return ((key, value) :: entries, s)
    | .blockEnd => return ([], s.skip)
    | _ => .error (.between .keyExpected start t.line)

/-- Reads the items of a flow sequence; a key among them starts a mapping of one entry. Where the
key is left out, the token in its place is passed over. -/
def readFlowItems : Nat → Nat → Bool → Supply → Except Error (List Node × Supply)
  | 0, _, _, _ => .error ⟨.contentExpected, 0⟩
  | fuel + 1, start, first, s => do
    let s ← s.separator .flowSequenceEnd .bracketExpected start first
    let t ← s.peek
    match t.kind with
    | .flowSequenceEnd => return ([], s.skip)
    | .key =>
      let next ← s.skip.peek
      let (key, s) ←
        if [.value, .flowEntry, .flowSequenceEnd].contains next.kind then
          pure (missing next.line, s.skip.skip)
        else read fuel false false s.skip
      let (value, s) ← readValue fuel false false [.flowEntry, .flowSequenceEnd] s
      let (items, s) ← readFlowItems fuel start false s
      return (mapping (t.line + 1) none [(key, value)] :: items, s)
    | _ =>
      let (item, s) ← read fuel false false s
      let (items, s) ← readFlowItems fuel start false s
      return (item :: items, s)

/-- Reads the entries of a flow mapping; a node without a colon is a key without a value. -/
def readFlowEntries : Nat → Nat → Bool → Supply → Except Error (List (Node × Node) × Supply)
  | 0, _, _, _ => .error ⟨.contentExpected, 0⟩
  | fuel + 1, start, first, s => do
    let s ← s.separator .flowMappingEnd .braceExpected start first
    let t ← s.peek
    match t.kind with
    | .flowMappingEnd => return ([], s.skip)
    | .key =>
      let next ← s.skip.peek
      let (key, s) ←
        readUnless fuel false false [.value, .flowEntry, .flowMappingEnd] next.line s.skip
      let (value, s) ← readValue fuel false false [.flowEntry, .flowMappingEnd] s
      let (entries, s) ← readFlowEntries fuel start false s
      return ((key, value) :: entries, s)
    | _ =>
      let (key, s) ← read fuel false false s
      let t ← s.peek
      let (entries, s) ← readFlowEntries fuel start false s
      return ((key, missing t.line) :: entries, s)

end

/-! ### Documents -/

/-- Reads at most `fuel` directives: one version at most, which is 1.1, and handles that differ.
`versioned` tells that a version has been read. -/
def readDirectives : Nat → Bool → Supply → Except Error Supply
  | 0, _, s => .ok s
  | fuel + 1, versioned, s => do
    let t ← s.peek
    match t.kind with
    | .version major minor =>
      if versioned then .error ⟨.repeatedVersion, t.line⟩
      else if major ≠ 1 || minor ≠ 1 then .error ⟨.incompatibleVersion, t.line⟩
      else readDirectives fuel true s.skip
    | .handle name expansion =>
      if (s.handles.lookup name).isSome then .error ⟨.repeatedHandle, t.line⟩
      else readDirectives fuel versioned { s.skip with handles := s.handles ++ [(name, expansion)] }
    | _ => return { s with handles := s.handles ++ standardHandles }

/-- The token stands in front of a document or behind it. -/
def isBoundary : TokenKind → Bool
  | .version _ _ => true
  | .handle _ _ => true
  | .documentStart => true
  | .documentEnd => true
  | .streamEnd => true
  | _ => false

/-- Reads the value of a document that starts with directives or with a marker. -/
def readMarked (fuel : Nat) (s : Supply) : Except Error (Node × Supply) := do
  let s ← readDirectives fuel false s
  let t ← s.peek
  if t.kind ≠ .documentStart then .error ⟨.documentStartExpected, t.line⟩
  else
    let next ← s.skip.peek
    if isBoundary next.kind then return (missing next.line, s.skip)
    else read fuel true false s.skip

/-- The first document of a text: nothing when the text holds none. -/
def ofTokens (tokens : List Token) (error : Option Error) :
    Except Error (Option Document) := do
  let fuel := 8 * tokens.length + 8
  let s : Supply := { tokens := tokens, error := error }
  let _ ← s.peek
  let s := s.skip
  let t ← s.peek
  if t.kind = .streamEnd then return none
  else
    let (root, s) ←
      if isBoundary t.kind && t.kind ≠ .documentEnd then readMarked fuel s
      else read fuel true false { s with handles := standardHandles }
    let _ ← s.peek
    return some { root := root, named := s.named, size := tokens.length }

end Node

/-- The first document of a text. -/
def Document.ofText? (s : Text) : Except Error (Option Document) :=
  let (tokens, error) := tokenize s
  Node.ofTokens tokens error

end NumScript.Yaml
