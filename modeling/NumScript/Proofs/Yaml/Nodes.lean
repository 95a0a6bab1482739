import NumScript.Proofs.Yaml.Mapping
import NumScript.Yaml.Node

/-! The nodes that the tokens of mappings are read as. -/

namespace NumScript.Yaml

namespace Entry

/-- The name and the value of an entry on a line. -/
def node (e : Entry) (line : Nat) : Node × Node :=
  (.scalar (line + 1) none e.name true, .scalar (line + 1) none e.text e.plain)

/-- The names and values of entries on lines that follow each other. -/
def nodesFrom : Nat → List Entry → List (Node × Node)
  | _, [] => []
  | line, e :: rest => e.node line :: nodesFrom (line + 1) rest

end Entry

namespace Node

/-- The supply in front of tokens. -/
def Supply.before (s : Supply) (tokens : List Token) : Supply := { s with tokens := tokens }

variable {s : Supply} {tokens : List Token} {line fuel : Nat} {text : Text} {plain : Bool}

@[simp]
theorem Supply.peek_before (t : Token) : (s.before (t :: tokens)).peek = .ok t := rfl

@[simp]
theorem Supply.skip_before (t : Token) : (s.before (t :: tokens)).skip = s.before tokens := rfl

theorem read_scalar (block loose : Bool) :
    read (fuel + 2) block loose (s.before (⟨.scalar text plain, line⟩ :: tokens)) =
      .ok (.scalar (line + 1) none text plain, s.before tokens) := by
  rw [read]
  simp [bind, Except.bind, pure, Except.pure, Supply.properties, Supply.wholeTag, Supply.announce,
    Supply.keep, readContent, shortTag?]

theorem readUnless_scalar (block loose : Bool) {stops : List TokenKind}
    (other : TokenKind.scalar text plain ∉ stops) (l : Nat) :
    readUnless (fuel + 3) block loose stops l (s.before (⟨.scalar text plain, line⟩ :: tokens)) =
      .ok (.scalar (line + 1) none text plain, s.before tokens) := by
  rw [readUnless]
  simp [bind, Except.bind, other, read_scalar]

theorem read_mapping (loose : Bool) {entries : List (Node × Node)} {after : Supply}
    (inside : readEntries fuel line (s.before tokens) = .ok (entries, after)) :
    read (fuel + 2) true loose (s.before (⟨.blockMappingStart, line⟩ :: tokens)) =
      .ok (.mapping (line + 1) none entries, after) := by
  rw [read]
  simp [bind, Except.bind, pure, Except.pure, Supply.properties, Supply.wholeTag, Supply.announce,
    Supply.keep, readContent, shortTag?, inside]

/-- The tokens in place of which a key or a value of a block mapping is missing. -/
def mappingStops : List TokenKind := [.key, .value, .blockEnd]

/-- A key with its value, in front of further entries. -/
theorem readEntries_key {start : Nat} (name : Text) (line : Nat) {valueTokens : List Token}
    {value : Node} {entries : List (Node × Node)} {after : Supply}
    (read : readUnless (fuel + 3) true true mappingStops line (s.before valueTokens) =
      .ok (value, s.before tokens))
    (below : readEntries (fuel + 4) start (s.before tokens) = .ok (entries, after)) :
    readEntries (fuel + 5) start (s.before (⟨.key, line⟩ :: ⟨.scalar name true, line⟩ ::
      ⟨.value, line⟩ :: valueTokens)) =
      .ok ((.scalar (line + 1) none name true, value) :: entries, after) := by
  have key : readUnless (fuel + 4) true true mappingStops line
      (s.before (⟨.scalar name true, line⟩ :: ⟨.value, line⟩ :: valueTokens)) =
      .ok (.scalar (line + 1) none name true, s.before (⟨.value, line⟩ :: valueTokens)) :=
    readUnless_scalar true true (by simp [mappingStops]) line
  have behind : readValue (fuel + 4) true true mappingStops
      (s.before (⟨.value, line⟩ :: valueTokens)) = .ok (value, s.before tokens) := by
    rw [readValue]
    simp [bind, Except.bind, read]
  rw [mappingStops] at key behind
  rw [readEntries]
  simp only [bind, Except.bind, Supply.peek_before, Supply.skip_before, key, behind, below]
  rfl

theorem readEntries_end (line fuel start : Nat) :
    readEntries (fuel + 1) start (s.before (⟨.blockEnd, line⟩ :: tokens)) =
      .ok ([], s.before tokens) := by
  rw [readEntries]
  rfl

theorem readEntries_entries (entries : List Entry) {start : Nat} (line : Nat)
    {more : List (Node × Node)} {after : Supply}
    (below : readEntries (fuel + 4) start (s.before tokens) = .ok (more, after)) :
    readEntries (fuel + 4 + entries.length) start
        (s.before (Entry.tokensFrom line entries ++ tokens)) =
      .ok (Entry.nodesFrom line entries ++ more, after) := by
  induction entries generalizing line with
  | nil => exact below
  | cons e rest ih =>
    have deeper : fuel + 4 + (e :: rest).length = fuel + rest.length + 5 := by
      rw [List.length_cons]
      omega
    have ih' := ih (line + 1)
    rw [show fuel + 4 + rest.length = fuel + rest.length + 4 by omega] at ih'
    rw [deeper]
    exact readEntries_key e.name line
      (readUnless_scalar true true (by simp [mappingStops]) line) ih'

/-- An inner mapping as the value of a key. -/
theorem readUnless_mapping (loose : Bool) (l : Nat) {entries : List (Node × Node)} {after : Supply}
    (inside : readEntries fuel line (s.before tokens) = .ok (entries, after)) :
    readUnless (fuel + 3) true loose mappingStops l
        (s.before (⟨.blockMappingStart, line⟩ :: tokens)) =
      .ok (.mapping (line + 1) none entries, after) := by
  rw [readUnless]
  simp [bind, Except.bind, mappingStops, read_mapping loose inside]

/-- A text that starts with no directive and no marker is read as one node. -/
theorem ofTokens_of_read {start t z : Token} {more after : List Token} {root : Node}
    (inside : isBoundary t.kind = false)
    (read : read (8 * (start :: t :: more).length + 8) true false
      { tokens := t :: more, error := none, handles := standardHandles } =
      .ok (root, s.before (z :: after))) :
    ofTokens (start :: t :: more) none =
      .ok (some { root := root, named := s.named, size := (start :: t :: more).length }) := by
  have goesOn : t.kind ≠ .streamEnd := fun ends => by simp [ends, isBoundary] at inside
  rw [ofTokens]
  simp only [bind, Except.bind, Supply.peek, Supply.skip, List.tail_cons, goesOn, inside, if_false,
    Bool.false_and, Bool.false_eq_true, read]
  rfl

end Node

end NumScript.Yaml
