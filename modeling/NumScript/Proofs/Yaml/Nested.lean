import NumScript.Proofs.Yaml.Nodes

/-! Documents of a mapping with an inner mapping at its end. Such a text is read as exactly the
names and scalars that it was written for. -/

namespace NumScript.Yaml

/-- A mapping of scalars with an inner mapping of scalars as its last entry. The inner mapping has
two entries at least. -/
structure Nested where
  first : Entry
  rest : List Entry
  name : Text
  simple : isFieldName name = true
  short : name.length ≤ 1024
  /-- The indent of the inner mapping. -/
  indent : Nat
  indented : 0 < indent
  innerFirst : Entry
  innerRest : List Entry
  last : Entry

namespace Nested

open Yaml.Scanner

/-- The inner mapping. -/
def innerChars (d : Nested) : List Char :=
  d.innerFirst.chars ++ '\n' :: (margin d.indent ++ (Entry.lines d.indent d.innerRest ++
    (d.last.chars ++ ['\n'])))

/-- The whole document. -/
def chars (d : Nested) : List Char :=
  d.first.chars ++ '\n' :: (Entry.lines 0 d.rest ++
    (spell d.name ++ ':' :: '\n' :: (margin d.indent ++ d.innerChars)))

/-- The line of the name of the inner mapping. -/
def nameLine (d : Nested) : Nat := d.rest.length + 1

def innerEntries (d : Nested) : List Entry := d.innerFirst :: (d.innerRest ++ [d.last])

/-- The tokens of the document in front of those that close it. -/
def tokens (d : Nested) : List Token :=
  ⟨.blockMappingStart, 0⟩ :: (Entry.tokensFrom 0 (d.first :: d.rest) ++
    (⟨.key, d.nameLine⟩ :: ⟨.scalar d.name true, d.nameLine⟩ :: ⟨.value, d.nameLine⟩ ::
      ⟨.blockMappingStart, d.nameLine + 1⟩ ::
        Entry.tokensFrom (d.nameLine + 1) d.innerEntries))

/-- The node that the document describes. -/
def root (d : Nested) : Node :=
  .mapping 1 none (Entry.nodesFrom 0 (d.first :: d.rest) ++
    [(.scalar (d.nameLine + 1) none d.name true,
      .mapping (d.nameLine + 2) none (Entry.nodesFrom (d.nameLine + 1) d.innerEntries))])

end Nested

namespace Entry

theorem tokensFrom_append (line : Nat) (front back : List Entry) :
    tokensFrom line (front ++ back) =
      tokensFrom line front ++ tokensFrom (line + front.length) back := by
  induction front generalizing line with
  | nil => rfl
  | cons e rest ih =>
    rw [List.cons_append, tokensFrom, tokensFrom, ih, List.append_assoc, List.length_cons,
      Nat.add_right_comm line 1, Nat.add_assoc line]

theorem length_tokensFrom (line : Nat) (entries : List Entry) :
    (tokensFrom line entries).length = 4 * entries.length := by
  induction entries generalizing line with
  | nil => rfl
  | cons e rest ih =>
    rw [tokensFrom, List.length_append, ih, List.length_cons, tokens]
    simp only [List.length_cons, List.length_nil]
    omega

/-- Every entry has a line of its own. -/
theorem length_le_lines (k : Nat) (entries : List Entry) :
    entries.length ≤ (lines k entries).length := by
  induction entries with
  | nil => exact Nat.zero_le _
  | cons e rest ih =>
    rw [← List.append_nil (lines k (e :: rest)), lines_cons]
    simp only [List.length_append, List.length_cons, List.length_nil]
    omega

end Entry

namespace Nested

open Yaml.Scanner

theorem awaits_inner (d : Nested) :
    Awaits 2 [0] ⟨d.innerChars, ⟨d.nameLine + 1, d.indent⟩⟩ (8 * d.innerRest.length + 24)
      (⟨.blockMappingStart, d.nameLine + 1⟩ ::
        Entry.tokensFrom (d.nameLine + 1) d.innerEntries) := by
  have room : [d.indent, 0].length < depthLimit := by simp [depthLimit]
  have deeper : ¬ d.indent ≤ 0 := Nat.not_le.mpr d.indented
  have done := awaits_end [d.indent, 0] (d.nameLine + 2 + d.innerRest.length + 1)
  have last := Awaits.entry d.last [d.indent, 0] ⟨d.nameLine + 2 + d.innerRest.length, d.indent⟩
    (k := 0) (Nat.zero_le _) .nil room (by simp) (by rwa [opened_self])
  have middle := Awaits.entries d.innerRest (d.nameLine + 2) (d.last.clear _) room last
  have first := Awaits.entry d.innerFirst [0] ⟨d.nameLine + 1, d.indent⟩ (Nat.le_refl _)
    (Entry.clear_lines _ _ (d.last.clear _)) (by decide) (by simp)
    (by simpa [opened, opens, deeper] using middle)
  have opens : opening [0] ⟨d.nameLine + 1, d.indent⟩ =
      [⟨.blockMappingStart, d.nameLine + 1⟩] := by
    simp [opening, Scanner.opens, deeper]
  have steps : 16 + 8 * d.innerRest.length + 8 = 8 * d.innerRest.length + 24 := by omega
  rw [opens, steps] at first
  simpa [innerChars, innerEntries, Entry.tokensFrom, Entry.tokensFrom_append] using first

theorem awaits_start (d : Nested) :
    Awaits 2 [] ⟨d.chars, ⟨0, 0⟩⟩ (8 * d.rest.length + 8 * d.innerRest.length + 38)
      d.tokens := by
  have inner := Awaits.inner d.simple d.short [0] ⟨d.nameLine, 0⟩ (k := d.indent)
    (d.innerFirst.clear _) (by decide) (by simp)
    ((opened_self 0 _ []).symm ▸ d.awaits_inner)
  have line : d.nameLine = 1 + d.rest.length := Nat.add_comm _ _
  rw [opening_self, List.nil_append, line] at inner
  have rest := Awaits.entries d.rest 1 (clear_fieldName d.simple _) (by simp [depthLimit]) inner
  have first := Awaits.entry d.first [] ⟨0, 0⟩ (k := 0) (Nat.le_refl _)
    (Entry.clear_lines _ _ (clear_fieldName d.simple _)) (by decide) rfl rest
  have steps : 8 * d.innerRest.length + 24 + 6 + 8 * d.rest.length + 8 =
      8 * d.rest.length + 8 * d.innerRest.length + 38 := by omega
  rw [steps] at first
  simpa [chars, innerChars, tokens, line, Entry.tokensFrom, opening, opens] using first

theorem clear (d : Nested) : Clear d.chars := d.first.clear _

/-- The document starts with no byte order mark. -/
theorem not_faces_mark (d : Nested) :
    (⟨d.chars, {}⟩ : Cursor).faces byteOrderMark = false := by
  obtain ⟨b, more, same⟩ : ∃ b more, d.first.name = b :: more := by
    have simple := d.first.simple
    cases shape : d.first.name with
    | nil => simp [isFieldName, shape] at simple
    | cons b more => exact ⟨b, more, rfl⟩
  have low : charOf b ≠ byteOrderMark := fun marked => by
    have code := congrArg Char.toNat marked
    rw [toNat_charOf] at code
    exact absurd (code ▸ b.toNat_lt) (by decide)
  simp [Cursor.faces, chars, Entry.chars, same, low]

/-- The document is cut into the tokens of its entries. -/
theorem exists_run (d : Nested) {fuel : Nat}
    (enough : 8 * d.rest.length + 8 * d.innerRest.length + 38 ≤ fuel) :
    ∃ ending, Closes 2 ending ∧ run fuel (ofInput { chars := d.chars }) =
      (⟨.streamStart, 0⟩ :: (d.tokens ++ ending), none) := by
  have start : ofInput { chars := d.chars } = { toCursor := ⟨d.chars, {}⟩ } := by
    simp [ofInput, d.not_faces_mark]
  rw [start]
  obtain ⟨ending, closes, run⟩ := d.awaits_start [⟨.streamStart, 0⟩] ⟨nofun, by decide, by simp⟩
    { toCursor := ⟨d.chars, {}⟩ } fuel
    ⟨⟨layout_of_clear d.clear true {}, rfl, rfl, rfl⟩, rfl, rfl, rfl⟩ enough
  exact ⟨ending, closes, run⟩

/-- The tokens of the document are read as its names and scalars. -/
theorem read_tokens (d : Nested) (s : Node.Supply) (x y : Nat) (after : List Token) (fuel : Nat) :
    Node.read (fuel + d.rest.length + d.innerRest.length + 14) true false
        (s.before (d.tokens ++ ⟨.blockEnd, x⟩ :: ⟨.blockEnd, y⟩ :: after)) =
      .ok (d.root, s.before after) := by
  have close : Node.readEntries (fuel + 4) (d.nameLine + 1)
      (s.before (⟨.blockEnd, x⟩ :: ⟨.blockEnd, y⟩ :: after)) =
      .ok ([], s.before (⟨.blockEnd, y⟩ :: after)) := Node.readEntries_end x (fuel + 3) _
  have inner := Node.readEntries_entries d.innerEntries (d.nameLine + 1) close
  rw [show fuel + 4 + d.innerEntries.length = fuel + d.innerRest.length + 6 by
    simp [innerEntries]; omega] at inner
  have name := Node.readEntries_key d.name d.nameLine
    (Node.readUnless_mapping true d.nameLine inner) (Node.readEntries_end y _ 0)
  have whole := Node.readEntries_entries (d.first :: d.rest) 0 name
  have read := Node.read_mapping false whole
  rw [show fuel + d.innerRest.length + 7 + 4 + (d.first :: d.rest).length + 2 =
    fuel + d.rest.length + d.innerRest.length + 14 by simp; omega] at read
  simpa [tokens, root] using read

theorem ofTokens_tokens (d : Nested) {ending : List Token} (closes : Closes 2 ending) :
    ∃ size, Node.ofTokens (⟨.streamStart, 0⟩ :: (d.tokens ++ ending)) none =
      .ok (some { root := d.root, size := size }) := by
  obtain ⟨x, y, z, rfl⟩ := closes.exists_lines
  have room : d.rest.length + d.innerRest.length + 14 ≤
      8 * (⟨.streamStart, 0⟩ :: (d.tokens ++ [⟨.blockEnd, x⟩, ⟨.blockEnd, y⟩, ⟨.streamEnd, z⟩]) :
        List Token).length + 8 := by
    simp only [tokens, innerEntries, List.length_append, List.length_cons,
      Entry.length_tokensFrom]
    omega
  obtain ⟨fuel, enough⟩ := Nat.exists_eq_add_of_le' room
  rw [← Nat.add_assoc, ← Nat.add_assoc] at enough
  have read := d.read_tokens
    { tokens := [], error := none, handles := Node.standardHandles } x y [⟨.streamEnd, z⟩] fuel
  rw [← enough] at read
  exact ⟨_, Node.ofTokens_of_read rfl read⟩

/-- A text in printable ASCII that spells the document is read as its names and scalars. -/
theorem ofText?_eq (d : Nested) {s : Text} (lined : Lined s) (same : spell s = d.chars) :
    ∃ size, Document.ofText? s = .ok (some { root := d.root, size := size }) := by
  have rest := Entry.length_le_lines 0 d.rest
  have innerRest := Entry.length_le_lines d.indent d.innerRest
  have enough : 8 * d.rest.length + 8 * d.innerRest.length + 38 ≤ 8 * d.chars.length + 32 := by
    simp only [chars, innerChars, List.length_append, List.length_cons]
    omega
  obtain ⟨ending, closes, run⟩ := d.exists_run enough
  obtain ⟨size, read⟩ := d.ofTokens_tokens closes
  refine ⟨size, ?_⟩
  rw [Document.ofText?, tokenize, lined.ofText, same, run]
  exact read

end Nested

end NumScript.Yaml
