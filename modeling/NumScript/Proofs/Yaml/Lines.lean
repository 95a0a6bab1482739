import NumScript.Proofs.Yaml.Filling
import NumScript.Proofs.Yaml.Nodes

/-! Lines that give the fields of a record. A line is written as the name of a field, a colon and a
value, and is read as an entry that gives the field that value. -/

namespace NumScript.Yaml

/-! ### Printable lines -/

theorem printable_quoted {s : Text} (printable : Printable s) {quote : UInt8}
    {inside : UInt8 → Text} (ends : Text.isPrintableByte quote = true)
    (stays : ∀ b, Text.isPrintableByte b = true → Printable (inside b)) :
    Printable (quote :: (s.flatMap inside ++ [quote])) := by
  simp only [Printable, List.forall_mem_cons, List.forall_mem_append, List.mem_flatMap]
  exact ⟨ends, fun b ⟨source, member, found⟩ => stays source (printable source member) b found,
    ends, nofun⟩

theorem Written.printable {written text : Text} {plain : Bool} (form : Written written text plain) :
    Printable written := by
  cases form with
  | plain stands => exact stands.printable
  | single printable =>
    refine printable_quoted printable rfl fun b here => ?_
    rw [insideSingle]
    split <;> simp [Printable, here]
  | double printable =>
    refine printable_quoted printable rfl fun b here => ?_
    rw [insideDouble]
    split
    · exact List.forall_mem_cons.mpr ⟨rfl, List.forall_mem_singleton.mpr here⟩
    · simp [Printable, here]

theorem lined_unlines {lines : List Text} (printable : ∀ line ∈ lines, Printable line) :
    Lined (Text.unlines lines) := by
  intro b member
  obtain ⟨line, inside, found⟩ := List.mem_flatMap.mp member
  obtain here | last := List.mem_append.mp found
  · exact .inr (printable line inside b here)
  · exact .inl (List.mem_singleton.mp last)

/-! ### Names -/

/-- A name that stands as it is in front of the value of a field. -/
structure Labels (name : Text) : Prop where
  simple : isFieldName name = true
  short : name.length ≤ 1024
  text : Value.ofPlain name = .text name

instance (name : Text) : Decidable (Labels name) :=
  decidable_of_iff
    (isFieldName name = true ∧ name.length ≤ 1024 ∧ Value.ofPlain name = .text name)
    ⟨fun ⟨simple, short, text⟩ => ⟨simple, short, text⟩,
      fun ⟨simple, short, text⟩ => ⟨simple, short, text⟩⟩

theorem isFieldName.ne_merge {name : Text} (simple : isFieldName name = true) :
    name ≠ Text.ofString "<<" := by
  rintro rfl
  revert simple
  decide +kernel

/-! ### Values -/

/-- The entry stands on a line, and gives the field `name` a value. -/
structure Entry.Gives (e : Entry) (line name : Text) (v : Value) : Prop where
  chars : spell line = e.chars
  printable : Printable line
  text : Value.ofPlain name = .text name
  name : e.name = name
  means : Value.ofScalar none e.text e.plain = .ok v

/-- An entry that stands on a line and gives a field its value. -/
abbrev Giving (line name : Text) (v : Value) : Type := { e : Entry // e.Gives line name v }

variable (name : Text) {line : Text} {v : Value}

theorem nonempty_giving (labels : Labels name) {written text : Text} {plain : Bool}
    (form : Written written text plain) (means : Value.ofScalar none text plain = .ok v) :
    Nonempty (Giving (name ++ (": " ++ written)) name v) := by
  have simple := labels.simple
  refine ⟨⟨name, written, text, plain, simple, labels.short, form⟩, ?_, ?_, labels.text, rfl,
    means⟩
  · have gap : spell (Text.ofString ": ") = [':', ' '] := by decide +kernel
    simp [Entry.chars, gap]
  · have gap : ∀ b ∈ Text.ofString ": ", Text.isPrintableByte b = true := by decide +kernel
    simp only [Printable, List.forall_mem_append]
    exact ⟨isFieldName.printable simple, gap, form.printable⟩

theorem nonempty_givingText (labels : Labels name) (indent : Nat) {s : Text}
    (printable : Printable s) :
    Nonempty (Giving (name ++ (": " ++ scalarText indent s)) name (.text s)) := by
  obtain ⟨plain, form, means⟩ := exists_written printable indent
  exact nonempty_giving name labels form means

theorem nonempty_givingInt (labels : Labels name) {n : Int} (nonneg : 0 ≤ n)
    (small : n < 0x8000000000000000) :
    Nonempty (Giving (name ++ (": " ++ Text.ofInt n)) name (.int n)) :=
  nonempty_giving name labels (.plain (standsPlain_ofInt nonneg))
    (congrArg Except.ok (ofPlain_ofInt nonneg small))

theorem nonempty_givingBool (labels : Labels name) (b : Bool) :
    Nonempty (Giving (name ++ (": " ++ boolText b)) name (.bool b)) :=
  nonempty_giving name labels (.plain (standsPlain_boolText b))
    (congrArg Except.ok (ofPlain_boolText b))

section

variable {name} {e : Entry} {α : Type} {r : Record α} {c : Context} {done : List Text} {a b : α}
  {entries : List (Node × Node)} {l : Nat}

/-- An entry that gives a field its value, in front of entries that give others. -/
theorem Entry.Gives.fills {β : Type} (gives : e.Gives line name v)
    {decode : Context → Node → Decoding (Option β)} {set : β → α → α} {given : β}
    (reads : ∀ l, Decoding.Reads (decode c (.scalar l none e.text e.plain)) (some given))
    (new : name ∉ done) (field : r.field? name = some (.store decode set))
    (later : r.Fills c (name :: done) entries (set given a) b) :
    r.Fills c done (e.node l :: entries) a b := by
  obtain rfl := gives.name
  exact .cons gives.text (isFieldName.ne_merge e.simple) new field
    (Update.reads_store (reads _) a) later

theorem Entry.Gives.fills_text {s : Text} (gives : e.Gives line name (.text s))
    (direct : c.aliases = []) {set : Text → α → α} (new : name ∉ done)
    (field : r.field? name = some (.store decodeText set))
    (later : r.Fills c (name :: done) entries (set s a) b) :
    r.Fills c done (e.node l :: entries) a b :=
  gives.fills (fun _ => reads_decodeText direct gives.means) new field later

theorem Entry.Gives.fills_int {n : Int} (gives : e.Gives line name (.int n))
    (direct : c.aliases = []) (small : n < 0x8000000000000000) {set : Int → α → α}
    (new : name ∉ done) (field : r.field? name = some (.store decodeInt set))
    (later : r.Fills c (name :: done) entries (set n a) b) :
    r.Fills c done (e.node l :: entries) a b :=
  gives.fills (fun _ => reads_decodeInt direct gives.means small) new field later

theorem Entry.Gives.fills_bool {given : Bool} (gives : e.Gives line name (.bool given))
    (direct : c.aliases = []) {set : Bool → α → α} (new : name ∉ done)
    (field : r.field? name = some (.store decodeBool set))
    (later : r.Fills c (name :: done) entries (set given a) b) :
    r.Fills c done (e.node l :: entries) a b :=
  gives.fills (fun _ => reads_decodeBool direct gives.means) new field later

end

end NumScript.Yaml
