import NumScript.Proofs.Yaml.Lines
import NumScript.Yaml.Library

/-! What a YAML library promises. A scalar that it has encoded it decodes as the same scalar, and a
record that it has written it reads field by field. The library at hand keeps the first promise for
every text in printable ASCII, every integer of 64 bits that is not negative and both truth
values. -/

namespace NumScript.Yaml

/-- A scalar that the library has encoded is decoded as the same scalar. -/
structure Library.RoundTrips (yaml : Library) : Prop where
  text : ∀ {s : Text}, Printable s → yaml.text? (yaml.ofText s) = some s
  int : ∀ {n : Int}, 0 ≤ n → n < 0x8000000000000000 → yaml.int? (yaml.ofInt n) = some n
  bool : ∀ b, yaml.bool? (yaml.ofBool b) = some b

namespace Field

variable {α : Type}

/-- The value of the field is one that round trips are promised for. -/
def Plain (a : α) : Field α → Prop
  | text get _ => Printable (get a)
  | int get _ => 0 ≤ get a ∧ get a < 0x8000000000000000
  | bool _ _ => True

/-- Encodes the field of `a` and stores what is decoded of that in `b`. -/
def reread? (yaml : Library) (a b : α) : Field α → Option α
  | text get store => (yaml.text? (yaml.ofText (get a))).map fun v => store v b
  | int get store => (yaml.int? (yaml.ofInt (get a))).map fun v => store v b
  | bool get store => (yaml.bool? (yaml.ofBool (get a))).map fun v => store v b

/-- Stores the field of `a` in `b`. -/
def copy (a b : α) : Field α → α
  | text get store => store (get a) b
  | int get store => store (get a) b
  | bool get store => store (get a) b

theorem reread?_eq {yaml : Library} (scalars : yaml.RoundTrips) {a : α} {f : Field α}
    (plain : f.Plain a) (b : α) : f.reread? yaml a b = some (f.copy a b) := by
  cases f with
  | text get store => rw [reread?, scalars.text plain, Option.map_some, copy]
  | int get store => rw [reread?, scalars.int plain.1 plain.2, Option.map_some, copy]
  | bool get store => rw [reread?, scalars.bool, Option.map_some, copy]

end Field

/-- The fields that a member brings. -/
def Member.fields {α : Type} : Member α → List (Field α)
  | field f => [f]
  | inner _ fields => fields.map Prod.snd

namespace Schema

variable {α : Type}

/-- The fields of a record and of the records inside it. -/
def fields (schema : Schema α) : List (Field α) :=
  schema.members.flatMap fun member => member.2.fields

/-- Every field of the record has a value that round trips are promised for. -/
def Plain (schema : Schema α) (a : α) : Prop := ∀ f ∈ schema.fields, f.Plain a

/-- Encodes every field of `a` and stores what is decoded of it in `b`. -/
def reread? (yaml : Library) (schema : Schema α) (a b : α) : Option α :=
  schema.fields.foldlM (fun b f => f.reread? yaml a b) b

/-- Stores every field of `a` in `b`. -/
def copy (schema : Schema α) (a b : α) : α := schema.fields.foldl (fun b f => f.copy a b) b

/-- Fields that round trip are stored as they were. -/
theorem reread?_eq {yaml : Library} (scalars : yaml.RoundTrips) {schema : Schema α} {a : α}
    (plain : schema.Plain a) (b : α) : schema.reread? yaml a b = some (schema.copy a b) := by
  rw [reread?, copy]
  unfold Plain at plain
  revert plain
  induction schema.fields generalizing b with
  | nil => exact fun _ => rfl
  | cons f rest ih =>
    intro plain
    obtain ⟨here, later⟩ := List.forall_mem_cons.mp plain
    rw [List.foldlM_cons, Field.reread?_eq scalars here, List.foldl_cons]
    exact ih (f.copy a b) later

end Schema

/-- A record that the library has written is read over another one by decoding each field from what
was encoded of it, and by nothing else. -/
def Library.Rereads (yaml : Library) {α : Type} (schema : Schema α) : Prop :=
  ∀ a b r, schema.Plain a → schema.reread? yaml a b = some r →
    yaml.unmarshal schema (yaml.marshal schema a) b = .ok (some r)

/-! ### Scalars of the library -/

theorem decodeAlone_eq {β : Type} {decode : Context → Node → Decoding (Option β)} {node : Node}
    {b : β} (reads : ∀ c : Context, c.aliases = [] → Decoding.Reads (decode c node) (some b)) :
    decodeAlone decode node = some b := by
  obtain ⟨f, clean, ran⟩ :=
    reads ⟨{ root := node, size := 1 }, []⟩ rfl { read := 1 } ⟨rfl, rfl⟩
  rw [decodeAlone, ran]
  simp only [clean.faultless, List.isEmpty_nil, if_true]

theorem length_le_flatMap {inside : UInt8 → Text} (shown : ∀ b, inside b ≠ []) (s : Text) :
    s.length ≤ (s.flatMap inside).length := by
  induction s with
  | nil => exact Nat.le_refl _
  | cons b rest ih =>
    have here := List.length_pos_iff.mpr (shown b)
    rw [List.flatMap_cons, List.length_append, List.length_cons]
    omega

/-- A text is not the same in quotes. -/
theorem ne_quoted {inside : UInt8 → Text} (shown : ∀ b, inside b ≠ []) (quote : UInt8) (s : Text) :
    quote :: (s.flatMap inside ++ [quote]) ≠ s := by
  intro same
  have longer := length_le_flatMap shown s
  have lengths := congrArg List.length same
  simp only [List.length_cons, List.length_append, List.length_nil] at lengths
  omega

/-- What is written is the text itself when it is plain. -/
theorem Written.plain_iff {written text : Text} {plain : Bool} (form : Written written text plain) :
    written = text ↔ plain = true := by
  cases form with
  | plain stands => exact iff_of_true rfl rfl
  | single printable =>
    refine iff_of_false (ne_quoted (fun b => ?_) _ _) Bool.false_ne_true
    rw [insideSingle]
    split <;> simp
  | double printable =>
    refine iff_of_false (ne_quoted (fun b => ?_) _ _) Bool.false_ne_true
    rw [insideDouble]
    split <;> simp

/-- The node of a printable text means that text. -/
theorem exists_textNode {s : Text} (printable : Printable s) :
    ∃ plain, textNode s = .scalar 1 none s plain ∧ Value.ofScalar none s plain = .ok (.text s) := by
  obtain ⟨plain, form, means⟩ := exists_written printable 4
  refine ⟨plain, ?_, means⟩
  unfold textNode
  rw [if_pos printable.isCharacters, Node.scalar.injEq]
  refine ⟨rfl, rfl, rfl, ?_⟩
  rw [Bool.eq_iff_iff, decide_eq_true_eq, form.plain_iff]

/-- The library keeps its promise about scalars. -/
theorem library_roundTrips : library.RoundTrips where
  text {s} printable := decodeAlone_eq fun c direct => by
    obtain ⟨plain, node, means⟩ := exists_textNode printable
    have same : library.ofText s = .scalar 1 none s plain := node
    rw [same]
    exact reads_decodeText direct means
  int nonneg small := decodeAlone_eq fun c direct =>
    reads_decodeInt direct (congrArg Except.ok (ofPlain_ofInt nonneg small)) small
  bool b := decodeAlone_eq fun c direct =>
    reads_decodeBool direct (congrArg Except.ok (ofPlain_boolText b))

end NumScript.Yaml
