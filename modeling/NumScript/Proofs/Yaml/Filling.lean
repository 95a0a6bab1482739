import NumScript.Yaml.Record

/-! Mappings that fill a record. When each entry gives another field of the record a value that
fits, the mapping is read without a fault, and the record holds those values. -/

namespace NumScript.Yaml

/-- Nothing has been found at fault, and no alias has been followed. -/
structure Findings.Clean (f : Findings) : Prop where
  faultless : f.faults = []
  direct : f.aliased = 0

theorem Findings.Clean.not_excessive {f : Findings} (clean : f.Clean) : f.excessive = false := by
  simp [Findings.excessive, clean.direct]

namespace Decoding

variable {α β : Type} {x : Decoding α} {a : α} {b : β}

/-- The step reads `a`. Findings that are clean before it are clean behind it. -/
def Reads (x : Decoding α) (a : α) : Prop :=
  ∀ f : Findings, f.Clean → ∃ f', f'.Clean ∧ x.run f = .ok (a, f')

theorem Reads.pure (a : α) : Reads (Pure.pure a) a := fun f clean => ⟨f, clean, rfl⟩

theorem Reads.bind {next : α → Decoding β} (first : Reads x a) (later : Reads (next a) b) :
    Reads (x >>= next) b := by
  intro f clean
  obtain ⟨f', clean', here⟩ := first f clean
  obtain ⟨f'', clean'', there⟩ := later f' clean'
  refine ⟨f'', clean'', ?_⟩
  rw [StateT.run_bind, here]
  exact there

/-- A node that no alias led to is counted. -/
theorem reads_count : Reads (count false) () := by
  intro f clean
  have counted : Findings.Clean { f with read := f.read + 1 } := ⟨clean.faultless, clean.direct⟩
  refine ⟨_, counted, ?_⟩
  change ((if Findings.excessive { f with read := f.read + 1 } then
    fail .excessiveAliasing else Pure.pure () : Decoding Unit)).run _ = _
  rw [counted.not_excessive]
  rfl

end Decoding

open Decoding

section

variable {α : Type} {c : Context} {line : Nat} {s : Text} {plain : Bool} {v : Value} {a : α}

/-! ### Scalars -/

theorem reads_visit {node : Node} {read : Context → Node → Decoding α} (direct : c.aliases = [])
    (itself : ∀ l name number target, node ≠ .reference l name number target)
    (inside : Reads (read c node) a) : Reads (c.visit node read) a := by
  have counted : Reads (Decoding.count !c.aliases.isEmpty) () := by
    rw [direct]
    exact reads_count
  cases node with
  | reference l name number target => exact absurd rfl (itself l name number target)
  | _ => exact counted.bind inside

theorem reads_decodeScalar {tag : Option Text} (means : Value.ofScalar tag s plain = .ok v) :
    Reads (decodeScalar tag s plain) v := by
  rw [decodeScalar, means]
  exact .pure v

theorem reads_decodeValue {wanted : String} {convert? : Text → Value → Option α}
    (direct : c.aliases = []) (means : Value.ofScalar none s plain = .ok v) (given : v ≠ .null)
    (fits : convert? s v = some a) :
    Reads (decodeValue wanted convert? c (.scalar line none s plain)) (some a) := by
  refine reads_visit direct nofun ((reads_decodeScalar means).bind ?_)
  simp only [given, fits, if_false]
  exact .pure _

theorem reads_decodeText {t : Text} (direct : c.aliases = [])
    (means : Value.ofScalar none s plain = .ok (.text t)) :
    Reads (decodeText c (.scalar line none s plain)) (some t) :=
  reads_decodeValue direct means nofun rfl

theorem reads_decodeInt {n : Int} (direct : c.aliases = [])
    (means : Value.ofScalar none s plain = .ok (.int n)) (small : n < 0x8000000000000000) :
    Reads (decodeInt c (.scalar line none s plain)) (some n) :=
  reads_decodeValue direct means nofun (if_pos small)

theorem reads_decodeBool {b : Bool} (direct : c.aliases = [])
    (means : Value.ofScalar none s plain = .ok (.bool b)) :
    Reads (decodeBool c (.scalar line none s plain)) (some b) :=
  reads_decodeValue direct means nofun rfl

theorem Update.reads_store {β : Type} {decode : Context → Node → Decoding (Option β)}
    {set : β → α → α} {node : Node} {b : β} (reads : Reads (decode c node) (some b)) (a : α) :
    Reads (Update.store decode set c node a) (set b a) :=
  reads.bind (.pure _)

end

namespace Record

variable {α : Type} {r : Record α} {c : Context} {done : List Text} {a b : α}
  {entries : List (Node × Node)}

/-- The entries turn `a` into `b`. Each of them gives a field that has not been given before,
neither by them nor in `done`. -/
inductive Fills (r : Record α) (c : Context) : List Text → List (Node × Node) → α → α → Prop
  | nil {done : List Text} {a : α} : Fills r c done [] a a
  | cons {done : List Text} {entries : List (Node × Node)} {a between b : α} {name : Text}
      {value : Node} {update : Update α} {line : Nat} :
      Value.ofPlain name = .text name → name ≠ Text.ofString "<<" → name ∉ done →
      r.field? name = some update → Reads (update c value a) between →
      Fills r c (name :: done) entries between b →
      Fills r c done ((.scalar line none name true, value) :: entries) a b

theorem Fills.reads_entries (fills : Fills r c done entries a b) (direct : c.aliases = []) :
    Reads (r.readEntries c entries done none a) (b, none) := by
  induction fills with
  | nil => exact .pure _
  | @cons done entries a between b name value update line text notMerge new field now _ ih =>
    have unmerged : (Node.scalar line none name true).isMerge = false := by
      simp [Node.isMerge, notMerge]
    have key : Reads (decodeText c (.scalar line none name true)) (some name) :=
      reads_decodeText direct (congrArg Except.ok text)
    rw [readEntries, unmerged]
    refine key.bind ?_
    simp only [Option.any_none, Option.map_none, Bool.false_eq_true, if_false, field,
      List.contains_eq_mem, decide_eq_true_eq, new]
    exact now.bind ih

theorem Fills.keys (fills : Fills r c done entries a b) :
    ∀ entry ∈ entries, ∃ line name, entry.1 = .scalar line none name true ∧
      name ≠ Text.ofString "<<" ∧ name ∉ done := by
  induction fills with
  | nil => nofun
  | @cons done entries a between b name value update line text notMerge new field now _ ih =>
    rw [List.forall_mem_cons]
    refine ⟨⟨line, name, rfl, notMerge, new⟩, fun entry member => ?_⟩
    obtain ⟨l, other, same, notMerge, new⟩ := ih entry member
    exact ⟨l, other, same, notMerge, fun inside => new (List.mem_cons_of_mem _ inside)⟩

/-- No key is given twice. -/
theorem Fills.clashes_eq_nil (fills : Fills r c done entries a b) : clashes entries = [] := by
  induction fills with
  | nil => rfl
  | @cons done entries a between b name value update line text notMerge new field now later ih =>
    simp only [clashes, ih, List.append_nil, List.map_eq_nil_iff, List.filter_eq_nil_iff]
    intro entry member
    obtain ⟨l, other, same, -, unequal⟩ := later.keys entry member
    have differs : name ≠ other := fun same => unequal (same ▸ List.mem_cons_self)
    change ¬ sameKey (.scalar line none name true) entry.1 = true
    simp [same, sameKey, differs]

theorem Fills.find?_isMerge (fills : Fills r c done entries a b) :
    entries.find? (·.1.isMerge) = none := by
  rw [List.find?_eq_none]
  intro entry member
  obtain ⟨l, name, same, notMerge, -⟩ := fills.keys entry member
  simp [same, Node.isMerge, notMerge]

/-- A mapping that fills a record is read into it. -/
theorem Fills.reads_update (fills : Fills r c [] entries a b) (direct : c.aliases = [])
    (line : Nat) : Reads (r.update c (.mapping line none entries) a) b := by
  have merged (read : Merge α) : Reads (merge read c entries none b) (b, none) := by
    rw [merge, fills.find?_isMerge]
    exact .pure _
  refine reads_visit direct nofun ?_
  refine Reads.bind (a := (b, none)) ?_ (.pure b)
  -- The mapping itself takes a step, and merges nothing.
  change Reads (r.readNode ((c.document.size + 1) * c.document.size + c.document.size + 1) c
    (.mapping line none entries) none a) _
  rw [readNode]
  simp only [fills.clashes_eq_nil]
  exact (fills.reads_entries direct).bind (merged _)

end Record

end NumScript.Yaml
