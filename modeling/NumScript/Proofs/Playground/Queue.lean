import Mathlib.Data.Finmap
import Mathlib.Data.List.DropRight
import NumScript.Proofs.Playground.Caching

/-! The cache as a table and a queue. The values are in a table, their keys in a queue beside it,
and the two are changed one after the other. They stay in step, and together they are the cache:
what was brought last, as much as there is room for. -/

namespace NumScript

/-- A cache of bounded size whose values are in a table and whose keys, the oldest first, are in a
queue beside it. -/
structure QueuedTable (α : Type) where
  limit : Int
  table : Finmap fun _ : Text => α := ∅
  queue : List Text := []

/-- A use of a cache. -/
inductive CacheCall (α : Type) where
  | get (key : Text)
  | put (key : Text) (value : α)

/-- The table holds the entries of `stored`, and the queue their keys in the same order. -/
structure QueuedTable.Holds {α : Type} (s : QueuedTable α) (stored : List (Text × α)) : Prop where
  nodup : s.queue.Nodup
  keys : ∀ key, key ∈ s.queue ↔ key ∈ s.table
  size : s.table.keys.card ≤ max s.limit 0
  queue : s.queue = stored.map (·.1)
  values : ∀ key value, s.table.lookup key = some value ↔ (key, value) ∈ stored

namespace QueuedTable

variable {α : Type}

/-- Takes keys from the queue, and their values out of the table, until there is room for one value
more. There is no result when a key is to be taken from the empty queue. -/
def makeRoom? (limit : Int) :
    (Finmap fun _ : Text => α) → List Text → Option ((Finmap fun _ : Text => α) × List Text)
  | table, [] => if table.keys.card < limit then some (table, []) else none
  | table, oldest :: queue =>
    if table.keys.card < limit then some (table, oldest :: queue)
    else makeRoom? limit (table.erase oldest) queue

/-- Stores a value, if there is none under its key. -/
def put? (s : QueuedTable α) (key : Text) (value : α) : Option (QueuedTable α) :=
  if s.limit ≤ 0 then some s
  else if key ∈ s.table then some s
  else
    (makeRoom? s.limit s.table s.queue).map fun (table, queue) =>
      { s with table := table.insert key value, queue := queue ++ [key] }

def call? (s : QueuedTable α) : CacheCall α → Option (QueuedTable α)
  | .get _ => some s
  | .put key value => s.put? key value

/-! ### The table of a list -/

/-- The table with the given entries. -/
def tableOf (entries : List (Text × α)) : Finmap fun _ : Text => α :=
  (entries.map Prod.toSigma).toFinmap

variable {entries : List (Text × α)} {key : Text} {value : α}

theorem tableOf_cons (entry : Text × α) (entries : List (Text × α)) :
    tableOf (entry :: entries) = (tableOf entries).insert entry.1 entry.2 := rfl

theorem lookup_tableOf (entries : List (Text × α)) (key : Text) :
    (tableOf entries).lookup key = entries.lookup key := by
  induction entries with
  | nil => rfl
  | cons entry entries ih =>
    rw [tableOf_cons, List.lookup_cons]
    by_cases same : key = entry.1
    · rw [same, Finmap.lookup_insert, beq_self_eq_true]
    · rw [Finmap.lookup_insert_of_ne _ same, ih, beq_false_of_ne same]

theorem mem_tableOf : key ∈ tableOf entries ↔ key ∈ entries.map (·.1) := by
  induction entries with
  | nil => exact iff_of_false Finmap.notMem_empty List.not_mem_nil
  | cons entry entries ih => rw [tableOf_cons, Finmap.mem_insert, ih, List.map_cons, List.mem_cons]

theorem card_tableOf (nodup : (entries.map (·.1)).Nodup) :
    (tableOf entries).keys.card = entries.length := by
  have keys : (tableOf entries).keys = (entries.map (·.1)).toFinset := by
    ext key
    rw [Finmap.mem_keys, mem_tableOf, List.mem_toFinset]
  rw [keys, List.toFinset_card_of_nodup nodup, List.length_map]

theorem erase_tableOf_cons {entry : Text × α} (absent : entry.1 ∉ entries.map (·.1)) :
    (tableOf (entry :: entries)).erase entry.1 = tableOf entries := by
  rw [← mem_tableOf] at absent
  refine Finmap.ext_lookup fun key => ?_
  by_cases same : key = entry.1
  · rw [same, Finmap.lookup_erase, Finmap.lookup_eq_none.mpr absent]
  · rw [Finmap.lookup_erase_ne same, tableOf_cons, Finmap.lookup_insert_of_ne _ same]

theorem insert_tableOf (absent : key ∉ entries.map (·.1)) :
    (tableOf entries).insert key value = tableOf (entries ++ [(key, value)]) := by
  rw [← mem_tableOf, ← Finmap.lookup_eq_none, lookup_tableOf] at absent
  refine Finmap.ext_lookup fun other => ?_
  rw [lookup_tableOf, List.lookup_append]
  by_cases same : other = key
  · rw [same, Finmap.lookup_insert, absent]
    simp
  · rw [Finmap.lookup_insert_of_ne _ same, lookup_tableOf, List.lookup_cons,
      beq_false_of_ne same]
    simp

/-- The queue is long enough to make room. -/
theorem makeRoom?_tableOf {limit : Int} (positive : 0 < limit)
    (nodup : (entries.map (·.1)).Nodup) :
    makeRoom? limit (tableOf entries) (entries.map (·.1)) =
      let kept := entries.drop (entries.length + 1 - limit.toNat)
      some (tableOf kept, kept.map (·.1)) := by
  induction entries with
  | nil =>
    have room : ((tableOf ([] : List (Text × α))).keys.card : Int) < limit := positive
    simp [makeRoom?, room]
  | cons entry entries ih =>
    -- The front of the queue is the oldest key, and without it the table is that of the others.
    obtain ⟨absent, below⟩ := List.nodup_cons.mp nodup
    rw [List.map_cons, makeRoom?, card_tableOf nodup, erase_tableOf_cons absent, ih below]
    rw [List.length_cons]
    split
    · have enough : entries.length + 1 + 1 - limit.toNat = 0 := by omega
      rw [enough, List.drop_zero]
      rfl
    · have more : entries.length + 1 + 1 - limit.toNat =
          entries.length + 1 - limit.toNat + 1 := by omega
      rw [more, List.drop_succ_cons]

end QueuedTable

theorem List.rtake_rtake_append {α : Type} (front back : List α) (n : Nat) :
    (front.rtake n ++ back).rtake n = (front ++ back).rtake n := by
  unfold List.rtake
  rw [← List.drop_append_of_le_length (Nat.sub_le front.length n), List.drop_drop]
  congr 1
  simp only [List.length_drop, List.length_append]
  omega

theorem List.map_rtake {α β : Type} (f : α → β) (l : List α) (n : Nat) :
    (l.rtake n).map f = (l.map f).rtake n := by
  rw [List.rtake, List.map_drop, List.rtake, List.length_map]

namespace Cache

variable {α : Type} {c : Cache α} {key : Text} {value : α}

/-- The cache with its values in a table and their keys in a queue. -/
def queued (c : Cache α) : QueuedTable α where
  limit := c.limit
  table := QueuedTable.tableOf c.entries
  queue := c.keys

def call (c : Cache α) : CacheCall α → Cache α
  | .get _ => c
  | .put key value => c.put key value

/-- What a list of calls brings into the cache, in order: the values that are put under keys which
are absent then. -/
def effective (c : Cache α) : List (CacheCall α) → List (Text × α)
  | [] => []
  | .get _ :: calls => c.effective calls
  | .put key value :: calls =>
    if c.keys.contains key then c.effective calls
    else (key, value) :: (c.put key value).effective calls

/-- Each key is there once, and there are no more entries than allowed. -/
structure Tidy (c : Cache α) : Prop where
  nodup : c.keys.Nodup
  bounded : c.entries.length ≤ c.limit.toNat

theorem tidy_empty (limit : Int) : Tidy { limit := limit : Cache α } :=
  ⟨List.nodup_nil, Nat.zero_le _⟩

theorem put_of_mem (present : key ∈ c.keys) : c.put key value = c := by
  simp [put, present]

theorem put_of_limit (disabled : c.limit ≤ 0) : c.put key value = c := by
  simp [put, disabled]

theorem put_of_not_mem (enabled : 0 < c.limit) (absent : key ∉ c.keys) :
    c.put key value =
      { c with
        entries := c.entries.drop (c.entries.length + 1 - c.limit.toNat) ++ [(key, value)] } := by
  rw [put, if_neg (by simpa [absent] using enabled)]

theorem limit_put (c : Cache α) (key : Text) (value : α) : (c.put key value).limit = c.limit := by
  unfold put
  split <;> rfl

theorem effective_of_mem (present : key ∈ c.keys) (calls : List (CacheCall α)) :
    c.effective (.put key value :: calls) = c.effective calls :=
  if_pos (List.contains_iff_mem.mpr present)

theorem effective_of_not_mem (absent : key ∉ c.keys) (calls : List (CacheCall α)) :
    c.effective (.put key value :: calls) =
      (key, value) :: (c.put key value).effective calls :=
  if_neg (absent ∘ List.contains_iff_mem.mp)

theorem effective_append (c : Cache α) (calls more : List (CacheCall α)) :
    c.effective (calls ++ more) =
      c.effective calls ++ (calls.foldl Cache.call c).effective more := by
  induction calls generalizing c with
  | nil => rfl
  | cons use calls ih =>
    cases use with
    | get key => exact ih c
    | put key value =>
      rw [List.cons_append, List.foldl_cons, Cache.call]
      by_cases present : key ∈ c.keys
      · rw [effective_of_mem present, effective_of_mem present, ih, put_of_mem present]
      · rw [effective_of_not_mem present, effective_of_not_mem present, ih, List.cons_append]

namespace Tidy

/-- Behind a value that is new the oldest ones give way. -/
theorem entries_put (tidy : c.Tidy) (absent : key ∉ c.keys) :
    (c.put key value).entries = (c.entries ++ [(key, value)]).rtake c.limit.toNat := by
  rcases lt_or_ge 0 c.limit with enabled | disabled
  · have surplus : c.entries.length + 1 - c.limit.toNat ≤ c.entries.length := by omega
    rw [put_of_not_mem enabled absent, List.rtake, List.length_append, List.length_singleton,
      List.drop_append_of_le_length surplus]
  · have room := tidy.bounded
    rw [Int.toNat_of_nonpos disabled] at room ⊢
    have empty : c.entries = [] := List.length_eq_zero_iff.mp (Nat.le_zero.mp room)
    rw [put_of_limit disabled, empty, List.rtake_zero]

theorem put (tidy : c.Tidy) (key : Text) (value : α) : (c.put key value).Tidy := by
  by_cases present : key ∈ c.keys
  · rw [put_of_mem present]
    exact tidy
  · have entries : (c.put key value).entries = _ := tidy.entries_put present
    constructor
    · have fresh : (c.keys ++ [key]).Nodup :=
        List.nodup_append.mpr ⟨tidy.nodup, List.nodup_singleton key, by
          rintro other member _ new rfl
          exact present (List.mem_singleton.mp new ▸ member)⟩
      have kept := (List.drop_sublist (c.entries.length + 1 - c.limit.toNat)
        (c.entries ++ [(key, value)])).map (·.1)
      rw [List.map_append] at kept
      rw [keys, entries, List.rtake, List.length_append]
      exact fresh.sublist kept
    · rw [entries, limit_put, List.rtake, List.length_drop]
      omega

theorem call (tidy : c.Tidy) (use : CacheCall α) : (c.call use).Tidy := by
  cases use with
  | get key => exact tidy
  | put key value => exact tidy.put key value

theorem foldl (tidy : c.Tidy) (calls : List (CacheCall α)) :
    (calls.foldl Cache.call c).Tidy :=
  List.foldlRecOn calls Cache.call tidy fun _ tidy use _ => tidy.call use

theorem entries_foldl (tidy : c.Tidy) (calls : List (CacheCall α)) :
    (calls.foldl Cache.call c).entries =
      (c.entries ++ c.effective calls).rtake c.limit.toNat := by
  induction calls generalizing c with
  | nil =>
    have all : c.entries.length - c.limit.toNat = 0 := Nat.sub_eq_zero_of_le tidy.bounded
    simp [effective, List.rtake, all]
  | cons use calls ih =>
    rw [List.foldl_cons, ih (tidy.call use)]
    cases use with
    | get key => rfl
    | put key value =>
      rw [Cache.call]
      by_cases present : key ∈ c.keys
      · rw [effective_of_mem present, put_of_mem present]
      · rw [effective_of_not_mem present, limit_put, tidy.entries_put present,
          List.rtake_rtake_append, List.append_assoc, List.singleton_append]

end Tidy

/-- Storing in the table and queueing the key is storing. -/
theorem queued_put (nodup : c.keys.Nodup) (key : Text) (value : α) :
    c.queued.put? key value = some (c.put key value).queued := by
  unfold QueuedTable.put?
  by_cases disabled : c.queued.limit ≤ 0
  · rw [if_pos disabled, put_of_limit disabled]
  by_cases present : key ∈ c.queued.table
  · rw [if_neg disabled, if_pos present, put_of_mem (QueuedTable.mem_tableOf.mp present)]
  rw [if_neg disabled, if_neg present]
  have enabled : 0 < c.limit := Int.not_le.mp disabled
  have absent : key ∉ c.keys := fun member => present (QueuedTable.mem_tableOf.mpr member)
  rw [put_of_not_mem enabled absent]
  generalize same : c.entries.drop (c.entries.length + 1 - c.limit.toNat) = kept
  have room : QueuedTable.makeRoom? c.queued.limit c.queued.table c.queued.queue =
      some (QueuedTable.tableOf kept, kept.map (·.1)) := by
    subst same
    exact QueuedTable.makeRoom?_tableOf enabled nodup
  have absent' : key ∉ kept.map (·.1) := fun member => by
    rw [← same, List.map_drop] at member
    exact absent (List.mem_of_mem_drop member)
  rw [room, Option.map_some]
  simp [queued, keys, QueuedTable.insert_tableOf absent']

theorem limit_foldl (c : Cache α) (calls : List (CacheCall α)) :
    (calls.foldl Cache.call c).limit = c.limit := by
  induction calls generalizing c with
  | nil => rfl
  | cons use calls ih =>
    rw [List.foldl_cons, ih]
    cases use with
    | get key => rfl
    | put key value => exact c.limit_put key value

/-- The queue never runs empty, and table and queue are those of the cache. -/
theorem Tidy.queued_foldlM (tidy : c.Tidy) (calls : List (CacheCall α)) :
    calls.foldlM QueuedTable.call? c.queued = some (calls.foldl Cache.call c).queued := by
  induction calls generalizing c with
  | nil => rfl
  | cons use calls ih =>
    have first : c.queued.call? use = some (c.call use).queued := by
      cases use with
      | get key => rfl
      | put key value => exact queued_put tidy.nodup key value
    rw [List.foldlM_cons, first]
    exact ih (tidy.call use)

theorem get?_eq_some_iff (nodup : c.keys.Nodup) :
    c.get? key = some value ↔ (key, value) ∈ c.entries := by
  refine ⟨mem_of_get?, fun member => List.lookup_eq_some_iff.mpr ?_⟩
  obtain ⟨before, after, split⟩ := List.append_of_mem member
  refine ⟨before, after, split, fun entry earlier => ?_⟩
  rw [keys, split, List.map_append] at nodup
  have apart := (List.nodup_append.mp nodup).2.2 entry.1 (List.mem_map_of_mem earlier) key
    (List.mem_map_of_mem List.mem_cons_self)
  simpa using apart.symm

theorem get?_eq_none_iff : c.get? key = none ↔ key ∉ c.keys := by
  rw [get?, List.lookup_eq_none_iff, keys, List.mem_map]
  constructor
  · rintro other ⟨entry, member, rfl⟩
    simpa using other entry member
  · intro absent entry member
    exact bne_iff_ne.mpr fun same => absent ⟨entry, member, same.symm⟩

theorem Tidy.holds (tidy : c.Tidy) : c.queued.Holds c.entries where
  nodup := tidy.nodup
  keys key := QueuedTable.mem_tableOf.symm
  size := by
    have bounded := tidy.bounded
    change ((QueuedTable.tableOf c.entries).keys.card : Int) ≤ max c.limit 0
    rw [QueuedTable.card_tableOf tidy.nodup]
    omega
  queue := rfl
  values key value := by
    change (QueuedTable.tableOf c.entries).lookup key = some value ↔ _
    rw [QueuedTable.lookup_tableOf]
    exact get?_eq_some_iff tidy.nodup

end Cache

end NumScript
