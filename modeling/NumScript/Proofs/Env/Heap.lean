import Mathlib.Data.List.Sort
import NumScript.Proofs.Env.Cloning
import NumScript.Proofs.Env.Views

/-! Calls on environments in memory. Each call answers as it does on the lists of scopes, and leaves
a memory that shows what it leaves of these; so no sequence of calls ever follows a pointer to
nothing, and after it the table, the order and the constants of every environment fit together. -/

namespace NumScript

namespace Heap

/-- The problem with a change that is refused. -/
def refusal {α : Type} : Except Diagnostic α → Option Diagnostic
  | .error d => some d
  | .ok _ => none

variable {h : Heap} {forest : Forest}

theorem frames_alloc (h : Heap) (sym : Symbol) : (h.alloc sym).frames = h.frames := rfl

theorem cells_alloc (h : Heap) (sym : Symbol) :
    (h.alloc sym).cells[h.cells.length]? = some ⟨sym, none⟩ :=
  List.getElem?_concat_length ..

theorem cells_own {p : Nat} {sym : Symbol} {owner : Option Nat}
    (held : h.cells[p]? = some ⟨sym, owner⟩) (e : Nat) (frame : Frame) :
    (h.own e p frame).cells[p]? = some ⟨sym, some e⟩ := by
  rw [own, List.getElem?_modify_eq, held]
  rfl

/-- A fresh symbol whose name is not recorded as a constant is declared. -/
theorem declare_of_free {e : Nat} {frame : Frame} (found : h.frames[e]? = some frame)
    {sym : Symbol} (free : sym.name ∉ frame.constants) :
    (h.alloc sym).declare e h.cells.length =
      some (none, (h.alloc sym).own e h.cells.length (frame.declare sym h.cells.length)) := by
  simp [Heap.declare, frames_alloc, found, cells_alloc, free]

namespace Shows

/-! ### Changes -/

/-- Declaring a fresh symbol: a refusal has an earlier declaration to cite. -/
theorem declare (shows : h.Shows forest) (sound : forest.Sound) (consistent : forest.Consistent)
    {e : Nat} (opened : e < forest.nodes.length) (sym : Symbol) :
    ∃ after, (h.alloc sym).declare e h.cells.length =
        some (refusal (forest.declare e sym), after) ∧
      after.Shows ((forest.declare e sym).toOption.getD forest) := by
  obtain ⟨frame, scope, found, present, inside⟩ := shows.exists_frame opened
  rw [Forest.declare_eq sound present]
  by_cases taken : sym.name ∈ scope.constants
  · obtain ⟨previous, held, -⟩ := (consistent e scope present).constant _ taken
    obtain ⟨q, entered, cell⟩ := inside.lookup held
    rw [if_pos taken, held]
    have cell' : (h.alloc sym).cells[q]? = some ⟨previous, some e⟩ :=
      Owned.of_grown (List.prefix_append ..) q previous cell
    refine ⟨h.alloc sym, ?_, shows.alloc sym⟩
    have recorded : sym.name ∈ frame.constants := inside.constants ▸ List.mem_toFinset.mpr taken
    simp [Heap.declare, frames_alloc, found, cells_alloc, recorded, entered, cell', refusal]
  · rw [if_neg taken]
    have free : sym.name ∉ frame.constants := by rwa [inside.constants, List.mem_toFinset]
    exact ⟨_, declare_of_free found free, (shows.alloc sym).own (cells_alloc h sym) found⟩

theorem assignCell (shows : h.Shows forest) {j p : Nat} {name : Text} {sym : Symbol}
    (entered : h.lookupLocal? j name = some p) (held : h.cells[p]? = some ⟨sym, some j⟩)
    (v : Float) (place : Position) :
    ∃ after, h.assignCell p v place =
        some (if sym.constant then some (sym.assigned place) else none, after) ∧
      after.Shows
        (if sym.constant then forest else forest.alter j (·.modify name (Symbol.bind v))) := by
  rw [Heap.assignCell, held, Option.bind_eq_bind, Option.bind_some]
  split
  · exact ⟨h, rfl, shows⟩
  · exact ⟨_, rfl, shows.update entered fun _ => rfl⟩

/-- Assigning: a name that is not visible is declared without being refused. -/
theorem assign (shows : h.Shows forest) (sound : forest.Sound) (consistent : forest.Consistent)
    {e : Nat} (opened : e < forest.nodes.length) (name : Text) (v : Float) (place : Position) :
    ∃ after, h.assign e name v place = some (refusal (forest.assign e name v place), after) ∧
      after.Shows ((forest.assign e name v place).toOption.getD forest) := by
  rcases shows.resolve?_cases e name with
    ⟨unseen, missing⟩ | ⟨j, p, sym, owned, held, resolved, entered, cell⟩
  · -- A new symbol is declared, and then it gets its value.
    obtain ⟨frame, scope, found, present, inside⟩ := shows.exists_frame opened
    have free := consistent.free_of_unseen present unseen
    have absent : name ∉ scope.names := by
      rw [scope.mem_names_iff, Scope.has, Forest.find?_of_unseen present unseen]
      exact Bool.false_ne_true
    let bare : Symbol := { name := name, position := place }
    have unrecorded : bare.name ∉ frame.constants := by
      rwa [inside.constants, List.mem_toFinset]
    have declared := declare_of_free found unrecorded
    have shown := (shows.alloc bare).own (cells_alloc h bare) found
    have entered := lookupLocal?_own (h.alloc bare) found bare h.cells.length
    have held := cells_own (cells_alloc h bare) e (frame.declare bare h.cells.length)
    obtain ⟨after, assigned, shown'⟩ := assignCell shown entered held v place
    have twice : (forest.alter e (·.extended bare)).alter e (·.modify name (Symbol.bind v)) =
        forest.alter e (·.extended (bare.bind v)) :=
      Forest.alter_alter present (scope.modify_extended absent v)
    refine ⟨after, ?_, ?_⟩
    · rw [Heap.assign, missing, Forest.assign_of_unseen sound unseen,
        Forest.declare_eq sound present, if_neg free]
      dsimp only
      rw [declared]
      exact assigned
    · rw [Forest.assign_of_unseen sound unseen, Forest.declare_eq sound present, if_neg free]
      rw [if_neg Bool.false_ne_true, twice] at shown'
      exact shown'
  · obtain ⟨after, assigned, shown⟩ := shows.assignCell entered cell v place
    refine ⟨after, ?_, ?_⟩
    · rw [Heap.assign, resolved, Forest.assign_of_owned sound owned held]
      dsimp only
      rw [assigned]
      split <;> rfl
    · rw [Forest.assign_of_owned sound owned held]
      revert shown
      split <;> exact id

/-! ### Reading -/

/-- Looking a name up: what is found is the cell of the symbol, which is marked. -/
theorem lookup (shows : h.Shows forest) (sound : forest.Sound) (e : Nat) (name : Text) :
    ∃ found after, h.lookup e name = some (found, after) ∧
      after.Shows (forest.lookup e name).2 ∧
      found.map (fun p => after.cells[p]?.map Cell.symbol) =
        (forest.lookup e name).1.map some := by
  have written := Forest.setEnv_modify sound e name Symbol.markUsed
  have visible := Forest.resolve?_env sound e name
  change ∃ found, ∃ after : Heap, _ ∧
    after.Shows (forest.setEnv e ((forest.env e).modify name Symbol.markUsed)) ∧
      _ = (((forest.env e).resolve? name).map Symbol.markUsed).map some
  rw [written, visible]
  rcases shows.resolve?_cases e name with
    ⟨unseen, missing⟩ | ⟨j, p, sym, owned, held, resolved, entered, cell⟩
  · rw [unseen]
    exact ⟨none, h, by rw [Heap.lookup, missing], shows, rfl⟩
  · rw [owned]
    refine ⟨some p, h.update p Symbol.markUsed, ?_, shows.update entered fun _ => rfl, ?_⟩
    · rw [Heap.lookup, resolved]
      dsimp only
      rw [cell, Option.map_some]
    · rw [Option.bind_some, held, Option.map_some, Heap.update, List.getElem?_modify_eq, cell]
      rfl

/-- Reading a value. -/
theorem get (shows : h.Shows forest) (sound : forest.Sound) (e : Nat) (name : Text) (line : Int) :
    ∃ after, h.get e name line = some ((forest.get e name line).1, after) ∧
      after.Shows (forest.get e name line).2 := by
  obtain ⟨found, after, looked, shown, same⟩ := shows.lookup sound e name
  refine ⟨after, ?_, shown⟩
  rw [Heap.get, looked, Option.bind_eq_bind, Option.bind_some, Forest.get, Env.get]
  rw [Forest.lookup, Env.lookup] at same
  cases found with
  | none =>
    cases visible : (forest.env e).resolve? name with
    | none => rfl
    | some sym => simp [visible] at same
  | some p =>
    cases visible : (forest.env e).resolve? name with
    | none => simp [visible] at same
    | some sym =>
      simp only [visible, Option.map_some, Option.some.injEq] at same
      obtain ⟨cell, held, marked⟩ := Option.map_eq_some_iff.mp same
      simp only [held, Option.bind_eq_bind, Option.bind_some, marked, Symbol.markUsed]
      cases sym.value <;> rfl

/-! ### Views -/

theorem has_eq (shows : h.Shows forest) (sound : forest.Sound) (e : Nat) (name : Text) :
    h.has e name = (forest.env e).has name := by
  rw [Heap.has, Env.has, Forest.resolve?_env sound]
  rcases shows.resolve?_cases e name with
    ⟨unseen, missing⟩ | ⟨j, p, sym, owned, held, resolved, -, -⟩
  · rw [unseen, missing]
    rfl
  · rw [owned, resolved, Option.bind_some, held]
    rfl

/-- The symbols of an environment in the order of their declaration are those of the scope. -/
theorem localSymbols (shows : h.Shows forest) (sound : forest.Sound) {e : Nat} {scope : Scope}
    (present : forest.scope? e = some scope) : h.localSymbols e = some scope.symbols := by
  obtain ⟨frame, scope', found, present', inside⟩ :=
    shows.exists_frame (Forest.lt_of_scope? present)
  obtain rfl : scope = scope' := Option.some.inj (present.symm.trans present')
  have held : ∀ sym ∈ scope.symbols, scope.find? sym.name = some sym := fun sym member =>
    Scope.find?_of_mem (sound.distinct e scope present) member
  rw [Heap.localSymbols, found, Option.bind_eq_bind, Option.bind_some, inside.order, Scope.names,
    List.mapM_map]
  revert held
  induction scope.symbols with
  | nil => exact fun _ => rfl
  | cons sym rest ih =>
    intro held
    obtain ⟨p, entered, cell⟩ := inside.lookup (held sym List.mem_cons_self)
    rw [List.mapM_cons, ih fun other member => held other (List.mem_cons_of_mem sym member)]
    simp [entered, cell]

end Shows

/-- Of the names in a list each is taken once. -/
theorem nodup_distinct (names : List Text) :
    (distinct names).Nodup ∧ ∀ name, name ∈ distinct names ↔ name ∈ names := by
  induction names using List.reverseRecOn with
  | nil => exact ⟨List.nodup_nil, fun _ => Iff.rfl⟩
  | append_singleton names last ih =>
    obtain ⟨once, same⟩ := ih
    have step : distinct (names ++ [last]) =
        if (distinct names).contains last then distinct names else distinct names ++ [last] :=
      List.foldl_concat ..
    rw [step]
    split
    · rename_i seen
      have before := (same last).mp (List.contains_iff_mem.mp seen)
      refine ⟨once, fun name => ?_⟩
      rw [same, List.mem_append, List.mem_singleton]
      exact ⟨.inl, fun member => member.elim id fun here => here ▸ before⟩
    · rename_i unseen
      have fresh : last ∉ distinct names := mt List.contains_iff_mem.mpr unseen
      refine ⟨List.nodup_append.mpr ⟨once, List.nodup_singleton last, ?_⟩, fun name => ?_⟩
      · exact fun name old other new apart => fresh (List.mem_singleton.mp new ▸ apart ▸ old)
      · rw [List.mem_append, same, List.mem_append]

theorem pairwise_sorted {names : List Text} (once : names.Nodup) :
    (names.mergeSort fun name other => decide (name ≤ other)).Pairwise (· < ·) := by
  have trans (a b c : Text) (first : decide (a ≤ b) = true) (second : decide (b ≤ c) = true) :
      decide (a ≤ c) = true :=
    decide_eq_true (List.le_trans (of_decide_eq_true first) (of_decide_eq_true second))
  have total (a b : Text) : (decide (a ≤ b) || decide (b ≤ a)) = true := by
    simpa using List.le_total a b
  have sorted := List.pairwise_mergeSort trans total names
  have once := (List.mergeSort_perm names fun a b => decide (a ≤ b)).nodup_iff.mpr once
  refine (sorted.and once).imp fun {a b} both => ?_
  by_contra notLess
  exact both.2 (List.le_antisymm (of_decide_eq_true both.1) (List.not_lt.mp notLess))

namespace Shows

/-- The visible names, each once and sorted. -/
theorem names_eq (shows : h.Shows forest) (sound : forest.Sound) (e : Nat) :
    h.names e = (forest.env e).names := by
  have declared : ((h.chain e).flatMap fun i => (h.frames[i]?.map Frame.order).getD []) =
      (forest.env e).flatMap Scope.names := by
    rw [shows.chain_eq, Forest.env_eq]
    have known := Forest.known_path sound (i := e)
    revert known
    induction forest.path e with
    | nil => exact fun _ => rfl
    | cons i outer ih =>
      intro known
      obtain ⟨frame, scope, found, present, inside⟩ := shows.exists_frame (known i (by simp))
      rw [List.flatMap_cons, ih fun j member => known j (List.mem_cons_of_mem i member),
        Forest.scopesAlong_cons present, List.flatMap_cons, found, ← inside.order]
      rfl
  rw [Heap.names, declared]
  obtain ⟨once, same⟩ := nodup_distinct ((forest.env e).flatMap Scope.names)
  refine (pairwise_sorted once).eq_of_mem_iff (forest.env e).names_increasing fun name => ?_
  rw [List.mem_mergeSort, same, Env.mem_names_iff, Env.has_iff, List.mem_flatMap]

/-- The cell of a visible name holds the symbol that is found under it. -/
theorem exists_resolved (shows : h.Shows forest) (sound : forest.Sound) {e : Nat} {name : Text}
    (visible : (forest.env e).has name = true) :
    ∃ p cell, h.resolve? e name = some p ∧ h.cells[p]? = some cell ∧
      (forest.env e).resolve? name = some cell.symbol := by
  rw [Env.has, Forest.resolve?_env sound] at visible
  rw [Forest.resolve?_env sound]
  rcases shows.resolve?_cases e name with
    ⟨unseen, missing⟩ | ⟨j, p, sym, owned, held, resolved, -, cell⟩
  · rw [unseen] at visible
    cases visible
  · exact ⟨p, _, resolved, cell, by rw [owned, Option.bind_some, held]⟩

theorem exists_told (shows : h.Shows forest) (sound : forest.Sound) {e : Nat} {names : List Text}
    (visible : ∀ name ∈ names, (forest.env e).has name = true)
    (told : Finmap fun _ : Text => Float) :
    ∃ values, names.foldlM (h.tell e) told = some values ∧
      ∀ name, values.lookup name =
        (if name ∈ names then ((forest.env e).resolve? name).bind Symbol.value else none).or
          (told.lookup name) := by
  induction names generalizing told with
  | nil => exact ⟨told, rfl, fun _ => rfl⟩
  | cons first rest ih =>
    obtain ⟨p, cell, resolved, held, same⟩ :=
      shows.exists_resolved sound (visible first List.mem_cons_self)
    obtain ⟨values, later, found⟩ := ih
      (fun name member => visible name (List.mem_cons_of_mem first member))
      (cell.symbol.value.elim told (told.insert first))
    refine ⟨values, ?_, fun name => (found name).trans ?_⟩
    · rw [List.foldlM_cons, Heap.tell, resolved]
      simp only [Option.bind_eq_bind, Option.bind_some, held]
      rw [← later]
      cases cell.symbol.value <;> rfl
    · by_cases here : name = first
      · subst here
        rw [same]
        cases value : cell.symbol.value <;> by_cases later : name ∈ rest <;> simp [value, later]
      · have elsewhere : name ∈ first :: rest ↔ name ∈ rest := by simp [here]
        simp only [elsewhere]
        cases cell.symbol.value with
        | none => rfl
        | some v => rw [Option.elim_some, Finmap.lookup_insert_of_ne _ here]

/-- The values of all visible names can be told, and they are those that the scopes show. -/
theorem snapshot (shows : h.Shows forest) (sound : forest.Sound) (e : Nat) :
    ∃ values, h.snapshot e = some values ∧
      ∀ name v, values.lookup name = some v ↔ (name, v) ∈ (forest.env e).snapshot := by
  have visible : ∀ name ∈ h.names e, (forest.env e).has name = true := fun name member => by
    rwa [shows.names_eq sound, Env.mem_names_iff] at member
  obtain ⟨values, told, found⟩ := shows.exists_told sound visible ∅
  refine ⟨values, told, fun name v => ?_⟩
  rw [Env.mem_snapshot_iff _ name 0, Env.get_eq_ok_iff, found, Finmap.lookup_empty, Option.or_none]
  split
  · rfl
  · rename_i unseen
    rw [shows.names_eq sound, Env.mem_names_iff, Env.has] at unseen
    rw [Option.not_isSome_iff_eq_none.mp unseen]
    rfl

end Shows

/-! ### Calls -/

/-- A call on environments that are there. A symbol is declared in a cell of its own. -/
def carryOut (h : Heap) : Forest.Call → Option Heap
  | .new => h.newScope .global none
  | .newScope kind parent => h.newScope kind parent
  | .child kind e => h.newScope kind (some e)
  | .copy kind e => h.dup kind e
  | .declare e sym => ((h.alloc sym).declare e h.cells.length).map Prod.snd
  | .assign e name v place => (h.assign e name v place).map Prod.snd
  | .get e name line => (h.get e name line).map Prod.snd
  | .lookup e name => (h.lookup e name).map Prod.snd

/-- Makes a call. No call can be made on an environment that is not there. -/
def perform (h : Heap) (call : Forest.Call) : Option Heap :=
  if ∀ e ∈ call.target?, e < h.frames.length then h.carryOut call else some h

def run (h : Heap) (calls : List Forest.Call) : Option Heap := calls.foldlM perform h

/-- No call follows a pointer to nothing, and what it leaves shows what it leaves of the scopes. -/
theorem Shows.exists_perform (shows : h.Shows forest) (sound : forest.Sound)
    (consistent : forest.Consistent) (call : Forest.Call) :
    ∃ after, h.perform call = some after ∧ after.Shows (forest.perform call) := by
  rw [perform, Forest.perform, shows.count]
  split
  case isFalse => exact ⟨h, rfl, shows⟩
  case isTrue opened =>
    cases call with
    | new => exact shows.newScope .global
    | newScope kind parent =>
      cases parent with
      | none => exact shows.newScope kind
      | some e => exact shows.child kind (opened e rfl)
    | child kind e => exact shows.child kind (opened e rfl)
    | copy kind e =>
      obtain ⟨after, made, shown, -⟩ := shows.dup sound kind (opened e rfl)
      exact ⟨after, made, shown⟩
    | declare e sym =>
      obtain ⟨after, declared, shown⟩ := shows.declare sound consistent (opened e rfl) sym
      exact ⟨after, by rw [carryOut, declared, Option.map_some], shown⟩
    | assign e name v place =>
      obtain ⟨after, assigned, shown⟩ := shows.assign sound consistent (opened e rfl) name v place
      exact ⟨after, by rw [carryOut, assigned, Option.map_some], shown⟩
    | get e name line =>
      obtain ⟨after, read, shown⟩ := shows.get sound e name line
      exact ⟨after, by rw [carryOut, read, Option.map_some], shown⟩
    | lookup e name =>
      obtain ⟨found, after, looked, shown, -⟩ := shows.lookup sound e name
      exact ⟨after, by rw [carryOut, looked, Option.map_some], shown⟩

/-- Calls in memory are shown by the same calls on lists of scopes. -/
theorem Shows.exists_run (shows : h.Shows forest) (sound : forest.Sound)
    (consistent : forest.Consistent) (calls : List Forest.Call) :
    ∃ after, h.run calls = some after ∧ after.Shows (forest.run calls) := by
  induction calls generalizing h forest with
  | nil => exact ⟨h, rfl, shows⟩
  | cons call rest ih =>
    obtain ⟨middle, performed, shown⟩ := shows.exists_perform sound consistent call
    have effect := Forest.effect_perform sound call
    obtain ⟨after, later, shown'⟩ := ih shown (sound.effect effect) (consistent.effect effect)
    refine ⟨after, ?_, shown'⟩
    rw [run, List.foldlM_cons, performed]
    exact later

theorem shows_empty : Shows {} ⟨[]⟩ where
  count := rfl
  parents _ := rfl
  frames e frame found := by simp at found

/-! ### What fits together -/

/-- The table, the order and the constants of environment `e` fit together. -/
structure WellFormed (h : Heap) (e : Nat) (frame : Frame) : Prop where
  distinct : frame.order.Nodup
  keys : ∀ name, name ∈ frame.order ↔ name ∈ frame.symbols
  /-- Each symbol is under its own name and belongs to the environment. -/
  cells : ∀ name p, frame.symbols.lookup name = some p →
    ∃ cell, h.cells[p]? = some cell ∧ cell.symbol.name = name ∧ cell.owner = some e
  constants : ∀ name ∈ frame.constants, ∃ p cell, frame.symbols.lookup name = some p ∧
    h.cells[p]? = some cell ∧ cell.symbol.constant = true
  /-- The environments around it are those around its parent, and the parent. -/
  around : h.chain e = e :: (frame.parent.map h.chain).getD []

theorem Shows.wellFormed (shows : h.Shows forest) (sound : forest.Sound) {e : Nat} {frame : Frame}
    {scope : Scope} (found : h.frames[e]? = some frame) (inside : frame.Shows h.cells e scope)
    (consistent : scope.Consistent) : h.WellFormed e frame where
  distinct := inside.order ▸ consistent.distinct
  keys name := by rw [inside.order, inside.mem_iff]
  cells name p entered := by
    obtain ⟨sym, found, held⟩ := inside.find? entered
    exact ⟨_, held, Scope.name_of_find? found, rfl⟩
  constants name member := by
    rw [inside.constants, List.mem_toFinset] at member
    obtain ⟨sym, found, constant⟩ := consistent.constant name member
    obtain ⟨p, entered, held⟩ := inside.lookup found
    exact ⟨p, _, entered, held, constant⟩
  around := shows.chain_eq_cons sound found

/-- A declaration is refused only for a constant, which it cites. -/
theorem Shows.declare_cites (shows : h.Shows forest) (sound : forest.Sound)
    (consistent : forest.Consistent) {e : Nat} (opened : e < forest.nodes.length) (sym : Symbol) :
    ∃ refused after, (h.alloc sym).declare e h.cells.length = some (refused, after) ∧
      ∀ d, refused = some d → ∃ p cell, h.lookupLocal? e sym.name = some p ∧
        h.cells[p]? = some cell ∧ cell.symbol.constant = true ∧
          d = sym.redeclared cell.symbol := by
  obtain ⟨after, declared, -⟩ := shows.declare sound consistent opened sym
  refine ⟨_, after, declared, fun d refused => ?_⟩
  obtain ⟨scope, present⟩ := Forest.exists_scope? opened
  rw [Forest.declare_eq sound present] at refused
  split at refused
  · rename_i taken
    obtain ⟨previous, found, constant⟩ := (consistent e scope present).constant _ taken
    have held : forest.local? e sym.name = some previous := by
      rw [Forest.local?, present, Option.bind_some, found]
    obtain ⟨p, entered, cell⟩ := shows.exists_cell held
    rw [found] at refused
    exact ⟨p, _, entered, cell, constant, (Option.some.inj refused).symm⟩
  · cases refused

/-- The values that are told of the names are those that are read under them. -/
theorem Shows.snapshot_get (shows : h.Shows forest) (sound : forest.Sound) (e : Nat) :
    ∃ values, h.snapshot e = some values ∧ ∀ name v line,
      values.lookup name = some v ↔ ∃ after, h.get e name line = some (.ok v, after) := by
  obtain ⟨values, told, found⟩ := shows.snapshot sound e
  refine ⟨values, told, fun name v line => ?_⟩
  obtain ⟨after, read, -⟩ := shows.get sound e name line
  rw [found, Env.mem_snapshot_iff _ name line, read]
  constructor
  · intro value
    exact ⟨after, by rw [Forest.get, value]⟩
  · rintro ⟨after', same⟩
    exact congrArg Prod.fst (Option.some.inj same)

/-- An assignment to a name that is not visible is not refused. -/
theorem Shows.assign_unknown (shows : h.Shows forest) (sound : forest.Sound)
    (consistent : forest.Consistent) {e : Nat} (opened : e < forest.nodes.length) (name : Text)
    (v : Float) (place : Position) :
    ∃ refused after, h.assign e name v place = some (refused, after) ∧
      (h.has e name = false → refused = none) := by
  obtain ⟨after, assigned, -⟩ := shows.assign sound consistent opened name v place
  refine ⟨_, after, assigned, fun unknown => ?_⟩
  rw [shows.has_eq sound] at unknown
  have unseen := Forest.owner?_eq_none sound unknown
  obtain ⟨scope, present⟩ := Forest.exists_scope? opened
  rw [Forest.assign_of_unseen sound unseen, Forest.declare_eq sound present,
    if_neg (consistent.free_of_unseen present unseen)]
  rfl

/-- Whatever is called on environments, no call follows a pointer to nothing, and the table, the
order and the constants of every environment fit together. A refused declaration then has an
earlier one to cite, an assignment to an unknown name is never refused, and the names and values
that an environment shows are those that are found in it one by one. -/
theorem run_wellFormed (calls : List Forest.Call) :
    ∃ h, run {} calls = some h ∧
      (∀ (e : Nat) frame, h.frames[e]? = some frame → h.WellFormed e frame ∧
        ∃ symbols, h.localSymbols e = some symbols ∧ symbols.map Symbol.name = frame.order) ∧
      ∀ e < h.frames.length,
        (∀ sym, ∃ refused after, (h.alloc sym).declare e h.cells.length = some (refused, after) ∧
          ∀ d, refused = some d → ∃ p cell, h.lookupLocal? e sym.name = some p ∧
            h.cells[p]? = some cell ∧ cell.symbol.constant = true ∧
              d = sym.redeclared cell.symbol) ∧
        (h.names e).Pairwise (· < ·) ∧
        (∀ name, name ∈ h.names e ↔ h.has e name = true) ∧
        (∃ values, h.snapshot e = some values ∧ ∀ name v line,
          values.lookup name = some v ↔ ∃ after, h.get e name line = some (.ok v, after)) ∧
        ∀ name v place, ∃ refused after, h.assign e name v place = some (refused, after) ∧
          (h.has e name = false → refused = none) := by
  have sound : (Forest.run ⟨[]⟩ calls).Sound := Forest.sound_empty.run calls
  have consistent : (Forest.run ⟨[]⟩ calls).Consistent :=
    Forest.consistent_empty.run Forest.sound_empty calls
  obtain ⟨h, reached, shows⟩ :=
    shows_empty.exists_run Forest.sound_empty Forest.consistent_empty calls
  refine ⟨h, reached, fun e frame found => ?_, fun e opened => ?_⟩
  · obtain ⟨scope, present, inside⟩ := shows.frames e frame found
    exact ⟨shows.wellFormed sound found inside (consistent e scope present), _,
      shows.localSymbols sound present, inside.order.symm⟩
  · rw [shows.count] at opened
    refine ⟨shows.declare_cites sound consistent opened, ?_, fun name => ?_,
      shows.snapshot_get sound e, shows.assign_unknown sound consistent opened⟩
    · rw [shows.names_eq sound]
      exact Env.names_increasing _
    · rw [shows.names_eq sound, shows.has_eq sound, Env.mem_names_iff]

def limitSymbol : Symbol := { name := [108], value := some 3, constant := true }

/-- A constant, a block with a name of its own, and a copy of what is visible there. -/
def copiedBlock : List Forest.Call :=
  [.new, .declare 0 limitSymbol, .child .block 0, .assign 1 [97] 4 {}, .copy .loop 1]

/-- The constant is refused a second declaration, and the copy of the block takes a name that it
does not show. -/
theorem run_wellFormed_copiedBlock :
    ∃ h, run {} copiedBlock = some h ∧
      (∃ d after p cell, (h.alloc limitSymbol).declare 0 h.cells.length = some (some d, after) ∧
        h.lookupLocal? 0 limitSymbol.name = some p ∧ h.cells[p]? = some cell ∧
          d = limitSymbol.redeclared cell.symbol) ∧
      [97] ∈ h.names 2 ∧ ∃ after, h.assign 2 [98] 5 {} = some (none, after) := by
  obtain ⟨h, reached, -, views⟩ := run_wellFormed copiedBlock
  have visible : ((run {} copiedBlock).map fun h =>
      (h.frames.length, h.has 2 [97], h.has 2 [98])) = some (3, true, false) := by decide +kernel
  have refusing : ((run {} copiedBlock).bind fun h =>
      ((h.alloc limitSymbol).declare 0 h.cells.length).map fun answer => answer.1.isSome) =
        some true := by decide +kernel
  rw [reached] at visible refusing
  simp only [Option.map_some, Option.some.injEq, Prod.mk.injEq] at visible
  obtain ⟨count, there, unknown⟩ := visible
  obtain ⟨declares, -⟩ := views 0 (by omega)
  obtain ⟨-, -, names, -, assigns⟩ := views 2 (by omega)
  refine ⟨h, reached, ?_, (names [97]).mpr there, ?_⟩
  · obtain ⟨refused, after, declared, cites⟩ := declares limitSymbol
    rw [Option.bind_some, declared, Option.map_some, Option.some.injEq] at refusing
    obtain ⟨d, rfl⟩ := Option.isSome_iff_exists.mp refusing
    obtain ⟨p, cell, entered, held, -, cited⟩ := cites d rfl
    exact ⟨d, after, p, cell, declared, entered, held, cited⟩
  · obtain ⟨refused, after, assigned, accepts⟩ := assigns [98] 5 {}
    exact ⟨after, by rw [assigned, accepts unknown]⟩

end Heap

end NumScript
