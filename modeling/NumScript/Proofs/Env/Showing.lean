import Mathlib.Data.Finset.Dedup
import NumScript.Env.Heap
import NumScript.Proofs.Env.Calls

/-! Environments in memory and the lists of their scopes. `Heap.Shows` relates the two: a frame
leads, for each of its names, to a cell of its own that holds the symbol which the scope lists under
that name. Cells have owners, so a change through one frame cannot be seen through another. Each
operation in memory is shown by the operation on the lists and answers alike, and none follows a
pointer to nothing. -/

namespace NumScript

namespace Heap

/-- The frame, environment number `e`, holds what the scope lists. -/
structure Frame.Shows (cells : List Cell) (e : Nat) (frame : Frame) (scope : Scope) : Prop where
  kind : frame.kind = scope.kind
  depth : frame.depth = scope.depth
  order : frame.order = scope.names
  constants : frame.constants = scope.constants.toFinset
  symbols : ∀ name, (frame.symbols.lookup name).map (cells[·]?) =
    (scope.find? name).map fun sym => some ⟨sym, some e⟩

/-- The memory holds the scopes of a forest, each in the environment with its number. -/
structure Shows (h : Heap) (forest : Forest) : Prop where
  count : h.frames.length = forest.nodes.length
  parents : ∀ e : Nat, h.frames[e]?.bind Frame.parent = forest.parent? e
  frames : ∀ (e : Nat) frame, h.frames[e]? = some frame →
    ∃ scope, forest.scope? e = some scope ∧ frame.Shows h.cells e scope

/-- The cells of environment `e` are the same in `cells` and `cells'`. -/
def Owned (e : Nat) (cells cells' : List Cell) : Prop :=
  ∀ (p : Nat) sym, cells[p]? = some ⟨sym, some e⟩ → cells'[p]? = some ⟨sym, some e⟩

/-! ### Single frames -/

namespace Frame.Shows

variable {cells cells' : List Cell} {e p : Nat} {frame : Frame} {scope : Scope}

theorem find? (shows : frame.Shows cells e scope) {name : Text}
    (entered : frame.symbols.lookup name = some p) :
    ∃ sym, scope.find? name = some sym ∧ cells[p]? = some ⟨sym, some e⟩ := by
  have held := shows.symbols name
  rw [entered, Option.map_some] at held
  obtain ⟨sym, found, same⟩ := Option.map_eq_some_iff.mp held.symm
  exact ⟨sym, found, same.symm⟩

theorem lookup (shows : frame.Shows cells e scope) {name : Text} {sym : Symbol}
    (found : scope.find? name = some sym) :
    ∃ p, frame.symbols.lookup name = some p ∧ cells[p]? = some ⟨sym, some e⟩ := by
  have held := shows.symbols name
  rw [found, Option.map_some] at held
  exact Option.map_eq_some_iff.mp held

theorem isSome_lookup (shows : frame.Shows cells e scope) (name : Text) :
    (frame.symbols.lookup name).isSome = (scope.find? name).isSome := by
  simpa using congrArg Option.isSome (shows.symbols name)

theorem mem_iff (shows : frame.Shows cells e scope) (name : Text) :
    name ∈ frame.symbols ↔ name ∈ scope.names := by
  rw [← Finmap.lookup_isSome, shows.isSome_lookup, scope.mem_names_iff, Scope.has]

/-- A frame shows the same as long as its own cells are the same. -/
theorem of_owned (shows : frame.Shows cells e scope) (owned : Owned e cells cells') :
    frame.Shows cells' e scope where
  kind := shows.kind
  depth := shows.depth
  order := shows.order
  constants := shows.constants
  symbols name := by
    cases entered : frame.symbols.lookup name with
    | none =>
      have held := shows.symbols name
      rw [entered] at held
      exact held
    | some p =>
      obtain ⟨sym, found, held⟩ := shows.find? entered
      rw [found, Option.map_some, Option.map_some, owned p sym held]

/-- A cell of the frame is put under its name. -/
theorem enter (shows : frame.Shows cells e scope) {sym : Symbol}
    (owned : Owned e cells cells') (held : cells'[p]? = some ⟨sym, some e⟩) :
    (frame.enter sym.name p).Shows cells' e
      { scope with symbols := Scope.put sym scope.symbols } where
  kind := shows.kind
  depth := shows.depth
  order := by
    rw [Frame.enter, Scope.names, Scope.map_name_put]
    simp only [shows.mem_iff, shows.order]
    rfl
  constants := shows.constants
  symbols name := by
    have found : Scope.find? { scope with symbols := Scope.put sym scope.symbols } name =
        if sym.name = name then some sym else scope.find? name := Scope.find?_put ..
    rw [found]
    by_cases here : sym.name = name
    · rw [if_pos here, Frame.enter, ← here, Finmap.lookup_insert, Option.map_some, held,
        Option.map_some]
    · rw [if_neg here, Frame.enter, Finmap.lookup_insert_of_ne _ (Ne.symm here)]
      exact (shows.of_owned owned).symbols name

/-- A change of the symbol under a name shows under that name and under no other. -/
theorem modify (shows : frame.Shows cells e scope) {name : Text}
    (entered : frame.symbols.lookup name = some p) {f : Symbol → Symbol}
    (keeps : ∀ sym, (f sym).name = sym.name) :
    frame.Shows (cells.modify p fun cell => { cell with symbol := f cell.symbol }) e
      (scope.modify name f) where
  kind := shows.kind
  depth := shows.depth
  order := shows.order.trans (scope.names_modify keeps name).symm
  constants := shows.constants
  symbols other := by
    obtain ⟨sym, found, held⟩ := shows.find? entered
    rw [scope.find?_modify keeps]
    by_cases same : other = name
    · subst same
      rw [if_pos rfl, entered, found, Option.map_some, List.getElem?_modify_eq, held]
      rfl
    · rw [if_neg same, ← shows.symbols other]
      cases entered' : frame.symbols.lookup other with
      | none => rfl
      | some q =>
        obtain ⟨sym', found', held'⟩ := shows.find? entered'
        have apart : p ≠ q := by
          rintro rfl
          -- The cell holds one symbol, and that has one name.
          rw [held] at held'
          cases held'
          exact same ((Scope.name_of_find? found').symm.trans (Scope.name_of_find? found))
        rw [Option.map_some, Option.map_some, List.getElem?_modify_ne _ _ apart]

/-- A symbol of the frame is declared in it. -/
theorem declare (shows : frame.Shows cells e scope) {sym : Symbol}
    (owned : Owned e cells cells') (held : cells'[p]? = some ⟨sym, some e⟩) :
    (frame.declare sym p).Shows cells' e (scope.extended sym) where
  kind := shows.kind
  depth := shows.depth
  order := (shows.enter owned held).order
  constants := by
    rw [Frame.declare, shows.constants, Scope.extended]
    split
    · rw [List.toFinset_append, Finset.insert_eq, Finset.union_comm]
      rfl
    · rfl
  symbols := (shows.enter owned held).symbols

end Frame.Shows

/-! ### Owners -/

section Owned

variable {cells cells' : List Cell} {e j p : Nat} {sym : Symbol}

theorem Owned.of_grown (before : cells <+: cells') : Owned e cells cells' := by
  obtain ⟨more, rfl⟩ := before
  intro q other held
  rw [List.getElem?_append_left (List.getElem?_eq_some_iff.mp held).1, held]

/-- A change of a cell concerns its owner alone. -/
theorem Owned.of_modify {owner : Option Nat} (held : cells[p]? = some ⟨sym, owner⟩)
    (foreign : owner ≠ some e) (f : Cell → Cell) : Owned e cells (cells.modify p f) := by
  intro q other held'
  have apart : p ≠ q := by
    rintro rfl
    rw [held] at held'
    cases held'
    exact foreign rfl
  rw [List.getElem?_modify_ne _ _ apart, held']

end Owned

/-! ### Reading -/

namespace Shows

variable {h : Heap} {forest : Forest} {e j p : Nat} {name : Text}

theorem exists_frame (shows : h.Shows forest) (opened : e < forest.nodes.length) :
    ∃ frame scope, h.frames[e]? = some frame ∧ forest.scope? e = some scope ∧
      frame.Shows h.cells e scope := by
  have found := List.getElem?_eq_getElem (shows.count.symm ▸ opened)
  obtain ⟨scope, present, inside⟩ := shows.frames e _ found
  exact ⟨_, scope, found, present, inside⟩

theorem chainFrom_eq (shows : h.Shows forest) (fuel e : Nat) :
    chainFrom h.frames fuel e = Forest.pathFrom forest.nodes fuel e := by
  induction fuel generalizing e with
  | zero => rfl
  | succ fuel ih =>
    have outer := shows.parents e
    rw [chainFrom, Forest.pathFrom]
    rw [Forest.parent?] at outer
    by_cases opened : e < forest.nodes.length
    · have opened' : e < h.frames.length := shows.count.symm ▸ opened
      rw [List.getElem?_eq_getElem opened, List.getElem?_eq_getElem opened'] at outer ⊢
      simp only [Option.bind_some] at outer
      simp only [outer]
      cases forest.nodes[e].parent with
      | none => rfl
      | some p => exact congrArg (e :: ·) (ih p)
    · have closed : ¬ e < h.frames.length := shows.count.symm ▸ opened
      rw [List.getElem?_eq_none (by omega), List.getElem?_eq_none (by omega)]

/-- Following the parents from an environment passes its scopes. -/
theorem chain_eq (shows : h.Shows forest) (e : Nat) : h.chain e = forest.path e :=
  shows.chainFrom_eq (e + 1) e

/-- The environments around one are its parent and those around that. -/
theorem chain_eq_cons (shows : h.Shows forest) (sound : forest.Sound) {frame : Frame}
    (found : h.frames[e]? = some frame) : h.chain e = e :: (frame.parent.map h.chain).getD [] := by
  have chains : h.chain = forest.path := funext shows.chain_eq
  have outer := shows.parents e
  have opened : e < forest.nodes.length :=
    shows.count ▸ (List.getElem?_eq_some_iff.mp found).1
  have present := List.getElem?_eq_getElem opened
  rw [found, Forest.parent?, present, Option.bind_some, Option.bind_some] at outer
  rw [chains, Forest.path_of_node sound present, outer]

theorem local? (shows : h.Shows forest) (e : Nat) (name : Text) :
    (h.lookupLocal? e name).map (h.cells[·]?) =
      (forest.local? e name).map fun sym => some ⟨sym, some e⟩ := by
  by_cases opened : e < forest.nodes.length
  · obtain ⟨frame, scope, found, present, inside⟩ := shows.exists_frame opened
    rw [lookupLocal?, found, Option.bind_some, Forest.local?, present, Option.bind_some]
    exact inside.symbols name
  · have closed : ¬ e < h.frames.length := shows.count.symm ▸ opened
    rw [lookupLocal?, Forest.local?, Forest.scope?, List.getElem?_eq_none (by omega),
      List.getElem?_eq_none (by omega)]
    rfl

theorem exists_cell (shows : h.Shows forest) {sym : Symbol}
    (held : forest.local? e name = some sym) :
    ∃ p, h.lookupLocal? e name = some p ∧ h.cells[p]? = some ⟨sym, some e⟩ := by
  have same := shows.local? e name
  rw [held, Option.map_some] at same
  exact Option.map_eq_some_iff.mp same

/-- A name is found in the cell that its owner has for it. -/
theorem resolve?_eq (shows : h.Shows forest) (e : Nat) (name : Text) :
    h.resolve? e name = (forest.owner? e name).bind (h.lookupLocal? · name) := by
  rw [resolve?, shows.chain_eq, Forest.owner?]
  induction forest.path e with
  | nil => rfl
  | cons j outer ih =>
    have here : (h.lookupLocal? j name).isSome = (forest.local? j name).isSome := by
      simpa using congrArg Option.isSome (shows.local? j name)
    rw [List.findSome?_cons, List.find?_cons, ← here]
    cases found : h.lookupLocal? j name with
    | none => exact ih
    | some p => exact found.symm

/-- A name that is not visible has no cell; for a visible one the cell belongs to its owner and
holds its symbol. -/
theorem resolve?_cases (shows : h.Shows forest) (e : Nat) (name : Text) :
    (forest.owner? e name = none ∧ h.resolve? e name = none) ∨
      ∃ j p sym, forest.owner? e name = some j ∧ forest.local? j name = some sym ∧
        h.resolve? e name = some p ∧ h.lookupLocal? j name = some p ∧
        h.cells[p]? = some ⟨sym, some j⟩ := by
  rw [shows.resolve?_eq]
  cases owned : forest.owner? e name with
  | none => exact .inl ⟨rfl, rfl⟩
  | some j =>
    obtain ⟨sym, held⟩ := Forest.exists_local? owned
    obtain ⟨p, entered, cell⟩ := shows.exists_cell held
    exact .inr ⟨j, p, sym, rfl, held, entered, entered, cell⟩

/-! ### Single changes -/

/-- New cells show nowhere. -/
theorem of_grown (shows : h.Shows forest) {cells : List Cell} (before : h.cells <+: cells) :
    Shows { h with cells := cells } forest where
  count := shows.count
  parents := shows.parents
  frames e frame found := by
    obtain ⟨scope, present, inside⟩ := shows.frames e frame found
    exact ⟨scope, present, inside.of_owned (.of_grown before)⟩

theorem alloc (shows : h.Shows forest) (sym : Symbol) : (h.alloc sym).Shows forest :=
  shows.of_grown (List.prefix_append ..)

/-- A change of the symbol in a cell is a change of the scope that owns it. -/
theorem update (shows : h.Shows forest) (entered : h.lookupLocal? j name = some p)
    {f : Symbol → Symbol} (keeps : ∀ sym, (f sym).name = sym.name) :
    (h.update p f).Shows (forest.alter j (·.modify name f)) where
  count := by rw [Forest.alter, List.length_modify, ← shows.count, Heap.update]
  parents e := (shows.parents e).trans (forest.parent?_alter ..).symm
  frames e frame found := by
    have found : h.frames[e]? = some frame := found
    obtain ⟨scope, present, inside⟩ := shows.frames e frame found
    rw [Forest.scope?_alter, present]
    by_cases here : e = j
    · subst here
      rw [lookupLocal?, found, Option.bind_some] at entered
      exact ⟨_, if_pos rfl, inside.modify entered keeps⟩
    · obtain ⟨owner, found', entered'⟩ := Option.bind_eq_some_iff.mp entered
      obtain ⟨scope', -, inside'⟩ := shows.frames j owner found'
      obtain ⟨sym, -, held⟩ := inside'.find? entered'
      have foreign : some j ≠ some e := fun same => here (Option.some.inj same).symm
      exact ⟨scope, if_neg here, inside.of_owned (.of_modify held foreign _)⟩

/-- A cell without an owner gets one, which declares its symbol. -/
theorem own (shows : h.Shows forest) {sym : Symbol} (fresh : h.cells[p]? = some ⟨sym, none⟩)
    {frame : Frame} (found : h.frames[e]? = some frame) :
    (h.own e p (frame.declare sym p)).Shows (forest.alter e (·.extended sym)) where
  count := by rw [Heap.own, List.length_set, Forest.alter, List.length_modify, shows.count]
  parents i := by
    rw [forest.parent?_alter, ← shows.parents, Heap.own]
    by_cases here : e = i
    · subst here
      rw [List.getElem?_set_self (List.getElem?_eq_some_iff.mp found).1, found]
      rfl
    · rw [List.getElem?_set_ne here]
  frames i other found' := by
    rw [Forest.scope?_alter]
    rw [Heap.own] at found' ⊢
    have owned (i : Nat) : Owned i h.cells
        (h.cells.modify p fun cell => { cell with owner := some e }) :=
      .of_modify fresh (by simp) _
    by_cases here : e = i
    · subst here
      obtain ⟨scope, present, inside⟩ := shows.frames e frame found
      rw [List.getElem?_set_self (List.getElem?_eq_some_iff.mp found).1] at found'
      cases found'
      refine ⟨scope.extended sym, by rw [if_pos rfl, present, Option.map_some], ?_⟩
      refine inside.declare (owned e) ?_
      rw [List.getElem?_modify_eq, fresh]
      rfl
    · rw [List.getElem?_set_ne here] at found'
      obtain ⟨scope, present, inside⟩ := shows.frames i other found'
      exact ⟨scope, by rw [if_neg (Ne.symm here), present], inside.of_owned (owned i)⟩

theorem lookupLocal?_own (h : Heap) {frame : Frame} (found : h.frames[e]? = some frame)
    (sym : Symbol) (p : Nat) :
    (h.own e p (frame.declare sym p)).lookupLocal? e sym.name = some p := by
  rw [lookupLocal?, Heap.own, List.getElem?_set_self (List.getElem?_eq_some_iff.mp found).1,
    Option.bind_some]
  exact Finmap.lookup_insert ..

/-- A new environment. -/
theorem add (shows : h.Shows forest) {cells : List Cell} (before : h.cells <+: cells)
    {frame : Frame} {scope : Scope}
    (inside : frame.Shows cells forest.nodes.length scope) :
    Shows { cells := cells, frames := h.frames ++ [frame] }
      (forest.add { parent := frame.parent, scope := scope }) where
  count := by simp [Forest.add, shows.count]
  parents i := by
    rw [forest.parent?_add, ← shows.parents, ← shows.count, List.getElem?_append]
    grind
  frames i other found := by
    rw [forest.scope?_add]
    rw [List.getElem?_append] at found
    split at found
    · rename_i old
      obtain ⟨scope', present, inside'⟩ := shows.frames i other found
      rw [if_neg (by rw [← shows.count]; omega)]
      exact ⟨scope', present, inside'.of_owned (.of_grown before)⟩
    · obtain ⟨last, rfl⟩ := List.getElem?_eq_some_iff.mp found
      obtain rfl : i = forest.nodes.length := by
        rw [← shows.count]
        simp only [List.length_singleton] at last
        omega
      rw [if_pos rfl]
      refine ⟨scope, rfl, ?_⟩
      simpa using inside

end Shows

end Heap

end NumScript
