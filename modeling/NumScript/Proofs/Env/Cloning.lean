import NumScript.Proofs.Env.Showing

/-! Copies in memory. To copy an environment, the cells of the environments around it are cloned one
by one, the outermost environment first, and the clones belong to the copy. What comes of it shows
the copy of the list of scopes, and no cell that was there before has changed. -/

namespace NumScript

namespace Heap

variable {h : Heap} {forest : Forest}

/-- A new environment shows a scope without symbols. -/
theorem Frame.Shows.empty (cells : List Cell) (e : Nat) (kind : ScopeKind) (parent : Option Nat)
    (depth : Nat) :
    Frame.Shows cells e { kind := kind, parent := parent, depth := depth }
      { kind := kind, depth := depth } where
  kind := rfl
  depth := rfl
  order := rfl
  constants := rfl
  symbols _ := rfl

/-- The clones of what a frame has under some of its names take the place of what the copy had under
them. -/
theorem exists_cloneNames {source copy : Frame} {scope acc : Scope} {i d : Nat}
    (inside : source.Shows h.cells i scope) (under : copy.Shows h.cells d acc)
    {symbols : List Symbol} (held : ∀ sym ∈ symbols, scope.find? sym.name = some sym) :
    ∃ cells copy', cloneNames d source (symbols.map Symbol.name) h copy =
        some ({ h with cells := cells }, copy') ∧
      h.cells <+: cells ∧ copy'.parent = copy.parent ∧
      copy'.Shows cells d
        { acc with symbols := symbols.foldl (fun acc sym => Scope.put sym acc) acc.symbols } := by
  induction symbols generalizing h copy acc with
  | nil => exact ⟨h.cells, copy, rfl, List.prefix_rfl, rfl, under⟩
  | cons sym rest ih =>
    obtain ⟨p, entered, cell⟩ := inside.lookup (held sym List.mem_cons_self)
    have before : h.cells <+: (h.alloc sym (some d)).cells := List.prefix_append ..
    have clone : (h.alloc sym (some d)).cells[h.cells.length]? = some ⟨sym, some d⟩ := by
      simp [alloc]
    obtain ⟨cells, copy', cloned, later, parent, shown⟩ :=
      ih (inside.of_owned (.of_grown before)) (under.enter (.of_grown before) clone)
        fun other member => held other (List.mem_cons_of_mem sym member)
    refine ⟨cells, copy', ?_, before.trans later, parent, shown⟩
    rw [List.map_cons, cloneNames, entered, Option.bind_eq_bind, Option.bind_some, cell]
    exact cloned

/-- The clones of the environments along a path are put over each other. -/
theorem Shows.exists_cloneAll (shows : h.Shows forest) (sound : forest.Sound) {path : List Nat}
    (known : ∀ i ∈ path, i < forest.nodes.length) {copy : Frame} {acc : Scope} {d : Nat}
    (under : copy.Shows h.cells d acc) :
    ∃ cells copy', cloneAll d path h copy = some ({ h with cells := cells }, copy') ∧
      h.cells <+: cells ∧ copy'.parent = copy.parent ∧
      copy'.Shows cells d
        { acc with
          symbols := (path.filterMap forest.scope?).foldl
            (fun symbols scope => scope.symbols.foldl (fun acc sym => Scope.put sym acc) symbols)
            acc.symbols } := by
  induction path generalizing h copy acc with
  | nil => exact ⟨h.cells, copy, rfl, List.prefix_rfl, rfl, under⟩
  | cons i rest ih =>
    obtain ⟨source, scope, found, present, inside⟩ :=
      shows.exists_frame (known i List.mem_cons_self)
    have held : ∀ sym ∈ scope.symbols, scope.find? sym.name = some sym := fun sym member =>
      Scope.find?_of_mem (sound.distinct i scope present) member
    obtain ⟨cells, middle, cloned, before, parent, shown⟩ := exists_cloneNames inside under held
    obtain ⟨cells', copy', cloned', before', parent', shown'⟩ :=
      ih (shows.of_grown before) (fun k member => known k (List.mem_cons_of_mem i member)) shown
    refine ⟨cells', copy', ?_, before.trans before', parent'.trans parent, ?_⟩
    · rw [cloneAll, found, Option.bind_eq_bind, Option.bind_some, inside.order, Scope.names, cloned]
      exact cloned'
    · rw [List.filterMap_cons, present]
      exact shown'

namespace Shows

/-- A scope is one deeper than the one it is opened in. -/
theorem depth_eq (shows : h.Shows forest) {e : Nat} {frame : Frame}
    (found : h.frames[e]? = some frame) : (forest.env e).nextDepth = frame.depth + 1 := by
  obtain ⟨scope, present, inside⟩ := shows.frames e frame found
  obtain ⟨outer, along⟩ := Forest.path_eq_cons (Forest.lt_of_scope? present)
  rw [Forest.env_eq, along, Forest.scopesAlong_cons present, Env.nextDepth, inside.depth]

theorem newScope (shows : h.Shows forest) (kind : ScopeKind) :
    ∃ after, h.newScope kind none = some after ∧
      after.Shows (forest.add { scope := { kind := kind } }) :=
  ⟨_, rfl, shows.add List.prefix_rfl (.empty h.cells _ kind none 0)⟩

theorem child (shows : h.Shows forest) (kind : ScopeKind) {e : Nat}
    (opened : e < forest.nodes.length) :
    ∃ after, h.newScope kind (some e) = some after ∧ after.Shows (forest.addChild kind e) := by
  obtain ⟨frame, scope, found, -, -⟩ := shows.exists_frame opened
  refine ⟨_, by rw [Heap.newScope, found]; rfl, ?_⟩
  rw [Forest.addChild, shows.depth_eq found]
  exact shows.add List.prefix_rfl (.empty h.cells _ kind (some e) (frame.depth + 1))

/-- Every visible symbol can be cloned, and the copy shows what is visible. -/
theorem dup (shows : h.Shows forest) (sound : forest.Sound) (kind : ScopeKind) {e : Nat}
    (opened : e < forest.nodes.length) :
    ∃ after, h.dup kind e = some after ∧ after.Shows (forest.addCopy kind e) ∧
      h.cells <+: after.cells := by
  obtain ⟨frame, scope, found, -, -⟩ := shows.exists_frame opened
  have known : ∀ i ∈ (forest.path e).reverse, i < forest.nodes.length := fun i member =>
    Forest.known_path sound i (List.mem_reverse.mp member)
  obtain ⟨cells, copy, cloned, before, parent, shown⟩ :=
    shows.exists_cloneAll sound known (.empty h.cells forest.nodes.length kind none _)
  refine ⟨{ cells := cells, frames := h.frames ++ [copy] }, ?_, ?_, before⟩
  · rw [Heap.dup, found, Option.bind_eq_bind, Option.bind_some, shows.count, shows.chain_eq, cloned]
    rfl
  · have flat : (forest.env e).flatten =
        ((forest.path e).reverse.filterMap forest.scope?).foldl
          (fun symbols scope => scope.symbols.foldl (fun acc sym => Scope.put sym acc) symbols)
          [] := by
      rw [Env.flatten, List.foldr_eq_foldl_reverse, List.filterMap_reverse]
      rfl
    rw [Forest.addCopy, Env.copy, shows.depth_eq found, flat]
    have added := shows.add before shown
    rw [parent] at added
    exact added

end Shows

end Heap

end NumScript
