import NumScript.Proofs.Env.Copies

/-! What goes on inside an environment. Whatever is called on environment `e`, only scopes that `e`
reaches change, and new ones may come. So when a block has been left, the scopes around it are those
that the inside has left there; and when the block worked on a copy, they are as they were. -/

namespace NumScript

namespace Forest

/-- From `before` to `after` no scope has changed that environment `e` does not reach. -/
structure Onward (e : Nat) (before after : Forest) : Prop where
  length : before.nodes.length ≤ after.nodes.length
  parents : ∀ j < before.nodes.length, after.parent? j = before.parent? j
  others : ∀ j < before.nodes.length, j ∉ before.path e → after.nodes[j]? = before.nodes[j]?

variable {forest before after : Forest} {e : Nat}

/-! ### Environments written back -/

theorem scope?_setAlong {path : List Nat} {j : Nat} (elsewhere : j ∉ path) (env : Env) :
    (forest.setAlong path env).scope? j = forest.scope? j := by
  rw [scope?, setAlong, getElem?_writeBack forest.nodes elsewhere, scope?]

theorem scopesAlong_setAlong {path : List Nat} (known : ∀ j ∈ path, j < forest.nodes.length)
    (distinct : path.Nodup) {env : Env} (length : env.length = path.length) :
    (forest.setAlong path env).scopesAlong path = env := by
  induction path generalizing forest env with
  | nil => exact (List.length_eq_zero_iff.mp length).symm
  | cons j rest ih =>
    obtain ⟨scope, outer, rfl⟩ := List.exists_cons_of_length_eq_add_one length
    obtain ⟨elsewhere, distinct⟩ := List.nodup_cons.mp distinct
    obtain ⟨old, found⟩ := exists_scope? (known j List.mem_cons_self)
    have here : ((forest.alter j fun _ => scope).setAlong rest outer).scope? j = some scope := by
      rw [scope?_setAlong elsewhere, scope?_alter, if_pos rfl, found, Option.map_some]
    have known (k : Nat) (member : k ∈ rest) :
        k < (forest.alter j fun _ => scope).nodes.length := by
      rw [alter, List.length_modify]
      exact known k (List.mem_cons_of_mem j member)
    rw [setAlong_cons, scopesAlong_cons here, ih known distinct (Nat.succ.inj length)]

namespace Onward

theorem refl (e : Nat) (forest : Forest) : Onward e forest forest :=
  ⟨Nat.le_refl _, fun _ _ => rfl, fun _ _ _ => rfl⟩

/-- The paths that were there stay. -/
theorem path (h : Onward e before after) (sound : before.Sound) {i : Nat}
    (old : i < before.nodes.length) : after.path i = before.path i := by
  have same (fuel : Nat) : pathFrom after.nodes fuel i = pathFrom before.nodes fuel i := by
    induction fuel generalizing i with
    | zero => rfl
    | succ fuel ih =>
      have parents := h.parents i old
      have old' : i < after.nodes.length := Nat.lt_of_lt_of_le old h.length
      rw [parent?, parent?, List.getElem?_eq_getElem old, List.getElem?_eq_getElem old',
        Option.bind_some, Option.bind_some] at parents
      rw [pathFrom, pathFrom, List.getElem?_eq_getElem old, List.getElem?_eq_getElem old']
      simp only [parents]
      cases inner : before.nodes[i].parent with
      | none => rfl
      | some p =>
        have outer : p < i := sound.rooted i p (by
          rw [parent?, List.getElem?_eq_getElem old, Option.bind_some, inner])
        simp only [ih (Nat.lt_trans outer old)]
  exact same (i + 1)

theorem trans {third : Forest} (first : Onward e before after) (second : Onward e after third)
    (sound : before.Sound) (opened : e < before.nodes.length) : Onward e before third where
  length := Nat.le_trans first.length second.length
  parents j old := by
    rw [second.parents j (Nat.lt_of_lt_of_le old first.length), first.parents j old]
  others j old elsewhere := by
    rw [second.others j (Nat.lt_of_lt_of_le old first.length)
      (by rwa [first.path sound opened]), first.others j old elsewhere]

/-- Writing the scopes of the environment back. -/
theorem setEnv (forest : Forest) (e : Nat) (env : Env) : Onward e forest (forest.setEnv e env) where
  length := (length_writeBack ..).ge
  parents j _ := parent?_writeBack forest.nodes (forest.path e) env j
  others _ _ elsewhere := getElem?_writeBack forest.nodes elsewhere env

/-- Opening a scope. -/
theorem add (e : Nat) (forest : Forest) (node : Node) : Onward e forest (forest.add node) where
  length := by simp [Forest.add]
  parents j old := by rw [parent?_add, if_neg (Nat.ne_of_lt old)]
  others j old _ := List.getElem?_append_left old

/-- What goes on inside a block goes on in the environment around it, or nowhere that was there. -/
theorem leave {node : Node} {e : Nat}
    (reaches : ∀ j ∈ (forest.add node).path forest.nodes.length,
      j = forest.nodes.length ∨ j ∈ forest.path e)
    (inside : Onward forest.nodes.length (forest.add node) after) : Onward e forest after where
  length := Nat.le_trans (add e forest node).length inside.length
  parents j old := by
    have old' := Nat.lt_of_lt_of_le old (add e forest node).length
    rw [inside.parents j old', (add e forest node).parents j old]
  others j old elsewhere := by
    have old' := Nat.lt_of_lt_of_le old (add e forest node).length
    rw [inside.others j old', (add e forest node).others j old elsewhere]
    intro on
    rcases reaches j on with rfl | outer
    · exact Nat.lt_irrefl _ old
    · exact elsewhere outer

end Onward

theorem length_scopesAlong {path : List Nat} (known : ∀ j ∈ path, j < forest.nodes.length) :
    (forest.scopesAlong path).length = path.length := by
  induction path with
  | nil => rfl
  | cons j rest ih =>
    obtain ⟨scope, found⟩ := exists_scope? (known j List.mem_cons_self)
    rw [scopesAlong_cons found, List.length_cons, List.length_cons,
      ih fun k member => known k (List.mem_cons_of_mem j member)]

/-- What is written back is there afterwards. -/
theorem env_setEnv (sound : forest.Sound) (opened : e < forest.nodes.length) {env : Env}
    (length : env.length = (forest.env e).length) : (forest.setEnv e env).env e = env := by
  have known := known_path sound (i := e)
  rw [env_eq, (Onward.setEnv forest e env).path sound opened]
  refine scopesAlong_setAlong known (nodup_pathFrom sound _ _) (length.trans ?_)
  exact length_scopesAlong known

/-! ### Blocks -/

theorem sound_addChild (sound : forest.Sound) (kind : ScopeKind)
    (opened : e < forest.nodes.length) : (forest.addChild kind e).Sound :=
  sound.add (fun _ inner => Option.some.inj inner ▸ opened) List.nodup_nil

/-- A child reaches itself and what the environment around it reaches. -/
theorem path_addChild (sound : forest.Sound) (kind : ScopeKind) (opened : e < forest.nodes.length) :
    (forest.addChild kind e).path forest.nodes.length = forest.nodes.length :: forest.path e := by
  have sound' := sound_addChild sound kind opened
  have present : (forest.addChild kind e).nodes[forest.nodes.length]? =
      some { parent := some e, scope := { kind := kind, depth := (forest.env e).nextDepth } } :=
    List.getElem?_concat_length ..
  rw [path_of_node sound' present, Option.map_some, Option.getD_some]
  exact congrArg _ ((Onward.add e forest _).path sound opened)

theorem env_addChild (sound : forest.Sound) (kind : ScopeKind) (opened : e < forest.nodes.length) :
    (forest.addChild kind e).env forest.nodes.length = (forest.env e).child kind := by
  have here : (forest.addChild kind e).scope? forest.nodes.length =
      some { kind := kind, depth := (forest.env e).nextDepth } := by
    rw [addChild, scope?_add, if_pos rfl]
  have outer : (forest.addChild kind e).env e = forest.env e := env_add sound _ opened
  have same : (forest.addChild kind e).path e = forest.path e :=
    (Onward.add e forest _).path sound opened
  rw [env_eq, same] at outer
  rw [env_eq, path_addChild sound kind opened, scopesAlong_cons here, Env.child]
  exact congrArg _ outer

theorem path_addCopy (forest : Forest) (kind : ScopeKind) (e : Nat) :
    (forest.addCopy kind e).path forest.nodes.length = [forest.nodes.length] := by
  simp [path, pathFrom, addCopy, add]

namespace Onward

variable {kind : ScopeKind}

theorem leave_child (sound : forest.Sound) (opened : e < forest.nodes.length)
    (inside : Onward forest.nodes.length (forest.addChild kind e) after) : Onward e forest after :=
  leave (fun j on => by
    have along : j ∈ (forest.addChild kind e).path forest.nodes.length := on
    rw [path_addChild sound kind opened] at along
    exact List.mem_cons.mp along) inside

theorem leave_copy (inside : Onward forest.nodes.length (forest.addCopy kind e) after) :
    Onward e forest after :=
  leave (fun j on => by
    have along : j ∈ (forest.addCopy kind e).path forest.nodes.length := on
    rw [path_addCopy] at along
    exact .inl (List.mem_singleton.mp along)) inside

/-- What a child has left of the scopes around it is what the environment around it shows. -/
theorem env_child (sound : forest.Sound) (opened : e < forest.nodes.length)
    (inside : Onward forest.nodes.length (forest.addChild kind e) after) :
    after.env e = (after.env forest.nodes.length).tail := by
  have sound' := sound_addChild sound kind opened
  have made : forest.nodes.length < (forest.addChild kind e).nodes.length := by
    simp [addChild, Forest.add]
  have outer : after.path e = forest.path e := (leave_child sound opened inside).path sound opened
  have inner : after.path forest.nodes.length = forest.nodes.length :: forest.path e := by
    rw [inside.path sound' made, path_addChild sound kind opened]
  obtain ⟨scope, found⟩ := exists_scope? (Nat.lt_of_lt_of_le made inside.length)
  rw [env_eq, env_eq, outer, inner, scopesAlong_cons found, List.tail_cons]

/-- What goes on in a copy leaves every scope that was there as it was. -/
theorem nodes_copy (inside : Onward forest.nodes.length (forest.addCopy kind e) after) {j : Nat}
    (old : j < forest.nodes.length) : after.nodes[j]? = forest.nodes[j]? := by
  have elsewhere : j ∉ (forest.addCopy kind e).path forest.nodes.length := by
    rw [path_addCopy, List.mem_singleton]
    exact Nat.ne_of_lt old
  rw [inside.others j (by simp only [addCopy, Forest.add, List.length_append]; omega) elsewhere]
  exact List.getElem?_append_left old

theorem env_copy (sound : forest.Sound) (opened : e < forest.nodes.length)
    (inside : Onward forest.nodes.length (forest.addCopy kind e) after) :
    after.env e = forest.env e :=
  env_congr (· < forest.nodes.length)
    (fun j p inner old => Nat.lt_trans (sound.rooted j p inner) old)
    (fun _ old => inside.nodes_copy old) opened

end Onward

end Forest

end NumScript
