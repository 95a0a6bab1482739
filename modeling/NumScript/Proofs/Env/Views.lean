import NumScript.Proofs.Env.Calls

/-! Environments and what is seen of them. A scope keeps its symbols in the order of their
declaration and beside them the names declared constant; whatever is called, no name is there twice
and every name declared constant has a constant symbol. The lists of names and values that an
environment shows then agree with what is found in it name by name. -/

namespace NumScript

/-! ### Scopes -/

namespace Scope

/-- No name is there twice, and each name that was declared constant has a symbol that is. -/
structure Consistent (s : Scope) : Prop where
  distinct : s.names.Nodup
  once : s.constants.Nodup
  constant : ∀ name ∈ s.constants, ∃ sym, s.find? name = some sym ∧ sym.constant = true

namespace Consistent

theorem empty (kind : ScopeKind) (depth : Nat) : Consistent { kind := kind, depth := depth } where
  distinct := List.nodup_nil
  once := List.nodup_nil
  constant name member := by cases member

theorem extended {s : Scope} (h : s.Consistent) {sym : Symbol} (free : sym.name ∉ s.constants) :
    (s.extended sym).Consistent where
  distinct := nodup_put sym h.distinct
  once := by
    simp only [Scope.extended]
    split
    · exact List.nodup_append.mpr ⟨h.once, by simp, by
        intro name old other new same
        obtain rfl := List.mem_singleton.mp new
        exact free (same ▸ old)⟩
    · exact h.once
  constant name member := by
    rw [find?_extended]
    by_cases here : sym.name = name
    · -- The new symbol is found, and its name was not there before.
      refine ⟨sym, if_pos here, ?_⟩
      by_contra changeable
      simp only [Scope.extended, if_neg changeable] at member
      exact free (here ▸ member)
    · rw [if_neg here]
      refine h.constant name ?_
      simp only [Scope.extended] at member
      split at member
      · rcases List.mem_append.mp member with old | new
        · exact old
        · exact absurd (List.mem_singleton.mp new).symm here
      · exact member

theorem modify {s : Scope} (h : s.Consistent) {f : Symbol → Symbol}
    (keeps : ∀ sym, (f sym).name = sym.name) (keeps' : ∀ sym, (f sym).constant = sym.constant)
    (name : Text) : (s.modify name f).Consistent where
  distinct := by
    rw [s.names_modify keeps]
    exact h.distinct
  once := h.once
  constant other member := by
    obtain ⟨sym, found, constant⟩ := h.constant other member
    rw [s.find?_modify keeps, found]
    split
    · exact ⟨f sym, rfl, (keeps' sym).trans constant⟩
    · exact ⟨sym, rfl, constant⟩

end Consistent

end Scope

/-! ### Forests -/

namespace Forest

def Consistent (forest : Forest) : Prop :=
  ∀ i scope, forest.scope? i = some scope → scope.Consistent

variable {forest : Forest}

/-- A name that is not visible from a scope is not in it. -/
theorem find?_of_unseen {i : Nat} {scope : Scope} {name : Text}
    (found : forest.scope? i = some scope) (unseen : forest.owner? i name = none) :
    scope.find? name = none := by
  obtain ⟨outer, along⟩ := path_eq_cons (lt_of_scope? found)
  rw [owner?, along, List.find?_eq_none] at unseen
  have absent := unseen i List.mem_cons_self
  rw [local?, found, Option.bind_some] at absent
  simpa using absent

namespace Consistent

theorem add (h : forest.Consistent) {node : Node} (new : node.scope.Consistent) :
    (forest.add node).Consistent := by
  intro i scope found
  rw [scope?_add] at found
  split at found
  · exact Option.some.inj found ▸ new
  · exact h i scope found

theorem alter (h : forest.Consistent) {j : Nat} {f : Scope → Scope}
    (keeps : ∀ scope, forest.scope? j = some scope → (f scope).Consistent) :
    (forest.alter j f).Consistent := by
  intro i scope found
  rw [scope?_alter] at found
  split at found
  · rename_i here
    obtain ⟨old, present, rfl⟩ := Option.map_eq_some_iff.mp found
    exact keeps old (here ▸ present)
  · exact h i scope found

/-- A name that is not visible can be declared. -/
theorem free_of_unseen (h : forest.Consistent) {i : Nat} {scope : Scope} {name : Text}
    (found : forest.scope? i = some scope) (unseen : forest.owner? i name = none) :
    name ∉ scope.constants := by
  intro taken
  obtain ⟨sym, held, -⟩ := (h i scope found).constant name taken
  rw [find?_of_unseen found unseen] at held
  cases held

theorem effect {after : Forest} {call : Call} (h : forest.Consistent)
    (effect : Effect forest call after) : after.Consistent := by
  cases effect with
  | nothing => exact h
  | opened call kind depth outer inside => exact h.add (.empty kind depth)
  | copied kind i =>
    exact h.add ⟨Env.nodup_flatten _, List.nodup_nil, fun name member => by cases member⟩
  | @declared i scope sym found free =>
    refine h.alter fun other found' => ?_
    obtain rfl : scope = other := Option.some.inj (found.symm.trans found')
    exact (h i scope found).extended free
  | @introduced i name v place unseen =>
    refine h.alter fun scope found => ?_
    exact (h i scope found).extended (h.free_of_unseen found unseen)
  | @assigned i j name sym v place owned held changeable =>
    exact h.alter fun scope found =>
      (h j scope found).modify (f := Symbol.bind v) (fun _ => rfl) (fun _ => rfl) name
  | read call j name =>
    exact h.alter fun scope found =>
      (h j scope found).modify (f := Symbol.markUsed) (fun _ => rfl) (fun _ => rfl) name

theorem run (sound : forest.Sound) (h : forest.Consistent) (calls : List Call) :
    (forest.run calls).Consistent := by
  induction calls generalizing forest with
  | nil => exact h
  | cons call rest ih =>
    have effect := effect_perform sound call
    exact ih (sound.effect effect) (h.effect effect)

end Consistent

theorem consistent_empty : Consistent ⟨[]⟩ := by
  intro i scope found
  simp [scope?] at found

/-! ### Owners -/

theorem owner?_eq_none (sound : forest.Sound) {i : Nat} {name : Text}
    (unseen : (forest.env i).has name = false) : forest.owner? i name = none := by
  cases owned : forest.owner? i name with
  | none => rfl
  | some j =>
    obtain ⟨sym, held⟩ := exists_local? owned
    rw [Env.has, resolve?_env sound, owned, Option.bind_some, held] at unseen
    cases unseen

end Forest

/-! ### Names and values -/

namespace Env

theorem mem_insertName {name other : Text} {names : List Text} :
    other ∈ insertName name names ↔ other = name ∨ other ∈ names := by
  induction names with
  | nil => simp [insertName]
  | cons first rest ih =>
    rw [insertName]
    split
    · simp
    · split
      · rename_i same
        simp [same]
      · simp only [List.mem_cons, ih]
        tauto

theorem pairwise_insertName {name : Text} {names : List Text} (ordered : names.Pairwise (· < ·)) :
    (insertName name names).Pairwise (· < ·) := by
  induction names with
  | nil => simp [insertName]
  | cons first rest ih =>
    obtain ⟨least, below⟩ := List.pairwise_cons.mp ordered
    rw [insertName]
    split
    · rename_i smaller
      refine List.pairwise_cons.mpr ⟨fun other member => ?_, ordered⟩
      rcases List.mem_cons.mp member with rfl | member
      · exact smaller
      · exact List.lt_trans smaller (least other member)
    · rename_i notSmaller
      split
      · exact ordered
      · rename_i different
        have larger : first < name := by
          by_contra notLarger
          exact different (List.le_antisymm (List.not_lt.mp notLarger) (List.not_lt.mp notSmaller))
        refine List.pairwise_cons.mpr ⟨fun other member => ?_, ih below⟩
        rcases mem_insertName.mp member with rfl | member
        · exact larger
        · exact least other member

/-- The names that an environment shows are in increasing order, each once. -/
theorem names_increasing (env : Env) : env.names.Pairwise (· < ·) := by
  unfold names
  induction env.flatMap Scope.names with
  | nil => exact .nil
  | cons name rest ih => exact pairwise_insertName ih

theorem has_iff (env : Env) (name : Text) :
    env.has name = true ↔ ∃ scope ∈ env, name ∈ scope.names := by
  simp only [Scope.mem_names_iff, Scope.has]
  rw [has, resolve?, List.findSome?_isSome_iff]

theorem mem_names_iff (env : Env) (name : Text) : name ∈ env.names ↔ env.has name = true := by
  have all (given : List Text) : name ∈ given.foldr insertName [] ↔ name ∈ given := by
    induction given with
    | nil => rfl
    | cons first rest ih => rw [List.foldr_cons, mem_insertName, ih, List.mem_cons]
  rw [names, all, has_iff, List.mem_flatMap]

theorem get_eq_ok_iff (env : Env) (name : Text) (line : Int) (v : Float) :
    (env.get name line).1 = .ok v ↔ (env.resolve? name).bind Symbol.value = some v := by
  unfold get
  cases env.resolve? name with
  | none => simp
  | some sym => cases bound : sym.value <;> simp [bound]

/-- The values that an environment shows are those that are got by their names. -/
theorem mem_snapshot_iff (env : Env) (name : Text) (line : Int) (v : Float) :
    (name, v) ∈ env.snapshot ↔ (env.get name line).1 = .ok v := by
  rw [get_eq_ok_iff, snapshot, List.mem_filterMap]
  constructor
  · rintro ⟨other, -, shown⟩
    obtain ⟨w, value, same⟩ := Option.map_eq_some_iff.mp shown
    cases same
    exact value
  · intro value
    obtain ⟨sym, found, -⟩ := Option.bind_eq_some_iff.mp value
    refine ⟨name, (env.mem_names_iff name).mpr ?_, by rw [value, Option.map_some]⟩
    rw [has, found, Option.isSome_some]

end Env

end NumScript
