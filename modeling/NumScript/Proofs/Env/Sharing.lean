import Mathlib.Data.List.Basic
import NumScript.Env.Forest
import NumScript.Proofs.Env.Resolving

/-! Environments that share scopes. An operation works on the scopes of one environment and writes
them all back; here it is given as a change of at most one scope, the same for every environment
that reaches it. `Forest.Effect` lists what a call can do, and a sequence of calls keeps what each
effect keeps. -/

namespace NumScript

namespace Forest

def scope? (forest : Forest) (i : Nat) : Option Scope := forest.nodes[i]?.map Node.scope

/-- The symbol of a name that scope `i` itself holds. -/
def local? (forest : Forest) (i : Nat) (name : Text) : Option Symbol :=
  (forest.scope? i).bind (·.find? name)

/-- The number of the scope that holds the nearest symbol of a name. -/
def owner? (forest : Forest) (i : Nat) (name : Text) : Option Nat :=
  (forest.path i).find? fun j => (forest.local? j name).isSome

def alter (forest : Forest) (i : Nat) (f : Scope → Scope) : Forest :=
  ⟨forest.nodes.modify i fun node => { node with scope := f node.scope }⟩

/-- The scope around another has the smaller number, and no scope holds two symbols with the same
name. -/
structure Sound (forest : Forest) : Prop where
  rooted : ∀ i p, forest.parent? i = some p → p < i
  distinct : ∀ i scope, forest.scope? i = some scope → scope.names.Nodup

variable {forest : Forest}

/-! ### Single scopes -/

theorem scope?_add (forest : Forest) (node : Node) (i : Nat) :
    (forest.add node).scope? i =
      if i = forest.nodes.length then some node.scope else forest.scope? i := by
  simp only [scope?, add, List.getElem?_append]
  grind

theorem parent?_add (forest : Forest) (node : Node) (i : Nat) :
    (forest.add node).parent? i =
      if i = forest.nodes.length then node.parent else forest.parent? i := by
  simp only [parent?, add, List.getElem?_append]
  grind

theorem scope?_alter (forest : Forest) (j : Nat) (f : Scope → Scope) (i : Nat) :
    (forest.alter j f).scope? i =
      if i = j then (forest.scope? i).map f else forest.scope? i := by
  simp only [scope?, alter, List.getElem?_modify]
  grind

theorem parent?_alter (forest : Forest) (j : Nat) (f : Scope → Scope) (i : Nat) :
    (forest.alter j f).parent? i = forest.parent? i := by
  simp only [parent?, alter, List.getElem?_modify]
  grind

theorem lt_of_scope? {i : Nat} {scope : Scope}
    (found : forest.scope? i = some scope) : i < forest.nodes.length := by
  obtain ⟨node, present, -⟩ := Option.map_eq_some_iff.mp found
  exact (List.getElem?_eq_some_iff.mp present).1

theorem exists_scope? {i : Nat} (opened : i < forest.nodes.length) :
    ∃ scope, forest.scope? i = some scope :=
  ⟨_, by rw [scope?, List.getElem?_eq_getElem opened, Option.map_some]⟩

theorem Sound.add (sound : forest.Sound) {node : Node}
    (inside : ∀ p, node.parent = some p → p < forest.nodes.length)
    (distinct : node.scope.names.Nodup) : (forest.add node).Sound where
  rooted i p inner := by
    rw [parent?_add] at inner
    split at inner
    · rename_i new
      exact new ▸ inside p inner
    · exact sound.rooted i p inner
  distinct i scope found := by
    rw [scope?_add] at found
    split at found
    · exact Option.some.inj found ▸ distinct
    · exact sound.distinct i scope found

theorem Sound.alter (sound : forest.Sound) {j : Nat} {f : Scope → Scope}
    (keeps : ∀ scope, scope.names.Nodup → (f scope).names.Nodup) : (forest.alter j f).Sound where
  rooted i p inner := sound.rooted i p (by rwa [parent?_alter] at inner)
  distinct i scope found := by
    rw [scope?_alter] at found
    split at found
    · obtain ⟨old, present, rfl⟩ := Option.map_eq_some_iff.mp found
      exact keeps old (sound.distinct i old present)
    · exact sound.distinct i scope found

/-! ### Paths -/

theorem mem_pathFrom (sound : forest.Sound) {fuel i j : Nat}
    (member : j ∈ pathFrom forest.nodes fuel i) : j ≤ i ∧ j < forest.nodes.length := by
  induction fuel generalizing i with
  | zero => cases member
  | succ fuel ih =>
    rw [pathFrom] at member
    split at member
    · cases member
    · rename_i node present
      rcases List.mem_cons.mp member with rfl | member
      · exact ⟨Nat.le_refl j, (List.getElem?_eq_some_iff.mp present).1⟩
      · split at member
        · cases member
        · rename_i p inner
          have outer : p < i := sound.rooted i p (by rw [parent?, present, Option.bind_some, inner])
          obtain ⟨le, known⟩ := ih member
          exact ⟨by omega, known⟩

theorem nodup_pathFrom (sound : forest.Sound) (fuel i : Nat) :
    (pathFrom forest.nodes fuel i).Nodup := by
  induction fuel generalizing i with
  | zero => exact List.nodup_nil
  | succ fuel ih =>
    rw [pathFrom]
    split
    · exact List.nodup_nil
    · rename_i node present
      split
      · exact List.nodup_cons.mpr ⟨List.not_mem_nil, List.nodup_nil⟩
      · rename_i p inner
        have outer : p < i := sound.rooted i p (by rw [parent?, present, Option.bind_some, inner])
        refine List.nodup_cons.mpr ⟨fun member => ?_, ih p⟩
        have := (mem_pathFrom sound member).1
        omega

theorem path_eq_cons {i : Nat} (opened : i < forest.nodes.length) :
    ∃ outer, forest.path i = i :: outer := by
  rw [path, pathFrom, List.getElem?_eq_getElem opened]
  exact ⟨_, rfl⟩

/-- More fuel than the number of a scope makes no difference to the path from it. -/
theorem pathFrom_of_lt (sound : forest.Sound) {i fuel : Nat} (enough : i < fuel) :
    pathFrom forest.nodes fuel i = forest.path i := by
  induction i using Nat.strongRecOn generalizing fuel with
  | ind i ih =>
    obtain ⟨fuel, rfl⟩ := Nat.exists_eq_succ_of_ne_zero (Nat.ne_zero_of_lt enough)
    rw [path, pathFrom, pathFrom]
    cases present : forest.nodes[i]? with
    | none => rfl
    | some node =>
      cases inner : node.parent with
      | none => simp only [inner]
      | some p =>
        have outer : p < i := sound.rooted i p (by rw [parent?, present, Option.bind_some, inner])
        have enough : p < fuel := Nat.lt_of_lt_of_le outer (Nat.le_of_lt_succ enough)
        simp only [inner, ih p outer enough, ih p outer outer]

/-- The path of a scope is the scope and the path of the one around it. -/
theorem path_of_node (sound : forest.Sound) {i : Nat} {node : Node}
    (present : forest.nodes[i]? = some node) :
    forest.path i = i :: (node.parent.map forest.path).getD [] := by
  rw [path, pathFrom, present]
  cases inner : node.parent with
  | none => simp only [inner, Option.map_none, Option.getD_none]
  | some p =>
    have outer : p < i := sound.rooted i p (by rw [parent?, present, Option.bind_some, inner])
    simp only [inner, pathFrom_of_lt sound outer, Option.map_some, Option.getD_some]

theorem path_eq_nil {i : Nat} (closed : ¬ i < forest.nodes.length) :
    forest.path i = [] := by
  rw [path, pathFrom, List.getElem?_eq_none (by omega)]

/-! ### Writing back -/

def scopesAlong (forest : Forest) (path : List Nat) : Env := path.filterMap forest.scope?

/-- Writes scopes to the numbers along a path. -/
def setAlong (forest : Forest) (path : List Nat) (env : Env) : Forest :=
  ⟨writeBack forest.nodes path env⟩

theorem env_eq (forest : Forest) (i : Nat) : forest.env i = forest.scopesAlong (forest.path i) :=
  rfl

theorem setEnv_eq (forest : Forest) (i : Nat) (env : Env) :
    forest.setEnv i env = forest.setAlong (forest.path i) env := rfl

theorem setAlong_cons (forest : Forest) (j : Nat) (path : List Nat) (scope : Scope) (outer : Env) :
    forest.setAlong (j :: path) (scope :: outer) =
      (forest.alter j fun _ => scope).setAlong path outer := rfl

theorem alter_of_scope? {j : Nat} {scope : Scope}
    (found : forest.scope? j = some scope) (f : Scope → Scope) :
    (forest.alter j fun _ => f scope) = forest.alter j f := by
  obtain ⟨node, present, rfl⟩ := Option.map_eq_some_iff.mp found
  rw [alter, alter, mk.injEq]
  apply List.ext_getElem?
  intro k
  rw [List.getElem?_modify, List.getElem?_modify]
  by_cases here : j = k
  · simp [← here, present]
  · simp [here]

theorem alter_alter {k : Nat} {scope : Scope} (found : forest.scope? k = some scope)
    {f g h : Scope → Scope} (same : g (f scope) = h scope) :
    (forest.alter k f).alter k g = forest.alter k h := by
  rw [← alter_of_scope? found h, ← same, alter_of_scope? found fun scope => g (f scope), alter,
    alter, alter, mk.injEq, List.modify_modify_eq]
  rfl

theorem alter_self {j : Nat} {scope : Scope}
    (found : forest.scope? j = some scope) : (forest.alter j fun _ => scope) = forest := by
  have same : forest.alter j id = forest := congrArg mk (List.modify_id j forest.nodes)
  exact (alter_of_scope? found id).trans same

theorem scopesAlong_cons {j : Nat} {scope : Scope}
    (found : forest.scope? j = some scope) (path : List Nat) :
    forest.scopesAlong (j :: path) = scope :: forest.scopesAlong path := by
  rw [scopesAlong, List.filterMap_cons, found, scopesAlong]

/-- A scope that is not on the path plays no part. -/
theorem scopesAlong_alter {j : Nat} {path : List Nat} (elsewhere : j ∉ path)
    (f : Scope → Scope) : (forest.alter j f).scopesAlong path = forest.scopesAlong path := by
  refine List.filterMap_congr fun k member => ?_
  have apart : k ≠ j := fun same => elsewhere (same ▸ member)
  rw [scope?_alter, if_neg apart]

theorem setAlong_scopesAlong {path : List Nat}
    (known : ∀ j ∈ path, j < forest.nodes.length) :
    forest.setAlong path (forest.scopesAlong path) = forest := by
  induction path with
  | nil => rfl
  | cons j rest ih =>
    obtain ⟨scope, found⟩ := exists_scope? (known j List.mem_cons_self)
    rw [scopesAlong_cons found, setAlong_cons, alter_self found]
    exact ih fun k member => known k (List.mem_cons_of_mem j member)

theorem setAlong_head {j : Nat} {path : List Nat} {scope : Scope}
    (found : forest.scope? j = some scope) (elsewhere : j ∉ path)
    (known : ∀ k ∈ path, k < forest.nodes.length) (f : Scope → Scope) :
    forest.setAlong (j :: path) (f scope :: forest.scopesAlong path) = forest.alter j f := by
  rw [setAlong_cons, alter_of_scope? found, ← scopesAlong_alter elsewhere f]
  refine setAlong_scopesAlong fun k member => ?_
  rw [alter, List.length_modify]
  exact known k member

/-- The scope on the path that holds the nearest symbol of a name is the only one that changes. -/
theorem setAlong_modify {path : List Nat} (name : Text) (f : Symbol → Symbol)
    (known : ∀ j ∈ path, j < forest.nodes.length) (distinct : path.Nodup) :
    forest.setAlong path ((forest.scopesAlong path).modify name f) =
      match path.find? fun j => (forest.local? j name).isSome with
      | none => forest
      | some j => forest.alter j (·.modify name f) := by
  -- Up to the owner of the name every scope is written back as it was, and so are those behind it.
  induction path with
  | nil => rfl
  | cons j rest ih =>
    obtain ⟨scope, found⟩ := exists_scope? (known j List.mem_cons_self)
    obtain ⟨elsewhere, distinct⟩ := List.nodup_cons.mp distinct
    have known (k) (member : k ∈ rest) : k < forest.nodes.length :=
      known k (List.mem_cons_of_mem j member)
    have here : (forest.local? j name).isSome = scope.has name := by
      rw [local?, found, Option.bind_some, Scope.has]
    rw [scopesAlong_cons found, Env.modify, List.find?_cons, here]
    cases scope.has name with
    | true => exact setAlong_head found elsewhere known (·.modify name f)
    | false =>
      change (forest.alter j fun _ => scope).setAlong rest _ = _
      rw [alter_self found]
      exact ih known distinct

/-! ### Operations -/

theorem known_path (sound : forest.Sound) {i : Nat} :
    ∀ j ∈ forest.path i, j < forest.nodes.length :=
  fun _ member => (mem_pathFrom sound member).2

theorem setEnv_modify (sound : forest.Sound) (i : Nat) (name : Text)
    (f : Symbol → Symbol) :
    forest.setEnv i ((forest.env i).modify name f) =
      match forest.owner? i name with
      | none => forest
      | some j => forest.alter j (·.modify name f) :=
  setAlong_modify name f (known_path sound) (nodup_pathFrom sound _ i)

/-- The symbol found from scope `i` is the one its owner holds. -/
theorem resolve?_env (sound : forest.Sound) (i : Nat) (name : Text) :
    (forest.env i).resolve? name = (forest.owner? i name).bind (forest.local? · name) := by
  have known := known_path sound (i := i)
  rw [env_eq, owner?]
  revert known
  induction forest.path i with
  | nil => exact fun _ => rfl
  | cons j rest ih =>
    intro known
    obtain ⟨scope, found⟩ := exists_scope? (known j List.mem_cons_self)
    have here : forest.local? j name = scope.find? name := by
      rw [local?, found, Option.bind_some]
    rw [scopesAlong_cons found, Env.resolve?_cons, List.find?_cons, here]
    cases held : scope.find? name with
    | none => exact ih fun k member => known k (List.mem_cons_of_mem j member)
    | some sym => exact (here.trans held).symm

theorem distinct_env (sound : forest.Sound) (i : Nat) : (forest.env i).Distinct := by
  intro scope member
  obtain ⟨j, -, found⟩ := List.mem_filterMap.mp member
  exact sound.distinct j scope found

theorem exists_local? {i j : Nat} {name : Text}
    (owned : forest.owner? i name = some j) : ∃ sym, forest.local? j name = some sym := by
  rw [owner?] at owned
  exact Option.isSome_iff_exists.mp (List.find?_some owned :)

theorem declare_eq (sound : forest.Sound) {i : Nat} {scope : Scope}
    (found : forest.scope? i = some scope) (sym : Symbol) :
    forest.declare i sym =
      if sym.name ∈ scope.constants then
        .error (sym.redeclared ((scope.find? sym.name).getD { name := sym.name }))
      else .ok (forest.alter i (·.extended sym)) := by
  obtain ⟨path, along⟩ := path_eq_cons (lt_of_scope? found)
  have distinct : (i :: path).Nodup := along ▸ nodup_pathFrom sound _ i
  have known : ∀ k ∈ path, k < forest.nodes.length := fun k member =>
    known_path sound k (along ▸ List.mem_cons_of_mem i member)
  rw [declare, env_eq, along, scopesAlong_cons found, Env.declare_cons]
  split
  · rfl
  · rw [Except.map, setEnv_eq, along]
    exact congrArg _ (setAlong_head found (List.nodup_cons.mp distinct).1 known (·.extended sym))

/-- A name that is not visible is declared. -/
theorem assign_of_unseen (sound : forest.Sound) {i : Nat} {name : Text}
    (unseen : forest.owner? i name = none) (v : Float) (place : Position) :
    forest.assign i name v place =
      forest.declare i { name := name, value := some v, position := place } := by
  rw [assign, Env.assign, resolve?_env sound, unseen]
  rfl

/-- A visible name is changed where it is, unless it is a constant. -/
theorem assign_of_owned (sound : forest.Sound) {i j : Nat} {name : Text}
    {sym : Symbol} (owned : forest.owner? i name = some j)
    (held : forest.local? j name = some sym) (v : Float) (place : Position) :
    forest.assign i name v place =
      if sym.constant then .error (sym.assigned place)
      else .ok (forest.alter j (·.modify name (Symbol.bind v))) := by
  have written := setEnv_modify sound i name (Symbol.bind v)
  rw [owned] at written
  rw [assign, Env.assign, resolve?_env sound, owned, Option.bind_some, held]
  dsimp only
  split
  · rfl
  · rw [Except.map, written]

end Forest

end NumScript
