import Mathlib.Data.List.Induction
import NumScript.Proofs.Env.Calls

/-! Constants stay as they were declared. Declaring looks at the names that a scope has declared
constant, assigning at the symbol it finds; a copy of a scope has the symbols and none of the
declared names. Main statement: whatever is called afterwards, a constant keeps its value and its
place, and neither it nor a copy of it can be assigned to. -/

namespace NumScript

namespace Forest

/-- Scope `e` has declared the name constant. -/
def Guards (forest : Forest) (e : Nat) (name : Text) : Prop :=
  ∃ scope, forest.scope? e = some scope ∧ name ∈ scope.constants

/-- The call puts a new symbol of the name into scope `j`. -/
def Redeclares (forest : Forest) (name : Text) (j : Nat) (call : Call) : Prop :=
  ∃ sym after, call = .declare j sym ∧ sym.name = name ∧ forest.declare j sym = .ok after

/-- After calls on `start`, scope `j` holds the symbol of the name that scope `e` held at first, or
a copy of it, made from an environment where it was the nearest one and not declared again since. -/
inductive Holds (start : Forest) (name : Text) (e : Nat) : List Call → Nat → Prop
  | origin : Holds start name e [] e
  | copied {calls : List Call} {i j : Nat} (kind : ScopeKind) (holds : Holds start name e calls j)
      (owned : (start.run calls).owner? i name = some j) :
      Holds start name e (calls ++ [.copy kind i]) (start.run calls).nodes.length
  | kept {calls : List Call} {j : Nat} {call : Call} (holds : Holds start name e calls j)
      (same : ¬ (start.run calls).Redeclares name j call) : Holds start name e (calls ++ [call]) j

variable {forest : Forest}

/-! ### The scope of the declaration -/

theorem Guards.add {e : Nat} {name : Text} (guarded : forest.Guards e name) (node : Node) :
    (forest.add node).Guards e name := by
  obtain ⟨scope, found, declared⟩ := guarded
  have old : e ≠ forest.nodes.length := Nat.ne_of_lt (lt_of_scope? found)
  exact ⟨scope, by rw [scope?_add, if_neg old, found], declared⟩

theorem Guards.alter {e : Nat} {name : Text} (guarded : forest.Guards e name) (j : Nat)
    {f : Scope → Scope} (grows : ∀ scope, scope.constants ⊆ (f scope).constants) :
    (forest.alter j f).Guards e name := by
  obtain ⟨scope, found, declared⟩ := guarded
  by_cases here : e = j
  · exact ⟨f scope, by rw [scope?_alter, if_pos here, found, Option.map_some], grows scope declared⟩
  · exact ⟨scope, by rw [scope?_alter, if_neg here, found], declared⟩

theorem constants_extended (sym : Symbol) (scope : Scope) :
    scope.constants ⊆ (scope.extended sym).constants := by
  intro name declared
  simp only [Scope.extended]
  split
  · exact List.mem_append_left _ declared
  · exact declared

theorem Guards.effect {forest after : Forest} {call : Call} {e : Nat} {name : Text}
    (guarded : forest.Guards e name) (effect : Effect forest call after) :
    after.Guards e name := by
  cases effect with
  | nothing => exact guarded
  | opened => exact guarded.add _
  | copied => exact guarded.add _
  | declared => exact guarded.alter _ (constants_extended _)
  | introduced => exact guarded.alter _ (constants_extended _)
  | assigned => exact guarded.alter _ fun scope => List.Subset.refl _
  | read => exact guarded.alter _ fun scope => List.Subset.refl _

theorem Guards.not_redeclares (sound : forest.Sound) {e : Nat} {name : Text}
    (guarded : forest.Guards e name) (call : Call) : ¬ forest.Redeclares name e call := by
  rintro ⟨sym, after, -, rfl, declared⟩
  obtain ⟨scope, found, taken⟩ := guarded
  rw [declare_eq sound found, if_pos taken] at declared
  cases declared

theorem Guards.run {start : Forest} (sound : start.Sound) {e : Nat} {name : Text}
    (guarded : start.Guards e name) (calls : List Call) :
    (start.run calls).Guards e name := by
  induction calls generalizing start with
  | nil => exact guarded
  | cons call rest ih =>
    have effect := effect_perform sound call
    exact ih (sound.effect effect) (guarded.effect effect)

theorem Guards.holds {start : Forest} (sound : start.Sound) {e : Nat} {name : Text}
    (guarded : start.Guards e name) (calls : List Call) : Holds start name e calls e := by
  induction calls using List.reverseRecOn with
  | nil => exact .origin
  | append_singleton calls call ih =>
    exact .kept ih ((guarded.run sound calls).not_redeclares (sound.run calls) call)

/-! ### The symbol and its copies -/

theorem local?_add (forest : Forest) (node : Node) (i : Nat) (name : Text) :
    (forest.add node).local? i name =
      if i = forest.nodes.length then node.scope.find? name else forest.local? i name := by
  rw [local?, scope?_add]
  split <;> rfl

theorem local?_alter (forest : Forest) (j : Nat) (f : Scope → Scope) (i : Nat) (name : Text) :
    (forest.alter j f).local? i name =
      if i = j then (forest.scope? i).bind fun scope => (f scope).find? name
      else forest.local? i name := by
  rw [local?, scope?_alter]
  split
  · rw [Option.bind_map]
    rfl
  · rfl

theorem lt_of_local? {i : Nat} {name : Text} {sym : Symbol}
    (held : forest.local? i name = some sym) : i < forest.nodes.length := by
  obtain ⟨scope, found, -⟩ := Option.bind_eq_some_iff.mp held
  exact lt_of_scope? found

theorem local?_alter_extended {i j : Nat} {name : Text} {sym new : Symbol}
    (held : forest.local? j name = some sym) (other : i = j → new.name ≠ name) :
    (forest.alter i (·.extended new)).local? j name = some sym := by
  rw [local?_alter]
  split
  · rename_i here
    obtain ⟨scope, found, held⟩ := Option.bind_eq_some_iff.mp held
    rw [found, Option.bind_some, Scope.find?_extended, if_neg (other here.symm), held]
  · exact held

theorem local?_alter_modify {i j : Nat} {name other : Text} {sym : Symbol} {f : Symbol → Symbol}
    (keeps : ∀ sym, (f sym).name = sym.name)
    (held : forest.local? j name = some sym) :
    (forest.alter i (·.modify other f)).local? j name =
      some (if j = i ∧ name = other then f sym else sym) := by
  rw [local?_alter]
  by_cases here : j = i
  · obtain ⟨scope, found, held⟩ := Option.bind_eq_some_iff.mp held
    rw [if_pos here, found, Option.bind_some, scope.find?_modify keeps, held]
    by_cases same : name = other <;> simp [here, same]
  · simp [here, held]

/-- A call that does not declare a constant again leaves all of it as it was, but perhaps read. -/
theorem local?_effect {forest after : Forest} {call : Call} (sound : forest.Sound)
    (effect : Effect forest call after) {j : Nat} {name : Text} {sym : Symbol}
    (held : forest.local? j name = some sym) (constant : sym.constant = true)
    (same : ¬ forest.Redeclares name j call) :
    ∃ used, after.local? j name = some { sym with used := used } := by
  have old : j ≠ forest.nodes.length := Nat.ne_of_lt (lt_of_local? held)
  cases effect with
  | nothing => exact ⟨sym.used, held⟩
  | opened => exact ⟨sym.used, by rw [local?_add, if_neg old, held]⟩
  | copied => exact ⟨sym.used, by rw [local?_add, if_neg old, held]⟩
  | @declared i scope new found free =>
    refine ⟨sym.used, local?_alter_extended held fun here named => same ?_⟩
    subst here
    exact ⟨new, _, rfl, named, by rw [declare_eq sound found, if_neg free]⟩
  | @introduced i other v place unseen =>
    refine ⟨sym.used, local?_alter_extended held fun here named => ?_⟩
    -- The name would be visible from the scope that holds it.
    subst here
    obtain rfl : other = name := named
    obtain ⟨path, along⟩ := path_eq_cons (lt_of_local? held)
    rw [owner?, along, List.find?_cons, held] at unseen
    cases unseen
  | @assigned i k other found v place owned holds changeable =>
    rw [local?_alter_modify (f := Symbol.bind v) (fun _ => rfl) held]
    split
    · rename_i here
      obtain ⟨rfl, rfl⟩ := here
      obtain rfl : sym = found := Option.some.inj (held.symm.trans holds)
      rw [constant] at changeable
      cases changeable
    · exact ⟨sym.used, rfl⟩
  | read call k other =>
    rw [local?_alter_modify (f := Symbol.markUsed) (fun _ => rfl) held]
    split
    · exact ⟨true, rfl⟩
    · exact ⟨sym.used, rfl⟩

/-- The copy of an environment holds the symbols found in it. -/
theorem local?_copy (sound : forest.Sound) (kind : ScopeKind) {i j : Nat} {name : Text}
    (owned : forest.owner? i name = some j) :
    (forest.perform (.copy kind i)).local? forest.nodes.length name = forest.local? j name := by
  have opened : i < forest.nodes.length := by
    by_contra closed
    rw [owner?, path_eq_nil closed] at owned
    cases owned
  have visible := resolve?_env sound i name
  rw [owned, Option.bind_some] at visible
  rw [perform_copy kind opened, local?_add, if_pos rfl, ← visible]
  exact Env.find?_flatten (distinct_env sound i) name

theorem Holds.local? {start : Forest} (sound : start.Sound) {e : Nat} {name : Text} {sym : Symbol}
    (held : start.local? e name = some sym) (constant : sym.constant = true) {calls : List Call}
    {j : Nat} (holds : Holds start name e calls j) :
    ∃ used, (start.run calls).local? j name = some { sym with used := used } := by
  induction holds with
  | origin => exact ⟨sym.used, held⟩
  | copied kind holds owned ih =>
    obtain ⟨used, ih⟩ := ih
    refine ⟨used, ?_⟩
    rw [run_append]
    exact (local?_copy (sound.run _) kind owned).trans ih
  | @kept calls j call holds same ih =>
    obtain ⟨used, ih⟩ := ih
    rw [run_append]
    have effect := effect_perform (sound.run calls) call
    obtain ⟨later, stays⟩ := local?_effect (sound.run calls) effect ih constant same
    exact ⟨later, stays⟩

/-! ### Every run -/

theorem Guards.of_declare {forest after : Forest} (sound : forest.Sound) {e : Nat} {sym : Symbol}
    (opened : e < forest.nodes.length) (declared : forest.declare e sym = .ok after)
    (constant : sym.constant = true) :
    after.Sound ∧ after.Guards e sym.name ∧ after.local? e sym.name = some sym := by
  obtain ⟨scope, found⟩ := exists_scope? opened
  rw [declare_eq sound found] at declared
  split at declared
  · cases declared
  · cases declared
    refine ⟨sound.alter fun scope => Scope.nodup_put sym, ⟨scope.extended sym, ?_, ?_⟩, ?_⟩
    · rw [scope?_alter, if_pos rfl, found, Option.map_some]
    · simp [Scope.extended, constant]
    · rw [local?_alter, if_pos rfl, found, Option.bind_some, Scope.find?_extended, if_pos rfl]

theorem Guards.declare_eq_error (sound : forest.Sound) {e : Nat} {sym again : Symbol}
    {used : Bool} (guarded : forest.Guards e sym.name)
    (held : forest.local? e sym.name = some { sym with used := used })
    (named : again.name = sym.name) : forest.declare e again = .error (again.redeclared sym) := by
  obtain ⟨scope, found, taken⟩ := guarded
  rw [Forest.local?, found, Option.bind_some] at held
  rw [declare_eq sound found, named, if_pos taken, held]
  rfl

/-- A constant that has been declared stays, whatever is called afterwards: its scope refuses to
declare it again, and nothing can be assigned to it or to a copy of it. -/
theorem constant_kept (before : List Call) {e : Nat} {sym : Symbol} {start : Forest}
    (opened : e < (run ⟨[]⟩ before).nodes.length)
    (declared : (run ⟨[]⟩ before).declare e sym = .ok start) (constant : sym.constant = true)
    (calls : List Call) :
    (∃ used, (start.run calls).local? e sym.name = some { sym with used := used }) ∧
    (∀ again : Symbol, again.name = sym.name →
      (start.run calls).declare e again = .error (again.redeclared sym) ∧
        (again.redeclared sym).cause = some .constantRebinding) ∧
    ∀ i j v place, (start.run calls).owner? i sym.name = some j →
      j = e ∨ Holds start sym.name e calls j →
      (start.run calls).assign i sym.name v place = .error (sym.assigned place) ∧
        (sym.assigned place).cause = some .constantRebinding := by
  obtain ⟨sound, guarded, held⟩ :=
    Guards.of_declare (sound_empty.run before) opened declared constant
  have first := guarded.holds sound calls
  refine ⟨first.local? sound held constant, fun again named => ⟨?_, rfl⟩, ?_⟩
  · obtain ⟨used, stays⟩ := first.local? sound held constant
    exact (guarded.run sound calls).declare_eq_error (sound.run calls) stays named
  · rintro i j v place owned holder
    have holds : Holds start sym.name e calls j := holder.elim (fun here => here ▸ first) id
    obtain ⟨used, stays⟩ := holds.local? sound held constant
    rw [assign_of_owned (sound.run calls) owned stays, if_pos constant]
    exact ⟨rfl, rfl⟩

/-- A copy, taken inside a block, of the scope of a constant refuses assignments from blocks of its
own. -/
theorem constant_kept_copyInBlock :
    let limit : Symbol := { name := [108], value := some 3, constant := true }
    let start : Forest := ⟨[{ scope := { symbols := [limit], constants := [limit.name] } }]⟩
    let calls : List Call := [.child .block 0, .copy .loop 1, .child .branch 2]
    (run ⟨[]⟩ [.new]).declare 0 limit = .ok start ∧ Holds start limit.name 0 calls 2 ∧
      (start.run calls).owner? 3 limit.name = some 2 ∧
      (start.run calls).assign 3 limit.name 4 {} = .error (limit.assigned {}) := by
  intro limit start calls
  have block : Holds start limit.name 0 [.child .block 0] 0 :=
    .kept .origin (by rintro ⟨_, _, ⟨⟩, _⟩)
  have copied : Holds start limit.name 0 [.child .block 0, .copy .loop 1] 2 :=
    .copied (i := 1) .loop block rfl
  have holds : Holds start limit.name 0 calls 2 := .kept copied (by rintro ⟨_, _, ⟨⟩, _⟩)
  have kept := @constant_kept [.new] 0 limit start (by decide) rfl rfl calls
  exact ⟨rfl, holds, rfl, (kept.2.2 3 2 4 {} rfl (.inr holds)).1⟩

end Forest

end NumScript
