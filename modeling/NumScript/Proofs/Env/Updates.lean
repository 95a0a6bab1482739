import NumScript.Proofs.Env.Constants
import NumScript.Proofs.Env.Views

/-! Declaring and assigning on environments that share scopes. Either changes one symbol of one
scope, which every environment that reaches the scope then sees, or it fails and changes nothing.
When it fails can be told beforehand: a declaration by what was declared before in the very same
scope, an assignment by the nearest symbol. -/

namespace NumScript

namespace Forest

/-- One of the calls has declared the name constant in environment `e` itself. -/
def DeclaredConstant (calls : List Call) (e : Nat) (name : Text) : Prop :=
  ∃ earlier later sym after, calls = earlier ++ .declare e sym :: later ∧
    e < (run ⟨[]⟩ earlier).nodes.length ∧ (run ⟨[]⟩ earlier).declare e sym = .ok after ∧
      sym.name = name ∧ sym.constant = true

/-- Scope `k` holds `sym` now, and no other symbol of any scope has changed. -/
structure Puts (forest after : Forest) (k : Nat) (sym : Symbol) : Prop where
  length : after.nodes.length = forest.nodes.length
  parents : ∀ j, after.parent? j = forest.parent? j
  scopes : ∀ j, j ≠ k → after.scope? j = forest.scope? j
  kind : (after.scope? k).map Scope.kind = (forest.scope? k).map Scope.kind
  depth : (after.scope? k).map Scope.depth = (forest.scope? k).map Scope.depth
  others : ∀ name, name ≠ sym.name → after.local? k name = forest.local? k name
  here : after.local? k sym.name = some sym

/-- The names of scope `k` in their order, and those that it has recorded as constants. -/
def listing? (forest : Forest) (k : Nat) : Option (List Text × List Text) :=
  (forest.scope? k).map fun scope => (scope.names, scope.constants)

/-- Assigning in steps. A name that is not visible is declared first, without a value; then the
nearest symbol of the name is refused when it is constant, and gets the value when it is not. A
step that fails keeps what the steps before it have done. -/
def assignInSteps (forest : Forest) (i : Nat) (name : Text) (v : Float) (place : Position) :
    Option Diagnostic × Forest :=
  let declared :=
    if (forest.env i).has name then .ok forest
    else forest.declare i { name := name, position := place }
  match declared with
  | .error d => (some d, forest)
  | .ok forest =>
    match (forest.env i).resolve? name with
    | none => (none, forest)
    | some sym =>
      if sym.constant then (some (sym.assigned place), forest)
      else (none, forest.setEnv i ((forest.env i).modify name (Symbol.bind v)))

variable {forest : Forest}

/-! ### Names declared constant -/

theorem guards_add {e : Nat} {name : Text} {node : Node} (new : node.scope.constants = [])
    (guarded : (forest.add node).Guards e name) : forest.Guards e name := by
  obtain ⟨scope, found, declared⟩ := guarded
  rw [scope?_add] at found
  split at found
  · cases found
    rw [new] at declared
    cases declared
  · exact ⟨scope, found, declared⟩

theorem guards_alter {e j : Nat} {name : Text} {f : Scope → Scope}
    (guarded : (forest.alter j f).Guards e name) :
    ∃ scope, forest.scope? e = some scope ∧
      (name ∈ scope.constants ∨ e = j ∧ name ∈ (f scope).constants) := by
  obtain ⟨scope, found, declared⟩ := guarded
  rw [scope?_alter] at found
  split at found
  · rename_i here
    obtain ⟨before, present, rfl⟩ := Option.map_eq_some_iff.mp found
    exact ⟨before, present, .inr ⟨here, declared⟩⟩
  · exact ⟨scope, found, .inl declared⟩

theorem constants_of_extended {scope : Scope} {sym : Symbol} {name : Text}
    (declared : name ∈ (scope.extended sym).constants) :
    name ∈ scope.constants ∨ sym.name = name ∧ sym.constant = true := by
  simp only [Scope.extended] at declared
  split at declared
  · rename_i constant
    rcases List.mem_append.mp declared with old | new
    · exact .inl old
    · exact .inr ⟨(List.mem_singleton.mp new).symm, constant⟩
  · exact .inl declared

/-- A name becomes constant in a scope only by being declared there. -/
theorem Guards.of_effect {after : Forest} {call : Call} {e : Nat} {name : Text}
    (sound : forest.Sound) (guarded : after.Guards e name) (effect : Effect forest call after) :
    forest.Guards e name ∨ ∃ sym, call = .declare e sym ∧ e < forest.nodes.length ∧
      forest.declare e sym = .ok after ∧ sym.name = name ∧ sym.constant = true := by
  cases effect with
  | nothing => exact .inl guarded
  | opened => exact .inl (guards_add rfl guarded)
  | copied => exact .inl (guards_add rfl guarded)
  | @declared i before sym present free =>
    obtain ⟨scope, found, old | ⟨rfl, new⟩⟩ := guards_alter guarded
    · exact .inl ⟨scope, found, old⟩
    · rcases constants_of_extended new with old | ⟨named, constant⟩
      · exact .inl ⟨scope, found, old⟩
      · exact .inr ⟨sym, rfl, lt_of_scope? found, by rw [declare_eq sound present, if_neg free],
          named, constant⟩
  | introduced =>
    obtain ⟨scope, found, old | ⟨-, new⟩⟩ := guards_alter guarded
    · exact .inl ⟨scope, found, old⟩
    · rcases constants_of_extended new with old | ⟨-, constant⟩
      · exact .inl ⟨scope, found, old⟩
      · cases constant
  | assigned | read =>
    obtain ⟨scope, found, old | ⟨-, new⟩⟩ := guards_alter guarded
    · exact .inl ⟨scope, found, old⟩
    · exact .inl ⟨scope, found, new⟩

/-- The names that a scope has recorded as constants are those that were declared so in it. -/
theorem guards_iff_declaredConstant (calls : List Call) (e : Nat) (name : Text) :
    (run ⟨[]⟩ calls).Guards e name ↔ DeclaredConstant calls e name := by
  constructor
  · intro guarded
    induction calls using List.reverseRecOn with
    | nil =>
      obtain ⟨scope, found, -⟩ := guarded
      exact absurd (lt_of_scope? found) (Nat.not_lt_zero e)
    | append_singleton calls call ih =>
      have sound := sound_empty.run calls
      rw [run_concat] at guarded
      rcases guarded.of_effect sound (effect_perform sound call) with
        before | ⟨sym, rfl, opened, declared, named, constant⟩
      · obtain ⟨earlier, later, sym, after, rfl, found⟩ := ih before
        exact ⟨earlier, later ++ [call], sym, after, by simp, found⟩
      · exact ⟨calls, [], sym, _, rfl, opened, declared, named, constant⟩
  · rintro ⟨earlier, later, sym, after, rfl, opened, declared, rfl, constant⟩
    obtain ⟨sound, guarded, -⟩ :=
      Guards.of_declare (sound_empty.run earlier) opened declared constant
    have made : (run ⟨[]⟩ earlier).perform (.declare e sym) = after := by
      rw [perform_of_target rfl opened, carryOut, declared]
      rfl
    rw [List.append_cons, run_append, run_concat, made]
    exact guarded.run sound later

/-! ### One symbol -/

theorem Puts.alter {k : Nat} {scope : Scope} {sym : Symbol} {f : Scope → Scope}
    (found : forest.scope? k = some scope) (kind : (f scope).kind = scope.kind)
    (depth : (f scope).depth = scope.depth)
    (finds : ∀ name,
      (f scope).find? name = if name = sym.name then some sym else scope.find? name) :
    forest.Puts (forest.alter k f) k sym where
  length := List.length_modify ..
  parents := forest.parent?_alter k f
  scopes j apart := by rw [scope?_alter, if_neg apart]
  kind := by simp [scope?_alter, found, kind]
  depth := by simp [scope?_alter, found, depth]
  others name other := by simp [local?, scope?_alter, found, finds, other]
  here := by simp [local?, scope?_alter, found, finds]

theorem puts_extended {k : Nat} {scope : Scope} (found : forest.scope? k = some scope)
    (sym : Symbol) : forest.Puts (forest.alter k (·.extended sym)) k sym := by
  refine .alter found rfl rfl fun name => ?_
  rw [Scope.find?_extended]
  exact if_congr eq_comm rfl rfl

theorem puts_bind {k : Nat} {name : Text} {sym : Symbol} (held : forest.local? k name = some sym)
    (v : Float) : forest.Puts (forest.alter k (·.modify name (Symbol.bind v))) k
      { sym with value := some v } := by
  obtain ⟨scope, found, held⟩ := Option.bind_eq_some_iff.mp held
  obtain rfl := Scope.name_of_find? held
  refine .alter found rfl rfl fun other => ?_
  rw [scope.find?_modify (f := Symbol.bind v) fun _ => rfl]
  split
  · rename_i same
    rw [same, held]
    rfl
  · rfl

theorem listing?_alter {k : Nat} {scope : Scope} (found : forest.scope? k = some scope)
    (f : Scope → Scope) :
    (forest.alter k f).listing? k = some ((f scope).names, (f scope).constants) := by
  rw [listing?, scope?_alter, if_pos rfl, found]
  rfl

/-! ### Assigning in steps -/

/-- A symbol that was declared is the nearest of its name. -/
theorem resolve?_extended (sound : forest.Sound) {i : Nat} {scope : Scope}
    (found : forest.scope? i = some scope) (sym : Symbol) :
    (forest.alter i (·.extended sym)).owner? i sym.name = some i ∧
      ((forest.alter i (·.extended sym)).env i).resolve? sym.name = some sym := by
  have holds := (puts_extended found sym).here
  have owned : (forest.alter i (·.extended sym)).owner? i sym.name = some i := by
    obtain ⟨path, along⟩ := path_eq_cons (lt_of_local? holds)
    rw [owner?, along, List.find?_cons, holds]
    rfl
  have sound' : (forest.alter i (·.extended sym)).Sound := sound.alter fun _ => Scope.nodup_put _
  exact ⟨owned, by rw [resolve?_env sound', owned, Option.bind_some, holds]⟩

theorem setEnv_bind_extended (sound : forest.Sound) {i : Nat} {scope : Scope}
    (found : forest.scope? i = some scope) (sym : Symbol) (absent : sym.name ∉ scope.names)
    (v : Float) :
    (forest.alter i (·.extended sym)).setEnv i
        (((forest.alter i (·.extended sym)).env i).modify sym.name (Symbol.bind v)) =
      forest.alter i (·.extended (sym.bind v)) := by
  have sound' : (forest.alter i (·.extended sym)).Sound := sound.alter fun _ => Scope.nodup_put _
  rw [setEnv_modify sound', (resolve?_extended sound found sym).1]
  exact alter_alter found (scope.modify_extended absent v)

/-- The steps of an assignment come to the same as the assignment, and when they fail, they fail
before anything is declared. -/
theorem assignInSteps_eq (sound : forest.Sound) (consistent : forest.Consistent) {i : Nat}
    (opened : i < forest.nodes.length) (name : Text) (v : Float) (place : Position) :
    forest.assignInSteps i name v place =
      match forest.assign i name v place with
      | .ok after => (none, after)
      | .error d => (some d, forest) := by
  have visible := resolve?_env sound i name
  cases owned : forest.owner? i name with
  | some j =>
    obtain ⟨sym, held⟩ := exists_local? owned
    have written := setEnv_modify sound i name (Symbol.bind v)
    rw [owned] at written
    rw [owned, Option.bind_some, held] at visible
    simp only [assign_of_owned sound owned held, assignInSteps, Env.has, visible,
      Option.isSome_some, if_true, written]
    split <;> rfl
  | none =>
    rw [owned, Option.bind_none] at visible
    obtain ⟨scope, found⟩ := exists_scope? opened
    have free := consistent.free_of_unseen found owned
    have absent : name ∉ scope.names := by
      rw [scope.mem_names_iff, Scope.has, find?_of_unseen found owned]
      exact Bool.false_ne_true
    let bare : Symbol := { name := name, position := place }
    have declared : forest.declare i { name := name, position := place } =
        .ok (forest.alter i (·.extended bare)) := by
      rw [declare_eq sound found, if_neg free]
    have nearest : ((forest.alter i (·.extended bare)).env i).resolve? name = some bare :=
      (resolve?_extended sound found bare).2
    have written : (forest.alter i (·.extended bare)).setEnv i
        (((forest.alter i (·.extended bare)).env i).modify name (Symbol.bind v)) = _ :=
      setEnv_bind_extended sound found bare absent v
    rw [assign_of_unseen sound owned, declare_eq sound found, if_neg free]
    simp only [assignInSteps, Env.has, visible, Option.isSome_none, Bool.false_eq_true, if_false,
      declared, nearest, written]
    rfl

/-! ### Every update -/

theorem assign_eq_error_iff (sound : forest.Sound) (consistent : forest.Consistent) {i : Nat}
    (opened : i < forest.nodes.length) (name : Text) (v : Float) (place : Position) :
    (∃ d, forest.assign i name v place = .error d) ↔ (forest.env i).isConstant name = true := by
  rw [Env.isConstant, resolve?_env sound]
  cases owned : forest.owner? i name with
  | none =>
    obtain ⟨scope, found⟩ := exists_scope? opened
    rw [assign_of_unseen sound owned, declare_eq sound found,
      if_neg (consistent.free_of_unseen found owned)]
    simp
  | some j =>
    obtain ⟨sym, held⟩ := exists_local? owned
    rw [assign_of_owned sound owned held, Option.bind_some, held]
    cases flag : sym.constant <;> simp [flag]

theorem declare_eq_error_iff (sound : forest.Sound) {i : Nat} (opened : i < forest.nodes.length)
    (sym : Symbol) : (∃ d, forest.declare i sym = .error d) ↔ forest.Guards i sym.name := by
  obtain ⟨scope, found⟩ := exists_scope? opened
  rw [declare_eq sound found, Guards, found]
  split
  · rename_i taken
    simp [taken]
  · rename_i free
    simp [free]

theorem puts_of_declare (sound : forest.Sound) {i : Nat} (opened : i < forest.nodes.length)
    {sym : Symbol} {after : Forest} (declared : forest.declare i sym = .ok after) :
    forest.Puts after i sym ∧ ∀ names constants, forest.listing? i = some (names, constants) →
      after.listing? i = some (if sym.name ∈ names then names else names ++ [sym.name],
        if sym.constant then constants ++ [sym.name] else constants) := by
  obtain ⟨scope, found⟩ := exists_scope? opened
  rw [declare_eq sound found] at declared
  split at declared
  · cases declared
  · cases declared
    refine ⟨puts_extended found sym, fun names constants listed => ?_⟩
    rw [listing?, found] at listed
    cases listed
    rw [listing?_alter found, scope.names_extended]
    rfl

theorem puts_of_assign (sound : forest.Sound) {i : Nat} {name : Text} {v : Float}
    {place : Position} {after : Forest} (assigned : forest.assign i name v place = .ok after)
    {j : Nat} {sym : Symbol} (owned : forest.owner? i name = some j)
    (held : forest.local? j name = some sym) :
    forest.Puts after j { sym with value := some v } ∧ after.listing? j = forest.listing? j := by
  rw [assign_of_owned sound owned held] at assigned
  split at assigned
  · cases assigned
  · cases assigned
    refine ⟨puts_bind held v, ?_⟩
    obtain ⟨scope, found, -⟩ := Option.bind_eq_some_iff.mp held
    rw [listing?_alter found, scope.names_modify (f := Symbol.bind v) (fun _ => rfl), listing?,
      found]
    rfl

theorem puts_of_introduce (sound : forest.Sound) {i : Nat} (opened : i < forest.nodes.length)
    {name : Text} {v : Float} {place : Position} {after : Forest}
    (assigned : forest.assign i name v place = .ok after) (unseen : forest.owner? i name = none) :
    forest.Puts after i { name := name, value := some v, position := place } ∧
      ∀ names constants, forest.listing? i = some (names, constants) →
        after.listing? i = some (names ++ [name], constants) := by
  rw [assign_of_unseen sound unseen] at assigned
  obtain ⟨puts, lists⟩ := puts_of_declare sound opened assigned
  refine ⟨puts, fun names constants listed => ?_⟩
  obtain ⟨scope, found⟩ := exists_scope? opened
  have absent : name ∉ names := by
    rw [listing?, found] at listed
    cases listed
    rw [scope.mem_names_iff, Scope.has, find?_of_unseen found unseen]
    exact Bool.false_ne_true
  have listed' := lists names constants listed
  rw [if_neg absent] at listed'
  exact listed'

/-- An assignment fails exactly when the nearest symbol is a constant, and a declaration exactly
when the name was declared constant in the same scope before. One that succeeds puts one symbol
where it belongs and leaves all others as they were; one that fails leaves everything, also where
an assignment is made in steps. -/
theorem updates_atomic (calls : List Call) {i : Nat}
    (opened : i < (run ⟨[]⟩ calls).nodes.length) :
    let forest := run ⟨[]⟩ calls
    (∀ name v place,
      ((∃ d, forest.assign i name v place = .error d) ↔ (forest.env i).isConstant name = true) ∧
      (∀ d, forest.assign i name v place = .error d →
        forest.perform (.assign i name v place) = forest ∧
          forest.assignInSteps i name v place = (some d, forest)) ∧
      ∀ after, forest.assign i name v place = .ok after →
        forest.assignInSteps i name v place = (none, after) ∧
        (∀ j sym, forest.owner? i name = some j → forest.local? j name = some sym →
          forest.Puts after j { sym with value := some v } ∧
            after.listing? j = forest.listing? j) ∧
        (forest.owner? i name = none →
          forest.Puts after i { name := name, value := some v, position := place } ∧
            ∀ names constants, forest.listing? i = some (names, constants) →
              after.listing? i = some (names ++ [name], constants))) ∧
    ∀ sym : Symbol,
      ((∃ d, forest.declare i sym = .error d) ↔ DeclaredConstant calls i sym.name) ∧
      (∀ d, forest.declare i sym = .error d → forest.perform (.declare i sym) = forest) ∧
      ∀ after, forest.declare i sym = .ok after →
        forest.Puts after i sym ∧
          ∀ names constants, forest.listing? i = some (names, constants) →
            after.listing? i = some (if sym.name ∈ names then names else names ++ [sym.name],
              if sym.constant then constants ++ [sym.name] else constants) := by
  intro forest
  have sound : forest.Sound := sound_empty.run calls
  have consistent : forest.Consistent := consistent_empty.run sound_empty calls
  constructor
  · intro name v place
    have steps := assignInSteps_eq sound consistent opened name v place
    refine ⟨assign_eq_error_iff sound consistent opened name v place, fun d failed => ?_,
      fun after assigned => ?_⟩
    · rw [failed] at steps
      exact ⟨by rw [perform_of_target rfl opened, carryOut, failed]; rfl, steps⟩
    · rw [assigned] at steps
      exact ⟨steps, fun j sym => puts_of_assign sound assigned,
        puts_of_introduce sound opened assigned⟩
  · intro sym
    refine ⟨?_, fun d failed => ?_, fun after => puts_of_declare sound opened⟩
    · rw [declare_eq_error_iff sound opened]
      exact guards_iff_declaredConstant calls i sym.name
    · rw [perform_of_target rfl opened, carryOut, failed]
      rfl

/-- A constant with a block inside, where a variable hides it and another has no value. -/
def hiddenByVariable : List Call :=
  [.new, .declare 0 { name := [108], value := some 3, constant := true }, .child .block 0,
    .declare 1 { name := [120] }, .copy .loop 0]

/-- In the block the constant refuses the assignment and may be declared anew; the variable gets
its value in its place. In the copy the constant refuses too, though it may be declared again. -/
theorem updates_atomic_hiddenByVariable :
    let forest := run ⟨[]⟩ hiddenByVariable
    (∃ d, forest.assign 1 [108] 5 {} = .error d ∧ forest.perform (.assign 1 [108] 5 {}) = forest) ∧
      (∃ after, forest.assign 1 [120] 5 {} = .ok after ∧
        forest.Puts after 1 { name := [120], value := some 5 }) ∧
      (∃ d, forest.assign 2 [108] 5 {} = .error d) ∧ ¬ DeclaredConstant hiddenByVariable 2 [108] ∧
      ∃ after, forest.declare 2 { name := [108] } = .ok after ∧
        after.listing? 2 = some ([[108]], []) := by
  intro forest
  have inBlock := updates_atomic hiddenByVariable (i := 1) (by decide)
  have inCopy := updates_atomic hiddenByVariable (i := 2) (by decide)
  obtain ⟨d, refused⟩ := (inBlock.1 [108] 5 {}).1.mpr (by decide)
  refine ⟨⟨d, refused, ((inBlock.1 [108] 5 {}).2.1 d refused).1⟩, ?_,
    (inCopy.1 [108] 5 {}).1.mpr (by decide), ?_, ?_⟩
  · obtain ⟨after, assigned⟩ : ∃ after, forest.assign 1 [120] 5 {} = .ok after := ⟨_, rfl⟩
    exact ⟨after, assigned, (((inBlock.1 [120] 5 {}).2.2 after assigned).2.1 1 _ rfl rfl).1⟩
  · intro declared
    obtain ⟨d, refused⟩ := (inCopy.2 { name := [108] }).1.mpr declared
    cases refused
  · obtain ⟨after, declared⟩ : ∃ after, forest.declare 2 { name := [108] } = .ok after := ⟨_, rfl⟩
    exact ⟨after, declared, ((inCopy.2 { name := [108] }).2.2 after declared).2 [[108]] [] rfl⟩

end Forest

end NumScript
