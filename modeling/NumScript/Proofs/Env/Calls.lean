import NumScript.Proofs.Env.Sharing

/-! Sequences of calls on environments that share scopes. `Forest.Effect` lists what one call can do
to the scopes; what every effect keeps, a sequence of calls of any length keeps. -/

namespace NumScript

namespace Forest

/-- A call on environments, each known by the number of its innermost scope. A new environment gets
the next number. -/
inductive Call where
  | new
  | newScope (kind : ScopeKind) (outer : Option Nat)
  | child (kind : ScopeKind) (i : Nat)
  | copy (kind : ScopeKind) (i : Nat)
  | declare (i : Nat) (sym : Symbol)
  | assign (i : Nat) (name : Text) (v : Float) (place : Position)
  | get (i : Nat) (name : Text) (line : Int)
  | lookup (i : Nat) (name : Text)

def Call.target? : Call → Option Nat
  | new => none
  | newScope _ outer => outer
  | child _ i | copy _ i | declare i _ | assign i _ _ _ | get i _ _ | lookup i _ => some i

/-- What a call on environments that are there makes of them. A refused call leaves them as they
were. -/
def carryOut (forest : Forest) : Call → Forest
  | .new => forest.addGlobal
  | .newScope kind none => forest.add { scope := { kind := kind } }
  | .newScope kind (some i) => forest.addChild kind i
  | .child kind i => forest.addChild kind i
  | .copy kind i => forest.addCopy kind i
  | .declare i sym => (forest.declare i sym).toOption.getD forest
  | .assign i name v place => (forest.assign i name v place).toOption.getD forest
  | .get i name line => (forest.get i name line).2
  | .lookup i name => (forest.lookup i name).2

/-- Makes a call. No call can be made on an environment that is not there. -/
def perform (forest : Forest) (call : Call) : Forest :=
  if ∀ i ∈ call.target?, i < forest.nodes.length then forest.carryOut call else forest

def run (forest : Forest) (calls : List Call) : Forest := calls.foldl perform forest

theorem run_append (forest : Forest) (first second : List Call) :
    forest.run (first ++ second) = (forest.run first).run second := List.foldl_append ..

theorem run_concat (forest : Forest) (calls : List Call) (call : Call) :
    forest.run (calls ++ [call]) = (forest.run calls).perform call := run_append ..

theorem perform_of_target {forest : Forest} {call : Call} {i : Nat} (target : call.target? = some i)
    (opened : i < forest.nodes.length) : forest.perform call = forest.carryOut call := by
  rw [perform, target, if_pos fun _ same => Option.some.inj same ▸ opened]

theorem perform_copy {forest : Forest} (kind : ScopeKind) {i : Nat}
    (opened : i < forest.nodes.length) :
    forest.perform (.copy kind i) = forest.add
      { scope := { kind := kind, depth := (forest.env i).nextDepth,
                   symbols := (forest.env i).flatten } } :=
  perform_of_target rfl opened

/-- What a call can do: nothing, add a scope, or change one scope. -/
inductive Effect (forest : Forest) : Call → Forest → Prop
  | nothing (call : Call) : Effect forest call forest
  | opened (call : Call) (kind : ScopeKind) (depth : Nat) (outer : Option Nat)
      (inside : ∀ p, outer = some p → p < forest.nodes.length) :
      Effect forest call
        (forest.add { parent := outer, scope := { kind := kind, depth := depth } })
  | copied (kind : ScopeKind) (i : Nat) :
      Effect forest (.copy kind i)
        (forest.add
          { scope :=
            { kind := kind
              depth := (forest.env i).nextDepth
              symbols := (forest.env i).flatten } })
  | declared {i : Nat} {scope : Scope} {sym : Symbol} (found : forest.scope? i = some scope)
      (free : sym.name ∉ scope.constants) :
      Effect forest (.declare i sym) (forest.alter i (·.extended sym))
  | introduced {i : Nat} {name : Text} (v : Float) (place : Position)
      (unseen : forest.owner? i name = none) :
      Effect forest (.assign i name v place)
        (forest.alter i (·.extended { name := name, value := some v, position := place }))
  | assigned {i j : Nat} {name : Text} {sym : Symbol} (v : Float) (place : Position)
      (owned : forest.owner? i name = some j) (held : forest.local? j name = some sym)
      (changeable : sym.constant = false) :
      Effect forest (.assign i name v place) (forest.alter j (·.modify name (Symbol.bind v)))
  | read (call : Call) (j : Nat) (name : Text) :
      Effect forest call (forest.alter j (·.modify name Symbol.markUsed))

variable {forest : Forest}

/-! ### One call -/

theorem effect_declare (sound : forest.Sound) {i : Nat}
    (opened : i < forest.nodes.length) (sym : Symbol) :
    Effect forest (.declare i sym) ((forest.declare i sym).toOption.getD forest) := by
  obtain ⟨scope, found⟩ := exists_scope? opened
  rw [declare_eq sound found]
  split
  · exact .nothing _
  · rename_i free
    exact .declared found free

theorem effect_assign (sound : forest.Sound) {i : Nat}
    (opened : i < forest.nodes.length) (name : Text) (v : Float) (place : Position) :
    Effect forest (.assign i name v place)
      ((forest.assign i name v place).toOption.getD forest) := by
  cases owned : forest.owner? i name with
  | none =>
    obtain ⟨scope, found⟩ := exists_scope? opened
    rw [assign_of_unseen sound owned, declare_eq sound found]
    split
    · exact .nothing _
    · exact .introduced v place owned
  | some j =>
    obtain ⟨sym, held⟩ := exists_local? owned
    rw [assign_of_owned sound owned held]
    split
    · exact .nothing _
    · rename_i changeable
      exact .assigned v place owned held (by simpa using changeable)

theorem effect_read (sound : forest.Sound) (call : Call) (i : Nat)
    (name : Text) :
    Effect forest call (forest.setEnv i ((forest.env i).modify name Symbol.markUsed)) := by
  rw [setEnv_modify sound]
  split
  · exact .nothing call
  · exact .read call _ name

theorem effect_perform (sound : forest.Sound) (call : Call) :
    Effect forest call (forest.perform call) := by
  unfold perform
  split
  case isFalse => exact .nothing call
  case isTrue opened =>
    cases call with
    | new => exact .opened _ .global 0 none (by simp)
    | newScope kind outer =>
      cases outer with
      | none => exact .opened _ kind 0 none (by simp)
      | some i => exact .opened _ kind _ (some i) (by simpa [Call.target?] using opened)
    | child kind i => exact .opened _ kind _ (some i) (by simpa [Call.target?] using opened)
    | copy kind i => exact .copied kind i
    | declare i sym => exact effect_declare sound (opened i rfl) sym
    | assign i name v place => exact effect_assign sound (opened i rfl) name v place
    | get i name line => exact effect_read sound _ i name
    | lookup i name => exact effect_read sound _ i name

theorem Sound.effect {forest after : Forest} {call : Call} (sound : forest.Sound)
    (effect : Effect forest call after) : after.Sound := by
  cases effect with
  | nothing => exact sound
  | opened call kind depth outer inside => exact sound.add inside List.nodup_nil
  | copied kind i => exact sound.add (by simp) (Env.nodup_flatten _)
  | declared found free => exact sound.alter fun scope => Scope.nodup_put _
  | introduced v place unseen => exact sound.alter fun scope => Scope.nodup_put _
  | assigned v place owned held changeable =>
    exact sound.alter fun scope distinct => by
      rwa [scope.names_modify (f := Symbol.bind v) fun _ => rfl]
  | read call j name =>
    exact sound.alter fun scope distinct => by
      rwa [scope.names_modify (f := Symbol.markUsed) fun _ => rfl]

/-! ### Many calls -/

theorem sound_empty : Sound ⟨[]⟩ where
  rooted i p inner := by simp [parent?] at inner
  distinct i scope found := by simp [scope?] at found

theorem Sound.run (sound : forest.Sound) (calls : List Call) :
    (forest.run calls).Sound := by
  induction calls generalizing forest with
  | nil => exact sound
  | cons call rest ih => exact ih (sound.effect (effect_perform sound call))

end Forest

end NumScript
