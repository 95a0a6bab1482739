import Mathlib.Data.List.Forall2
import NumScript.Proofs.Env.Unread
import NumScript.Proofs.Run.Reaching

/-! What a block leaves of the scopes around it. Inside a block names are declared, assigned and
read as anywhere else, and the inside may end early; but a declaration reaches no other scope than
the innermost one, so around the block names, constants and places stay as they are, and only
variables get new values. Copies keep even these. -/

namespace NumScript

/-- What may become of a symbol: its value may change when it is a variable, but a value is never
lost. -/
structure Symbol.Survives (before after : Symbol) : Prop where
  name : after.name = before.name
  constant : after.constant = before.constant
  position : after.position = before.position
  value : before.constant = true → after.value = before.value
  bound : before.isBound = true → after.isBound = true

/-- The scope has the same names in the same order, and under each name the symbol survives. -/
structure Scope.Survives (before after : Scope) : Prop where
  kind : after.kind = before.kind
  depth : after.depth = before.depth
  names : after.names = before.names
  constants : after.constants = before.constants
  symbols : ∀ name sym, before.find? name = some sym →
    ∃ sym', after.find? name = some sym' ∧ sym.Survives sym'

/-- The environment has the same scopes, and each survives. -/
def Env.Survives (before after : Env) : Prop := List.Forall₂ Scope.Survives before after

/-- What is left of an environment after a block: with blocks as children its symbols survive; with
blocks as copies it is the same but for notes of what was read. -/
def Env.Isolated : Scoping → Env → Env → Prop
  | .chain, before, after => before.Survives after
  | .copy, before, after => after.unread = before.unread

namespace Symbol.Survives

theorem refl (sym : Symbol) : sym.Survives sym := ⟨rfl, rfl, rfl, fun _ => rfl, id⟩

theorem trans {first second third : Symbol} (h : first.Survives second)
    (h' : second.Survives third) : first.Survives third where
  name := h'.name.trans h.name
  constant := h'.constant.trans h.constant
  position := h'.position.trans h.position
  value constant := (h'.value (h.constant.trans constant)).trans (h.value constant)
  bound := h'.bound ∘ h.bound

theorem markUsed (sym : Symbol) : sym.Survives sym.markUsed := ⟨rfl, rfl, rfl, fun _ => rfl, id⟩

/-- A variable survives getting a value. -/
theorem bind {sym : Symbol} (changeable : sym.constant = false) (v : Float) :
    sym.Survives (sym.bind v) where
  name := rfl
  constant := rfl
  position := rfl
  value constant := by simp [changeable] at constant
  bound _ := rfl

end Symbol.Survives

namespace Scope.Survives

theorem refl (scope : Scope) : scope.Survives scope :=
  ⟨rfl, rfl, rfl, rfl, fun _ sym found => ⟨sym, found, .refl sym⟩⟩

theorem trans {first second third : Scope} (h : first.Survives second)
    (h' : second.Survives third) : first.Survives third where
  kind := h'.kind.trans h.kind
  depth := h'.depth.trans h.depth
  names := h'.names.trans h.names
  constants := h'.constants.trans h.constants
  symbols name sym found := by
    obtain ⟨sym', found', survives⟩ := h.symbols name sym found
    obtain ⟨sym'', found'', survives'⟩ := h'.symbols name sym' found'
    exact ⟨sym'', found'', survives.trans survives'⟩

/-- A scope survives a change that the symbol of the changed name survives. -/
theorem modify {scope : Scope} {f : Symbol → Symbol} (keeps : ∀ sym, (f sym).name = sym.name)
    {name : Text} (changed : ∀ sym, scope.find? name = some sym → sym.Survives (f sym)) :
    scope.Survives (scope.modify name f) where
  kind := rfl
  depth := rfl
  names := scope.names_modify keeps name
  constants := rfl
  symbols other sym found := by
    rw [scope.find?_modify keeps, found]
    split
    · rename_i same
      exact ⟨f sym, rfl, changed sym (same ▸ found)⟩
    · exact ⟨sym, rfl, .refl sym⟩

end Scope.Survives

namespace Env

namespace Survives

theorem refl (env : Env) : env.Survives env :=
  List.forall₂_same.mpr fun scope _ => .refl scope

theorem trans {first second third : Env} (h : first.Survives second) (h' : second.Survives third) :
    first.Survives third := by
  induction h generalizing third with
  | nil => exact h'
  | cons scope _ ih =>
    obtain ⟨scope', outer', survives, below, rfl⟩ := List.forall₂_cons_left_iff.mp h'
    exact .cons (scope.trans survives) (ih below)

theorem tail {before after : Env} (h : before.Survives after) :
    Survives before.tail after.tail := by
  cases h with
  | nil => exact .nil
  | cons _ below => exact below

/-- An environment survives a change that the nearest symbol of the changed name survives. -/
theorem modify {env : Env} {f : Symbol → Symbol} (keeps : ∀ sym, (f sym).name = sym.name)
    {name : Text} (changed : ∀ sym, env.resolve? name = some sym → sym.Survives (f sym)) :
    env.Survives (env.modify name f) := by
  induction env with
  | nil => exact .nil
  | cons scope outer ih =>
    simp only [resolve?_cons] at changed
    rw [Env.modify]
    split
    · refine .cons (.modify keeps fun sym found => changed sym ?_) (refl outer)
      rw [found, Option.some_or]
    · rename_i absent
      have missing : scope.find? name = none := by simpa [Scope.has] using absent
      refine .cons (.refl scope) (ih fun sym found => changed sym ?_)
      rw [missing, Option.none_or, found]

theorem markUsed (env : Env) (name : Text) : env.Survives (env.modify name Symbol.markUsed) :=
  modify (f := Symbol.markUsed) (fun _ => rfl) fun sym _ => .markUsed sym

/-- Whatever an assignment does, the scopes around the innermost one survive it. -/
theorem assign {env env' : Env} {name : Text} {v : Float} {place : Position}
    (assigned : env.assign name v place = .ok env') : Survives env.tail env'.tail := by
  unfold Env.assign at assigned
  split at assigned
  · -- A name that is not known is declared in the innermost scope.
    rw [tail_declare assigned]
    exact refl env.tail
  · rename_i sym found
    split at assigned
    · cases assigned
    · rename_i changeable
      cases assigned
      refine tail (modify (f := Symbol.bind v) (fun _ => rfl) fun other found' => ?_)
      obtain rfl : sym = other := Option.some.inj (found.symm.trans found')
      exact .bind (by simpa using changeable) v

end Survives

/-- The scopes around the innermost one survive every operation. -/
theorem kept_survives : Kept fun env env' => Survives env.tail env'.tail where
  refl env := .refl env.tail
  trans := .trans
  read env name := (Survives.markUsed env name).tail
  assign := .assign
  declare declared := by
    rw [tail_declare declared]
    exact .refl _
  leave inside := inside.tail

/-- Reading a name leaves no more behind than a block may. -/
theorem reading_isolated : (scoping : Scoping) → Reading (Isolated scoping)
  | .chain => ⟨.refl, .trans, .markUsed⟩
  | .copy => reading_unread

end Env

/-- The inside of a block leaves the environment around it isolated. -/
theorem Limits.within_isolated (limits : Limits) (kind : ScopeKind) (body : Program) (m : Machine) :
    Env.Isolated limits.scoping m.env (limits.within kind (body.run limits) m).machine.env := by
  have inside := Env.kept_survives.run limits body (limits.entered kind m)
  simp only [Limits.within, Limits.leave, Limits.entered, Limits.enter] at inside ⊢
  cases mode : limits.scoping with
  | chain =>
    simp only [mode] at inside ⊢
    exact inside
  | copy => rfl

namespace Program

/-- The first statement runs others in a scope of their own. -/
def nests : Program → Bool
  | block _ _ _ | ifThen _ _ _ _ _ | ifElse _ _ _ _ _ _ _ | loop _ _ _ _ _ => true
  | done | declare _ _ _ _ | assign _ _ _ | expression _ _ => false

/-- A statement that runs others in a scope of their own leaves the environment that it runs in
isolated, whether it completes, fails or is given up. -/
theorem first_isolated (limits : Limits) {p : Program} (nests : p.nests = true) (m : Machine) :
    Env.Isolated limits.scoping m.env (p.first.run limits m).machine.env := by
  have reading := Env.reading_isolated limits.scoping
  cases p with
  | done | declare | assign | expression => cases nests
  | block brace body rest =>
    rw [first, run]
    simp only [run, andThen_done]
    exact limits.within_isolated .block body (m.note (.enterBlock brace.line))
  | ifThen keyword condition brace body rest =>
    simp only [first, run, andThen_done]
    refine reading.withValue fun v m' => ?_
    split
    · exact limits.within_isolated .branch body (m'.note (.branch keyword.line condition.text v))
    · exact reading.refl m'.env
  | ifElse keyword condition brace body elseBrace elseBody rest =>
    simp only [first, run, andThen_done]
    refine reading.withValue fun v m' => ?_
    split
    · exact limits.within_isolated .branch body (m'.note (.branch keyword.line condition.text v))
    · exact limits.within_isolated .branch elseBody
        (m'.note (.branch keyword.line condition.text v))
  | loop keyword condition brace body rest =>
    simp only [first, run, andThen_done]
    exact reading.iterate (limits.within_isolated .loop body) limits.rounds m

/-- `while (x) { x = 0; const x = 5; k = x; }` -/
def refusedInLoop : Program :=
  let x : Token := { kind := .identifier, lexeme := [120] }
  let k : Token := { kind := .identifier, lexeme := [107] }
  .loop { kind := .whileWord } ⟨x, .leaf x⟩ {}
    (.assign x ⟨{}, .leaf (.ofNumber 0 {})⟩
      (.declare { kind := .constWord } x (some ⟨{}, .leaf (.ofNumber 5 {})⟩)
        (.assign k ⟨x, .leaf x⟩ .done))) .done

/-- A block with the variable `x`, and the constant `k` around it. -/
def blockWithConstantAround : Env :=
  [{ kind := .block, depth := 1, symbols := [{ name := [120], value := some 1 }] },
    { symbols := [{ name := [107], value := some 7, constant := true }], constants := [[107]] }]

/-- The body of the loop changes `x`, hides it, and fails to change `k`. -/
theorem first_isolated_refusedInLoop :
    refusedInLoop.nests = true ∧
      (refusedInLoop.first.run {} { env := blockWithConstantAround }).problem?.isSome = true ∧
      (refusedInLoop.first.run {} { env := blockWithConstantAround }).machine.env.snapshot =
        [([107], 7), ([120], 0)] ∧
      Env.Isolated .chain blockWithConstantAround
        (refusedInLoop.first.run {} { env := blockWithConstantAround }).machine.env :=
  ⟨by decide, by decide +kernel, by decide +kernel,
    first_isolated {} (p := refusedInLoop) (by decide) { env := blockWithConstantAround }⟩

end Program

end NumScript
