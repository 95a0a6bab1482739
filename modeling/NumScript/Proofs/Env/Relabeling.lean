import NumScript.Proofs.Env.Resolving

/-! Environments with every symbol changed in the same way. When the change leaves names, constants
and places alone, it does not matter whether it is made before or after an operation: what is found,
declared and refused is the same, and the result is changed in the same way. -/

namespace NumScript

/-- A change of symbols that keeps what declaring and assigning look at. -/
structure Symbol.Relabels (f : Symbol → Symbol) : Prop where
  name : ∀ sym, (f sym).name = sym.name
  constant : ∀ sym, (f sym).constant = sym.constant
  position : ∀ sym, (f sym).position = sym.position

def Scope.relabeled (f : Symbol → Symbol) (s : Scope) : Scope :=
  { s with symbols := s.symbols.map f }

def Env.relabeled (f : Symbol → Symbol) (env : Env) : Env := env.map (Scope.relabeled f)

variable {f : Symbol → Symbol}

namespace Scope

theorem find?_relabeled (h : Symbol.Relabels f) (s : Scope) (name : Text) :
    (s.relabeled f).find? name = (s.find? name).map f := by
  simp only [find?, relabeled, List.find?_map, Function.comp_def, h.name]

theorem names_relabeled (h : Symbol.Relabels f) (s : Scope) : (s.relabeled f).names = s.names := by
  simp only [names, relabeled, List.map_map, Function.comp_def, h.name]

theorem modify_relabeled (h : Symbol.Relabels f) (s : Scope) (name : Text) {g g' : Symbol → Symbol}
    (commutes : ∀ sym, f (g sym) = g' (f sym)) :
    (s.modify name g).relabeled f = (s.relabeled f).modify name g' := by
  simp only [modify, relabeled, List.map_map, mk.injEq, true_and, and_true]
  refine List.map_congr_left fun sym _ => ?_
  simp only [Function.comp_apply, h.name]
  split
  · exact commutes sym
  · rfl

theorem put_relabeled (h : Symbol.Relabels f) (sym : Symbol) (symbols : List Symbol) :
    (put sym symbols).map f = put (f sym) (symbols.map f) := by
  induction symbols with
  | nil => rfl
  | cons other rest ih =>
    simp only [put, List.map_cons, h.name]
    split
    · rfl
    · rw [List.map_cons, ih]

theorem extended_relabeled (h : Symbol.Relabels f) (s : Scope) (sym : Symbol) :
    (s.extended sym).relabeled f = (s.relabeled f).extended (f sym) := by
  simp only [extended, relabeled, put_relabeled h, h.name, h.constant]

end Scope

namespace Env

theorem relabeled_cons (f : Symbol → Symbol) (scope : Scope) (outer : Env) :
    relabeled f (scope :: outer) = scope.relabeled f :: relabeled f outer := rfl

theorem nextDepth_relabeled (f : Symbol → Symbol) (env : Env) :
    (env.relabeled f).nextDepth = env.nextDepth := by
  cases env <;> rfl

theorem child_relabeled (f : Symbol → Symbol) (kind : ScopeKind) (env : Env) :
    (env.child kind).relabeled f = (env.relabeled f).child kind := by
  rw [child, child, nextDepth_relabeled]
  rfl

theorem resolve?_relabeled (h : Symbol.Relabels f) (env : Env) (name : Text) :
    (env.relabeled f).resolve? name = (env.resolve? name).map f := by
  induction env with
  | nil => rfl
  | cons scope outer ih =>
    rw [relabeled_cons, resolve?_cons, resolve?_cons, ih, Scope.find?_relabeled h]
    cases scope.find? name <;> rfl

theorem modify_relabeled (h : Symbol.Relabels f) (env : Env) (name : Text)
    {g g' : Symbol → Symbol} (commutes : ∀ sym, f (g sym) = g' (f sym)) :
    (env.modify name g).relabeled f = (env.relabeled f).modify name g' := by
  induction env with
  | nil => rfl
  | cons scope outer ih =>
    have found : (scope.relabeled f).has name = scope.has name := by
      rw [Scope.has, Scope.find?_relabeled h, Option.isSome_map, Scope.has]
    simp only [modify, relabeled_cons, found]
    split
    · rw [relabeled_cons, scope.modify_relabeled h name commutes]
    · rw [relabeled_cons, ih]

theorem declare_relabeled (h : Symbol.Relabels f) (sym : Symbol) (env : Env) :
    (env.declare sym).map (relabeled f) = (env.relabeled f).declare (f sym) := by
  cases env with
  | nil => rfl
  | cons scope outer =>
    have same : (scope.relabeled f).constants = scope.constants := rfl
    rw [relabeled_cons, declare_cons, declare_cons, same, h.name]
    split
    · -- Only the place of the earlier declaration is told.
      simp only [Except.map, Symbol.redeclared, Scope.find?_relabeled h, h.name, h.position]
      cases scope.find? sym.name <;> simp [h.position]
    · rw [← scope.extended_relabeled h]
      rfl

/-- Assigning `v` and assigning `w` come to the same when the change makes them one. -/
theorem assign_relabeled (h : Symbol.Relabels f) {v w : Float}
    (binds : ∀ sym, f (sym.bind v) = (f sym).bind w) (name : Text) (place : Position)
    (fresh : f { name := name, value := some v, position := place } =
      { name := name, value := some w, position := place }) (env : Env) :
    (env.assign name v place).map (relabeled f) = (env.relabeled f).assign name w place := by
  simp only [assign, resolve?_relabeled h]
  cases env.resolve? name with
  | none =>
    rw [Option.map_none, declare_relabeled h, fresh]
  | some sym =>
    simp only [Option.map_some, h.constant, Symbol.assigned, h.name, h.position]
    split
    · rfl
    · rw [← env.modify_relabeled h name (g := Symbol.bind v) binds]
      rfl

theorem flatten_relabeled (h : Symbol.Relabels f) (env : Env) :
    (env.relabeled f).flatten = env.flatten.map f := by
  have fill (symbols acc : List Symbol) :
      (symbols.map f).foldl (fun acc sym => Scope.put sym acc) (acc.map f) =
        (symbols.foldl (fun acc sym => Scope.put sym acc) acc).map f := by
    induction symbols generalizing acc with
    | nil => rfl
    | cons sym rest ih =>
      rw [List.map_cons, List.foldl_cons, List.foldl_cons, ← Scope.put_relabeled h, ih]
  induction env with
  | nil => rfl
  | cons scope outer ih =>
    change (scope.relabeled f).symbols.foldl _ (flatten (relabeled f outer)) = _
    rw [ih]
    exact fill scope.symbols (flatten outer)

theorem copy_relabeled (h : Symbol.Relabels f) (kind : ScopeKind) (env : Env) :
    (env.copy kind).relabeled f = (env.relabeled f).copy kind := by
  rw [copy, copy, flatten_relabeled h, nextDepth_relabeled]
  rfl

end Env

end NumScript
