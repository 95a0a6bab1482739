import NumScript.Proofs.Env.Unread

/-! Names that have been read. Reading a name marks the nearest symbol that has it. What reading
several names leaves behind depends neither on their order nor on how often each is read: in every
scope the symbols with one of the names are marked, as far as no scope further in has the name. -/

namespace NumScript

/-- The scope with the symbols of the names marked. -/
def Scope.marked (names : List Text) (s : Scope) : Scope :=
  { s with symbols := s.symbols.map fun sym => if sym.name ∈ names then sym.markUsed else sym }

/-- The environment with the nearest symbol of each of the names marked as read: a name that one
scope has is not looked for in those around it. -/
def Env.marked (names : List Text) : Env → Env
  | [] => []
  | scope :: outer =>
    scope.marked names :: marked (names.filter fun name => !scope.has name) outer

namespace Scope

theorem marked_nil (s : Scope) : s.marked [] = s := by
  simp [marked]

theorem has_marked (s : Scope) (names : List Text) (name : Text) :
    (s.marked names).has name = s.has name := by
  have kept : ((fun sym : Symbol => decide (sym.name = name)) ∘
      fun sym => if sym.name ∈ names then sym.markUsed else sym) =
        fun sym => decide (sym.name = name) := by
    funext sym
    by_cases read : sym.name ∈ names <;> simp [read, Symbol.markUsed]
  rw [has, has, find?, find?, marked, List.find?_map, kept, Option.isSome_map]

theorem marked_append (s : Scope) (first second : List Text) :
    (s.marked first).marked second = s.marked (first ++ second) := by
  simp only [marked, List.map_map, mk.injEq, true_and, and_true]
  refine List.map_congr_left fun sym _ => ?_
  by_cases early : sym.name ∈ first <;> by_cases late : sym.name ∈ second <;>
    simp [early, late, Symbol.markUsed]

theorem modify_markUsed (s : Scope) (name : Text) :
    s.modify name Symbol.markUsed = s.marked [name] := by
  simp [modify, marked]

theorem marked_of_absent {s : Scope} {name : Text} (absent : s.has name = false) :
    s.marked [name] = s := by
  have others : ∀ sym ∈ s.symbols, sym.name ≠ name := by
    simpa [has, find?] using absent
  obtain ⟨kind, depth, symbols, constants⟩ := s
  simp only [marked, mk.injEq, true_and, and_true]
  refine (List.map_congr_left fun sym member => ?_).trans (List.map_id _)
  simp [others sym member]

theorem unread_marked (s : Scope) (names : List Text) : (s.marked names).unread = s.unread := by
  simp only [unread, marked, List.map_map, mk.injEq, true_and, and_true]
  refine List.map_congr_left fun sym _ => ?_
  by_cases read : sym.name ∈ names <;> simp [read, Symbol.unread, Symbol.markUsed]

end Scope

namespace Env

theorem marked_nil (env : Env) : env.marked [] = env := by
  induction env with
  | nil => rfl
  | cons scope outer ih => simp [marked, scope.marked_nil, ih]

theorem marked_append (env : Env) (first second : List Text) :
    (env.marked first).marked second = env.marked (first ++ second) := by
  induction env generalizing first second with
  | nil => rfl
  | cons scope outer ih =>
    simp [marked, scope.marked_append, scope.has_marked, ih]

/-- Reading one name. -/
theorem modify_markUsed (env : Env) (name : Text) :
    env.modify name Symbol.markUsed = env.marked [name] := by
  induction env with
  | nil => rfl
  | cons scope outer ih =>
    rw [modify]
    by_cases here : scope.has name = true
    · simp [marked, here, scope.modify_markUsed, marked_nil outer]
    · simp only [Bool.not_eq_true] at here
      simp [marked, here, Scope.marked_of_absent here, ih]

/-- Marking leaves everything else as it is. -/
theorem unread_marked (env : Env) (names : List Text) : (env.marked names).unread = env.unread := by
  induction env generalizing names with
  | nil => rfl
  | cons scope outer ih => simp [marked, scope.unread_marked, ih]

theorem outline_marked (env : Env) (names : List Text) :
    (env.marked names).outline = env.outline := by
  have noted (env : Env) : env.unread.outline = env.outline := by
    simp [outline, unread, Scope.outline, Scope.unread, Symbol.unread]
  rw [← noted, unread_marked, noted]

theorem value?_marked (env : Env) (names : List Text) : (env.marked names).value? = env.value? := by
  rw [← value?_unread, unread_marked, value?_unread]

end Env

end NumScript
