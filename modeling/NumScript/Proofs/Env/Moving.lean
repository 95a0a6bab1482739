import Mathlib.Data.List.Forall2
import NumScript.Proofs.Env.Resolving
import NumScript.Proofs.Program.Joining

/-! Symbols that were declared further down. Where a symbol was declared is told in messages and
decides nothing, so environments whose symbols differ in their places alone are read, changed and
entered alike. Some symbols may be moved and others not: this is how it is when a script goes on
with what another one has left behind. -/

namespace NumScript

variable {shift : Shift}

/-! ### Symbols and problems -/

def Symbol.moved (shift : Shift) (s : Symbol) : Symbol :=
  { s with position := s.position.moved shift }

/-- The same symbol, which may be moved. -/
def Symbol.Moves (shift : Shift) (s s' : Symbol) : Prop := s' = s ∨ s' = s.moved shift

/-- The same problem further down. A message that tells where a constant was declared tells the
same place or the place moved. -/
inductive Diagnostic.Moves (shift : Shift) : Diagnostic → Diagnostic → Prop
  | line (d : Diagnostic) : Moves shift d (d.moved shift)
  | redeclared (sym previous : Symbol) :
      Moves shift (sym.redeclared previous)
        ((sym.moved shift).redeclared (previous.moved shift))
  | assigned (sym : Symbol) (place : Position) :
      Moves shift (sym.assigned place) ((sym.moved shift).assigned (place.moved shift))

theorem Diagnostic.Moves.line_eq {d d' : Diagnostic} (h : d.Moves shift d') :
    d'.line = d.line + shift.lines := by
  cases h <;> rfl

theorem Option.rel_cases {α : Type} {R : α → α → Prop} {a b : Option α}
    (h : Option.Rel R a b) :
    a = none ∧ b = none ∨ ∃ x y, a = some x ∧ b = some y ∧ R x y := by
  cases h with
  | none => exact .inl ⟨rfl, rfl⟩
  | some related => exact .inr ⟨_, _, rfl, rfl, related⟩

namespace Symbol.Moves

variable {sym sym' : Symbol}

theorem refl (sym : Symbol) : sym.Moves shift sym := .inl rfl

theorem name (h : sym.Moves shift sym') : sym'.name = sym.name := by
  rcases h with rfl | rfl <;> rfl

theorem value (h : sym.Moves shift sym') : sym'.value = sym.value := by
  rcases h with rfl | rfl <;> rfl

theorem constant (h : sym.Moves shift sym') : sym'.constant = sym.constant := by
  rcases h with rfl | rfl <;> rfl

theorem map {f : Symbol → Symbol} (free : ∀ s, f (s.moved shift) = (f s).moved shift)
    (h : sym.Moves shift sym') : (f sym).Moves shift (f sym') := by
  rcases h with rfl | rfl
  · exact .inl rfl
  · exact .inr (free sym)

theorem redeclared {previous previous' : Symbol} (sym : Symbol)
    (h : previous.Moves shift previous') :
    (sym.redeclared previous).Moves shift ((sym.moved shift).redeclared previous') := by
  rcases h with rfl | rfl
  · exact .line _
  · exact .redeclared sym previous

theorem assigned (h : sym.Moves shift sym') (place : Position) :
    (sym.assigned place).Moves shift (sym'.assigned (place.moved shift)) := by
  rcases h with rfl | rfl
  · exact .line _
  · exact .assigned sym place

end Symbol.Moves

/-! ### Scopes -/

/-- The same scope, in which each symbol may be moved. -/
structure Scope.Moves (shift : Shift) (s s' : Scope) : Prop where
  kind : s'.kind = s.kind
  depth : s'.depth = s.depth
  constants : s'.constants = s.constants
  symbols : List.Forall₂ (Symbol.Moves shift) s.symbols s'.symbols

namespace Scope

theorem put_moves {sym sym' : Symbol} (new : sym.Moves shift sym') {symbols symbols' : List Symbol}
    (h : List.Forall₂ (Symbol.Moves shift) symbols symbols') :
    List.Forall₂ (Symbol.Moves shift) (put sym symbols) (put sym' symbols') := by
  induction h with
  | nil => exact .cons new .nil
  | cons first rest ih =>
    simp only [put, first.name, new.name]
    split
    · exact .cons new rest
    · exact .cons first ih

theorem find?_moves {symbols symbols' : List Symbol}
    (h : List.Forall₂ (Symbol.Moves shift) symbols symbols') (name : Text) :
    Option.Rel (Symbol.Moves shift) (symbols.find? fun sym => sym.name = name)
      (symbols'.find? fun sym => sym.name = name) := by
  induction h with
  | nil => exact .none
  | cons first _ ih =>
    simp only [List.find?_cons, first.name]
    split
    · exact .some first
    · exact ih

theorem map_name_moves {symbols symbols' : List Symbol}
    (h : List.Forall₂ (Symbol.Moves shift) symbols symbols') :
    symbols'.map Symbol.name = symbols.map Symbol.name := by
  induction h with
  | nil => rfl
  | cons first _ ih => rw [List.map_cons, List.map_cons, first.name, ih]

namespace Moves

variable {s s' : Scope}

theorem refl (s : Scope) : s.Moves shift s :=
  ⟨rfl, rfl, rfl, List.forall₂_same.mpr fun sym _ => .refl sym⟩

theorem find? (h : s.Moves shift s') (name : Text) :
    Option.Rel (Symbol.Moves shift) (s.find? name) (s'.find? name) :=
  find?_moves h.symbols name

theorem has (h : s.Moves shift s') (name : Text) : s'.has name = s.has name := by
  unfold Scope.has
  rcases Option.rel_cases (h.find? name) with ⟨left, right⟩ | ⟨sym, sym', left, right, -⟩
  · rw [left, right]
  · rw [left, right]
    rfl

theorem names (h : s.Moves shift s') : s'.names = s.names := map_name_moves h.symbols

theorem modify (h : s.Moves shift s') (name : Text) {f : Symbol → Symbol}
    (free : ∀ sym, f (sym.moved shift) = (f sym).moved shift) :
    (s.modify name f).Moves shift (s'.modify name f) where
  kind := h.kind
  depth := h.depth
  constants := h.constants
  symbols := by
    refine List.rel_map (fun sym sym' moves => ?_) h.symbols
    rw [moves.name]
    split
    · exact moves.map free
    · exact moves

theorem extended (h : s.Moves shift s') (sym : Symbol) :
    (s.extended sym).Moves shift (s'.extended (sym.moved shift)) where
  kind := h.kind
  depth := h.depth
  constants := by
    simp only [Scope.extended, h.constants]
    rfl
  symbols := put_moves (.inr rfl) h.symbols

end Moves

end Scope

/-! ### Environments -/

/-- The same scopes, in which each symbol may be moved. -/
def Env.Moves (shift : Shift) (env env' : Env) : Prop := List.Forall₂ (Scope.Moves shift) env env'

/-- Two changes of environments fail, with the same problem further down, or succeed alike. -/
def Env.ChangeMoves (shift : Shift) (r r' : Except Diagnostic Env) : Prop :=
  (∃ d d', r = .error d ∧ r' = .error d' ∧ d.Moves shift d') ∨
    ∃ env env', r = .ok env ∧ r' = .ok env' ∧ env.Moves shift env'

namespace Env.Moves

variable {env env' : Env}

theorem refl (env : Env) : env.Moves shift env :=
  List.forall₂_same.mpr fun scope _ => .refl scope

theorem tail (h : env.Moves shift env') : Env.Moves shift env.tail env'.tail := by
  cases h with
  | nil => exact .nil
  | cons _ outer => exact outer

theorem nextDepth (h : env.Moves shift env') : env'.nextDepth = env.nextDepth := by
  cases h with
  | nil => rfl
  | cons scope _ => simp only [Env.nextDepth, scope.depth]

theorem resolve? (h : env.Moves shift env') (name : Text) :
    Option.Rel (Symbol.Moves shift) (env.resolve? name) (env'.resolve? name) := by
  induction h with
  | nil => exact .none
  | cons scope _ ih =>
    rw [resolve?_cons, resolve?_cons]
    rcases Option.rel_cases (scope.find? name) with ⟨left, right⟩ | ⟨sym, sym', left, right, moves⟩
    · rw [left, right]
      exact ih
    · rw [left, right]
      exact .some moves

theorem modify (h : env.Moves shift env') (name : Text) {f : Symbol → Symbol}
    (free : ∀ sym, f (sym.moved shift) = (f sym).moved shift) :
    (env.modify name f).Moves shift (env'.modify name f) := by
  induction h with
  | nil => exact .nil
  | cons scope outer ih =>
    simp only [Env.modify, scope.has]
    split
    · exact .cons (scope.modify name free) outer
    · exact .cons scope ih

theorem declare (h : env.Moves shift env') (sym : Symbol) :
    ChangeMoves shift (env.declare sym) (env'.declare (sym.moved shift)) := by
  cases h with
  | nil => exact .inr ⟨[], [], rfl, rfl, .nil⟩
  | @cons scope scope' outer outer' moves outside =>
    have name : (sym.moved shift).name = sym.name := rfl
    rw [declare_cons, declare_cons, moves.constants, name]
    by_cases taken : sym.name ∈ scope.constants
    · rw [if_pos taken, if_pos taken]
      refine .inl ⟨_, _, rfl, rfl, Symbol.Moves.redeclared sym ?_⟩
      rcases Option.rel_cases (moves.find? sym.name) with ⟨left, right⟩ | ⟨_, _, left, right, found⟩
      · -- Were there no symbol of that name, the stand-in for it would not be moved.
        rw [left, right]
        exact .refl _
      · rw [left, right]
        exact found
    · rw [if_neg taken, if_neg taken]
      exact .inr ⟨_, _, rfl, rfl, .cons (moves.extended sym) outside⟩

theorem assign (h : env.Moves shift env') (name : Text) (v : Float) (place : Position) :
    ChangeMoves shift (env.assign name v place) (env'.assign name v (place.moved shift)) := by
  unfold Env.assign
  rcases Option.rel_cases (h.resolve? name) with ⟨left, right⟩ | ⟨sym, sym', left, right, found⟩
  · rw [left, right]
    exact h.declare _
  · rw [left, right]
    dsimp only
    rw [found.constant]
    split
    · exact .inl ⟨_, _, rfl, rfl, found.assigned place⟩
    · exact .inr ⟨_, _, rfl, rfl, h.modify name fun _ => rfl⟩

theorem child (h : env.Moves shift env') (kind : ScopeKind) :
    (env.child kind).Moves shift (env'.child kind) :=
  .cons ⟨rfl, h.nextDepth, rfl, .nil⟩ h

theorem flatten (h : env.Moves shift env') :
    List.Forall₂ (Symbol.Moves shift) env.flatten env'.flatten := by
  refine List.rel_foldr (P := List.Forall₂ (Symbol.Moves shift))
    (fun scope scope' moves symbols symbols' below => ?_) .nil h
  refine List.rel_foldl (P := List.Forall₂ (Symbol.Moves shift)) (R := Symbol.Moves shift)
    (fun _ _ gathered _ _ new => ?_) below moves.symbols
  exact Scope.put_moves new gathered

theorem copy (h : env.Moves shift env') (kind : ScopeKind) :
    (env.copy kind).Moves shift (env'.copy kind) :=
  .cons ⟨rfl, h.nextDepth, rfl, h.flatten⟩ .nil

theorem names (h : env.Moves shift env') : env'.names = env.names := by
  have same : env'.flatMap Scope.names = env.flatMap Scope.names := by
    induction h with
    | nil => rfl
    | cons scope _ ih => rw [List.flatMap_cons, List.flatMap_cons, scope.names, ih]
  rw [Env.names, same, Env.names]

/-- What is shown of the environments is the same. -/
theorem snapshot (h : env.Moves shift env') : env'.snapshot = env.snapshot := by
  have value (name : Text) :
      (env'.resolve? name).bind Symbol.value = (env.resolve? name).bind Symbol.value := by
    rcases Option.rel_cases (h.resolve? name) with ⟨left, right⟩ | ⟨sym, sym', left, right, found⟩
    · rw [left, right]
    · rw [left, right]
      exact found.value
  simp only [Env.snapshot, h.names, value]

end Env.Moves

/-! ### Expressions -/

/-- What reading comes to, here and further down: the same problem or the same answer, written
with `f`, and environments in which symbols may be moved. -/
def ReadingMoves (shift : Shift) {α : Type} (f : α → α) (r r' : Except Diagnostic α × Env) : Prop :=
  ∃ env env' : Env, env.Moves shift env' ∧
    ((∃ d, r = (.error d, env) ∧ r' = (.error (d.moved shift), env')) ∨
      ∃ a, r = (.ok a, env) ∧ r' = (.ok (f a), env'))

namespace ReadingMoves

variable {α : Type} {f : α → α} {env env' : Env}

theorem error (h : env.Moves shift env') (d : Diagnostic) :
    ReadingMoves shift f (.error d, env) (.error (d.moved shift), env') :=
  ⟨env, env', h, .inl ⟨d, rfl, rfl⟩⟩

theorem ok (h : env.Moves shift env') (a : α) :
    ReadingMoves shift f (.ok a, env) (.ok (f a), env') :=
  ⟨env, env', h, .inr ⟨a, rfl, rfl⟩⟩

end ReadingMoves

theorem Env.Moves.get {env env' : Env} (h : env.Moves shift env') (name : Text) (line : Int) :
    ReadingMoves shift id (env.get name line) (env'.get name (line + shift.lines)) := by
  have after := h.modify name (f := Symbol.markUsed) fun _ => rfl
  simp only [Env.get]
  rcases Option.rel_cases (h.resolve? name) with ⟨left, right⟩ | ⟨sym, sym', left, right, found⟩
  · rw [left, right]
    exact .error after _
  · rw [left, right]
    dsimp only
    rw [found.value]
    cases sym.value with
    | none => exact .error after _
    | some v => exact .ok after v

namespace Tree

mutual

theorem bind_moves {env env' : Env} (h : env.Moves shift env') :
    (t : Tree) → ReadingMoves shift (Tree.moved shift) (t.bind env) ((t.moved shift).bind env')
  | leaf t => by
    have kind : (t.moved shift).kind = t.kind := rfl
    have lexeme : (t.moved shift).lexeme = t.lexeme := rfl
    have line : (t.moved shift).line = t.line + shift.lines := rfl
    rw [moved, bind, bind, kind, lexeme, line]
    split
    · obtain ⟨e, e', after, ⟨d, left, right⟩ | ⟨v, left, right⟩⟩ := h.get t.lexeme t.line
      · rw [left, right]
        exact .error after d
      · rw [left, right]
        exact .ok after (leaf (Token.ofNumber v t))
    · exact .ok h (leaf t)
  | unary op a => by
    have constant := isConstant_moved shift (unary op a)
    rw [moved] at constant ⊢
    rw [bind, bind, constant]
    split
    · exact .ok h (unary op a)
    · obtain ⟨e, e', after, ⟨d, left, right⟩ | ⟨a₁, left, right⟩⟩ := bind_moves h a
      · rw [left, right]
        exact .error after d
      · rw [left, right]
        exact .ok after (unary op a₁)
  | binary op a b => by
    have constant := isConstant_moved shift (binary op a b)
    rw [moved] at constant ⊢
    rw [bind, bind, constant]
    split
    · exact .ok h (binary op a b)
    · obtain ⟨e, e', after, ⟨d, left, right⟩ | ⟨a₁, left, right⟩⟩ := bind_moves h a
      · rw [left, right]
        exact .error after d
      · rw [left, right]
        obtain ⟨e, e', after, ⟨d, left, right⟩ | ⟨b₁, left, right⟩⟩ := bind_moves after b
        · simp only [left, right]
          exact .error after d
        · simp only [left, right]
          exact .ok after (binary op a₁ b₁)
  | wide op a b c more => by
    have constant := isConstant_moved shift (wide op a b c more)
    rw [moved] at constant ⊢
    rw [bind, bind, constant]
    split
    · exact .ok h (wide op a b c more)
    · obtain ⟨e, e', after, ⟨d, left, right⟩ | ⟨a₁, left, right⟩⟩ := bind_moves h a
      · rw [left, right]
        exact .error after d
      rw [left, right]
      obtain ⟨e, e', after, ⟨d, left, right⟩ | ⟨b₁, left, right⟩⟩ := bind_moves after b
      · simp only [left, right]
        exact .error after d
      simp only [left, right]
      obtain ⟨e, e', after, ⟨d, left, right⟩ | ⟨c₁, left, right⟩⟩ := bind_moves after c
      · simp only [left, right]
        exact .error after d
      simp only [left, right]
      obtain ⟨r, e, e', left, right, after⟩ := bindAll_moves after more
      simp only [left, right, length_allMoved]
      cases r with
      | none => exact .error after (tooWide op (more.length + 3))
      | some d => exact .error after d

theorem bindAll_moves {env env' : Env} (h : env.Moves shift env') :
    (ts : List Tree) → ∃ r e e', bindAll env ts = (r, e) ∧
      bindAll env' (allMoved shift ts) = (r.map (Diagnostic.moved shift), e') ∧ e.Moves shift e'
  | [] => by
    rw [allMoved, bindAll, bindAll]
    exact ⟨none, env, env', rfl, rfl, h⟩
  | t :: rest => by
    rw [allMoved, bindAll, bindAll]
    obtain ⟨e, e', after, ⟨d, left, right⟩ | ⟨t₁, left, right⟩⟩ := bind_moves h t
    · rw [left, right]
      exact ⟨some d, e, e', rfl, rfl, after⟩
    · rw [left, right]
      exact bindAll_moves after rest

end

/-- An expression has the same value or the same problem further down. -/
theorem evaluateIn_moves {env env' : Env} (h : env.Moves shift env') (t : Tree) :
    ReadingMoves shift id (t.evaluateIn env) ((t.moved shift).evaluateIn env') := by
  unfold evaluateIn
  obtain ⟨e, e', after, ⟨d, left, right⟩ | ⟨t₁, left, right⟩⟩ := bind_moves h t
  · rw [left, right]
    exact .error after d
  · rw [left, right]
    dsimp only
    rw [evaluate_moved]
    cases t₁.evaluate with
    | error d => exact .error after d
    | ok v => exact .ok after v

end Tree

end NumScript
