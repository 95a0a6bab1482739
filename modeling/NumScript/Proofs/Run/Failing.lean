import NumScript.Proofs.Expression.Staged
import NumScript.Proofs.Run.Outcomes

/-! What the steps of a run complain of. An expression without a value, a name that may not be
declared or assigned, and a loop beyond the limit have causes of their own, so that the cause of a
problem tells which kind of step has failed; and each of them is an error. -/

namespace NumScript

/-! ### Expressions -/

theorem Token.invalid_of_value {t : Token} {d : Diagnostic} (failed : t.value = .error d) :
    d = t.notNumber ∨ d = t.malformedNumber := by
  unfold value at failed
  split at failed
  · cases failed
    exact .inl rfl
  · split at failed
    · cases failed
    · split at failed
      · cases failed
      · cases failed
        exact .inr rfl

/-- A name can only be unknown or without a value. -/
theorem Env.missing_of_get {env : Env} {name : Text} {line : Int} {d : Diagnostic}
    (failed : (env.get name line).1 = .error d) :
    d = undefined name line ∨ d = uninitialized name line := by
  unfold get at failed
  dsimp only at failed
  split at failed
  · cases failed
    exact .inl rfl
  · split at failed
    · cases failed
      exact .inr rfl
    · cases failed

namespace Tree

/-- The problems for which a tree has no value. -/
inductive Complains : Diagnostic → Prop
  | notNumber (t : Token) : Complains t.notNumber
  | malformedNumber (t : Token) : Complains t.malformedNumber
  | undefined (name : Text) (line : Int) : Complains (Env.undefined name line)
  | uninitialized (name : Text) (line : Int) : Complains (Env.uninitialized name line)
  | operator (form : String) (op : Token) : Complains (op.invalidOperator form)
  | arity (op : Token) (count : Nat) : Complains (invalidArity op count)
  | width (op : Token) (count : Nat) : Complains (tooWide op count)

theorem Complains.severity {d : Diagnostic} (h : Complains d) : d.severity = .error := by
  cases h <;> rfl

theorem Complains.cause_ne {d : Diagnostic} (h : Complains d) : d.cause ≠ some .iterationLimit := by
  cases h <;> exact fun cause => by cases cause

theorem complains_of_evaluate {d : Diagnostic} :
    (t : Tree) → t.evaluate = .error d → Complains d
  | leaf t, failed => by
    rw [evaluate_leaf] at failed
    rcases Token.invalid_of_value failed with rfl | rfl
    · exact .notNumber t
    · exact .malformedNumber t
  | unary op a, failed => by
    rw [evaluate_unary, applyUnary] at failed
    split at failed
    · cases failed
      exact .operator "unary" op
    · cases value : a.evaluate with
      | error d' =>
        rw [value] at failed
        cases failed
        exact complains_of_evaluate a value
      | ok v => simp [value, Except.map] at failed
  | binary op a b, failed => by
    rw [evaluate_binary, applyBinary] at failed
    split at failed
    · cases failed
      exact .operator "binary" op
    · cases left : a.evaluate with
      | error d' =>
        rw [left] at failed
        cases failed
        exact complains_of_evaluate a left
      | ok v =>
        cases right : b.evaluate with
        | error d' =>
          rw [left, right] at failed
          cases failed
          exact complains_of_evaluate b right
        | ok w => simp [left, right, Except.bind, Except.map] at failed
  | wide op a b c more, failed => by
    rw [evaluate] at failed
    cases failed
    exact .arity op _

mutual

theorem complains_of_bind {env : Env} {d : Diagnostic} :
    (t : Tree) → (t.bind env).1 = .error d → Complains d
  | leaf t, failed => by
    rw [bind] at failed
    split at failed
    · split at failed
      · cases failed
      · rename_i read
        cases failed
        rcases Env.missing_of_get (congrArg Prod.fst read) with rfl | rfl
        · exact .undefined _ _
        · exact .uninitialized _ _
    · cases failed
  | unary op a, failed => by
    rw [bind] at failed
    split at failed
    · cases failed
    · split at failed
      · cases failed
      · rename_i first
        cases failed
        exact complains_of_bind a (congrArg Prod.fst first)
  | binary op a b, failed => by
    rw [bind] at failed
    split at failed
    · cases failed
    · split at failed
      · rename_i first
        cases failed
        exact complains_of_bind a (congrArg Prod.fst first)
      · split at failed
        · rename_i second
          cases failed
          exact complains_of_bind b (congrArg Prod.fst second)
        · cases failed
  | wide op a b c more, failed => by
    rw [bind] at failed
    split at failed
    · cases failed
    · split at failed
      · rename_i first
        cases failed
        exact complains_of_bind a (congrArg Prod.fst first)
      · split at failed
        · rename_i second
          cases failed
          exact complains_of_bind b (congrArg Prod.fst second)
        · split at failed
          · rename_i third
            cases failed
            exact complains_of_bind c (congrArg Prod.fst third)
          · split at failed
            · rename_i fourth
              cases failed
              exact complains_of_bindAll more (congrArg Prod.fst fourth)
            · cases failed
              exact .width op _

theorem complains_of_bindAll {env : Env} {d : Diagnostic} :
    (ts : List Tree) → (bindAll env ts).1 = some d → Complains d
  | [], failed => by
    rw [bindAll] at failed
    cases failed
  | t :: rest, failed => by
    rw [bindAll] at failed
    split at failed
    · rename_i first
      cases failed
      exact complains_of_bind t (congrArg Prod.fst first)
    · exact complains_of_bindAll rest failed

end

theorem complains_of_evaluateIn {env : Env} {t : Tree} {d : Diagnostic}
    (failed : (t.evaluateIn env).1 = .error d) : Complains d := by
  unfold evaluateIn at failed
  split at failed
  · rename_i read
    cases failed
    exact complains_of_bind t (congrArg Prod.fst read)
  · exact complains_of_evaluate _ failed

end Tree

/-! ### Names -/

/-- A declaration fails only because the name is a constant of the innermost scope already. -/
theorem Env.redeclared_of_declare {sym : Symbol} {env : Env} {d : Diagnostic}
    (failed : env.declare sym = .error d) : ∃ previous, d = sym.redeclared previous := by
  cases env with
  | nil => cases failed
  | cons scope outer =>
    simp only [declare, Scope.declare] at failed
    split at failed
    · cases failed
      exact ⟨_, rfl⟩
    · cases failed

/-- An assignment fails only because the name is a constant, visible or declared before. -/
theorem Env.assigned_of_assign {name : Text} {v : Float} {place : Position} {env : Env}
    {d : Diagnostic} (failed : env.assign name v place = .error d) :
    (∃ sym previous, d = Symbol.redeclared sym previous ∧ sym.position = place) ∨
      ∃ sym, d = Symbol.assigned sym place := by
  unfold assign at failed
  split at failed
  · obtain ⟨previous, rfl⟩ := redeclared_of_declare failed
    exact .inl ⟨_, previous, rfl, rfl⟩
  · split at failed
    · cases failed
      exact .inr ⟨_, rfl⟩
    · cases failed

/-- The problem is a constant that is bound again, and it is told on the given line. -/
structure Diagnostic.Rebinds (line : Int) (d : Diagnostic) : Prop where
  severity : d.severity = .error
  cause : d.cause = some .constantRebinding
  line : d.line = line

theorem Env.rebinds_of_declare {sym : Symbol} {env : Env} {d : Diagnostic}
    (failed : env.declare sym = .error d) : d.Rebinds sym.position.line := by
  obtain ⟨previous, rfl⟩ := redeclared_of_declare failed
  exact ⟨rfl, rfl, rfl⟩

theorem Env.rebinds_of_assign {name : Text} {v : Float} {place : Position} {env : Env}
    {d : Diagnostic} (failed : env.assign name v place = .error d) : d.Rebinds place.line := by
  rcases assigned_of_assign failed with ⟨sym, previous, rfl, same⟩ | ⟨sym, rfl⟩
  · exact ⟨rfl, rfl, congrArg Position.line same⟩
  · exact ⟨rfl, rfl, rfl⟩

end NumScript
