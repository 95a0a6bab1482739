import NumScript.Expression.Bind
import NumScript.Optimize

/-! The two stages of an expression's value. Reading the names comes first and can fail; computing
what they stand for comes second and can fail in its own way. `Tree.staged` keeps the two apart, so
that the stages of a node follow from the stages of its operands, and folding a tree changes
neither. -/

namespace NumScript

section Success

variable {α β : Type}

theorem Except.map_eq_ok_iff {f : α → β} {r : Except Diagnostic α} {y : β} :
    r.map f = .ok y ↔ ∃ x, r = .ok x ∧ f x = y := by
  cases r <;> simp [Except.map]

theorem Except.bind_eq_ok_iff {f : α → Except Diagnostic β} {r : Except Diagnostic α} {y : β} :
    r.bind f = .ok y ↔ ∃ x, r = .ok x ∧ f x = .ok y := by
  cases r <;> simp [Except.bind]

/-- Two results that agree under `f` fail alike or succeed alike. -/
theorem Except.cases_of_map_eq {f : α → β} {r r' : Except Diagnostic α}
    (same : r.map f = r'.map f) :
    (∃ d, r = .error d ∧ r' = .error d) ∨ ∃ x x', r = .ok x ∧ r' = .ok x' ∧ f x = f x' := by
  cases r <;> cases r' <;> simp_all [Except.map]

end Success

namespace Token

@[simp] theorem ofNumber_kind (v : Float) (t : Token) : (ofNumber v t).kind = .number := rfl

@[simp] theorem value_ofNumber (v : Float) (t : Token) : (ofNumber v t).value = .ok v := by
  simp [value, number?, ofNumber]

theorem value_eq_ok_iff {t : Token} {v : Float} :
    t.value = .ok v ↔ t.kind = .number ∧ t.number?.or (Number.read? t.lexeme) = some v := by
  unfold Token.value
  by_cases kind : t.kind = .number
  · cases t.number? <;> cases Number.read? t.lexeme <;> simp [kind]
  · simp [kind]

end Token

namespace Tree

/-- What an operator in front of an operand makes of the operand's value. -/
def applyUnary (op : Token) (v : Except Diagnostic Float) : Except Diagnostic Float :=
  match op.kind.unaryMeaning? with
  | none => .error (op.invalidOperator "unary")
  | some f => v.map f

/-- What an operator between two operands makes of their values. -/
def applyBinary (op : Token) (v w : Except Diagnostic Float) : Except Diagnostic Float :=
  match op.kind.binaryMeaning? with
  | none => .error (op.invalidOperator "binary")
  | some f => v.bind fun v => w.map (f v)

theorem applyUnary_eq_ok_iff {op : Token} {r : Except Diagnostic Float} {v : Float} :
    applyUnary op r = .ok v ↔ ∃ f w, op.kind.unaryMeaning? = some f ∧ r = .ok w ∧ f w = v := by
  unfold applyUnary
  cases op.kind.unaryMeaning? <;> simp [Except.map_eq_ok_iff]

theorem applyBinary_eq_ok_iff {op : Token} {r r' : Except Diagnostic Float} {v : Float} :
    applyBinary op r r' = .ok v ↔
      ∃ f w w', op.kind.binaryMeaning? = some f ∧ r = .ok w ∧ r' = .ok w' ∧ f w w' = v := by
  unfold applyBinary
  cases op.kind.binaryMeaning? <;> simp [Except.map_eq_ok_iff, Except.bind_eq_ok_iff]

@[simp] theorem evaluate_leaf (t : Token) : (leaf t).evaluate = t.value := by rw [evaluate]

theorem evaluate_unary (op : Token) (a : Tree) :
    (unary op a).evaluate = applyUnary op a.evaluate := by
  rw [evaluate, applyUnary]
  cases op.kind.unaryMeaning? with
  | none => rfl
  | some f => cases a.evaluate <;> rfl

theorem evaluate_binary (op : Token) (a b : Tree) :
    (binary op a b).evaluate = applyBinary op a.evaluate b.evaluate := by
  rw [evaluate, applyBinary]
  cases op.kind.binaryMeaning? with
  | none => rfl
  | some f => cases a.evaluate <;> cases b.evaluate <;> rfl

/-- The value of a tree in an environment with its two stages kept apart: outside, whether every
name could be read; inside, whether what was read could be computed. -/
def staged (env : Env) (t : Tree) : Except Diagnostic (Except Diagnostic Float) × Env :=
  ((t.bind env).1.map evaluate, (t.bind env).2)

/-- The value of a tree is the value of its second stage, or the problem of its first. -/
theorem evaluateIn_eq_staged (env : Env) (t : Tree) :
    t.evaluateIn env = ((t.staged env).1.bind id, (t.staged env).2) := by
  unfold evaluateIn staged
  rcases t.bind env with ⟨_ | _, _⟩ <;> rfl

/-- A tree without names is left alone by the first stage. -/
theorem bind_of_isConstant {env : Env} {t : Tree} (h : t.isConstant = true) :
    t.bind env = (.ok t, env) := by
  cases t with
  | leaf t => simp_all [bind, isConstant]
  | unary op a => simp [bind, h]
  | binary op a b => simp [bind, h]
  | wide op a b c more => simp [bind, h]

theorem staged_of_isConstant {env : Env} {t : Tree} (h : t.isConstant = true) :
    t.staged env = (.ok t.evaluate, env) := by
  simp [staged, bind_of_isConstant h, Except.map]

theorem staged_unary (env : Env) (op : Token) (a : Tree) :
    (unary op a).staged env = ((a.staged env).1.map (applyUnary op), (a.staged env).2) := by
  by_cases h : (unary op a).isConstant = true
  · have ha : a.isConstant = true := by simp_all [isConstant]
    simp [staged_of_isConstant h, staged_of_isConstant ha, evaluate_unary, Except.map]
  · unfold staged
    rw [bind, if_neg h]
    rcases a.bind env with ⟨_ | a', _⟩
    · rfl
    · simp [Except.map, evaluate_unary]

/-- The stages of a binary node: the names of the left operand are read before those of the
right one, and nothing is computed before all are read. -/
theorem staged_binary (env : Env) (op : Token) (a b : Tree) :
    (binary op a b).staged env =
      match a.staged env with
      | (.error d, env) => (.error d, env)
      | (.ok v, env) => ((b.staged env).1.map (applyBinary op v), (b.staged env).2) := by
  by_cases h : (binary op a b).isConstant = true
  · have ha : a.isConstant = true := by simp_all [isConstant]
    have hb : b.isConstant = true := by simp_all [isConstant]
    simp [staged_of_isConstant h, staged_of_isConstant ha, staged_of_isConstant hb,
      evaluate_binary, Except.map]
  · unfold staged
    rw [bind, if_neg h]
    rcases a.bind env with ⟨_ | a', env'⟩
    · rfl
    · simp only [Except.map]
      rcases b.bind env' with ⟨_ | b', _⟩
      · rfl
      · simp [evaluate_binary]

/-! ### Folding -/

theorem unaryMeaning?_identifier : TokenKind.identifier.unaryMeaning? = none := rfl

theorem binaryMeaning?_identifier : TokenKind.identifier.binaryMeaning? = none := rfl

theorem isConstant_of_isNumberLeaf {t : Tree} (h : t.isNumberLeaf = true) :
    t.isConstant = true := by
  cases t <;> simp_all [isNumberLeaf, isConstant]

/-- A node over numbers that has a value holds no name: a name is no operator. -/
theorem isConstant_of_evaluate {t : Tree} {v : Float}
    (operands : t.operands.all isNumberLeaf = true) (value : t.evaluate = .ok v) :
    t.isConstant = true := by
  cases t with
  | leaf t =>
    have : t.kind ≠ .identifier := by
      intro h
      simp [Token.value, h] at value
    simpa [isConstant] using this
  | unary op a =>
    have ha : a.isConstant = true :=
      isConstant_of_isNumberLeaf (by simpa [Tree.operands] using operands)
    have : op.kind ≠ .identifier := by
      intro h
      simp [evaluate_unary, applyUnary, h, unaryMeaning?_identifier] at value
    simp [isConstant, ha, this]
  | binary op a b =>
    simp only [Tree.operands, List.all_cons, List.all_nil, Bool.and_true, Bool.and_eq_true]
      at operands
    have ha := isConstant_of_isNumberLeaf operands.1
    have hb := isConstant_of_isNumberLeaf operands.2
    have : op.kind ≠ .identifier := by
      intro h
      simp [evaluate_binary, applyBinary, h, binaryMeaning?_identifier] at value
    simp [isConstant, ha, hb, this]
  | wide op a b c more => simp [evaluate] at value

/-- Replacing a node over numbers by its value changes neither stage. -/
theorem staged_foldNode (env : Env) (t : Tree) : (foldNode t).1.staged env = t.staged env := by
  unfold foldNode
  split
  · rename_i operands
    split
    · rename_i v value
      have hc := isConstant_of_evaluate operands value
      rw [staged_of_isConstant hc, staged_of_isConstant (by simp [isConstant])]
      simp [value]
    · rfl
  · rfl

/-- Folding changes neither stage of a tree's value. -/
theorem staged_fold (env : Env) : (t : Tree) → t.fold.1.staged env = t.staged env
  | leaf t => by rw [fold]
  | wide op a b c more => by rw [fold]
  | unary op a => by
    rw [fold, staged_foldNode, staged_unary, staged_unary, staged_fold env a]
  | binary op a b => by
    rw [fold, staged_foldNode, staged_binary, staged_binary, staged_fold env a]
    rcases a.staged env with ⟨_ | v, env'⟩
    · rfl
    · simp only [staged_fold env' b]

theorem evaluateIn_fold (env : Env) (t : Tree) : t.fold.1.evaluateIn env = t.evaluateIn env := by
  rw [evaluateIn_eq_staged, evaluateIn_eq_staged, staged_fold]

/-- A number leaf with a value has that value in every environment, and reads nothing. -/
theorem evaluateIn_of_isNumberLeaf (env : Env) {t : Tree} {v : Float}
    (number : t.isNumberLeaf = true) (value : t.evaluate = .ok v) :
    t.evaluateIn env = (.ok v, env) := by
  rw [evaluateIn_eq_staged, staged_of_isConstant (isConstant_of_isNumberLeaf number), value]
  rfl

end Tree

end NumScript
