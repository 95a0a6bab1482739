import NumScript.Expression.Bind

/-! What opened a scope is a label and nothing more: `Env.plain` takes the labels off, and every
operation on environments does the same with and without them. -/

namespace NumScript

/-- The scope without the label of what opened it. -/
def Scope.plain (s : Scope) : Scope := { s with kind := .unknown }

namespace Env

/-- The environment without the labels of its scopes. -/
def plain (env : Env) : Env := env.map Scope.plain

@[simp] theorem plain_nil : plain [] = [] := rfl

@[simp] theorem plain_cons (scope : Scope) (env : Env) :
    plain (scope :: env) = scope.plain :: plain env := rfl

@[simp] theorem tail_plain (env : Env) : env.plain.tail = Env.plain env.tail := by
  cases env <;> rfl

@[simp] theorem nextDepth_plain (env : Env) : env.plain.nextDepth = env.nextDepth := by
  cases env <;> rfl

/-- Labels together with the environment without labels give back the environment. -/
theorem eq_of_plain {env env' : Env} (same : env.plain = env'.plain)
    (labels : env.map Scope.kind = env'.map Scope.kind) : env = env' := by
  induction env generalizing env' with
  | nil => cases env' <;> simp_all
  | cons scope outer ih =>
    cases env' with
    | nil => simp at labels
    | cons scope' outer' =>
      simp only [plain_cons, List.cons.injEq, List.map_cons] at same labels
      have first : scope = scope' := by
        obtain ⟨kind, depth, symbols, constants⟩ := scope
        obtain ⟨kind', depth', symbols', constants'⟩ := scope'
        have label : kind = kind' := labels.1
        simp_all [Scope.plain]
      rw [first, ih same.2 labels.2]

@[simp] theorem resolve?_plain (env : Env) (name : Text) :
    env.plain.resolve? name = env.resolve? name := by
  simp only [resolve?, plain, List.findSome?_map]
  rfl

theorem modify_plain (name : Text) (f : Symbol → Symbol) (env : Env) :
    modify name f env.plain = (modify name f env).plain := by
  induction env with
  | nil => rfl
  | cons scope outer ih =>
    have label : scope.plain.has name = scope.has name := rfl
    simp only [plain_cons, modify, label]
    split
    · rfl
    · rw [ih, plain_cons]

theorem flatten_plain (env : Env) : env.plain.flatten = env.flatten := by
  simp only [flatten, plain, List.foldr_map]
  rfl

theorem declare_plain (sym : Symbol) (env : Env) :
    declare sym env.plain = (declare sym env).map plain := by
  cases env with
  | nil => rfl
  | cons scope outer =>
    by_cases constant : scope.constants.contains sym.name = true
    · simp_all [declare, Scope.declare, Scope.plain, Scope.find?, Except.map, bind, Except.bind]
    · simp_all [declare, Scope.declare, Scope.plain, Except.map, bind, Except.bind, pure,
        Except.pure]

theorem assign_plain (name : Text) (v : Float) (place : Position) (env : Env) :
    assign name v place env.plain = (assign name v place env).map plain := by
  simp only [assign, resolve?_plain]
  cases env.resolve? name with
  | none => exact declare_plain _ env
  | some sym =>
    dsimp only
    split
    · rfl
    · simp [modify_plain, Except.map]

theorem get_plain (env : Env) (name : Text) (line : Int) :
    env.plain.get name line = ((env.get name line).1, (env.get name line).2.plain) := by
  simp [get, modify_plain]

theorem child_plain {env env' : Env} (same : env.plain = env'.plain) (kind kind' : ScopeKind) :
    (env.child kind).plain = (env'.child kind').plain := by
  have depth : env.nextDepth = env'.nextDepth := by
    rw [← nextDepth_plain env, same, nextDepth_plain]
  simp [child, Scope.plain, same, depth]

theorem copy_plain {env env' : Env} (same : env.plain = env'.plain) (kind kind' : ScopeKind) :
    (env.copy kind).plain = (env'.copy kind').plain := by
  have depth : env.nextDepth = env'.nextDepth := by
    rw [← nextDepth_plain env, same, nextDepth_plain]
  have symbols : env.flatten = env'.flatten := by
    rw [← flatten_plain env, same, flatten_plain]
  simp [copy, Scope.plain, symbols, depth]

end Env

namespace Tree

mutual

theorem bind_plain (env : Env) :
    (t : Tree) → t.bind env.plain = ((t.bind env).1, (t.bind env).2.plain)
  | leaf t => by
    rw [bind, bind, Env.get_plain]
    split
    · rcases env.get t.lexeme t.line with ⟨_ | v, env'⟩ <;> rfl
    · rfl
  | unary op a => by
    rw [bind, bind, bind_plain env a]
    split
    · rfl
    · rcases a.bind env with ⟨_ | a', env'⟩ <;> rfl
  | binary op a b => by
    rw [bind, bind, bind_plain env a]
    split
    · rfl
    · rcases a.bind env with ⟨_ | a', env₁⟩
      · rfl
      · dsimp only
        rw [bind_plain env₁ b]
        rcases b.bind env₁ with ⟨_ | b', env₂⟩ <;> rfl
  | wide op a b c more => by
    rw [bind, bind, bind_plain env a]
    split
    · rfl
    · rcases a.bind env with ⟨_ | a', env₁⟩
      · rfl
      dsimp only
      rw [bind_plain env₁ b]
      rcases b.bind env₁ with ⟨_ | b', env₂⟩
      · rfl
      dsimp only
      rw [bind_plain env₂ c]
      rcases c.bind env₂ with ⟨_ | c', env₃⟩
      · rfl
      dsimp only
      rw [bindAll_plain env₃ more]
      rcases bindAll env₃ more with ⟨_ | d, env₄⟩ <;> rfl

theorem bindAll_plain (env : Env) :
    (ts : List Tree) → bindAll env.plain ts = ((bindAll env ts).1, (bindAll env ts).2.plain)
  | [] => by simp [bindAll]
  | t :: rest => by
    rw [bindAll, bindAll, bind_plain env t]
    rcases t.bind env with ⟨_ | t', env'⟩
    · rfl
    · exact bindAll_plain env' rest

end

theorem evaluateIn_plain (env : Env) (t : Tree) :
    t.evaluateIn env.plain = ((t.evaluateIn env).1, (t.evaluateIn env).2.plain) := by
  rw [evaluateIn, evaluateIn, bind_plain]
  rcases t.bind env with ⟨_ | t', env'⟩ <;> rfl

end Tree

end NumScript
