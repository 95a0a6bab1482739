import NumScript.Check
import NumScript.Expression.Bind
import NumScript.Run

/-! What the operations on environments keep, a whole run and a whole check keep. `Env.Kept` lists
the operations once; every relation between the environment before and the environment after that
satisfies it holds across expressions, statements, runs and checks. -/

namespace NumScript

/-- An assignment declares a name that is not visible, and changes a visible one in its place. -/
theorem Env.assign_cases {env env' : Env} {name : Text} {v : Float} {place : Position}
    (assigned : env.assign name v place = .ok env') :
    (∃ sym, env.declare sym = .ok env') ∨ env' = env.modify name (Symbol.bind v) := by
  unfold Env.assign at assigned
  split at assigned
  · exact .inl ⟨_, assigned⟩
  · split at assigned
    · cases assigned
    · cases assigned
      exact .inr rfl

/-- A relation between an earlier and a later environment that reading names keeps. -/
structure Env.Reading (R : Env → Env → Prop) : Prop where
  refl : ∀ env, R env env
  trans : ∀ {first second third}, R first second → R second third → R first third
  read : ∀ env name, R env (env.modify name Symbol.markUsed)

/-- A relation between an earlier and a later environment that every operation keeps. -/
structure Env.Kept (R : Env → Env → Prop) : Prop extends Env.Reading R where
  assign : ∀ {env env' name v place}, Env.assign name v place env = .ok env' → R env env'
  declare : ∀ {env env' sym}, Env.declare sym env = .ok env' → R env env'
  /-- Leaving a scope that was opened inside the others. -/
  leave : ∀ {env env' kind}, R (Env.child kind env) env' → R env env'.tail

namespace Env.Reading

variable {R : Env → Env → Prop}

theorem get (h : Reading R) (env : Env) (name : Text) (line : Int) :
    R env (env.get name line).2 :=
  h.read env name

mutual

theorem bind (h : Reading R) (env : Env) : (t : Tree) → R env (t.bind env).2
  | .leaf t => by
    rw [Tree.bind]
    split
    · have read := h.get env t.lexeme t.line
      revert read
      rcases env.get t.lexeme t.line with ⟨_ | v, env'⟩ <;> exact id
    · exact h.refl env
  | .unary op a => by
    rw [Tree.bind]
    split
    · exact h.refl env
    · have first := h.bind env a
      revert first
      rcases a.bind env with ⟨_ | a', env'⟩ <;> exact id
  | .binary op a b => by
    rw [Tree.bind]
    split
    · exact h.refl env
    · have first := h.bind env a
      revert first
      rcases a.bind env with ⟨_ | a', env₁⟩
      · exact id
      intro first
      have second := h.trans first (h.bind env₁ b)
      dsimp only at second ⊢
      revert second
      rcases b.bind env₁ with ⟨_ | b', env₂⟩ <;> exact id
  | .wide op a b c more => by
    rw [Tree.bind]
    split
    · exact h.refl env
    · have first := h.bind env a
      revert first
      rcases a.bind env with ⟨_ | a', env₁⟩
      · exact id
      intro first
      have second := h.trans first (h.bind env₁ b)
      dsimp only at second ⊢
      revert second
      rcases b.bind env₁ with ⟨_ | b', env₂⟩
      · exact id
      intro second
      have third := h.trans second (h.bind env₂ c)
      dsimp only at third ⊢
      revert third
      rcases c.bind env₂ with ⟨_ | c', env₃⟩
      · exact id
      intro third
      have fourth := h.trans third (h.bindAll env₃ more)
      dsimp only at fourth ⊢
      revert fourth
      rcases Tree.bindAll env₃ more with ⟨_ | d, env₄⟩ <;> exact id

theorem bindAll (h : Reading R) (env : Env) : (ts : List Tree) → R env (Tree.bindAll env ts).2
  | [] => by
    rw [Tree.bindAll]
    exact h.refl env
  | t :: rest => by
    rw [Tree.bindAll]
    have first := h.bind env t
    revert first
    rcases t.bind env with ⟨_ | t', env'⟩
    · exact id
    · exact fun first => h.trans first (h.bindAll env' rest)

end

theorem evaluateIn (h : Reading R) (env : Env) (t : Tree) : R env (t.evaluateIn env).2 := by
  have read := h.bind env t
  revert read
  unfold Tree.evaluateIn
  rcases t.bind env with ⟨_ | t', env'⟩ <;> exact id

theorem withValue (h : Reading R) {m : Machine} {e : Expression} {next : Float → Machine → Outcome}
    (later : ∀ v m', R m'.env (next v m').machine.env) :
    R m.env (m.withValue e next).machine.env := by
  have read := h.evaluateIn m.env e.tree
  unfold Machine.withValue Machine.evaluate
  revert read
  rcases e.tree.evaluateIn m.env with ⟨_ | v, env'⟩
  · exact id
  · exact fun read => h.trans read (later v { m with env := env' })

theorem andThen (h : Reading R) {env : Env} {o : Outcome} {next : Machine → Outcome}
    (first : R env o.machine.env) (second : ∀ m, R m.env (next m).machine.env) :
    R env (o.andThen next).machine.env := by
  unfold Outcome.andThen
  split
  · exact h.trans first (second o.machine)
  · exact first

/-- A loop keeps what its rounds keep. -/
theorem iterate (h : Reading R) {limits : Limits} {keyword : Token} {condition : Expression}
    {body : Machine → Outcome}
    (round : ∀ m, R m.env (limits.within .loop body m).machine.env) (fuel : Nat) (m : Machine) :
    R m.env (limits.iterate keyword condition body fuel m).machine.env := by
  induction fuel generalizing m with
  | zero => exact h.refl m.env
  | succ fuel ih =>
    rw [Limits.iterate]
    refine h.withValue fun v m' => ?_
    split
    · exact h.refl m'.env
    · split
      · exact h.refl m'.env
      · exact h.andThen
          (round (Machine.note { m' with iterations := m'.iterations + 1 } (.iterate keyword.line)))
          ih

theorem checkLeaf (h : Reading R) (c : Checker) (t : Token) : R c.env (c.leaf t).env := by
  unfold Checker.leaf Env.lookup
  split
  · dsimp only
    split
    · exact h.read c.env t.lexeme
    · split <;> exact h.read c.env t.lexeme
  · exact h.refl c.env
  · exact h.refl c.env

theorem checkExpression (h : Reading R) (c : Checker) (e : Expression) :
    R c.env (c.expression e).env := by
  unfold Checker.expression
  induction e.tree.leaves generalizing c with
  | nil => exact h.refl c.env
  | cons t rest ih => exact h.trans (h.checkLeaf c t) (ih (c.leaf t))

end Env.Reading

namespace Env.Kept

variable {R : Env → Env → Prop}

/-! ### Runs -/

theorem within (h : Kept R) {limits : Limits} {kind : ScopeKind} {body : Machine → Outcome}
    (inside : ∀ m, R m.env (body m).machine.env) (m : Machine) :
    R m.env (limits.within kind body m).machine.env := by
  have ran := inside { m with env := limits.enter kind m.env }
  simp only [Limits.within, Limits.leave]
  cases mode : limits.scoping with
  | chain =>
    simp only [Limits.enter, mode] at ran ⊢
    exact h.leave ran
  | copy => exact h.refl m.env

theorem machineDeclare (h : Kept R) (m : Machine) (keyword name : Token)
    (value : Option Float) : R m.env (m.declare keyword name value).machine.env := by
  unfold Machine.declare
  dsimp only
  split
  · exact h.refl m.env
  · rename_i declared
    exact h.declare declared

theorem machineAssign (h : Kept R) (m : Machine) (name : Token) (v : Float) :
    R m.env (m.assign name v).machine.env := by
  unfold Machine.assign
  dsimp only
  split
  · exact h.refl m.env
  · rename_i assigned
    exact h.assign assigned

/-- A run of a program, however it ends, keeps what the operations on environments keep. -/
theorem run (h : Kept R) (limits : Limits) (p : Program) (m : Machine) :
    R m.env (p.run limits m).machine.env := by
  induction p generalizing m with
  | done => exact h.refl m.env
  | block brace body rest ihBody ihRest =>
    exact h.andThen (h.within ihBody (m.note (.enterBlock brace.line))) ihRest
  | declare keyword name value rest ihRest =>
    refine h.andThen ?_ ihRest
    cases value with
    | none => exact h.machineDeclare m keyword name none
    | some e => exact h.withValue fun v m' => h.machineDeclare m' keyword name (some v)
  | assign name value rest ihRest =>
    exact h.andThen (h.withValue fun v m' => h.machineAssign m' name v) ihRest
  | expression value rest ihRest =>
    exact h.andThen (h.withValue fun v m' => h.refl m'.env) ihRest
  | ifThen keyword condition brace body rest ihBody ihRest =>
    rw [Program.run]
    refine h.andThen (h.withValue fun v m' => ?_) ihRest
    dsimp only
    split
    · exact h.within ihBody (m'.note (.branch keyword.line condition.text v))
    · exact h.refl m'.env
  | ifElse keyword condition brace body elseBrace elseBody rest ihBody ihElse ihRest =>
    rw [Program.run]
    refine h.andThen (h.withValue fun v m' => ?_) ihRest
    dsimp only
    split
    · exact h.within ihBody (m'.note (.branch keyword.line condition.text v))
    · exact h.within ihElse (m'.note (.branch keyword.line condition.text v))
  | loop keyword condition brace body rest ihBody ihRest =>
    exact h.andThen (h.iterate (h.within ihBody) limits.rounds m) ihRest

/-! ### Checks -/

theorem checkChange (h : Kept R) (c : Checker) {result : Except Diagnostic Env}
    (changed : ∀ env, result = .ok env → R c.env env) : R c.env (c.change result).env := by
  cases result with
  | ok env => exact changed env rfl
  | error d => exact h.refl c.env

theorem checkDeclare (h : Kept R) (c : Checker) (keyword name : Token) (hasValue : Bool) :
    R c.env (c.declare keyword name hasValue).env := by
  unfold Checker.declare
  dsimp only
  split
  · exact h.checkChange (c.report (Checker.constWithoutValue name)) fun env => h.declare
  · exact h.checkChange c fun env => h.declare

theorem checkWithin (h : Kept R) {kind : ScopeKind} {body : Checker → Checker}
    (inside : ∀ c, R c.env (body c).env) (c : Checker) :
    R c.env (Checker.within kind body c).env := by
  have left := h.leave (inside { c with env := c.env.child kind })
  unfold Checker.within
  dsimp only
  split
  · rename_i gone
    rw [gone] at left ⊢
    exact left
  · rename_i scope outer remains
    rw [remains] at left
    exact left

/-- The check of a program keeps what the operations on environments keep. -/
theorem check (h : Kept R) (p : Program) (c : Checker) : R c.env (p.check c).env := by
  induction p generalizing c with
  | done => exact h.refl c.env
  | block brace body rest ihBody ihRest => exact h.trans (h.checkWithin ihBody c) (ihRest _)
  | declare keyword name value rest ihRest =>
    refine h.trans ?_ (ihRest _)
    cases value with
    | none => exact h.checkDeclare c keyword name false
    | some e => exact h.trans (h.checkExpression c e) (h.checkDeclare _ keyword name true)
  | assign name value rest ihRest =>
    refine h.trans (h.checkExpression c value) (h.trans ?_ (ihRest _))
    exact h.checkChange _ fun env => h.assign
  | expression value rest ihRest => exact h.trans (h.checkExpression c value) (ihRest _)
  | ifThen keyword condition brace body rest ihBody ihRest =>
    exact h.trans (h.checkExpression c condition) (h.trans (h.checkWithin ihBody _) (ihRest _))
  | ifElse keyword condition brace body elseBrace elseBody rest ihBody ihElse ihRest =>
    exact h.trans (h.checkExpression c condition)
      (h.trans (h.checkWithin ihBody _) (h.trans (h.checkWithin ihElse _) (ihRest _)))
  | loop keyword condition brace body rest ihBody ihRest =>
    exact h.trans (h.checkExpression c condition) (h.trans (h.checkWithin ihBody _) (ihRest _))

end Env.Kept

/-! ### Labels of scopes -/

namespace Env

theorem map_kind_modify (name : Text) (f : Symbol → Symbol) (env : Env) :
    (modify name f env).map Scope.kind = env.map Scope.kind := by
  induction env with
  | nil => rfl
  | cons scope outer ih =>
    rw [modify]
    split
    · rfl
    · rw [List.map_cons, List.map_cons, ih]

theorem map_kind_declare {sym : Symbol} {env env' : Env} (declared : declare sym env = .ok env') :
    env'.map Scope.kind = env.map Scope.kind := by
  cases env with
  | nil =>
    cases declared
    rfl
  | cons scope outer =>
    simp only [declare, Scope.declare] at declared
    split at declared
    · cases declared
    · cases declared
      rfl

/-- No operation changes what the scopes of an environment were opened by. -/
theorem kept_kinds : Kept fun env env' => env'.map Scope.kind = env.map Scope.kind where
  refl _ := rfl
  trans first second := second.trans first
  read env name := map_kind_modify name Symbol.markUsed env
  assign := by
    intro env env' name v place assigned
    rcases assign_cases assigned with ⟨sym, declared⟩ | rfl
    · exact map_kind_declare declared
    · exact map_kind_modify name _ env
  declare := map_kind_declare
  leave := by
    intro env env' kind inside
    rw [List.map_tail, inside]
    rfl

end Env

end NumScript
