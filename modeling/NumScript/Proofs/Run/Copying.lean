import NumScript.Proofs.Env.Unread
import NumScript.Proofs.Run.Reaching

/-! When it makes no difference whether blocks are children or copies. A child scope can change the
scopes around it and a copy cannot; as long as no assignment inside a block reaches past its
innermost scope, the two kinds of runs do the same. The environment of the one run is then, but for
notes of what was read, the flat form of the environment of the other, and a block leaves the
scopes around it as they were. -/

namespace NumScript

namespace Env

/-- An assignment to the name changes no scope but the innermost one: the name is declared there, or
nowhere, or it is a constant. -/
def WritesInside (env : Env) (name : Text) : Prop :=
  (env.findLocal? name).isSome = true ∨ env.resolve? name = none ∨ env.isConstant name = true

/-- What the innermost scope is, apart from its symbols. -/
def header (env : Env) : Option (ScopeKind × Nat × List Text) :=
  env.head?.map fun scope => (scope.kind, scope.depth, scope.constants)

/-- The same symbols are visible in both environments, and the innermost scopes take the same
declarations. -/
structure Mirrors (env copied : Env) : Prop where
  visible : ∀ name, env.resolve? name = copied.resolve? name
  header : env.header = copied.header
  taken : ∀ kind depth constants, env.header = some (kind, depth, constants) →
    ∀ name ∈ constants, env.findLocal? name = copied.findLocal? name
  distinct : copied.Distinct

/-! ### Operations on both environments -/

theorem header_modify (env : Env) (name : Text) (f : Symbol → Symbol) :
    (env.modify name f).header = env.header := by
  cases env with
  | nil => rfl
  | cons scope outer =>
    rw [modify]
    split <;> rfl

namespace Mirrors

variable {env copied : Env}

theorem refl (distinct : env.Distinct) : Mirrors env env :=
  ⟨fun _ => rfl, rfl, fun _ _ _ _ _ _ => rfl, distinct⟩

theorem modify (h : Mirrors env copied) {f : Symbol → Symbol}
    (keeps : ∀ sym, (f sym).name = sym.name) (name : Text) :
    Mirrors (env.modify name f) (copied.modify name f) where
  visible other := by rw [resolve?_modify _ keeps, resolve?_modify _ keeps, h.visible]
  header := by rw [header_modify, header_modify, h.header]
  taken := by
    intro kind depth constants here other member
    rw [header_modify] at here
    rw [findLocal?_modify _ keeps, findLocal?_modify _ keeps, h.taken _ _ _ here other member]
  distinct := h.distinct.of_map_names (map_names_modify copied keeps name)

/-- Both environments refuse a declaration for the same reason, or both take it. -/
theorem declare (h : Mirrors env copied) (sym : Symbol) :
    (∃ d, env.declare sym = .error d ∧ copied.declare sym = .error d) ∨
      ∃ env' copied', env.declare sym = .ok env' ∧ copied.declare sym = .ok copied' ∧
        Mirrors env' copied' := by
  have header := h.header
  cases env with
  | nil =>
    cases copied with
    | nil => exact .inr ⟨[], [], rfl, rfl, h⟩
    | cons scope' outer' => simp [Env.header] at header
  | cons scope outer =>
    cases copied with
    | nil => simp [Env.header] at header
    | cons scope' outer' =>
      simp only [Env.header, List.head?_cons, Option.map_some, Option.some.injEq,
        Prod.mk.injEq] at header
      obtain ⟨kind, depth, constants⟩ := header
      rw [declare_cons, declare_cons, ← constants]
      by_cases closed : sym.name ∈ scope.constants
      · have previous : scope.find? sym.name = scope'.find? sym.name :=
          h.taken _ _ _ rfl sym.name closed
        rw [if_pos closed, if_pos closed, previous]
        exact .inl ⟨_, rfl, rfl⟩
      · rw [if_neg closed, if_neg closed]
        refine .inr ⟨_, _, rfl, rfl, fun name => ?_, ?_, ?_, h.distinct.extended sym⟩
        · have before := h.visible name
          rw [resolve?_cons, resolve?_cons] at before
          rw [resolve?_cons, resolve?_cons, Scope.find?_extended, Scope.find?_extended]
          split
          · rfl
          · exact before
        · simp [Env.header, Scope.extended, kind, depth, constants]
        · intro _ _ names here name member
          change (scope.extended sym).find? name = (scope'.extended sym).find? name
          rw [Scope.find?_extended, Scope.find?_extended]
          split
          · rfl
          · rename_i other
            refine h.taken _ _ _ rfl name ?_
            simp only [Env.header, Scope.extended, List.head?_cons, Option.map_some,
              Option.some.injEq, Prod.mk.injEq] at here
            rw [← here.2.2] at member
            split at member
            · rcases List.mem_append.mp member with old | new
              · exact old
              · exact absurd (List.mem_singleton.mp new).symm other
            · exact member

theorem assign (h : Mirrors env copied) (name : Text) (v : Float) (place : Position) :
    (∃ d, env.assign name v place = .error d ∧ copied.assign name v place = .error d) ∨
      ∃ env' copied', env.assign name v place = .ok env' ∧
        copied.assign name v place = .ok copied' ∧ Mirrors env' copied' := by
  simp only [Env.assign, h.visible name]
  cases copied.resolve? name with
  | none => exact h.declare _
  | some sym =>
    dsimp only
    split
    · exact .inl ⟨_, rfl, rfl⟩
    · exact .inr ⟨_, _, rfl, rfl, h.modify (f := Symbol.bind v) (fun _ => rfl) name⟩

/-- A child of the one environment shows what a copy of the other shows. -/
theorem enter (h : Mirrors env copied) (kind : ScopeKind) :
    Mirrors (env.child kind) (copied.copy kind) where
  visible name := by rw [resolve?_child, resolve?_copy kind h.distinct, h.visible]
  header := by
    have depth : env.nextDepth = copied.nextDepth := by
      have header := h.header
      cases env <;> cases copied <;> simp_all [Env.header, nextDepth]
    simp [Env.header, child, copy, depth]
  taken := by
    intro _ _ constants here name member
    have empty : constants = [] := by simp_all [Env.header, child]
    simp [empty] at member
  distinct := by
    intro scope member
    obtain rfl := List.mem_singleton.mp member
    exact copied.nodup_flatten

end Mirrors

/-! ### Assignments that stay inside -/

theorem tail_assign {env env' : Env} {name : Text} {v : Float} {place : Position}
    (inside : env.WritesInside name) (assigned : env.assign name v place = .ok env') :
    env'.tail = env.tail := by
  unfold assign at assigned
  cases found : env.resolve? name with
  | none =>
    rw [found] at assigned
    exact tail_declare assigned
  | some sym =>
    simp only [found] at assigned
    split at assigned
    · cases assigned
    · rename_i changeable
      cases assigned
      rcases inside with here | nowhere | constant
      · cases env with
        | nil => rfl
        | cons scope outer =>
          have has : scope.has name = true := here
          simp [modify, has]
      · simp [found] at nowhere
      · simp [isConstant, found, changeable] at constant

/-! ### Runs side by side -/

/-- The environments of the two runs at the same point. Outside all blocks they are the same but for
what was read; inside a block, `outer` is what has to be left of the one environment when the block
is. -/
structure Parallel (outer : Option Env) (env copied : Env) : Prop where
  mirrors : Mirrors env.unread copied.unread
  outside : outer = none → env.unread = copied.unread
  inside : ∀ around, outer = some around → env.unread.tail = around

namespace Parallel

variable {outer : Option Env} {env copied : Env}

theorem congr (h : Parallel outer env copied) {env' copied' : Env}
    (same : env'.unread = env.unread) (same' : copied'.unread = copied.unread) :
    Parallel outer env' copied' := by
  refine ⟨?_, ?_, ?_⟩
  · rw [same, same']
    exact h.mirrors
  · rw [same, same']
    exact h.outside
  · rw [same]
    exact h.inside

/-- An operation that does the same to environments that mirror each other, whatever was read, and
that leaves the outer scopes alone where it has to. -/
theorem step (h : Parallel outer env copied) {op : Env → Except Diagnostic Env}
    (commutes : ∀ env, (op env).map unread = op env.unread)
    (mirrored : (∃ d, op env.unread = .error d ∧ op copied.unread = .error d) ∨
      ∃ env' copied', op env.unread = .ok env' ∧ op copied.unread = .ok copied' ∧
        Mirrors env' copied')
    (stays : outer.isSome = true → ∀ env', op env = .ok env' → env'.tail = env.tail) :
    (∃ d, op env = .error d ∧ op copied = .error d) ∨
      ∃ env' copied', op env = .ok env' ∧ op copied = .ok copied' ∧
        Parallel outer env' copied' := by
  have left := commutes env
  have right := commutes copied
  rcases mirrored with ⟨d, failed, failed'⟩ | ⟨after, after', done, done', mirrors⟩
  · rw [failed] at left
    rw [failed'] at right
    refine .inl ⟨d, ?_, ?_⟩
    · cases result : op env <;> simp_all [Except.map]
    · cases result : op copied <;> simp_all [Except.map]
  · rw [done] at left
    rw [done'] at right
    obtain ⟨env', changed, rfl⟩ := Except.map_eq_ok_iff.mp left
    obtain ⟨copied', changed', rfl⟩ := Except.map_eq_ok_iff.mp right
    refine .inr ⟨env', copied', changed, changed', mirrors, fun outermost => ?_,
      fun around inner => ?_⟩
    · rw [h.outside outermost, done'] at done
      exact (Except.ok.inj done).symm
    · rw [← tail_unread, stays (by simp [inner]) env' changed, tail_unread]
      exact h.inside around inner

theorem declare (h : Parallel outer env copied) {sym : Symbol} (fresh : sym.unread = sym) :
    (∃ d, env.declare sym = .error d ∧ copied.declare sym = .error d) ∨
      ∃ env' copied', env.declare sym = .ok env' ∧ copied.declare sym = .ok copied' ∧
        Parallel outer env' copied' :=
  h.step (declare_unread fresh) (h.mirrors.declare sym) fun _ _ declared => tail_declare declared

theorem assign (h : Parallel outer env copied) {name : Text} (v : Float) (place : Position)
    (stays : outer.isSome = true → env.WritesInside name) :
    (∃ d, env.assign name v place = .error d ∧ copied.assign name v place = .error d) ∨
      ∃ env' copied', env.assign name v place = .ok env' ∧
        copied.assign name v place = .ok copied' ∧ Parallel outer env' copied' :=
  h.step (assign_unread name v place) (h.mirrors.assign name v place) fun inside _ assigned =>
    tail_assign (stays inside) assigned

theorem enter (h : Parallel outer env copied) (kind : ScopeKind) :
    Parallel (some env.unread) (env.child kind) (copied.copy kind) where
  mirrors := by
    rw [child_unread, copy_unread]
    exact h.mirrors.enter kind
  outside outermost := by cases outermost
  inside around within := by
    cases within
    rfl

theorem leave (h : Parallel outer env copied) {inner inner' : Env}
    (ended : Parallel (some env.unread) inner inner') : Parallel outer inner.tail copied :=
  h.congr (by rw [tail_unread, ended.inside _ rfl]) rfl

theorem value? (h : Parallel outer env copied) : env.value? = copied.value? := by
  rw [← value?_unread env, ← value?_unread copied]
  funext name
  rw [Env.value?, Env.value?, h.mirrors.visible]

end Parallel

end Env

/-- The state of a run in another environment. -/
def Machine.inEnv (m : Machine) (env : Env) : Machine := { m with env := env }

/-- Two outcomes that differ in their environments alone, and these are parallel. -/
def Outcome.Parallel (outer : Option Env) (o o' : Outcome) : Prop :=
  ∃ env, o' = { o with machine := o.machine.inEnv env } ∧ Env.Parallel outer o.machine.env env

namespace Outcome.Parallel

variable {outer : Option Env} {m : Machine} {env : Env}

theorem of_env (h : Env.Parallel outer m.env env) (fault : Option Fault) :
    Outcome.Parallel outer ⟨m, fault⟩ ⟨m.inEnv env, fault⟩ :=
  ⟨env, rfl, h⟩

theorem andThen {o o' : Outcome} {next next' : Machine → Outcome} (first : Parallel outer o o')
    (second : ∀ m env, o = ⟨m, none⟩ → Env.Parallel outer m.env env →
      Parallel outer (next m) (next' (m.inEnv env))) :
    Parallel outer (o.andThen next) (o'.andThen next') := by
  obtain ⟨env, rfl, parallel⟩ := first
  obtain ⟨m, fault⟩ := o
  cases fault with
  | none => exact second m env rfl parallel
  | some fault => exact ⟨env, rfl, parallel⟩

theorem withValue {e : Expression} {next next' : Float → Machine → Outcome}
    (h : Env.Parallel outer m.env env)
    (later : ∀ v m₁ env₁, m.evaluate e.tree = (.ok v, m₁) → Env.Parallel outer m₁.env env₁ →
      Parallel outer (next v m₁) (next' v (m₁.inEnv env₁))) :
    Parallel outer (m.withValue e next) ((m.inEnv env).withValue e next') := by
  have value := Tree.evaluateIn_congr h.value? e.tree
  have read := Env.reading_unread.evaluateIn m.env e.tree
  have read' := Env.reading_unread.evaluateIn env e.tree
  have evaluated : m.evaluate e.tree =
    ((e.tree.evaluateIn m.env).1, m.inEnv (e.tree.evaluateIn m.env).2) := rfl
  have evaluated' : (m.inEnv env).evaluate e.tree =
    ((e.tree.evaluateIn env).1, m.inEnv (e.tree.evaluateIn env).2) := rfl
  have parallel : Env.Parallel outer (m.inEnv (e.tree.evaluateIn m.env).2).env
    (e.tree.evaluateIn env).2 := h.congr read read'
  rw [Machine.withValue, Machine.withValue, evaluated', ← value]
  cases result : (e.tree.evaluateIn m.env).1 with
  | error d =>
    rw [evaluated, result]
    exact of_env parallel _
  | ok v =>
    rw [result] at evaluated
    rw [evaluated]
    exact later v _ _ evaluated parallel

end Outcome.Parallel

/-- What a run shows of its end: the trace, what ended it early, the result, the count of iterations
and the text of the environment. -/
structure Outcome.Shown where
  trace : List Text
  fault : Option Fault
  result : Option Float
  iterations : Nat
  env : Text

def Outcome.shown (o : Outcome) : Shown where
  trace := o.machine.trace
  fault := o.fault
  result := o.machine.result
  iterations := o.machine.iterations
  env := o.machine.env.debugText

theorem Outcome.Parallel.shown {o o' : Outcome} (h : Parallel none o o') : o'.shown = o.shown := by
  obtain ⟨env, rfl, parallel⟩ := h
  have text : env.debugText = o.machine.env.debugText := by
    rw [← Env.debugText_unread, ← parallel.outside rfl, Env.debugText_unread]
  simp only [Outcome.shown, Machine.trace, Machine.inEnv, text]

/-! ### Programs -/

namespace Program

/-- Every assignment that the run of `p` from `m` comes to inside a block stays inside; with
`inside`, `p` itself is the inside of a block. -/
def Confined (limits : Limits) (inside : Bool) (p : Program) (m : Machine) : Prop :=
  ∀ depth name m', p.Assigns limits m depth name m' → inside = true ∨ 0 < depth →
    m'.env.WritesInside name.lexeme

namespace Confined

variable {limits : Limits} {inside : Bool} {p p' : Program} {m m₁ : Machine}

theorem later (h : p.Confined limits inside m)
    (comes : ∀ depth q m', p'.Reaches limits m₁ depth q m' → p.Reaches limits m depth q m') :
    p'.Confined limits inside m₁ := by
  rintro depth name m' ⟨value, rest, m₂, v, reached, computed⟩ nested
  exact h depth name m' ⟨value, rest, m₂, v, comes _ _ _ reached, computed⟩ nested

theorem inner (h : p.Confined limits inside m)
    (comes : ∀ depth q m', p'.Reaches limits m₁ depth q m' → p.Reaches limits m (depth + 1) q m') :
    p'.Confined limits true m₁ := by
  rintro depth name m' ⟨value, rest, m₂, v, reached, computed⟩ -
  exact h (depth + 1) name m' ⟨value, rest, m₂, v, comes _ _ _ reached, computed⟩
    (.inr (Nat.succ_pos depth))

end Confined

end Program

/-- The limits with blocks as children. -/
def Limits.chained (limits : Limits) : Limits := { limits with scoping := .chain }

/-- The limits with blocks as copies. -/
def Limits.copying (limits : Limits) : Limits := { limits with scoping := .copy }

namespace Outcome.Parallel

variable {limits : Limits} {outer : Option Env} {m : Machine} {env : Env}

theorem within {kind : ScopeKind} {body body' : Machine → Outcome}
    (h : Env.Parallel outer m.env env)
    (inside : ∀ env', Env.Parallel (some m.env.unread) (limits.chained.entered kind m).env env' →
      Parallel (some m.env.unread) (body (limits.chained.entered kind m))
        (body' ((limits.chained.entered kind m).inEnv env'))) :
    Parallel outer (limits.chained.within kind body m)
      (limits.copying.within kind body' (m.inEnv env)) := by
  obtain ⟨inner, same, ended⟩ := inside (env.copy kind) (h.enter kind)
  refine ⟨env, ?_, h.leave ended⟩
  have entered : limits.copying.entered kind (m.inEnv env) =
    (limits.chained.entered kind m).inEnv (env.copy kind) := rfl
  rw [Limits.within_eq, Limits.within_eq, entered, same]
  rfl

/-- A piece of a program runs in parallel from wherever its assignments stay inside. -/
def Runs (limits : Limits) (p : Program) : Prop :=
  ∀ outer m env, Env.Parallel outer m.env env → p.Confined limits.chained outer.isSome m →
    Parallel outer (p.run limits.chained m) (p.run limits.copying (m.inEnv env))

theorem iterate {keyword brace : Token} {condition : Expression} {body rest : Program}
    (hBody : Runs limits body) (fuel : Nat) (h : Env.Parallel outer m.env env)
    (confined : (Program.loop keyword condition brace body rest).Confined limits.chained
      outer.isSome m) :
    Parallel outer (limits.chained.iterate keyword condition (body.run limits.chained) fuel m)
      (limits.copying.iterate keyword condition (body.run limits.copying) fuel (m.inEnv env)) := by
  induction fuel generalizing m env with
  | zero => exact of_env h _
  | succ fuel ih =>
    rw [Limits.iterate, Limits.iterate]
    refine withValue h fun v m₁ env₁ evaluated parallel => ?_
    have spent : limits.copying.spent (m₁.inEnv env₁) = limits.chained.spent m₁ := rfl
    rw [spent]
    split
    · exact of_env parallel _
    · rename_i holds
      split
      · exact of_env parallel _
      · rename_i unspent
        have round : limits.chained.GoesRound keyword condition m _ :=
          ⟨v, m₁, evaluated, by simpa using holds, by simpa using unspent, rfl⟩
        refine andThen (within parallel fun env' entered => ?_) fun m₂ env₂ ended parallel₂ => ?_
        · exact hBody _ _ _ entered (confined.inner fun _ _ _ => .loop round)
        · obtain ⟨inner, bodyEnded, rfl⟩ := Limits.within_eq_none ended
          exact ih parallel₂
            (confined.later fun _ _ _ => .again round (Program.Ends.of_run bodyEnded))

/-- A program runs in parallel when its first statement does and the rest does. -/
theorem rest {p : Program} (h : p.Confined limits.chained outer.isSome m)
    (first : Parallel outer (p.first.run limits.chained m)
      (p.first.run limits.copying (m.inEnv env)))
    (hRest : Runs limits p.rest) :
    Parallel outer (p.run limits.chained m) (p.run limits.copying (m.inEnv env)) := by
  rw [p.run_eq_first_rest, p.run_eq_first_rest]
  exact first.andThen fun m₁ env₁ ended parallel =>
    hRest _ _ _ parallel (h.later fun _ _ _ => .after (Program.Ends.of_run ended))

theorem declare (h : Env.Parallel outer m.env env) (keyword name : Token) (value : Option Float) :
    Parallel outer (m.declare keyword name value)
      ((m.inEnv env).declare keyword name value) := by
  simp only [Machine.declare]
  generalize declared :
    ({ name := name.lexeme, value := value, constant := Program.isConst keyword,
       position := name.position } : Symbol) = sym
  have fresh : sym.unread = sym := by
    rw [← declared]
    rfl
  have inside : (m.inEnv env).env = env := rfl
  rw [inside]
  rcases h.declare fresh with ⟨d, left, right⟩ | ⟨env₁, env₁', left, right, parallel⟩
  · rw [left, right]
    exact of_env h _
  · rw [left, right]
    -- The label of the innermost scope decides whether the name is told to be global.
    have label : (env₁.head?.map Scope.kind) = env₁'.head?.map Scope.kind := by
      have header := congrArg (Option.map Prod.fst) parallel.mirrors.header
      cases env₁ <;> cases env₁' <;> simp_all [Env.header, Scope.unread]
    refine ⟨env₁', ?_, parallel⟩
    cases env₁ <;> cases env₁' <;> simp_all [Machine.inEnv, Machine.note]

theorem assign (h : Env.Parallel outer m.env env) (name : Token) (v : Float)
    (stays : outer.isSome = true → m.env.WritesInside name.lexeme) :
    Parallel outer (m.assign name v) ((m.inEnv env).assign name v) := by
  have inside : ((m.inEnv env).note (.assign name.line name.lexeme v)).env = env := rfl
  have before : (m.note (.assign name.line name.lexeme v)).env = m.env := rfl
  simp only [Machine.assign, inside, before]
  rcases h.assign v name.position stays with ⟨d, left, right⟩ | ⟨env₁, env₁', left, right, parallel⟩
  · rw [left, right]
    exact of_env (m := m.note _) h _
  · rw [left, right]
    exact of_env (m := (m.note _).inEnv env₁) parallel _

end Outcome.Parallel

namespace Program

open Outcome.Parallel in
/-- Runs with blocks as children and with blocks as copies go on in parallel as long as the
assignments of the first stay inside their blocks. -/
theorem run_parallel (limits : Limits) (p : Program) : Runs limits p := by
  induction p with
  | done => exact fun outer m env h _ => of_env h none
  | block brace body rest ihBody ihRest =>
    intro outer m env h confined
    refine Outcome.Parallel.rest confined ?_ ihRest
    simp only [first, run, andThen_done]
    have noted : Env.Parallel outer (m.note (.enterBlock brace.line)).env env := h
    exact within noted fun env' entered =>
      ihBody _ _ _ entered (confined.inner fun _ _ _ => .block)
  | declare keyword name value rest ihRest =>
    intro outer m env h confined
    refine Outcome.Parallel.rest confined ?_ ihRest
    simp only [first, run, andThen_done]
    cases value with
    | none => exact Outcome.Parallel.declare h keyword name none
    | some e =>
      exact withValue h fun v m₁ env₁ _ parallel =>
        Outcome.Parallel.declare parallel keyword name (some v)
  | assign name value rest ihRest =>
    intro outer m env h confined
    refine Outcome.Parallel.rest confined ?_ ihRest
    simp only [first, run, andThen_done]
    refine withValue h fun v m₁ env₁ computed parallel => ?_
    exact Outcome.Parallel.assign parallel name v fun inside =>
      confined 0 name m₁ ⟨value, rest, m, v, .here, computed⟩ (.inl inside)
  | expression value rest ihRest =>
    intro outer m env h confined
    refine Outcome.Parallel.rest confined ?_ ihRest
    simp only [first, run, andThen_done]
    exact withValue h fun v m₁ env₁ _ parallel => ⟨env₁, rfl, parallel⟩
  | ifThen keyword condition brace body rest ihBody ihRest =>
    intro outer m env h confined
    refine Outcome.Parallel.rest confined ?_ ihRest
    simp only [first, run, andThen_done]
    refine withValue h fun v m₁ env₁ computed parallel => ?_
    have noted : Env.Parallel outer (m₁.note (.branch keyword.line condition.text v)).env env₁ :=
      parallel
    split
    · rename_i holds
      exact within noted fun env' entered =>
        ihBody _ _ _ entered (confined.inner fun _ _ _ => .ifThen ⟨v, m₁, computed, holds, rfl⟩)
    · exact of_env noted none
  | ifElse keyword condition brace body elseBrace elseBody rest ihBody ihElse ihRest =>
    intro outer m env h confined
    refine Outcome.Parallel.rest confined ?_ ihRest
    simp only [first, run, andThen_done]
    refine withValue h fun v m₁ env₁ computed parallel => ?_
    have noted : Env.Parallel outer (m₁.note (.branch keyword.line condition.text v)).env env₁ :=
      parallel
    split
    · rename_i holds
      have decides : m.Decides keyword condition true _ := ⟨v, m₁, computed, holds, rfl⟩
      exact within noted fun env' entered =>
        ihBody _ _ _ entered (confined.inner fun _ _ _ => .ifElse decides)
    · rename_i fails
      have decides : m.Decides keyword condition false _ :=
        ⟨v, m₁, computed, by simpa using fails, rfl⟩
      exact within noted fun env' entered =>
        ihElse _ _ _ entered (confined.inner fun _ _ _ => .ifElse decides)
  | loop keyword condition brace body rest ihBody ihRest =>
    intro outer m env h confined
    refine Outcome.Parallel.rest confined ?_ ihRest
    simp only [first, run, andThen_done]
    exact iterate ihBody _ h confined

/-- Blocks as children and blocks as copies make no difference to what a run shows, as long as no
assignment that it comes to inside a block, with blocks as children, reaches past the innermost
scope. With or without a limit on loops, one run ends exactly when the other does, and then in the
same way. -/
theorem run_copying_eq_chained (limits : Limits) (p : Program) (m : Machine)
    (distinct : m.env.Distinct)
    (confined : ∀ depth name m', p.Assigns limits.chained m depth name m' → 0 < depth →
      m'.env.WritesInside name.lexeme) :
    (p.run limits.copying m).shown = (p.run limits.chained m).shown ∧
    ∀ seen, (∃ o, p.Ends limits.copying m o ∧ o.shown = seen) ↔
      ∃ o, p.Ends limits.chained m o ∧ o.shown = seen := by
  have start : Env.Parallel none m.env m.env := by
    refine ⟨.refl ?_, fun _ => rfl, fun _ inner => by cases inner⟩
    refine distinct.of_map_names ?_
    simp [Env.unread, Scope.names_unread]
  have same (patience : Nat) :
      (p.run { limits.copying with patience := patience } m).shown =
        (p.run { limits.chained with patience := patience } m).shown := by
    refine (p.run_parallel { limits with patience := patience } none m m.env start ?_).shown
    rintro depth name m' ⟨value, rest, m₁, v, reached, computed⟩ (impossible | nested)
    · cases impossible
    · exact confined depth name m' ⟨value, rest, m₁, v, reached.of_patience, computed⟩ nested
  have fault (patience : Nat) :
      (p.run { limits.copying with patience := patience } m).fault =
        (p.run { limits.chained with patience := patience } m).fault :=
    congrArg Outcome.Shown.fault (same patience)
  refine ⟨same limits.patience, fun seen => ⟨?_, ?_⟩⟩
  · rintro ⟨o, ⟨ended, patience, rfl⟩, rfl⟩
    exact ⟨_, ⟨fault patience ▸ ended, patience, rfl⟩, (same patience).symm⟩
  · rintro ⟨o, ⟨ended, patience, rfl⟩, rfl⟩
    exact ⟨_, ⟨(fault patience).symm ▸ ended, patience, rfl⟩, same patience⟩

/-- `let x = 1; { let x = 2; x = 3; } x;` -/
def shadowedName : Program :=
  .declare { kind := .letWord } { kind := .identifier, lexeme := [120] }
    (some ⟨{}, .leaf (.ofNumber 1 {})⟩)
    (.block {}
      (.declare { kind := .letWord } { kind := .identifier, lexeme := [120] }
        (some ⟨{}, .leaf (.ofNumber 2 {})⟩)
        (.assign { kind := .identifier, lexeme := [120] } ⟨{}, .leaf (.ofNumber 3 {})⟩ .done))
      (.expression ⟨{}, .leaf { kind := .identifier, lexeme := [120] }⟩ .done))

/-- The block assigns to a name of its own, and both runs show the outer value. -/
theorem run_copying_eq_chained_shadowedName :
    (shadowedName.run (Limits.chained {}) {}).machine.result = some 1 ∧
      (shadowedName.run (Limits.copying {}) {}).shown =
        (shadowedName.run (Limits.chained {}) {}).shown := by
  have distinct : Env.global.Distinct := by simp [Env.global, Env.Distinct, Scope.names]
  refine ⟨by decide +kernel, (run_copying_eq_chained {} shadowedName {} distinct ?_).1⟩
  rintro depth name m' ⟨value, rest, m₁, v, reached, computed⟩ nested
  cases reached with
  | after declared reached =>
    obtain ⟨-, _, state⟩ := declared
    obtain rfl := congrArg Outcome.machine state
    cases reached with
    | after _ reached =>
      cases reached with
      | after _ reached => cases reached.eq_done rfl
    | block reached =>
      cases reached with
      | after declared reached =>
        obtain ⟨-, _, state⟩ := declared
        obtain rfl := congrArg Outcome.machine state
        cases reached with
        | here =>
          cases computed
          exact .inl rfl
        | after _ reached => cases reached.eq_done rfl

end Program

end NumScript
