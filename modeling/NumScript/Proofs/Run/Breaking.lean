import NumScript.Proofs.Run.Isolating
import NumScript.Proofs.Run.Repeating

/-! What a failing step leaves behind. A run fails in one step: an expression has no value, a
declaration or an assignment is refused, or a loop is beyond the limit. The blocks that are open
there are left one after the other, and on the way out nothing is changed any more. So every
environment is as it was when the step began, but for notes of what was read, and the next run goes
on from there. -/

namespace NumScript

/-- A block that a run is in the middle of: the statements inside, the state in which they were
started, and their environment as it is now. -/
structure OpenBlock where
  body : Program
  start : Machine
  env : Env

namespace Program

/-! ### Failing steps -/

/-- The expression that the first statement begins with. -/
def opening? : Program → Option Expression
  | declare _ _ value _ => value
  | assign _ value _ | expression value _ => some value
  | ifThen _ condition _ _ _ | ifElse _ condition _ _ _ _ _ | loop _ condition _ _ _ =>
    some condition
  | done | block _ _ _ => none

/-- In state `m` the first step of a program fails with problem `d`; `tried` is what was noted of it
before. -/
inductive StepFails (limits : Limits) : Program → Machine → Diagnostic → List Event → Prop
  | value {p : Program} {e : Expression} {m m₁ : Machine} {d : Diagnostic} :
      p.opening? = some e → m.evaluate e.tree = (.error d, m₁) → StepFails limits p m d []
  | declare {keyword name : Token} {rest : Program} {m : Machine} {d : Diagnostic} :
      (m.declare keyword name none).fault = some (.problem d) →
      StepFails limits (.declare keyword name none rest) m d []
  | declareAs {keyword name : Token} {e : Expression} {rest : Program} {m m₁ : Machine}
      {v : Float} {d : Diagnostic} :
      m.evaluate e.tree = (.ok v, m₁) →
      (m₁.declare keyword name (some v)).fault = some (.problem d) →
      StepFails limits (.declare keyword name (some e) rest) m d []
  | assign {name : Token} {e : Expression} {rest : Program} {m m₁ : Machine} {v : Float}
      {d : Diagnostic} :
      m.evaluate e.tree = (.ok v, m₁) → (m₁.assign name v).fault = some (.problem d) →
      StepFails limits (.assign name e rest) m d [.assign name.line name.lexeme v]
  | limit {keyword brace : Token} {condition : Expression} {body rest : Program}
      {m m₁ : Machine} :
      limits.RefusesRound condition m m₁ →
      StepFails limits (.loop keyword condition brace body rest) m (limits.exceeded keyword) []

/-! ### Open blocks -/

/-- The first statement, in state `m`, comes to enter the block `body` from state `n`. -/
inductive Enters (limits : Limits) : Program → Machine → ScopeKind → Program → Machine → Prop
  | block {brace : Token} {body rest : Program} {m : Machine} :
      Enters limits (.block brace body rest) m .block body (m.note (.enterBlock brace.line))
  | ifThen {keyword brace : Token} {condition : Expression} {body rest : Program}
      {m n : Machine} :
      m.Decides keyword condition true n →
      Enters limits (.ifThen keyword condition brace body rest) m .branch body n
  | ifElse {keyword brace elseBrace : Token} {condition : Expression}
      {body elseBody rest : Program} {m n : Machine} {holds : Bool} :
      m.Decides keyword condition holds n →
      Enters limits (.ifElse keyword condition brace body elseBrace elseBody rest) m .branch
        (if holds then body else elseBody) n
  | loop {keyword brace : Token} {condition : Expression} {body rest : Program} {m n : Machine} :
      limits.GoesRound keyword condition m n →
      Enters limits (.loop keyword condition brace body rest) m .loop body n

/-- The run of `p` from `m` comes to a point where `q` is left to run and the state is `m'`. The
blocks that it is inside of there are `blocks`, the outermost first, and the environment of `p`
itself is `env`: what would be left if all the blocks were left at that point. -/
inductive Stands (limits : Limits) :
    Program → Machine → Env → List OpenBlock → Program → Machine → Prop
  | here {p q : Program} {m m' : Machine} :
      p.Reaches limits m 0 q m' → Stands limits p m m'.env [] q m'
  | inside {p q body r : Program} {m m₁ n m' : Machine} {kind : ScopeKind} {env : Env}
      {blocks : List OpenBlock} :
      p.Reaches limits m 0 q m₁ → q.Enters limits m₁ kind body n →
      Stands limits body (limits.entered kind n) env blocks r m' →
      Stands limits p m (limits.leave n.env env)
        (⟨body, limits.entered kind n, env⟩ :: blocks) r m'

end Program

/-- The outcome is that of a step which failed with problem `d` in state `m`: since the beginning of
the step nothing has changed but notes of what was read, and nothing was told but what was tried.
The environment was `env` then. -/
structure Outcome.BreaksOff (o : Outcome) (env : Env) (m : Machine) (d : Diagnostic)
    (tried : List Event) : Prop where
  fault : o.fault = some (.problem d)
  env : o.machine.env.unread = env.unread
  result : o.machine.result = m.result
  iterations : o.machine.iterations = m.iterations
  history : o.machine.history = tried ++ m.history

/-- When nothing was told, the outcome is that of the step itself in another environment. -/
theorem Outcome.BreaksOff.eq_of_read {o : Outcome} {env : Env} {m m₁ : Machine} {d : Diagnostic}
    (h : o.BreaksOff env m d []) (read : m₁ = m.inEnv m₁.env) :
    o = ⟨{ m₁ with env := o.machine.env }, some (.problem d)⟩ := by
  obtain ⟨⟨env', result, iterations, history⟩, fault⟩ := o
  obtain ⟨rfl, -, rfl, rfl, rfl⟩ := h
  rw [read]
  rfl

/-- The run of `p` from `m` comes to a step that fails with problem `d`, and `o` is what becomes of
it. The run of each block that is open at that point ends in the same way. -/
def Program.Breaks (limits : Limits) (p : Program) (m : Machine) (d : Diagnostic) (o : Outcome) :
    Prop :=
  ∃ env blocks q m' tried, p.Stands limits m env blocks q m' ∧ q.StepFails limits m' d tried ∧
    o.BreaksOff env m' d tried ∧
    ∀ b ∈ blocks, (b.body.run limits b.start).BreaksOff b.env m' d tried

namespace Program

variable {limits : Limits} {p p' q : Program} {m m₁ : Machine} {d : Diagnostic} {o : Outcome}

theorem Stands.later {env : Env} {blocks : List OpenBlock} {r : Program} {m' : Machine}
    (h : p'.Stands limits m₁ env blocks r m')
    (comes : ∀ {q m'}, p'.Reaches limits m₁ 0 q m' → p.Reaches limits m 0 q m') :
    p.Stands limits m env blocks r m' := by
  cases h with
  | here reached => exact .here (comes reached)
  | inside reached enters inside => exact .inside (comes reached) enters inside

namespace Breaks

theorem later (h : p'.Breaks limits m₁ d o)
    (comes : ∀ {q m'}, p'.Reaches limits m₁ 0 q m' → p.Reaches limits m 0 q m') :
    p.Breaks limits m d o := by
  obtain ⟨env, blocks, q, m', tried, stands, fails, broken⟩ := h
  exact ⟨env, blocks, q, m', tried, stands.later comes, fails, broken⟩

/-- The first step of a program fails, in the state `m₁` in which its expression has been
computed. -/
theorem here {tried : List Event} (fails : p.StepFails limits m d tried)
    (read : m₁ = m.inEnv m₁.env ∧ m₁.env.unread = m.env.unread) :
    p.Breaks limits m d
      ⟨{ m₁ with history := tried ++ m₁.history }, some (.problem d)⟩ := by
  refine ⟨m.env, [], p, m, tried, .here .here, fails, ?_, by simp⟩
  rw [read.1]
  exact ⟨rfl, read.2, rfl, rfl, rfl⟩

theorem withValue {e : Expression} {next : Float → Machine → Outcome}
    (begins : p.opening? = some e)
    (failed : (m.withValue e next).fault = some (.problem d))
    (later : ∀ v m₁, m.evaluate e.tree = (.ok v, m₁) → (next v m₁).fault = some (.problem d) →
      p.Breaks limits m d (next v m₁)) :
    p.Breaks limits m d (m.withValue e next) := by
  unfold Machine.withValue at failed ⊢
  split at failed
  · rename_i d' m₁ evaluated
    cases failed
    exact here (.value begins evaluated) (Machine.unread_of_evaluate evaluated)
  · rename_i v m₁ evaluated
    exact later v m₁ evaluated failed

theorem within {body : Program} {kind : ScopeKind} {n : Machine}
    (ih : ∀ m, (body.run limits m).fault = some (.problem d) →
      body.Breaks limits m d (body.run limits m))
    (enters : p.Enters limits m kind body n)
    (failed : (limits.within kind (body.run limits) n).fault = some (.problem d)) :
    p.Breaks limits m d (limits.within kind (body.run limits) n) := by
  obtain ⟨env, blocks, q, m', tried, stands, fails, broken, others⟩ :=
    ih (limits.entered kind n) failed
  refine ⟨_, _, q, m', tried, .inside .here enters stands, fails, ?_, ?_⟩
  · refine ⟨broken.fault, ?_, broken.result, broken.iterations, broken.history⟩
    simp only [Limits.within, Limits.leave]
    split
    · rw [Env.tail_unread, Env.tail_unread]
      exact congrArg List.tail broken.env
    · rfl
  · exact List.forall_mem_cons.mpr ⟨broken, others⟩

/-- A run breaks off in its first statement or behind it. -/
theorem ofFirst
    (first : (p.first.run limits m).fault = some (.problem d) →
      p.Breaks limits m d (p.first.run limits m))
    (rest : ∀ m, (p.rest.run limits m).fault = some (.problem d) →
      p.rest.Breaks limits m d (p.rest.run limits m))
    (failed : (p.run limits m).fault = some (.problem d)) :
    p.Breaks limits m d (p.run limits m) := by
  rw [p.run_eq_first_rest] at failed ⊢
  cases run : p.first.run limits m with
  | mk m₁ fault =>
    cases fault with
    | none =>
      rw [run] at failed
      exact (rest m₁ failed).later (.after (.of_run run))
    | some fault =>
      rw [run] at failed first
      exact first failed

theorem iterate {keyword brace : Token} {condition : Expression} {body rest : Program}
    (ih : ∀ m, (body.run limits m).fault = some (.problem d) →
      body.Breaks limits m d (body.run limits m))
    {fuel : Nat} {m : Machine}
    (failed : (limits.iterate keyword condition (body.run limits) fuel m).fault =
      some (.problem d)) :
    (loop keyword condition brace body rest).Breaks limits m d
      (limits.iterate keyword condition (body.run limits) fuel m) := by
  -- Every round begins with the condition, so a later round is reached from the loop itself.
  induction fuel generalizing m with
  | zero => cases failed
  | succ fuel again =>
    rw [Limits.iterate] at failed ⊢
    refine withValue rfl failed fun v m₁ evaluated failed => ?_
    split at failed
    · cases failed
    rename_i holds
    rw [Bool.not_eq_true, Bool.not_eq_false'] at holds
    rw [if_neg (by simp [holds])]
    split at failed
    · rename_i spent
      cases failed
      rw [if_pos spent]
      exact here (.limit ⟨v, evaluated, holds, spent⟩) (Machine.unread_of_evaluate evaluated)
    rename_i unspent
    rw [if_neg unspent]
    have round : limits.GoesRound keyword condition m _ :=
      ⟨v, m₁, evaluated, holds, by simpa using unspent, rfl⟩
    dsimp only at failed ⊢
    generalize Machine.note { m₁ with iterations := m₁.iterations + 1 } _ = m₂ at round failed ⊢
    cases inside : limits.within .loop (body.run limits) m₂ with
    | mk m₃ fault =>
      rw [inside] at failed
      cases fault with
      | none =>
        obtain ⟨inner, ended, rfl⟩ := Limits.within_eq_none inside
        exact (again failed).later (.again round (.of_run ended))
      | some fault =>
        have broken := within (p := loop keyword condition brace body rest) (m := m) ih
          (.loop round) (by rw [inside]; exact failed)
        rw [inside] at broken
        exact broken

end Breaks

/-- A run that fails comes to a step that fails. -/
theorem breaks_of_fault (p : Program) (m : Machine)
    (failed : (p.run limits m).fault = some (.problem d)) :
    p.Breaks limits m d (p.run limits m) := by
  induction p generalizing m with
  | done => cases failed
  | block brace body rest ihBody ihRest =>
    refine .ofFirst (fun failed => ?_) ihRest failed
    simp only [first, run, andThen_done] at failed ⊢
    exact .within ihBody .block failed
  | declare keyword name value rest ihRest =>
    refine .ofFirst (fun failed => ?_) ihRest failed
    simp only [first, run, andThen_done] at failed ⊢
    cases value with
    | none =>
      rw [Machine.declare_of_error (Machine.refused_of_declare failed)]
      exact .here (.declare failed) ⟨rfl, rfl⟩
    | some e =>
      refine .withValue rfl failed fun v m₁ evaluated failed => ?_
      rw [Machine.declare_of_error (Machine.refused_of_declare failed)]
      exact .here (.declareAs evaluated failed) (Machine.unread_of_evaluate evaluated)
  | assign name value rest ihRest =>
    refine .ofFirst (fun failed => ?_) ihRest failed
    simp only [first, run, andThen_done] at failed ⊢
    refine .withValue rfl failed fun v m₁ evaluated failed => ?_
    rw [Machine.assign_of_error (Machine.refused_of_assign failed)]
    exact .here (.assign evaluated failed) (Machine.unread_of_evaluate evaluated)
  | expression value rest ihRest =>
    refine .ofFirst (fun failed => ?_) ihRest failed
    simp only [first, run, andThen_done] at failed ⊢
    exact .withValue rfl failed fun v m₁ _ failed => by cases failed
  | ifThen keyword condition brace body rest ihBody ihRest =>
    refine .ofFirst (fun failed => ?_) ihRest failed
    simp only [first, run, andThen_done] at failed ⊢
    refine .withValue rfl failed fun v m₁ evaluated failed => ?_
    split at failed
    · rename_i holds
      rw [if_pos holds]
      exact .within ihBody (.ifThen ⟨v, m₁, evaluated, holds, rfl⟩) failed
    · cases failed
  | ifElse keyword condition brace body elseBrace elseBody rest ihBody ihElse ihRest =>
    refine .ofFirst (fun failed => ?_) ihRest failed
    simp only [first, run, andThen_done] at failed ⊢
    refine .withValue rfl failed fun v m₁ evaluated failed => ?_
    have enters : (ifElse keyword condition brace body elseBrace elseBody rest).Enters limits m
        .branch (if truthy v then body else elseBody) _ := .ifElse ⟨v, m₁, evaluated, rfl, rfl⟩
    cases holds : truthy v with
    | true =>
      rw [holds] at enters
      rw [holds, if_pos rfl] at failed
      exact .within ihBody enters failed
    | false =>
      rw [holds] at enters
      rw [holds, if_neg (by decide)] at failed
      exact .within ihElse enters failed
  | loop keyword condition brace body rest ihBody ihRest =>
    refine .ofFirst (fun failed => ?_) ihRest failed
    simp only [first, run, andThen_done] at failed ⊢
    exact .iterate ihBody failed

/-! ### What has failed -/

/-- A block is entered at a point that a run comes to, so what is reached inside is reached. -/
theorem Reaches.enter {depth inner : Nat} {kind : ScopeKind} {body r : Program} {n m' : Machine}
    (h : p.Reaches limits m depth q m₁) (level : depth = 0)
    (enters : q.Enters limits m₁ kind body n)
    (inside : body.Reaches limits (limits.entered kind n) inner r m') :
    p.Reaches limits m (inner + 1) r m' := by
  induction h with
  | here =>
    cases enters with
    | block => exact .block inside
    | ifThen decides => exact .ifThen decides inside
    | ifElse decides => exact .ifElse decides inside
    | loop round => exact .loop round inside
  | after ended _ ih => exact .after ended (ih level enters)
  | again round ended _ ih => exact .again round ended (ih level enters)
  | block | ifThen | ifElse | loop => cases level

theorem Stands.reaches {env : Env} {blocks : List OpenBlock} {r : Program} {m' : Machine}
    (h : p.Stands limits m env blocks r m') : ∃ depth, p.Reaches limits m depth r m' := by
  induction h with
  | here reached => exact ⟨0, reached⟩
  | inside reached enters _ ih =>
    obtain ⟨depth, inside⟩ := ih
    exact ⟨depth + 1, reached.enter rfl enters inside⟩

/-- Of all steps only a loop fails for the limit. -/
theorem StepFails.refusesRound {tried : List Event} (h : q.StepFails limits m d tried)
    (limit : d.cause = some .iterationLimit) :
    ∃ keyword condition brace body rest m₁, q = loop keyword condition brace body rest ∧
      limits.RefusesRound condition m m₁ ∧ d = limits.exceeded keyword ∧ tried = [] := by
  cases h with
  | value _ evaluated =>
    exact absurd limit (Tree.complains_of_evaluateIn (congrArg Prod.fst evaluated)).cause_ne
  | declare failed =>
    cases (Env.rebinds_of_declare (Machine.refused_of_declare failed)).cause.symm.trans limit
  | declareAs _ failed =>
    cases (Env.rebinds_of_declare (Machine.refused_of_declare failed)).cause.symm.trans limit
  | assign _ failed =>
    cases (Env.rebinds_of_assign (Machine.refused_of_assign failed)).cause.symm.trans limit
  | limit refuses => exact ⟨_, _, _, _, _, _, rfl, refuses, rfl, rfl⟩

theorem StepFails.severity {tried : List Event} (h : q.StepFails limits m d tried) :
    d.severity = .error := by
  cases h with
  | value _ evaluated => exact (Tree.complains_of_evaluateIn (congrArg Prod.fst evaluated)).severity
  | declare failed => exact (Env.rebinds_of_declare (Machine.refused_of_declare failed)).severity
  | declareAs _ failed =>
    exact (Env.rebinds_of_declare (Machine.refused_of_declare failed)).severity
  | assign _ failed => exact (Env.rebinds_of_assign (Machine.refused_of_assign failed)).severity
  | limit _ => rfl

/-- A run fails with an error. -/
theorem severity_of_fault (failed : (p.run limits m).fault = some (.problem d)) :
    d.severity = .error := by
  obtain ⟨_, _, _, _, _, -, step, -, -⟩ := p.breaks_of_fault m failed
  exact step.severity

/-- A run that fails is undone as far as its last step. However deep inside blocks the step stands,
the environment of the run and that of every block that is open are as they were when the step
began, but for notes of what was read, and so are the result and the count of iterations; nothing
behind the step is run. The environment that is left has the scopes that the run began with, and
another run from there does what it would do had the open blocks been left in front of the step. -/
theorem run_undone (limits : Limits) (p : Program) (m : Machine) {d : Diagnostic}
    (failed : (p.run limits m).problem? = some d) :
    let o := p.run limits m
    ∃ env blocks q m' tried,
      p.Stands limits m env blocks q m' ∧ q.StepFails limits m' d tried ∧
      o.BreaksOff env m' d tried ∧
      (∀ b ∈ blocks, (b.body.run limits b.start).BreaksOff b.env m' d tried) ∧
      o.machine.env.map Scope.kind = m.env.map Scope.kind ∧
      ∀ (limits' : Limits) (next : Program),
        (next.run limits' { m' with env := env }).Again 0 (next.run limits' o.machine) := by
  intro o
  obtain ⟨env, blocks, q, m', tried, stands, fails, broken, inside⟩ :=
    p.breaks_of_fault m (Outcome.problem?_eq_some.mp failed)
  refine ⟨env, blocks, q, m', tried, stands, fails, broken, inside,
    Env.kept_kinds.run limits p m, fun limits' next => ?_⟩
  exact next.run_again limits' ⟨broken.env, broken.iterations, fun _ => broken.result⟩

/-- The body of the loop sets `x`, hides it and fails to change `k`. The run ends there after one
iteration, and another run reads the value that `x` got. -/
theorem run_undone_refusedInLoop :
    let m : Machine := { env := blockWithConstantAround }
    let o := refusedInLoop.run {} m
    let x : Token := { kind := .identifier, lexeme := [120] }
    let next := Program.expression ⟨x, .leaf x⟩ .done
    o.problem?.isSome = true ∧ o.machine.iterations = 1 ∧
      o.machine.env.map Scope.kind = m.env.map Scope.kind ∧
      (next.run {} o.machine).machine.result = some 0 ∧
      ∃ d env blocks q m' tried, refusedInLoop.Stands {} m env blocks q m' ∧
        q.StepFails {} m' d tried ∧ o.BreaksOff env m' d tried ∧
        (next.run {} { m' with env := env }).Again 0 (next.run {} o.machine) := by
  intro m o x next
  have fails : o.problem?.isSome = true := by decide +kernel
  obtain ⟨d, failed⟩ := Option.isSome_iff_exists.mp fails
  obtain ⟨env, blocks, q, m', tried, stands, step, broken, -, scopes, again⟩ :=
    run_undone {} refusedInLoop m failed
  exact ⟨fails, by decide +kernel, scopes, by decide +kernel,
    d, env, blocks, q, m', tried, stands, step, broken, again {} next⟩

end Program

end NumScript
