import NumScript.Proofs.Env.Heap
import NumScript.Proofs.Env.Onward
import NumScript.Run.Heap

/-! Runs in memory. A run on environments in memory goes as the run on lists of scopes: it never
follows a pointer to nothing, takes the same steps, ends in the same way, and what its environment
shows in the end are the scopes of that run. The lists of scopes are written back when a block is
left; in memory nothing is, since what a block works on is either shared or a clone. -/

namespace NumScript

namespace Heap

/-- In memory, environment `e` shows the scopes of `env`. -/
structure Holds (h : Heap) (forest : Forest) (e : Nat) (env : Env) : Prop where
  shows : h.Shows forest
  sound : forest.Sound
  consistent : forest.Consistent
  opened : e < forest.nodes.length
  env : forest.env e = env

/-- From `forest` on, something went on in environment `e` that has left `env` of it. -/
def Leads (forest : Forest) (e : Nat) (h : Heap) (env : Env) : Prop :=
  ∃ after, h.Holds after e env ∧ forest.Onward e after

variable {h : Heap} {forest : Forest} {e : Nat} {env env' : Env}

/-! ### Operations -/

namespace Holds

/-- A call that writes scopes back has left these. -/
theorem leads (holds : h.Holds forest e env) {call : Forest.Call}
    (performed : forest.perform call = forest.setEnv e env') (length : env'.length = env.length)
    {after : Heap} (shows : after.Shows (forest.setEnv e env')) : Leads forest e after env' := by
  have effect := Forest.effect_perform holds.sound call
  rw [performed] at effect
  refine ⟨forest.setEnv e env', ⟨shows, holds.sound.effect effect,
    holds.consistent.effect effect, ?_, ?_⟩, .setEnv forest e env'⟩
  · exact Nat.lt_of_lt_of_le holds.opened (Forest.Onward.setEnv forest e env').length
  · exact Forest.env_setEnv holds.sound holds.opened (by rw [length, holds.env])

theorem get (holds : h.Holds forest e env) (name : Text) (line : Int) :
    ∃ after, h.get e name line = some ((env.get name line).1, after) ∧
      Leads forest e after (env.get name line).2 := by
  obtain ⟨after, read, shows⟩ := holds.shows.get holds.sound e name line
  obtain rfl := holds.env
  have performed : forest.perform (.get e name line) = (forest.get e name line).2 :=
    Forest.perform_of_target rfl holds.opened
  exact ⟨after, read, holds.leads performed (Env.kept_scopes.get _ name line).1 shows⟩

theorem declare (holds : h.Holds forest e env) (sym : Symbol) :
    ∃ after, (h.alloc sym).declare e h.cells.length = some (refusal (env.declare sym), after) ∧
      Leads forest e after ((env.declare sym).toOption.getD env) := by
  obtain ⟨after, declared, shows⟩ :=
    holds.shows.declare holds.sound holds.consistent holds.opened sym
  obtain rfl := holds.env
  have performed : forest.perform (.declare e sym) = (forest.declare e sym).toOption.getD forest :=
    Forest.perform_of_target rfl holds.opened
  refine ⟨after, ?_, ?_⟩
  · rw [declared, Forest.declare]
    cases (forest.env e).declare sym <;> rfl
  · rw [Forest.declare] at performed shows
    cases result : (forest.env e).declare sym with
    | error d =>
      rw [result] at shows
      exact ⟨forest, ⟨shows, holds.sound, holds.consistent, holds.opened, rfl⟩, .refl e forest⟩
    | ok env' =>
      rw [result] at performed shows
      exact holds.leads performed (Env.scopes_of_declare result).1 shows

theorem assign (holds : h.Holds forest e env) (name : Text) (v : Float) (place : Position) :
    ∃ after, h.assign e name v place = some (refusal (env.assign name v place), after) ∧
      Leads forest e after ((env.assign name v place).toOption.getD env) := by
  obtain ⟨after, assigned, shows⟩ :=
    holds.shows.assign holds.sound holds.consistent holds.opened name v place
  obtain rfl := holds.env
  have performed : forest.perform (.assign e name v place) =
      (forest.assign e name v place).toOption.getD forest :=
    Forest.perform_of_target rfl holds.opened
  refine ⟨after, ?_, ?_⟩
  · rw [assigned, Forest.assign]
    cases (forest.env e).assign name v place <;> rfl
  · rw [Forest.assign] at performed shows
    cases result : (forest.env e).assign name v place with
    | error d =>
      rw [result] at shows
      exact ⟨forest, ⟨shows, holds.sound, holds.consistent, holds.opened, rfl⟩, .refl e forest⟩
    | ok env' =>
      rw [result] at performed shows
      exact holds.leads performed (Env.kept_scopes.assign result).1 shows

/-- The symbols of the environment are global when its innermost scope is. -/
theorem isGlobal (holds : h.Holds forest e env) (sym : Symbol) :
    ∃ scope outer, env = scope :: outer ∧
      State.isGlobal h ⟨sym, some e⟩ = some (decide (scope.kind = .global)) := by
  obtain ⟨frame, scope, found, present, inside⟩ := holds.shows.exists_frame holds.opened
  obtain ⟨outer, along⟩ := Forest.path_eq_cons holds.opened
  refine ⟨scope, forest.scopesAlong outer, ?_, ?_⟩
  · rw [← holds.env, Forest.env_eq, along, Forest.scopesAlong_cons present]
  · rw [State.isGlobal]
    dsimp only
    rw [found, Option.map_some, inside.kind]

end Holds

theorem cells_of_declare {p : Nat} {sym : Symbol} {owner : Option Nat} {after : Heap}
    (held : h.cells[p]? = some ⟨sym, owner⟩) (declared : h.declare e p = some (none, after)) :
    after.cells[p]? = some ⟨sym, some e⟩ := by
  rw [Heap.declare] at declared
  obtain ⟨frame, -, declared⟩ := Option.bind_eq_some_iff.mp declared
  rw [held] at declared
  simp only [Option.bind_eq_bind, Option.bind_some] at declared
  split at declared
  · obtain ⟨q, -, declared⟩ := Option.bind_eq_some_iff.mp declared
    obtain ⟨cited, -, declared⟩ := Option.bind_eq_some_iff.mp declared
    cases declared
  · cases declared
    exact cells_own held e _

/-! ### Expressions -/

theorem Leads.trans {after : Heap} {between : Forest}
    (holds : h.Holds forest e env) (onward : forest.Onward e between)
    (leads : Leads between e after env') : Leads forest e after env' := by
  obtain ⟨last, holds', onward'⟩ := leads
  exact ⟨last, holds', onward.trans onward' holds.sound holds.opened⟩

mutual

/-- Reading the names of a tree in memory gives what reading them in the list of scopes gives. -/
theorem bindTree_eq {h : Heap} {forest : Forest} {env : Env} (holds : h.Holds forest e env) :
    (t : Tree) →
    ∃ r env' after, t.bind env = (r, env') ∧ bindTree e t h = some (r, after) ∧
      Leads forest e after env'
  | .leaf t => by
    rw [Tree.bind, bindTree]
    split
    · obtain ⟨after, read, leads⟩ := holds.get t.lexeme t.line
      rw [read]
      revert leads
      rcases env.get t.lexeme t.line with ⟨_ | v, env'⟩ <;>
        exact fun leads => ⟨_, env', after, rfl, rfl, leads⟩
    · exact ⟨_, env, h, rfl, rfl, forest, holds, .refl e forest⟩
  | .unary op a => by
    rw [Tree.bind, bindTree]
    split
    · exact ⟨_, env, h, rfl, rfl, forest, holds, .refl e forest⟩
    · obtain ⟨r, env', after, left, right, leads⟩ := bindTree_eq holds a
      rw [left, right]
      cases r <;> exact ⟨_, env', after, rfl, rfl, leads⟩
  | .binary op a b => by
    rw [Tree.bind, bindTree]
    split
    · exact ⟨_, env, h, rfl, rfl, forest, holds, .refl e forest⟩
    · obtain ⟨r, env', after, left, right, between, holds', onward⟩ := bindTree_eq holds a
      rw [left, right]
      cases r with
      | error d => exact ⟨_, env', after, rfl, rfl, between, holds', onward⟩
      | ok a' =>
        obtain ⟨r, env', after, left, right, leads⟩ := bindTree_eq holds' b
        simp only [left, right, Option.bind_eq_bind, Option.bind_some]
        cases r <;> exact ⟨_, env', after, rfl, rfl, leads.trans holds onward⟩
  | .wide op a b c more => by
    rw [Tree.bind, bindTree]
    split
    · exact ⟨_, env, h, rfl, rfl, forest, holds, .refl e forest⟩
    · obtain ⟨r, env₁, h₁, left, right, first, holds₁, onward₁⟩ := bindTree_eq holds a
      rw [left, right]
      cases r with
      | error d => exact ⟨_, env₁, h₁, rfl, rfl, first, holds₁, onward₁⟩
      | ok a' =>
        obtain ⟨r, env₂, h₂, left, right, second, holds₂, onward₂⟩ := bindTree_eq holds₁ b
        have onward₂ := onward₁.trans onward₂ holds.sound holds.opened
        simp only [left, right, Option.bind_eq_bind, Option.bind_some]
        cases r with
        | error d => exact ⟨_, env₂, h₂, rfl, rfl, second, holds₂, onward₂⟩
        | ok b' =>
          obtain ⟨r, env₃, h₃, left, right, third, holds₃, onward₃⟩ := bindTree_eq holds₂ c
          have onward₃ := onward₂.trans onward₃ holds.sound holds.opened
          simp only [left, right, Option.bind_some]
          cases r with
          | error d => exact ⟨_, env₃, h₃, rfl, rfl, third, holds₃, onward₃⟩
          | ok c' =>
            obtain ⟨r, env₄, h₄, left, right, leads⟩ := bindTrees_eq holds₃ more
            simp only [left, right, Option.bind_some]
            cases r <;> exact ⟨_, env₄, h₄, rfl, rfl, leads.trans holds onward₃⟩

theorem bindTrees_eq {h : Heap} {forest : Forest} {env : Env} (holds : h.Holds forest e env) :
    (ts : List Tree) →
    ∃ r env' after, Tree.bindAll env ts = (r, env') ∧ bindTrees e ts h = some (r, after) ∧
      Leads forest e after env'
  | [] => by
    rw [Tree.bindAll, bindTrees]
    exact ⟨_, env, h, rfl, rfl, forest, holds, .refl e forest⟩
  | t :: rest => by
    rw [Tree.bindAll, bindTrees]
    obtain ⟨r, env', after, left, right, between, holds', onward⟩ := bindTree_eq holds t
    rw [left, right]
    cases r with
    | error d => exact ⟨_, env', after, rfl, rfl, between, holds', onward⟩
    | ok t' =>
      obtain ⟨r, env', after, left, right, leads⟩ := bindTrees_eq holds' rest
      exact ⟨r, env', after, left, right, leads.trans holds onward⟩

end

/-! ### Steps -/

/-- The state of a run in memory is that of a run on the scopes of its environment. -/
structure State.Stands (s : State) (forest : Forest) (m : Machine) : Prop where
  holds : s.heap.Holds forest s.env m.env
  result : s.result = m.result
  iterations : s.iterations = m.iterations
  history : s.history = m.history

/-- The run in memory, which has started in `s`, ends as the outcome says: in the same environment,
with no other scope changed than those that it reaches. -/
def Result.Answers (r : Result) (forest : Forest) (s : State) (o : Outcome) : Prop :=
  ∃ s' after, r = some (s', o.fault) ∧ s'.Stands after o.machine ∧ s'.env = s.env ∧
    forest.Onward s.env after

variable {s : State} {m : Machine} {r : Result} {o : Outcome}

namespace State.Stands

theorem note (stands : s.Stands forest m) (e : Event) : (s.note e).Stands forest (m.note e) :=
  ⟨stands.holds, stands.result, stands.iterations, congrArg (e :: ·) stands.history⟩

/-- The state stays and the run ends here. -/
theorem answers (stands : s.Stands forest m) (fault : Option Fault) :
    Result.Answers (some (s, fault)) forest s ⟨m, fault⟩ :=
  ⟨s, forest, rfl, stands, rfl, .refl s.env forest⟩

/-- The memory goes on and the run ends here. -/
theorem answers_of_leads (stands : s.Stands forest m) {after : Heap} {env' : Env}
    (leads : Leads forest s.env after env') (fault : Option Fault) :
    Result.Answers (some ({ s with heap := after }, fault)) forest s
      ⟨{ m with env := env' }, fault⟩ := by
  obtain ⟨last, holds, onward⟩ := leads
  exact ⟨_, last, rfl, ⟨holds, stands.result, stands.iterations, stands.history⟩, rfl, onward⟩

end State.Stands

namespace Result.Answers

/-- What is done first in the same environment comes before. -/
theorem after {s' : State} {between : Forest} (stands : s.Stands forest m)
    (onward : forest.Onward s.env between) (env : s'.env = s.env)
    (answers : r.Answers between s' o) : r.Answers forest s o := by
  obtain ⟨last, after, ended, stands', env', onward'⟩ := answers
  rw [env] at onward'
  exact ⟨last, after, ended, stands', env'.trans env,
    onward.trans onward' stands.holds.sound stands.holds.opened⟩

theorem andThen (stands : s.Stands forest m) (answers : r.Answers forest s o)
    {next : State → Result} {next' : Machine → Outcome}
    (then' : ∀ {forest s m}, s.Stands forest m → (next s).Answers forest s (next' m)) :
    (r.andThen next).Answers forest s (o.andThen next') := by
  obtain ⟨s', between, rfl, stands', env, onward⟩ := answers
  obtain ⟨m', fault⟩ := o
  cases fault with
  | none => exact (then' stands').after stands onward env
  | some fault => exact ⟨s', between, rfl, stands', env, onward⟩

end Result.Answers

namespace State.Stands

theorem evaluate (stands : s.Stands forest m) (t : Tree) :
    ∃ s' after, s.evaluate t = some ((m.evaluate t).1, s') ∧ s'.Stands after (m.evaluate t).2 ∧
      s'.env = s.env ∧ forest.Onward s.env after := by
  obtain ⟨r, env', after, left, right, last, holds, onward⟩ := bindTree_eq stands.holds t
  have stands' : State.Stands { s with heap := after } last { m with env := env' } :=
    ⟨holds, stands.result, stands.iterations, stands.history⟩
  rw [Machine.evaluate, Tree.evaluateIn, left, State.evaluate, right]
  cases r <;> exact ⟨_, last, rfl, stands', rfl, onward⟩

theorem withValue (stands : s.Stands forest m) (e : Expression)
    {next : Float → State → Result} {next' : Float → Machine → Outcome}
    (then' : ∀ {forest s m} (v : Float), s.Stands forest m →
      (next v s).Answers forest s (next' v m)) :
    (s.withValue e next).Answers forest s (m.withValue e next') := by
  obtain ⟨s', after, evaluated, stands', env, onward⟩ := stands.evaluate e.tree
  rw [State.withValue, evaluated, Machine.withValue]
  revert stands'
  rcases m.evaluate e.tree with ⟨d | v, m'⟩
  · exact fun stands' => (stands'.answers _).after stands onward env
  · exact fun stands' => (then' v stands').after stands onward env

/-- A block gets an environment of its own. Whatever goes on there, the environment around it then
shows what is left after the block: a child has made its changes where they are seen, and a copy has
made none that are. -/
theorem enter (stands : s.Stands forest m) (limits : Limits) (kind : ScopeKind) :
    ∃ inner between, s.enter limits kind = some inner ∧
      inner.Stands between { m with env := limits.enter kind m.env } ∧
      ∀ after, between.Onward inner.env after → forest.Onward s.env after ∧
        after.env s.env = limits.leave m.env (after.env inner.env) ∧
        (limits.scoping = .copy →
          ∀ j < forest.nodes.length, after.nodes[j]? = forest.nodes[j]?) := by
  obtain ⟨holds, result, iterations, history⟩ := stands
  obtain ⟨shows, sound, consistent, opened, env⟩ := holds
  have made (node : Forest.Node) : forest.nodes.length < (forest.add node).nodes.length := by
    simp [Forest.add]
  cases scoping : limits.scoping with
  | chain =>
    obtain ⟨heap, opens, shows'⟩ := shows.child kind opened
    have nested : forest.perform (.child kind s.env) = forest.addChild kind s.env :=
      Forest.perform_of_target rfl opened
    have effect : Forest.Effect forest (.child kind s.env) (forest.addChild kind s.env) :=
      nested ▸ Forest.effect_perform sound (.child kind s.env)
    refine ⟨{ s with heap := heap, env := s.heap.frames.length }, forest.addChild kind s.env,
      by rw [State.enter, scoping]; simp only [opens]; rfl, ⟨?_, result, iterations, history⟩, ?_⟩
    · rw [shows.count, Limits.enter, scoping]
      exact ⟨shows', sound.effect effect, consistent.effect effect, made _,
        env ▸ Forest.env_addChild sound kind opened⟩
    · intro after inside
      rw [shows.count] at inside ⊢
      rw [Limits.leave, scoping]
      exact ⟨.leave_child sound opened inside, inside.env_child sound opened,
        fun copied => by cases copied⟩
  | copy =>
    obtain ⟨heap, opens, shows', -⟩ := shows.dup sound kind opened
    have copied : forest.perform (.copy kind s.env) = forest.addCopy kind s.env :=
      Forest.perform_of_target rfl opened
    have effect : Forest.Effect forest (.copy kind s.env) (forest.addCopy kind s.env) :=
      copied ▸ Forest.effect_perform sound (.copy kind s.env)
    refine ⟨{ s with heap := heap, env := s.heap.frames.length }, forest.addCopy kind s.env,
      by rw [State.enter, scoping]; simp only [opens]; rfl, ⟨?_, result, iterations, history⟩, ?_⟩
    · rw [shows.count, Limits.enter, scoping]
      exact ⟨shows', sound.effect effect, consistent.effect effect, made _,
        env ▸ copied ▸ Forest.env_copy kind opened⟩
    · intro after inside
      rw [shows.count] at inside ⊢
      rw [Limits.leave, scoping]
      exact ⟨.leave_copy inside, (inside.env_copy sound opened).trans env,
        fun _ _ old => inside.nodes_copy old⟩

theorem within (stands : s.Stands forest m) (limits : Limits) (kind : ScopeKind)
    {body : State → Result} {body' : Machine → Outcome}
    (inside : ∀ {forest s m}, s.Stands forest m → (body s).Answers forest s (body' m)) :
    (s.within limits kind body).Answers forest s (limits.within kind body' m) := by
  obtain ⟨inner, between, entered, stands', left⟩ := stands.enter limits kind
  obtain ⟨s', after, ended, last, env, onward⟩ := inside stands'
  obtain ⟨onward', shown, -⟩ := left after onward
  refine ⟨{ s' with env := s.env }, after, ?_, ⟨?_, last.result, last.iterations, last.history⟩,
    rfl, onward'⟩
  · rw [State.within, entered, Option.bind_eq_bind, Option.bind_some, ended]
    rfl
  · refine ⟨last.holds.shows, last.holds.sound, last.holds.consistent, ?_, ?_⟩
    · exact Nat.lt_of_lt_of_le stands.holds.opened onward'.length
    · rw [shown, ← env, last.holds.env]
      rfl

/-- A declared symbol knows whether its environment is global. -/
theorem declare (stands : s.Stands forest m) (keyword name : Token) (value : Option Float) :
    (s.declare keyword name value).Answers forest s (m.declare keyword name value) := by
  let sym : Symbol :=
    { name := name.lexeme, value := value, constant := Program.isConst keyword,
      position := name.position }
  obtain ⟨after, declared, leads⟩ := stands.holds.declare sym
  rw [State.declare, Machine.declare]
  dsimp only
  rw [declared]
  cases result : m.env.declare sym with
  | error d =>
    rw [result] at leads
    exact stands.answers_of_leads leads _
  | ok env' =>
    rw [result] at declared leads
    have cell := cells_of_declare (cells_alloc s.heap sym) declared
    obtain ⟨last, holds, onward⟩ := leads
    obtain ⟨scope, outer, rfl, global⟩ := holds.isGlobal sym
    have stands' : State.Stands { s with heap := after } last { m with env := scope :: outer } :=
      ⟨holds, stands.result, stands.iterations, stands.history⟩
    have noted := stands'.note (.declare keyword.line sym (scope.kind = .global))
    refine ⟨_, last, ?_, noted, rfl, onward⟩
    simp only [refusal, Option.bind_eq_bind, Option.bind_some, cell, global]
    rfl

theorem assign (stands : s.Stands forest m) (name : Token) (v : Float) :
    (s.assign name v).Answers forest s (m.assign name v) := by
  obtain ⟨after, assigned, leads⟩ := stands.holds.assign name.lexeme v name.position
  have noted := stands.note (.assign name.line name.lexeme v)
  rw [State.assign, Machine.assign]
  simp only [State.note, Machine.note, assigned]
  cases result : m.env.assign name.lexeme v name.position
  all_goals
    rw [result] at leads
    exact noted.answers_of_leads leads _

/-- A loop: what its condition and its body do is done round for round. -/
theorem iterate (limits : Limits) (keyword : Token) (condition : Expression)
    {body : State → Result} {body' : Machine → Outcome}
    (inside : ∀ {forest s m}, s.Stands forest m → (body s).Answers forest s (body' m))
    (fuel : Nat) {forest : Forest} {s : State} {m : Machine} (stands : s.Stands forest m) :
    (Heap.iterate limits keyword condition body fuel s).Answers forest s
      (limits.iterate keyword condition body' fuel m) := by
  induction fuel generalizing forest s m with
  | zero => exact stands.answers _
  | succ fuel ih =>
    rw [Heap.iterate, Limits.iterate]
    refine stands.withValue condition fun {forest s m} v stands => ?_
    have spent : limits.spent m = true ↔ 0 < limits.budget ∧ limits.budget ≤ s.iterations := by
      simp [Limits.spent, stands.iterations]
    simp only [spent]
    split
    · exact stands.answers none
    · split
      · exact stands.answers _
      · have entered : State.Stands { s with iterations := s.iterations + 1 } forest
            { m with iterations := m.iterations + 1 } :=
          ⟨stands.holds, stands.result, congrArg (· + 1) stands.iterations, stands.history⟩
        have noted := entered.note (.iterate keyword.line)
        exact (noted.within limits .loop inside).andThen noted ih

end State.Stands

/-- A program run in memory answers as the program run on lists of scopes. -/
theorem execute_answers (limits : Limits) : (p : Program) → ∀ {forest : Forest} {s : State}
    {m : Machine}, s.Stands forest m → (execute limits p s).Answers forest s (p.run limits m)
  | .done, _, _, _, stands => stands.answers none
  | .block brace body rest, _, _, _, stands =>
    have noted := stands.note (.enterBlock brace.line)
    (noted.within limits .block (execute_answers limits body)).andThen noted
      (execute_answers limits rest)
  | .declare keyword name value rest, _, _, _, stands => by
    unfold execute Program.run
    refine Result.Answers.andThen stands ?_ (execute_answers limits rest)
    cases value with
    | none => exact stands.declare keyword name none
    | some e => exact stands.withValue e fun v stands => stands.declare keyword name (some v)
  | .assign name value rest, _, _, _, stands =>
    (stands.withValue value fun v stands => stands.assign name v).andThen stands
      (execute_answers limits rest)
  | .expression value rest, _, _, _, stands => by
    rw [execute, Program.run]
    refine Result.Answers.andThen stands ?_ (execute_answers limits rest)
    refine stands.withValue value fun {forest s m} v stands => ?_
    have valued : State.Stands { s with result := some v } forest { m with result := some v } :=
      ⟨stands.holds, rfl, stands.iterations, stands.history⟩
    exact (valued.note (.value value.line value.text v)).answers none
  | .ifThen keyword condition _ body rest, _, _, _, stands => by
    rw [execute, Program.run]
    refine Result.Answers.andThen stands ?_ (execute_answers limits rest)
    refine stands.withValue condition fun v stands => ?_
    have noted := stands.note (.branch keyword.line condition.text v)
    dsimp only
    split
    · exact noted.within limits .branch (execute_answers limits body)
    · exact noted.answers none
  | .ifElse keyword condition _ body _ elseBody rest, _, _, _, stands => by
    rw [execute, Program.run]
    refine Result.Answers.andThen stands ?_ (execute_answers limits rest)
    refine stands.withValue condition fun v stands => ?_
    have noted := stands.note (.branch keyword.line condition.text v)
    dsimp only
    split
    · exact noted.within limits .branch (execute_answers limits body)
    · exact noted.within limits .branch (execute_answers limits elseBody)
  | .loop keyword condition _ body rest, _, _, _, stands =>
    (State.Stands.iterate limits keyword condition (execute_answers limits body) limits.rounds
      stands).andThen stands (execute_answers limits rest)

/-! ### Whole runs -/

/-- After any calls a program can start in any environment. -/
theorem stands_of_run {calls : List Forest.Call} {h : Heap} (reached : run {} calls = some h)
    {e : Nat} (opened : e < h.frames.length) :
    State.Stands { heap := h, env := e } (Forest.run ⟨[]⟩ calls)
      { env := (Forest.run ⟨[]⟩ calls).env e } := by
  obtain ⟨h', reached', shows⟩ :=
    shows_empty.exists_run Forest.sound_empty Forest.consistent_empty calls
  cases reached.symm.trans reached'
  exact ⟨⟨shows, Forest.sound_empty.run calls, Forest.consistent_empty.run Forest.sound_empty calls,
    shows.count ▸ opened, rfl⟩, rfl, rfl, rfl⟩

/-- A scope that has not changed shows the same symbols. -/
theorem Shows.localSymbols_congr {before after : Heap} {first last : Forest}
    (shows : before.Shows first) (sound : first.Sound) (shows' : after.Shows last)
    (sound' : last.Sound) {j : Nat} (old : j < first.nodes.length)
    (same : last.nodes[j]? = first.nodes[j]?) : after.localSymbols j = before.localSymbols j := by
  obtain ⟨scope, present⟩ := Forest.exists_scope? old
  have present' : last.scope? j = some scope := by rwa [Forest.scope?, same]
  rw [shows.localSymbols sound present, shows'.localSymbols sound' present']

/-- A program run in memory, in whatever environment, follows no pointer to nothing, takes the steps
and ends in the way of the program run on the scopes of that environment, and no environment that
this one does not reach is any different afterwards. -/
theorem execute_of_run (limits : Limits) (p : Program) {calls : List Forest.Call} {h : Heap}
    (reached : run {} calls = some h) {e : Nat} (opened : e < h.frames.length) :
    let o := p.run limits { env := (Forest.run ⟨[]⟩ calls).env e }
    ∃ s after, execute limits p { heap := h, env := e } = some (s, o.fault) ∧ s.env = e ∧
      s.result = o.machine.result ∧ s.iterations = o.machine.iterations ∧
      s.history = o.machine.history ∧
      s.heap.Shows after ∧ after.env e = o.machine.env ∧
      ∀ j < h.frames.length, j ∉ h.chain e → s.heap.localSymbols j = h.localSymbols j := by
  intro o
  have stands := stands_of_run reached opened
  obtain ⟨s, after, ended, last, env, onward⟩ := execute_answers limits p stands
  have env : s.env = e := env
  refine ⟨s, after, ended, env, last.result, last.iterations, last.history, last.holds.shows,
    env ▸ last.holds.env, fun j old elsewhere => ?_⟩
  have shows := stands.holds.shows
  rw [shows.count] at old
  rw [shows.chain_eq] at elsewhere
  exact shows.localSymbols_congr stands.holds.sound last.holds.shows last.holds.sound old
    (onward.others j old elsewhere)

/-- A block that works on a copy leaves every environment that was there as it was, marks of what
was read included, whether it comes to its end or fails. -/
theorem localSymbols_within_copy {limits : Limits} (copying : limits.scoping = .copy)
    (kind : ScopeKind) (body : Program) {calls : List Forest.Call} {h : Heap}
    (reached : run {} calls = some h) {e : Nat} (opened : e < h.frames.length) :
    ∃ s fault,
      State.within limits kind (execute limits body) { heap := h, env := e } = some (s, fault) ∧
        ∀ j < h.frames.length, s.heap.localSymbols j = h.localSymbols j := by
  have stands := stands_of_run reached opened
  obtain ⟨inner, between, entered, stands', left⟩ := stands.enter limits kind
  obtain ⟨s, after, ended, last, -, onward⟩ := execute_answers limits body stands'
  obtain ⟨-, -, untouched⟩ := left after onward
  obtain ⟨fault, ended⟩ : ∃ fault, execute limits body inner = some (s, fault) := ⟨_, ended⟩
  refine ⟨{ s with env := e }, fault, ?_, fun j old => ?_⟩
  · rw [State.within, entered, Option.bind_eq_bind, Option.bind_some, ended]
    rfl
  · rw [stands.holds.shows.count] at old
    exact stands.holds.shows.localSymbols_congr stands.holds.sound last.holds.shows
      last.holds.sound old (untouched copying j old)

end Heap

end NumScript
