import NumScript.Proofs.Playground.Eviction
import NumScript.Proofs.Program.Refusing
import NumScript.Proofs.Run.Breaking
import NumScript.Proofs.Token.Joining

/-! What the status of an answer says. A script is stopped before it runs exactly when an error was
found in it, and a run stops exactly with an error; the count of errors in the log, through which
the playground sees this, is never wrong. So a script cannot be processed exactly when the answer
to it reports an error. -/

namespace NumScript.Playground

/-! ### Compiled scripts -/

/-- A script is stopped before it runs exactly when an error was found in it. -/
theorem compile_stopped_iff (settings : Settings) (source : Text) :
    (compile settings source).program = none ↔
      ∃ d ∈ (compile settings source).problems, d.severity = .error := by
  have exact := exact_tokenize source []
  unfold compile
  generalize tokenize source [] = reading at exact
  obtain ⟨tokens, log⟩ := reading
  dsimp only at exact ⊢
  split
  · rename_i errors
    exact iff_of_true rfl (exact.hasErrors_iff.mp errors)
  split
  · rename_i d refused
    refine iff_of_true rfl ⟨d, ?_, Program.read_grave tokens d refused⟩
    rw [log.items_report]
    exact List.mem_append_right log.items (List.mem_singleton_self d)
  · rename_i program _
    have checked : (if settings.analyze then log.reportAll program.findings else log).Exact := by
      split
      · exact exact.reportAll program.findings
      · exact exact
    generalize (if settings.analyze then log.reportAll program.findings else log) = log at checked ⊢
    have promoted : (if settings.warningsAsErrors then log.promoteWarnings else log).Exact := by
      split
      · exact checked.promoteWarnings
      · exact checked
    generalize (if settings.warningsAsErrors then log.promoteWarnings else log) = log
      at promoted ⊢
    split
    · rename_i errors
      exact iff_of_true rfl (promoted.hasErrors_iff.mp errors)
    · rename_i clean
      have running (p : Program) : (some p = none) ↔ ∃ d ∈ log.items, d.severity = .error :=
        iff_of_false (by simp) (clean ∘ promoted.hasErrors_iff.mpr)
      split
      · exact running _
      · exact running program

/-! ### Answers -/

namespace Answer

variable {limits : Limits} {c : Compiled} {cached : Bool} {a : Answer}

theorem ofCompiled?_eq_none_iff :
    ofCompiled? limits c cached = none ↔
      ∃ p, c.program = some p ∧ (p.run limits {}).fault = some .exhausted := by
  unfold ofCompiled?
  split
  · rename_i stopped
    simp [stopped]
  · rename_i p found
    simp [found]

/-- When a script is compiled exactly if no error was found in it, the answer tells of a run to the
end exactly if it reports none. -/
theorem completed_iff (answered : ofCompiled? limits c cached = some a)
    (stopped : c.program = none ↔ ∃ d ∈ c.problems, d.severity = .error) :
    a.completed = false ↔ ∃ d ∈ a.problems, d.severity = .error := by
  unfold ofCompiled? at answered
  split at answered
  · rename_i refused
    cases answered
    exact iff_of_true rfl (stopped.mp refused)
  · rename_i p found
    dsimp only at answered
    split at answered
    · cases answered
    rename_i ended
    cases answered
    have clean : ¬ ∃ d ∈ c.problems, d.severity = .error := fun errors => by
      simpa [found] using stopped.mpr errors
    dsimp only
    cases fault : (p.run limits {}).fault with
    | none =>
      have silent : (p.run limits {}).problem? = none := by rw [Outcome.problem?, fault]
      rw [silent]
      exact iff_of_false (by simp) (by simpa using clean)
    | some fault' =>
      cases fault' with
      | exhausted => exact absurd fault ended
      | problem d =>
        have told : (p.run limits {}).problem? = some d := Outcome.problem?_eq_some.mpr fault
        rw [told]
        exact iff_of_true rfl ⟨d, List.mem_append_right c.problems (List.mem_singleton_self d),
          Program.severity_of_fault fault⟩

theorem of_stopped (answered : ofCompiled? limits c cached = some a) (stopped : c.program = none) :
    a.result = none ∧ a.env = [] ∧ a.iterations = 0 := by
  simp only [ofCompiled?, stopped] at answered
  cases answered
  exact ⟨rfl, rfl, rfl⟩

end Answer

/-! ### States of the playground -/

/-- The states that a playground comes to. -/
inductive Server.Reached (settings : Settings) (parts : Parts) : Server → Prop
  | new : Reached settings parts (.new settings parts)
  | handled {s : Server} (patience : Nat) (r : Request) :
      Reached settings parts s → Reached settings parts (s.handle patience r).2
  /-- A request that is not yet answered has stored its script, compiled. -/
  | stored {s : Server} (source : Text) :
      Reached settings parts s →
      Reached settings parts
        { s with cache := s.cache.put (parts.digest source) (compile settings source) }

namespace Server

variable {settings : Settings} {parts : Parts} {s : Server}

theorem Faithful.mono {sources more : List Text} (h : Faithful settings parts sources s)
    (all : sources ⊆ more) : Faithful settings parts more s where
  fixed := h.fixed
  built := h.built
  entries key c member := by
    obtain ⟨source, sent, compiled⟩ := h.entries key c member
    exact ⟨source, all sent, compiled⟩

theorem Faithful.stored {sources : List Text} (h : Faithful settings parts sources s)
    (source : Text) :
    Faithful settings parts (source :: sources)
      { s with cache := s.cache.put (parts.digest source) (compile settings source) } :=
  (h.mono (List.subset_cons_self source sources)).put List.mem_cons_self

/-- Whatever is in the cache has been compiled from some script. -/
theorem Reached.faithful (h : Reached settings parts s) :
    ∃ sources, Faithful settings parts sources s := by
  induction h with
  | new => exact ⟨[], faithful_new settings parts []⟩
  | stored source _ ih =>
    obtain ⟨sources, faithful⟩ := ih
    exact ⟨source :: sources, faithful.stored source⟩
  | @handled s patience r _ ih =>
    obtain ⟨sources, faithful⟩ := ih
    obtain rfl := faithful.fixed
    obtain rfl := faithful.built
    rw [s.handle_cache patience r, stores]
    split
    · exact ⟨r.body :: sources, faithful.stored r.body⟩
    · exact ⟨sources, faithful⟩

/-- The playground answers with the compiled form of the script, unless that of another one with the
same digest is in the cache. -/
theorem Reached.compiled_digest (h : Reached settings parts s) (source : Text) :
    ∃ other, (s.compiled source).1.1 = compile settings other ∧
      parts.digest other = parts.digest source ∧
      (s.cache.get? (parts.digest source) = none → other = source) := by
  obtain ⟨sources, faithful⟩ := h.faithful
  obtain rfl := faithful.built
  cases found : s.cache.get? (s.parts.digest source) with
  | none => exact ⟨source, by simp only [Server.compiled, found, faithful.fixed], rfl, fun _ => rfl⟩
  | some c =>
    obtain ⟨other, -, digest, same⟩ := faithful.entries _ _ (Cache.mem_of_get? found)
    exact ⟨other, by simp only [Server.compiled, found, same], digest, by simp⟩

/-- The playground answers with the compiled form of a script, perhaps of another one with the same
digest. -/
theorem Reached.compiled (h : Reached settings parts s) (source : Text) :
    ∃ other, (s.compiled source).1.1 = compile settings other := by
  obtain ⟨other, same, -⟩ := h.compiled_digest source
  exact ⟨other, same⟩

end Server

/-- Whatever was asked before, the answer to a script of allowed length has the status 200 or 422,
and it is 422 exactly when one of the problems that it reports is an error. A script that was
stopped before it ran has no result, no names and no iterations. There is no answer as long as the
script runs; with a limit on loops there always is one. -/
theorem unprocessable_iff_error {settings : Settings} {parts : Parts} {s : Server}
    (reached : Server.Reached settings parts s) (patience : Nat) {r : Request}
    (runs : r.Runs parts) (fits : r.Fits settings) :
    let c := (s.compiled r.body).1.1
    let response := (s.handle patience r).1
    (response = none ↔
      ∃ p, c.program = some p ∧ (p.run (settings.limits patience) {}).fault = some .exhausted) ∧
    (0 < settings.maxIterations → response ≠ none) ∧
    ∀ told, response = some told →
      ∃ a, Answer.ofCompiled? (settings.limits patience) c (s.compiled r.body).1.2 = some a ∧
        told = .ofAnswer a ∧
        (told.status.code = 200 ∨ told.status.code = 422) ∧
        (told.status.code = 422 ↔ ∃ d ∈ a.problems, d.severity = .error) ∧
        (c.program = none → a.result = none ∧ a.env = [] ∧ a.iterations = 0) := by
  intro c response
  obtain ⟨same, rfl⟩ : s.settings = settings ∧ s.parts = parts := by
    obtain ⟨_, faithful⟩ := reached.faithful
    exact ⟨faithful.fixed, faithful.built⟩
  have stopped : c.program = none ↔ ∃ d ∈ c.problems, d.severity = .error := by
    obtain ⟨source, compiled⟩ := reached.compiled r.body
    rw [show c = compile settings source from compiled]
    exact compile_stopped_iff settings source
  have responds : response =
      (Answer.ofCompiled? (settings.limits patience) c (s.compiled r.body).1.2).map .ofAnswer := by
    have handled := s.handle_of_runs patience runs (same ▸ fits)
    rw [same] at handled
    exact congrArg Prod.fst handled
  have endless : response = none ↔
      ∃ p, c.program = some p ∧ (p.run (settings.limits patience) {}).fault = some .exhausted := by
    rw [responds, Option.map_eq_none_iff, Answer.ofCompiled?_eq_none_iff]
  refine ⟨endless, fun positive silent => ?_, fun told answered => ?_⟩
  · obtain ⟨p, -, given⟩ := endless.mp silent
    have bounded : 0 < (settings.limits patience).budget := positive
    exact (p.run_bounds bounded {}).ended given
  · rw [responds, Option.map_eq_some_iff] at answered
    obtain ⟨a, answered, rfl⟩ := answered
    refine ⟨a, answered, rfl, ?_, ?_, Answer.of_stopped answered⟩
    · rw [Response.ofAnswer]
      cases a.completed
      · exact .inr rfl
      · exact .inl rfl
    · rw [← Answer.completed_iff answered stopped, Response.ofAnswer]
      cases a.completed <;> simp [Status.code]

/-- A script with an error is refused again when it is in the cache, and has no result; another one
is not refused. -/
theorem unprocessable_iff_error_cached :
    let settings : Settings := {}
    let request (source : Text) : Request := ⟨"POST", "/run", source⟩
    let s := ((Server.new settings).handle 9 (request [49, 43, 59])).2
    settings.isValid = true ∧ s.cache.entries.length = 1 ∧
      (∃ a, (s.handle 9 (request [49, 43, 59])).1 = some (.ofAnswer a) ∧ a.cached = true ∧
        (Response.ofAnswer a).status.code = 422 ∧ (∃ d ∈ a.problems, d.severity = .error) ∧
        a.result = none ∧ a.env = [] ∧ a.iterations = 0) ∧
      ∃ a, (s.handle 9 (request [49, 59])).1 = some (.ofAnswer a) ∧
        (Response.ofAnswer a).status.code = 200 ∧ ¬ ∃ d ∈ a.problems, d.severity = .error := by
  intro settings request s
  have reached : Server.Reached settings .standard s := .handled 9 _ .new
  have codes : ((s.handle 9 (request [49, 43, 59])).1.map fun told => told.status.code) = some 422 ∧
      ((s.handle 9 (request [49, 59])).1.map fun told => told.status.code) = some 200 := by
    decide +kernel
  obtain ⟨refused, completed⟩ := codes
  obtain ⟨told, answered, refused⟩ := Option.map_eq_some_iff.mp refused
  obtain ⟨other, otherAnswered, completed⟩ := Option.map_eq_some_iff.mp completed
  obtain ⟨-, -, first⟩ := unprocessable_iff_error reached 9 (r := request [49, 43, 59])
    (by decide +kernel) (by decide +kernel)
  obtain ⟨a, compiled, rfl, -, errors, silent⟩ := first told answered
  obtain ⟨-, -, second⟩ := unprocessable_iff_error reached 9 (r := request [49, 59])
    (by decide +kernel) (by decide +kernel)
  obtain ⟨b, -, rfl, -, clean, -⟩ := second other otherAnswered
  refine ⟨by decide +kernel, by decide +kernel, ⟨a, answered, ?_, refused, errors.mp refused,
    silent ?_⟩, b, otherAnswered, completed, ?_⟩
  · rw [Answer.cached_eq compiled]
    decide +kernel
  · exact Option.isNone_iff_eq_none.mp (by decide +kernel)
  · rw [← clean, completed]
    decide

end NumScript.Playground
