import NumScript.Proofs.Command.Agreement
import NumScript.Proofs.Playground.Answering

/-! Warnings that are taken for errors. The command promotes whatever it has found before it tells
it, so under strict settings it tells errors only. The playground promotes what it has found once a
script is read; of a script that cannot be read it tells the warnings as they are. -/

namespace NumScript

/-- The script cannot be cut into tokens without errors, or the tokens cannot be read. -/
def Unread (source : Text) : Prop :=
  (tokenize source []).2.hasErrors = true ∨
    ∃ d, Program.read (tokenize source []).1 = .error d

theorem Log.severity_promoteWarnings (log : Log) :
    ∀ d ∈ log.promoteWarnings.items, d.severity = .error := by
  rw [log.items_promoteWarnings]
  intro d member
  obtain ⟨d', -, rfl⟩ := List.mem_map.mp member
  rfl

/-! ### The command -/

namespace Command

theorem severity_prepare {settings : Settings} (strict : settings.warningsAsErrors = true)
    (source : Text) : ∀ d ∈ (prepare settings source).problems, d.severity = .error := by
  simp only [prepare, strict, if_true]
  exact Log.severity_promoteWarnings _

/-- The problem that ends a run is an error. -/
theorem Task.severity_failure (t : Task) (patience : Nat) :
    ∀ d ∈ t.failure patience, d.severity = .error := by
  unfold Task.failure
  split
  · nofun
  · intro d member
    exact Program.severity_of_fault (Outcome.problem?_eq_some.mp (Option.mem_toList.mp member))

end Command

/-! ### The playground -/

namespace Playground

/-- A script that is read has no warnings left when it is compiled. -/
theorem exists_warning_compile_iff {settings : Settings}
    (strict : settings.warningsAsErrors = true) (source : Text) :
    (∃ d ∈ (compile settings source).problems, d.severity = .warning) ↔
      Unread source ∧ ∃ d ∈ (tokenize source []).2.items, d.severity = .warning := by
  have errors {problems : List Diagnostic} (all : ∀ d ∈ problems, d.severity = .error) :
      ¬ ∃ d ∈ problems, d.severity = .warning := by
    rintro ⟨d, member, warning⟩
    cases (all d member).symm.trans warning
  unfold compile Unread
  rcases tokenize source [] with ⟨tokens, log⟩
  cases lexed : log.hasErrors with
  | true => simp [lexed]
  | false =>
    cases parsed : Program.read tokens with
    | error d =>
      have grave := Program.read_grave tokens d parsed
      simp [lexed, parsed, Log.items_report, or_and_right, exists_or, grave]
    | ok p =>
      simp only [lexed, parsed, strict, Bool.false_eq_true, if_true, if_false, reduceCtorEq,
        exists_false, or_self, false_and, iff_false]
      generalize (if settings.analyze = true then log.reportAll p.findings else log) = judged
      split
      · exact errors judged.severity_promoteWarnings
      · split <;> exact errors judged.severity_promoteWarnings

/-- A run adds no warning. -/
theorem Answer.exists_warning_iff {limits : Limits} {c : Compiled} {cached : Bool} {a : Answer}
    (answered : ofCompiled? limits c cached = some a) :
    (∃ d ∈ a.problems, d.severity = .warning) ↔ ∃ d ∈ c.problems, d.severity = .warning := by
  unfold ofCompiled? at answered
  split at answered
  · cases answered
    exact Iff.rfl
  · rename_i p found
    dsimp only at answered
    split at answered
    · cases answered
    · cases answered
      constructor
      · rintro ⟨d, member, warning⟩
        rcases List.mem_append.mp member with before | last
        · exact ⟨d, before, warning⟩
        · have failed := Outcome.problem?_eq_some.mp (Option.mem_toList.mp last)
          cases (Program.severity_of_fault failed).symm.trans warning
      · rintro ⟨d, member, warning⟩
        exact ⟨d, List.mem_append_left _ member, warning⟩

end Playground

open Playground in
/-- Under settings that take warnings for errors the command tells errors only. The playground does
so for scripts that are read; of a script that is not, it tells the warnings about its words. The
answer is about the script that was sent, unless another one with its digest is in the cache. -/
theorem warnings_promoted {settings : Settings} (strict : settings.warningsAsErrors = true) :
    (∀ (t : Command.Task) (patience : Nat) (all : Bool) (o : Command.Outcome),
      t.settings = settings → t.run patience all = some o →
        t.Reports (Command.prepare t.settings t.source).problems (t.failure patience) o.stderr ∧
        ∀ d ∈ (Command.prepare t.settings t.source).problems ++ t.failure patience,
          d.severity = .error) ∧
    ∀ (parts : Parts) (s : Server) (patience : Nat) (r : Request) (told : Response),
      Server.Reached settings parts s → r.Runs parts → r.Fits settings →
        (s.handle patience r).1 = some told →
        ∃ a source, told = .ofAnswer a ∧ parts.digest source = parts.digest r.body ∧
          (s.cache.get? (parts.digest r.body) = none → source = r.body) ∧
          ((∃ d ∈ a.problems, d.severity = .warning) ↔
            Unread source ∧ ∃ d ∈ (tokenize source []).2.items, d.severity = .warning) := by
  refine ⟨fun t patience all o given ended => ?_,
    fun parts s patience r told reached runs fits sent => ?_⟩
  · refine ⟨t.reports_of_run ended, List.forall_mem_append.mpr ⟨?_, t.severity_failure patience⟩⟩
    exact Command.severity_prepare (given ▸ strict) t.source
  · obtain ⟨source, compiled, digest, fresh⟩ := reached.compiled_digest r.body
    obtain ⟨same, rfl⟩ : s.settings = settings ∧ s.parts = parts := by
      obtain ⟨_, faithful⟩ := reached.faithful
      exact ⟨faithful.fixed, faithful.built⟩
    rw [s.handle_of_runs patience runs (same ▸ fits), Option.map_eq_some_iff] at sent
    obtain ⟨a, answered, rfl⟩ := sent
    refine ⟨a, source, rfl, digest, fresh, ?_⟩
    rw [Answer.exists_warning_iff answered, compiled, exists_warning_compile_iff strict]

/-- The settings that take warnings for errors, all else as usual. -/
def strictSettings : Settings := { warningsAsErrors := true }

/-- A request to run a script. -/
def sentScript (source : Text) : Playground.Request := ⟨"POST", "/run", source⟩

/-- The command with a script in which a lone sign follows a keyword in other letters. -/
def strictTask : Command.Task where
  settings := strictSettings
  verbose := false
  color := false
  file := Text.ofString "odd.num"
  source := Text.ofString "IF; &"

theorem warnings_promoted_keywordCase :
    strictSettings.isValid = true ∧ strictSettings.warningsAsErrors = true ∧
      (∃ o, strictTask.run 9 false = some o ∧ o.code = 1 ∧
        (Command.prepare strictTask.settings strictTask.source).problems.length = 2 ∧
        strictTask.Reports (Command.prepare strictTask.settings strictTask.source).problems
          (strictTask.failure 9) o.stderr ∧
        ∀ d ∈ (Command.prepare strictTask.settings strictTask.source).problems ++
          strictTask.failure 9, d.severity = .error) ∧
      (∃ a, ((Playground.Server.new strictSettings).handle 9 (sentScript "IF;")).1 =
          some (.ofAnswer a) ∧ ¬ ∃ d ∈ a.problems, d.severity = .warning) ∧
      ∃ a, ((Playground.Server.new strictSettings).handle 9 (sentScript "IF; &")).1 =
          some (.ofAnswer a) ∧ ∃ d ∈ a.problems, d.severity = .warning := by
  obtain ⟨command, playground⟩ :=
    warnings_promoted (show strictSettings.warningsAsErrors = true from rfl)
  have failed : (strictTask.run 9 false).map Command.Outcome.code = some 1 := by decide +kernel
  obtain ⟨o, ended, code⟩ := Option.map_eq_some_iff.mp failed
  obtain ⟨reports, errors⟩ := command strictTask 9 false o rfl ended
  have toRun : Playground.Route.ofPath (Playground.Parts.standard.path "/run") = .run := by
    decide +kernel
  have responds (source : Text)
      (ends : ((Playground.Server.new strictSettings).handle 9 (sentScript source)).1.isSome = true)
      (fits : (sentScript source).Fits strictSettings) : ∃ a,
      ((Playground.Server.new strictSettings).handle 9 (sentScript source)).1 =
        some (.ofAnswer a) ∧
      ((∃ d ∈ a.problems, d.severity = .warning) ↔
        Unread source ∧ ∃ d ∈ (tokenize source []).2.items, d.severity = .warning) := by
    obtain ⟨told, sent⟩ := Option.isSome_iff_exists.mp ends
    obtain ⟨a, script, rfl, -, same, warns⟩ :=
      playground .standard _ 9 (sentScript source) told .new ⟨toRun, rfl⟩ fits sent
    obtain rfl : script = source := same rfl
    exact ⟨a, sent, warns⟩
  obtain ⟨a, answered, silent⟩ := responds "IF;" (by decide +kernel) (by decide +kernel)
  obtain ⟨b, refused, warns⟩ := responds "IF; &" (by decide +kernel) (by decide +kernel)
  refine ⟨by decide +kernel, rfl, ⟨o, ended, code, by decide +kernel, reports, errors⟩,
    ⟨a, answered, ?_⟩, b, refused, warns.mpr ⟨.inl (by decide +kernel), ?_⟩⟩
  · -- This script is read, so nothing keeps its warnings.
    rw [silent]
    rintro ⟨lexed | ⟨d, refused⟩, -⟩
    · exact absurd lexed (by decide +kernel)
    · have read : (Program.read (tokenize "IF;" []).1).toOption.isSome = true := by decide +kernel
      rw [refused] at read
      cases read
  · have found : (tokenize "IF; &" []).2.items.any (fun d => d.severity = .warning) = true := by
      decide +kernel
    simpa using found

/-- A script that cannot be read keeps its warnings in the playground. -/
theorem warning_not_promoted :
    strictSettings.isValid = true ∧
      ∃ a : Playground.Answer,
        ((Playground.Server.new strictSettings).handle 9 (sentScript "IF; &")).1 =
          some (.ofAnswer a) ∧
        a.problems.map Diagnostic.severity = [.warning, .error] := by
  have found : (Playground.compile strictSettings "IF; &").problems.map Diagnostic.severity =
      [.warning, .error] ∧ (Playground.compile strictSettings "IF; &").program.isNone = true := by
    decide +kernel
  obtain ⟨severities, stopped⟩ := found
  rw [Option.isNone_iff_eq_none] at stopped
  refine ⟨by decide +kernel, ⟨none, [], _, 0, false, false⟩, ?_, severities⟩
  rw [Playground.Server.handle_of_runs _ _ (by decide +kernel) (by decide +kernel)]
  have fresh : ((Playground.Server.new strictSettings).compiled "IF; &").1 =
      (Playground.compile strictSettings "IF; &", false) := rfl
  simp only [sentScript, fresh, Playground.Answer.ofCompiled?, stopped, Option.map_some]

end NumScript
