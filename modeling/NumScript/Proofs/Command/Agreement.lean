import NumScript.Command
import NumScript.Proofs.Diagnostic.Log
import NumScript.Proofs.Diagnostic.Printer
import NumScript.Proofs.Playground.Caching

/-! The command and the playground agree. The command takes a script through all its phases, with
the program missing once an error was found, and turns warnings into errors at the very end; the
playground stops at the first phase that finds an error and leaves the warnings before it as they
are. What is told of a problem besides how grave it is, what is run, and what comes out are the
same. -/

namespace NumScript

/-- What is told of a problem however grave it is taken to be: its phase, its line, its message. -/
def Diagnostic.told (d : Diagnostic) : Phase × Int × Text := (d.phase, d.line, d.message)

theorem Log.told_promoteWarnings (log : Log) :
    log.promoteWarnings.items.map Diagnostic.told = log.items.map Diagnostic.told := by
  rw [log.items_promoteWarnings, List.map_map]
  rfl

/-- The program that is run under the settings. -/
def Settings.finished (s : Settings) (p : Program) : Program :=
  if s.optimize then (p.optimize s.optimizeRounds).program else p

/-- Both ways of getting a script ready come to the same program and the same report. -/
theorem compile_prepare (s : Settings) (source : Text) :
    (Playground.compile s source).program =
        (Command.prepare s source).program.map s.finished ∧
      (Playground.compile s source).problems.map Diagnostic.told =
        (Command.prepare s source).problems.map Diagnostic.told := by
  unfold Playground.compile Command.prepare
  rcases tokenize source [] with ⟨tokens, log⟩
  -- Whether the warnings are promoted matters to neither program nor report when nothing was read.
  have unread : ∀ log : Log,
      log.items.map Diagnostic.told =
        (if s.warningsAsErrors then log.promoteWarnings else log).items.map Diagnostic.told := by
    intro log
    split
    · exact log.told_promoteWarnings.symm
    · rfl
  cases lexed : log.hasErrors with
  | true => simpa [lexed] using unread log
  | false =>
    cases parsed : Program.read tokens with
    | error d => simpa [lexed, parsed] using unread (log.report d)
    | ok p =>
      -- Here both keep one log, the findings of the check included.
      have together : ∀ judged : Log,
          (if judged.hasErrors then (⟨none, judged.items⟩ : Playground.Compiled)
            else if s.optimize then ⟨some (p.optimize s.optimizeRounds).program, judged.items⟩
            else ⟨some p, judged.items⟩) =
          ⟨(if judged.hasErrors then none else some p).map s.finished, judged.items⟩ := by
        intro judged
        cases judged.hasErrors with
        | true => rfl
        | false => cases optimizing : s.optimize <;> simp [Settings.finished, optimizing]
      simp only [lexed, parsed, Bool.false_eq_true, if_false, Option.map_some, together]
      cases s.analyze <;> exact ⟨rfl, rfl⟩

namespace Command.Task

variable (t : Task)

theorem notes_append (first second : List Text) :
    t.notes (first ++ second) = t.notes first ++ t.notes second := by
  unfold notes
  split
  · exact List.flatMap_append
  · rfl

/-- On the way to the program the problems are told, and nothing else but notes. -/
theorem program_eq : ∃ before behind,
    t.program = ((prepare t.settings t.source).program.map t.settings.finished,
      t.notes before ++ t.printed (prepare t.settings t.source).problems ++ t.notes behind) := by
  unfold program
  rcases prepare t.settings t.source with ⟨found, globals, problems⟩
  refine ⟨(globals.map fun env =>
    Text.ofString "semantic: globals:\n" ++ env.debugText).toList, ?_⟩
  cases found with
  | none =>
    refine ⟨[], ?_⟩
    cases globals <;> simp [notes]
  | some program =>
    -- Only a program that is optimized has notes behind its problems.
    refine ⟨if t.settings.optimize then (program.optimize t.settings.optimizeRounds).log else [],
      ?_⟩
    cases globals <;> cases optimizing : t.settings.optimize <;>
      simp [notes, Settings.finished, optimizing]

/-- What the command writes to standard error tells of problems, of `first` and then of `second`: in
their order, of each on a line of its own, with notes before, between and behind. -/
def Reports (first second : List Diagnostic) (stderr : Text) : Prop :=
  ∃ line : Diagnostic → Text, (∀ d : Diagnostic, d.Tells t.file (line d)) ∧ ∃ before between behind,
    stderr = t.notes before ++ first.flatMap line ++ t.notes between ++ second.flatMap line ++
      t.notes behind

/-- The problem that ends the run of the script, when there is something to run and it fails. -/
def failure (patience : Nat) : List Diagnostic :=
  match (prepare t.settings t.source).program.map t.settings.finished with
  | none => []
  | some p => (p.run (t.settings.limits patience) {}).problem?.toList

/-- A run tells what was found on the way to the program, and then the problem that ends it. -/
theorem reports_of_run {patience : Nat} {all : Bool} {o : Outcome}
    (ended : t.run patience all = some o) :
    t.Reports (prepare t.settings t.source).problems (t.failure patience) o.stderr := by
  obtain ⟨before, behind, taken⟩ := t.program_eq
  refine ⟨Diagnostic.printed t.color t.file, Diagnostic.tells_printed t.color t.file, ?_⟩
  unfold run at ended
  unfold failure
  rw [taken] at ended
  cases found : (prepare t.settings t.source).program.map t.settings.finished with
  | none =>
    rw [found] at ended
    cases ended
    exact ⟨before, behind, [], by simp [notes, printed, Diagnostic.printedAll]⟩
  | some p =>
    rw [found] at ended
    dsimp only at ended
    split at ended
    · cases ended
    · cases ended
      simp only [List.append_assoc, ← t.notes_append]
      exact ⟨before, _, _, rfl⟩

/-- What the command shows of an answer: the result on a line of its own. -/
def shown (a : Playground.Answer) : Text :=
  match a.result with
  | some text => text ++ "\n"
  | none => []

/-- The command ends with the status of the answer that the playground gives, and shows its result
when the script ran to its end. -/
theorem map_run (patience : Nat) :
    (t.run patience false).map (fun o => (o.code, o.stdout)) =
      (Playground.Answer.ofCompiled? (t.settings.limits patience)
        (Playground.compile t.settings t.source) false).map fun a =>
          if a.completed then (0, shown a) else (1, []) := by
  obtain ⟨program, -⟩ := compile_prepare t.settings t.source
  obtain ⟨before, behind, taken⟩ := t.program_eq
  unfold run Playground.Answer.ofCompiled?
  rw [taken, program]
  cases (prepare t.settings t.source).program.map t.settings.finished with
  | none => rfl
  | some p =>
    dsimp only
    generalize p.run (t.settings.limits patience) {} = o
    split
    · rfl
    · obtain ⟨m, fault⟩ := o
      cases fault with
      | none => cases m.result <;> simp [shown]
      | some fault => simp

/-- The answer of the playground reports what the command reports, however grave. -/
theorem told_answer {patience : Nat} {a : Playground.Answer}
    (answered : Playground.Answer.ofCompiled? (t.settings.limits patience)
      (Playground.compile t.settings t.source) false = some a) :
    ((prepare t.settings t.source).problems ++ t.failure patience).map Diagnostic.told =
      a.problems.map Diagnostic.told := by
  obtain ⟨program, report⟩ := compile_prepare t.settings t.source
  unfold Playground.Answer.ofCompiled? at answered
  unfold failure
  rw [program] at answered
  cases found : (prepare t.settings t.source).program.map t.settings.finished with
  | none =>
    rw [found] at answered
    cases answered
    simpa using report.symm
  | some p =>
    rw [found] at answered
    dsimp only at answered
    split at answered
    · cases answered
    · cases answered
      rw [List.map_append, List.map_append, report]

end Command.Task

/-- A script with a warning in it, which both report before they give its value. -/
def warnedTask : Command.Task where
  settings := {}
  verbose := false
  color := false
  file := Text.ofString "sum.num"
  source := Text.ofString "let unused = 1;\nconst Let = 2;\nLet * 3;"

end NumScript
