import NumScript.Diagnostic.Log

/-! What reading a log tells, and the count of errors in it. Reading lets the queue go round, which
leaves every problem in its place. Reporting problems and turning warnings into errors keep the
count equal to the number of errors that are there, so a log has errors exactly when one of its
problems is one. -/

namespace NumScript.Log

/-! ### Reading -/

theorem goRound_append (front back : List Diagnostic) :
    goRound front.length (front ++ back) = (front, back ++ front) := by
  induction front generalizing back with
  | nil => simp [goRound]
  | cons d rest ih =>
    have next := ih (back ++ [d])
    rw [← List.append_assoc] at next
    rw [List.length_cons, List.cons_append, goRound, next]
    simp

/-- Behind a whole round every problem is in its place again. -/
theorem read_eq (log : Log) : log.read = (log.queue, log) := by
  have round := goRound_append log.queue []
  rw [List.append_nil, List.nil_append] at round
  simp only [read, length, round]

theorem items_eq (log : Log) : log.items = log.queue := congrArg Prod.fst log.read_eq

theorem items_promoteWarnings (log : Log) :
    log.promoteWarnings.items = log.items.map Diagnostic.promote := by
  simp only [items_eq, promoteWarnings, read_eq]

theorem items_report (log : Log) (d : Diagnostic) : (log.report d).items = log.items ++ [d] := by
  rw [items_eq, items_eq, report]

theorem items_reportAll (log : Log) (problems : List Diagnostic) :
    (log.reportAll problems).items = log.items ++ problems := by
  induction problems generalizing log with
  | nil => simp [reportAll]
  | cons d rest ih =>
    have next := ih (log.report d)
    rw [items_report, List.append_assoc, List.singleton_append] at next
    exact next

/-! ### The count -/

/-- As many errors have been counted as are there. -/
def Exact (log : Log) : Prop := log.errors = log.items.countP Diagnostic.isError

theorem exact_empty : Exact {} := rfl

namespace Exact

variable {log : Log}

theorem report (h : log.Exact) (d : Diagnostic) : (log.report d).Exact := by
  unfold Exact at h ⊢
  rw [items_report, List.countP_append, List.countP_singleton, ← h, Log.report]
  split <;> rfl

theorem reportAll (h : log.Exact) (problems : List Diagnostic) : (log.reportAll problems).Exact :=
  List.foldlRecOn problems Log.report h fun _ h d _ => h.report d

/-- What was no error was a warning, and has been counted when it became one. -/
theorem promoteWarnings (h : log.Exact) : log.promoteWarnings.Exact := by
  have all : (log.items.map Diagnostic.promote).countP Diagnostic.isError = log.items.length := by
    rw [List.countP_map]
    exact List.countP_eq_length.mpr fun d _ => rfl
  have warnings : (log.items.filter fun d => d.severity = .warning).length =
      log.items.countP fun d => ¬ d.isError := by
    rw [← List.countP_eq_length_filter]
    refine List.countP_congr fun d _ => ?_
    cases same : d.severity <;> simp [Diagnostic.isError, same]
  have counted : log.promoteWarnings.errors =
      log.errors + (log.items.filter fun d => d.severity = .warning).length := by
    rw [Log.promoteWarnings, items, read_eq]
  rw [Exact, counted, items_promoteWarnings, all, warnings, h, ← List.length_eq_countP_add_countP]

theorem hasErrors_eq (h : log.Exact) : log.hasErrors = log.items.any Diagnostic.isError := by
  rw [hasErrors, h, Bool.eq_iff_iff, decide_eq_true_iff, List.countP_pos_iff, List.any_eq_true]

theorem hasErrors_iff (h : log.Exact) :
    log.hasErrors = true ↔ ∃ d ∈ log.items, d.severity = .error := by
  rw [h.hasErrors_eq, List.any_eq_true]
  simp only [Diagnostic.isError, decide_eq_true_iff]

end Exact

end NumScript.Log
