import Mathlib.Data.List.Basic
import Mathlib.Logic.Function.Basic
import NumScript.Proofs.Diagnostic.Log

/-! Calls on several logs, in any order. Beside the logs stand plain sequences of problems, which
know no queue and no count. A call appends to them, clears them, moves them or promotes what is in
them; each log keeps to its sequence, so no reply can tell the two apart. -/

namespace NumScript

namespace Shelf

/-- A call on one of `count` logs, each known by its number. -/
inductive Call (count : Nat) where
  | report (target : Fin count) (problem : Option Diagnostic)
  | items (target : Fin count)
  | drain (target : Fin count)
  /-- There may be no log to take the problems from, and it may be the target itself. -/
  | merge (target : Fin count) (source : Option (Fin count))
  | firstError (target : Fin count)
  | promoteWarnings (target : Fin count)
  | hasErrors (target : Fin count)

/-- What a call answers. -/
inductive Reply where
  | done
  | problems (found : List Diagnostic)
  | problem (found : Option Diagnostic)
  | verdict (holds : Bool)

variable {count : Nat}

/-- Makes a call. Whatever reads a log leaves it with a queue that has gone round. -/
def perform (shelf : Shelf) : Call count → Reply × Shelf
  | .report i problem => (.done, shelf.modify i (·.report? problem))
  | .items i => (.problems (shelf.log i).items, shelf.set i (shelf.log i).read.2)
  | .drain i => (.problems (shelf.log i).drain.1, shelf.set i (shelf.log i).drain.2)
  | .merge _ none => (.done, shelf)
  | .merge i (some source) => (.done, shelf.merge i source)
  | .firstError i => (.problem (shelf.log i).firstError?, shelf.set i (shelf.log i).read.2)
  | .promoteWarnings i => (.done, shelf.modify i Log.promoteWarnings)
  | .hasErrors i => (.verdict (shelf.log i).hasErrors, shelf)

/-- Makes calls one after the other. -/
def run (shelf : Shelf) : List (Call count) → List Reply × Shelf
  | [] => ([], shelf)
  | call :: rest =>
    let (reply, shelf) := shelf.perform call
    let (replies, shelf) := run shelf rest
    (reply :: replies, shelf)

end Shelf

open NumScript.Shelf (Call Reply)

/-- Plain sequences of problems, as many as there are logs. -/
abbrev Sequences (count : Nat) := Fin count → List Diagnostic

namespace Sequences

variable {count : Nat}

/-- What a call makes of plain sequences. -/
def perform (s : Sequences count) : Call count → Reply × Sequences count
  | .report i problem => (.done, Function.update s i (s i ++ problem.toList))
  | .items i => (.problems (s i), s)
  | .drain i => (.problems (s i), Function.update s i [])
  | .merge _ none => (.done, s)
  | .merge i (some source) =>
    (.done, if i = source then s
      else Function.update (Function.update s i (s i ++ s source)) source [])
  | .firstError i => (.problem ((s i).find? fun d => d.severity = .error), s)
  | .promoteWarnings i =>
    (.done, Function.update s i ((s i).map fun d => { d with severity := .error }))
  | .hasErrors i => (.verdict (∃ d ∈ s i, d.severity = .error), s)

/-- What calls make of plain sequences, one after the other. -/
def run (s : Sequences count) : List (Call count) → List Reply × Sequences count
  | [] => ([], s)
  | call :: rest =>
    let (reply, s) := s.perform call
    let (replies, s) := run s rest
    (reply :: replies, s)

end Sequences

namespace Shelf

variable {count : Nat} {shelf : Shelf} {s : Sequences count}

/-! ### One log of a shelf -/

theorem log_set {i : Nat} (opened : i < shelf.length) (log : Log) (j : Nat) :
    Shelf.log (shelf.set i log) j = if i = j then log else shelf.log j := by
  unfold Shelf.log
  by_cases same : i = j
  · subst same
    rw [List.getElem?_set_self opened, if_pos rfl]
    rfl
  · rw [List.getElem?_set_ne same, if_neg same]

theorem modify_eq_set {i : Nat} (opened : i < shelf.length) (f : Log → Log) :
    shelf.modify i f = shelf.set i (f (shelf.log i)) := by
  have here : shelf.log i = shelf[i] := by
    rw [Shelf.log, List.getElem?_eq_getElem opened, Option.getD_some]
  rw [here]
  exact List.modify_eq_set_get f opened

/-! ### Logs and sequences -/

/-- Every log holds its sequence and has counted the errors in it. -/
structure Holds (shelf : Shelf) (s : Sequences count) : Prop where
  length : shelf.length = count
  items (i : Fin count) : (shelf.log i).items = s i
  exact (i : Fin count) : (shelf.log i).Exact

namespace Holds

theorem opened (h : Holds shelf s) (i : Fin count) : i < shelf.length := h.length ▸ i.isLt

/-- One log is replaced by another, and its sequence by what that one holds. -/
theorem set (h : Holds shelf s) (i : Fin count) {log : Log} (exact : log.Exact) :
    Holds (shelf.set i log) (Function.update s i log.items) where
  length := by rw [List.length_set, h.length]
  items j := by
    rw [log_set (h.opened i)]
    by_cases same : i = j
    · rw [if_pos (congrArg Fin.val same), ← same, Function.update_self]
    · rw [if_neg (Fin.val_ne_of_ne same), Function.update_of_ne (Ne.symm same), h.items j]
  exact j := by
    rw [log_set (h.opened i)]
    split
    · exact exact
    · exact h.exact j

theorem modify (h : Holds shelf s) (i : Fin count) {f : Log → Log}
    (exact : (f (shelf.log i)).Exact) :
    Holds (shelf.modify i f) (Function.update s i (f (shelf.log i)).items) := by
  rw [modify_eq_set (h.opened i)]
  exact h.set i exact

/-- Reading leaves a log as it was. -/
theorem read (h : Holds shelf s) (i : Fin count) :
    Holds (shelf.set i (shelf.log i).read.2) s := by
  have next := h.set i (h.exact i)
  rw [h.items i, Function.update_eq_self] at next
  rw [Log.read_eq]
  exact next

theorem report (h : Holds shelf s) (i : Fin count) (problem : Option Diagnostic) :
    Holds (shelf.modify i (·.report? problem))
      (Function.update s i (s i ++ problem.toList)) := by
  cases problem with
  | none =>
    have next := h.modify i (f := (·.report? none)) (h.exact i)
    rwa [Log.report?, h.items i, ← List.append_nil (s i)] at next
  | some d =>
    have next := h.modify i (f := (·.report? (some d))) ((h.exact i).report d)
    rwa [Log.report?, Log.items_report, h.items i] at next

theorem drained (h : Holds shelf s) (i : Fin count) : (shelf.log i).drain.1 = s i := by
  rw [← h.items i, Log.items_eq, Log.drain]

theorem drain (h : Holds shelf s) (i : Fin count) :
    Holds (shelf.set i (shelf.log i).drain.2) (Function.update s i []) :=
  h.set i Log.exact_empty

/-- The source is empty before the target takes what it held, so a log that is merged with itself
gets back what it had. -/
theorem merge (h : Holds shelf s) (i source : Fin count) :
    Holds (shelf.merge i source)
      (if i = source then s
        else Function.update (Function.update s i (s i ++ s source)) source []) := by
  have emptied := h.drain source
  have next := emptied.modify i (f := (·.reportAll (s source))) ((emptied.exact i).reportAll _)
  rw [Log.items_reportAll, emptied.items i] at next
  rw [Shelf.merge]
  dsimp only
  rw [h.drained source]
  split
  · rename_i same
    subst same
    rwa [Function.update_self, List.nil_append, Function.update_idem,
      Function.update_eq_self] at next
  · rename_i other
    rwa [Function.update_of_ne other, Function.update_comm (Ne.symm other)] at next

theorem promoteWarnings (h : Holds shelf s) (i : Fin count) :
    Holds (shelf.modify i Log.promoteWarnings)
      (Function.update s i ((s i).map fun d => { d with severity := .error })) := by
  have next := h.modify i (h.exact i).promoteWarnings
  rw [Log.items_promoteWarnings, h.items i] at next
  exact next

theorem hasErrors_iff (h : Holds shelf s) (i : Fin count) :
    (shelf.log i).hasErrors = true ↔ ∃ d ∈ s i, d.severity = .error := by
  rw [(h.exact i).hasErrors_iff, h.items i]

theorem firstError?_eq (h : Holds shelf s) (i : Fin count) :
    (shelf.log i).firstError? = (s i).find? fun d => d.severity = .error := by
  rw [Log.firstError?, h.items i]
  rfl

/-- A call has the reply that the sequences give, and logs and sequences go on together. -/
theorem perform (h : Holds shelf s) (call : Call count) :
    (shelf.perform call).1 = (s.perform call).1 ∧
      Holds (shelf.perform call).2 (s.perform call).2 := by
  cases call with
  | report i problem => exact ⟨rfl, h.report i problem⟩
  | items i => exact ⟨congrArg Reply.problems (h.items i), h.read i⟩
  | drain i => exact ⟨congrArg Reply.problems (h.drained i), h.drain i⟩
  | merge i source =>
    cases source with
    | none => exact ⟨rfl, h⟩
    | some source => exact ⟨rfl, h.merge i source⟩
  | firstError i => exact ⟨congrArg Reply.problem (h.firstError?_eq i), h.read i⟩
  | promoteWarnings i => exact ⟨rfl, h.promoteWarnings i⟩
  | hasErrors i =>
    refine ⟨congrArg Reply.verdict ?_, h⟩
    rw [Bool.eq_iff_iff, h.hasErrors_iff i, decide_eq_true_iff]

/-- Along any calls the replies are those of the sequences. -/
theorem run (h : Holds shelf s) (calls : List (Call count)) :
    (shelf.run calls).1 = (s.run calls).1 ∧ Holds (shelf.run calls).2 (s.run calls).2 := by
  induction calls generalizing shelf s with
  | nil => exact ⟨rfl, h⟩
  | cons call rest ih =>
    obtain ⟨reply, next⟩ := h.perform call
    obtain ⟨replies, last⟩ := ih next
    exact ⟨congrArg₂ List.cons reply replies, last⟩

end Holds

theorem holds_replicate (count : Nat) :
    Holds (List.replicate count {}) fun _ : Fin count => [] := by
  have empty (i : Fin count) : Shelf.log (List.replicate count {}) i = {} := by
    rw [Shelf.log, List.getElem?_replicate_of_lt i.isLt, Option.getD_some]
  exact
    { length := List.length_replicate
      items := fun i => by rw [empty i]; rfl
      exact := fun i => by rw [empty i]; exact Log.exact_empty }

/-- Logs are plain sequences of problems. Whatever is called on any number of empty logs, every
call has the reply that the plain sequences give, and then each log holds its sequence, finds the
first error of it and has errors exactly when there is one in it. -/
theorem run_sequences (count : Nat) (calls : List (Call count)) :
    let replies := (Shelf.run (List.replicate count {}) calls).1
    let shelf := (Shelf.run (List.replicate count {}) calls).2
    let s := (Sequences.run (fun _ => []) calls).2
    replies = (Sequences.run (fun _ => []) calls).1 ∧
    ∀ i : Fin count, (shelf.log i).items = s i ∧
      (shelf.log i).firstError? = (s i).find? (fun d => d.severity = .error) ∧
      ((shelf.log i).hasErrors = true ↔ ∃ d ∈ s i, d.severity = .error) := by
  obtain ⟨replies, holds⟩ := (holds_replicate count).run calls
  exact ⟨replies, fun i => ⟨holds.items i, holds.firstError?_eq i, holds.hasErrors_iff i⟩⟩

end Shelf

end NumScript
