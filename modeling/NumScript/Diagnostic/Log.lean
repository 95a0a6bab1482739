import NumScript.Diagnostic

/-! A log collects problems in the order of their reports and keeps count of the errors among
them. The problems stand in a queue, so reading them lets the queue go round once. -/

namespace NumScript

/-- Problems in the order they were reported, with the number of errors among them. -/
structure Log where
  /-- The problems, of which only the one in front can be taken; others are added at the end. -/
  queue : List Diagnostic := []
  errors : Nat := 0
  deriving DecidableEq, Repr

namespace Log

/-- Adds one problem at the end. -/
def report (log : Log) (d : Diagnostic) : Log :=
  { queue := log.queue ++ [d], errors := if d.isError then log.errors + 1 else log.errors }

/-- Adds a problem if there is one. -/
def report? (log : Log) : Option Diagnostic → Log
  | some d => log.report d
  | none => log

def reportAll (log : Log) (ds : List Diagnostic) : Log := ds.foldl report log

def hasErrors (log : Log) : Bool := 0 < log.errors

def length (log : Log) : Nat := log.queue.length

/-- Takes `count` problems from the front of a queue, one after the other, and puts each back at the
end. Answers them in this order, and the queue as it is then. -/
def goRound : Nat → List Diagnostic → List Diagnostic × List Diagnostic
  | 0, queue => ([], queue)
  | _ + 1, [] => ([], [])
  | count + 1, d :: rest =>
    let (passed, queue) := goRound count (rest ++ [d])
    (d :: passed, queue)

/-- Reads the problems by letting the whole queue go round. -/
def read (log : Log) : List Diagnostic × Log :=
  let (passed, queue) := goRound log.length log.queue
  (passed, { log with queue := queue })

/-- The problems in the order they were reported. -/
def items (log : Log) : List Diagnostic := log.read.1

/-- The first error. -/
def firstError? (log : Log) : Option Diagnostic := log.items.find? Diagnostic.isError

/-- Takes every problem out of the log. -/
def drain (log : Log) : List Diagnostic × Log := (log.queue, {})

/-- Moves the problems of `other` behind those of `log`. -/
def append (log other : Log) : Log := log.reportAll other.items

/-- Turns every warning into an error, and counts it with the errors. -/
def promoteWarnings (log : Log) : Log :=
  let (found, log) := log.read
  { queue := log.queue.map Diagnostic.promote
    errors := log.errors + (found.filter fun d => d.severity = .warning).length }

end Log

/-- Several logs, known by their numbers. -/
abbrev Shelf := List Log

namespace Shelf

/-- The log with a number; one that was never opened is empty. -/
def log (shelf : Shelf) (i : Nat) : Log := shelf[i]?.getD {}

/-- Empties log `source` and then adds what it held to log `target`, which may be the same one. -/
def merge (shelf : Shelf) (target source : Nat) : Shelf :=
  let (moved, emptied) := (shelf.log source).drain
  (shelf.set source emptied).modify target (·.reportAll moved)

end Shelf

end NumScript
