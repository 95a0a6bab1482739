import NumScript.Proofs.Env.Moving
import NumScript.Proofs.Run.Ending

/-! Running scripts one after the other. What a script leaves behind is all that the next one
depends on, and the place of a script shows in nothing but the lines that its problems tell. So a
script that goes on where another has ended does what it does as the second part of one script. -/

namespace NumScript

variable {shift : Shift}

/-- The same state, in which each symbol may be moved. The history does not count. -/
structure Machine.Moves (shift : Shift) (m m' : Machine) : Prop where
  env : m.env.Moves shift m'.env
  result : m'.result = m.result
  iterations : m'.iterations = m.iterations

/-- The same end of a run, through the same problem further down if there is one. -/
inductive Fault.Moves (shift : Shift) : Fault → Fault → Prop
  | problem {d d' : Diagnostic} : d.Moves shift d' → Moves shift (.problem d) (.problem d')
  | exhausted : Moves shift .exhausted .exhausted

structure Outcome.Moves (shift : Shift) (o o' : Outcome) : Prop where
  machine : o.machine.Moves shift o'.machine
  fault : Option.Rel (Fault.Moves shift) o.fault o'.fault

theorem Machine.Moves.refl (m : Machine) : m.Moves shift m := ⟨.refl m.env, rfl, rfl⟩

theorem Machine.Moves.note {m m' : Machine} (h : m.Moves shift m') (e e' : Event) :
    (m.note e).Moves shift (m'.note e') :=
  ⟨h.env, h.result, h.iterations⟩

namespace Outcome.Moves

variable {o o' : Outcome}

theorem exhausted_iff (h : o.Moves shift o') :
    o'.fault = some .exhausted ↔ o.fault = some .exhausted := by
  rcases Option.rel_cases h.fault with ⟨left, right⟩ | ⟨x, y, left, right, fault⟩
  · rw [left, right]
  · rw [left, right]
    cases fault <;> simp

theorem problem? (h : o.Moves shift o') :
    Option.Rel (Diagnostic.Moves shift) o.problem? o'.problem? := by
  unfold Outcome.problem?
  rcases Option.rel_cases h.fault with ⟨left, right⟩ | ⟨x, y, left, right, fault⟩
  · rw [left, right]
    exact .none
  · rw [left, right]
    cases fault with
    | problem problem => exact .some problem
    | exhausted => exact .none

end Outcome.Moves

/-! ### The same program further down -/

/-- A run beside one of the same program further down. -/
def Comparison.moving (shift : Shift) : Comparison where
  states := Machine.Moves shift
  faults := Fault.Moves shift
  tokens t t' := t' = t.moved shift
  values e e' := e' = e.moved shift

namespace Comparison

variable {m m' : Machine}

theorem untold_moving : (moving shift).Untold :=
  fun _ _ event event' same => same.note event event'

theorem changes_moving (same : m.Moves shift m') {r r' : Except Diagnostic Env}
    (step : Env.ChangeMoves shift r r') : (moving shift).Changes m m' r r' := by
  obtain ⟨d, d', rfl, rfl, problem⟩ | ⟨env, env', rfl, rfl, changed⟩ := step
  · exact .refused (.problem problem)
  · exact .made ⟨changed, same.result, same.iterations⟩

theorem moving_kept (shift : Shift) (limits : Limits) : (moving shift).Kept limits limits where
  evaluate := by
    rintro m m' e _ same rfl
    obtain ⟨env, env', after, ⟨d, left, right⟩ | ⟨v, left, right⟩⟩ :=
      Tree.evaluateIn_moves same.env e.tree
    · simp only [Machine.evaluate, Expression.moved, left, right]
      exact ⟨⟨after, same.result, same.iterations⟩, .problem (.problem (.line d))⟩
    · simp only [Machine.evaluate, Expression.moved, left, right]
      exact ⟨⟨after, same.result, same.iterations⟩, .value v⟩
  note same _ := same.note _ _
  store v same := ⟨same.env, rfl, same.iterations⟩
  opens := by
    refine fun kind m m' same => ⟨⟨?_, same.result, same.iterations⟩, fun n n' inside => ?_⟩
    · simp only [Limits.entered, Limits.enter]
      split
      · exact same.env.child kind
      · exact same.env.copy kind
    · refine ⟨?_, inside.result, inside.iterations⟩
      simp only [Limits.left, Limits.leave]
      split
      · exact inside.env.tail
      · exact same.env
  declare := by
    rintro keyword _ name _ value rfl rfl m m' same
    have keywords : Program.isConst keyword = Program.isConst (keyword.moved shift) := rfl
    refine untold_moving.declare keywords same (changes_moving same ?_)
    exact same.env.declare (name.symbol (Program.isConst keyword) value)
  assign := by
    rintro name _ v rfl m m' same
    refine untold_moving.assign same (changes_moving same ?_)
    exact same.env.assign name.lexeme v name.position
  allow := by
    rintro keyword _ rfl m m' same
    have spent : limits.spent m' = limits.spent m := by
      simp only [Limits.spent, same.iterations]
    unfold Limits.allow
    rw [spent]
    split
    · exact .failed same (.problem (.line (limits.exceeded keyword)))
    · exact .ended ⟨same.env, same.result, congrArg (· + 1) same.iterations⟩
  exhausted := .exhausted
  rounds := .inl rfl

theorem moving_pairs (shift : Shift) (p : Program) : (moving shift).Pairs p (p.moved shift) := by
  induction p with
  | done => exact .done
  | block _ _ _ ihBody ihRest => exact .block rfl ihBody ihRest
  | declare _ _ value _ ihRest =>
    cases value with
    | none => exact .declare rfl rfl .none ihRest
    | some e => exact .declare rfl rfl (.some rfl) ihRest
  | assign _ _ _ ihRest => exact .assign rfl rfl ihRest
  | expression _ _ ihRest => exact .expression rfl ihRest
  | ifThen _ _ _ _ _ ihBody ihRest => exact .ifThen rfl rfl ihBody ihRest
  | ifElse _ _ _ _ _ _ _ ihBody ihElse ihRest => exact .ifElse rfl rfl ihBody ihElse ihRest
  | loop _ _ _ _ _ ihBody ihRest => exact .loop rfl rfl ihBody ihRest

end Comparison

/-- A program does the same further down. -/
theorem Program.run_moves (shift : Shift) (limits : Limits) (p : Program) {m m' : Machine}
    (same : m.Moves shift m') :
    (p.run limits m).Moves shift ((p.moved shift).run limits m') := by
  obtain ⟨machine, fault⟩ :=
    ((Comparison.moving_kept shift limits).run (Comparison.moving_pairs shift p) m m' same).uncut
      fun _ _ => id
  exact ⟨machine, fault⟩

/-! ### Programs in turn -/

theorem Outcome.andThen_assoc (o : Outcome) (next later : Machine → Outcome) :
    (o.andThen next).andThen later = o.andThen fun m => (next m).andThen later := by
  unfold Outcome.andThen
  cases stopped : o.fault <;> simp [stopped]

namespace Program

variable {limits : Limits} {start m : Machine} {p q : Program} {o : Outcome}

/-- The statements of one program followed by those of another run one after the other. -/
theorem run_append (limits : Limits) (p q : Program) (m : Machine) :
    (p.append q).run limits m = (p.run limits m).andThen (q.run limits) := by
  induction p generalizing m with
  | done => rfl
  | block _ _ rest _ ih | declare _ _ _ rest ih | assign _ _ rest ih | expression _ rest ih
  | ifThen _ _ _ _ rest _ ih | ifElse _ _ _ _ _ _ rest _ _ ih | loop _ _ _ _ rest _ ih =>
    have later : (rest.append q).run limits = fun m => (rest.run limits m).andThen (q.run limits) :=
      funext ih
    simp only [append, run, later, Outcome.andThen_assoc]

/-- Behind a program that has succeeded, another one does what it does from the state left. -/
theorem Ends.append_iff (succeeds : p.Ends limits start ⟨m, none⟩) :
    (p.append q).Ends limits start o ↔ q.Ends limits m o := by
  obtain ⟨ended, enough, first⟩ := succeeds
  constructor
  · rintro ⟨finished, patience, together⟩
    rw [run_append] at together
    -- The first program cannot have been given up, or the run would not have ended.
    have taken : (p.run { limits with patience := patience } start).fault ≠ some .exhausted := by
      intro given
      rw [Outcome.andThen, given] at together
      rw [← together] at finished
      exact finished given
    have same : p.run { limits with patience := patience } start = ⟨m, none⟩ :=
      Ends.unique ⟨taken, patience, rfl⟩ ⟨ended, enough, first⟩
    rw [same] at together
    exact ⟨finished, patience, together⟩
  · rintro ⟨finished, patience, second⟩
    -- The two runs may need different patience, and more of it changes neither.
    refine ⟨finished, max enough patience, ?_⟩
    have before := p.run_patience { limits with patience := enough }
      (Nat.le_max_left enough patience) start (by rw [first]; exact ended)
    have behind := q.run_patience { limits with patience := patience }
      (Nat.le_max_right enough patience) m (by rw [second]; exact finished)
    rw [run_append]
    simp only at before behind
    rw [before, first]
    exact behind.trans second

/-- A program ends further down as it ends by itself. -/
theorem Ends.moved (shift : Shift) (h : q.Ends limits m o) :
    ∃ o', (q.moved shift).Ends limits m o' ∧ o.Moves shift o' := by
  obtain ⟨finished, patience, rfl⟩ := h
  have moves := q.run_moves shift { limits with patience := patience } (.refl m)
  exact ⟨_, ⟨fun given => finished (moves.exhausted_iff.mp given), patience, rfl⟩, moves⟩

theorem Ends.of_moved {shift : Shift} (h : (q.moved shift).Ends limits m o) :
    ∃ o', q.Ends limits m o' ∧ o'.Moves shift o := by
  obtain ⟨finished, patience, rfl⟩ := h
  have moves := q.run_moves shift { limits with patience := patience } (.refl m)
  exact ⟨_, ⟨fun given => finished (moves.exhausted_iff.mpr given), patience, rfl⟩, moves⟩

end Program

/-- What is seen of two outcomes is the same: the result, the number of iterations, the values by
their names, and the problem, which the second tells further down. -/
structure Outcome.Restates (shift : Shift) (o o' : Outcome) : Prop where
  result : o'.machine.result = o.machine.result
  iterations : o'.machine.iterations = o.machine.iterations
  snapshot : o'.machine.env.snapshot = o.machine.env.snapshot
  problem : Option.Rel (Diagnostic.Moves shift) o.problem? o'.problem?

theorem Outcome.Moves.restates {o o' : Outcome} (h : o.Moves shift o') : o.Restates shift o' :=
  ⟨h.machine.result, h.machine.iterations, h.machine.env.snapshot, h.problem?⟩

/-- Two scripts in turn and one script. The two scripts with a line feed between them have no
errors and are read to a program. Where the first one succeeds, that program ends as the second one
does, moved behind the first, in the state that the first one has left; and it shows what the
second one shows there, but for the places that its problem tells. -/
theorem run_joined {first second file : Text} {p q : Program}
    (clean : (tokenize first file).2.hasErrors = false)
    (reads : Program.read (tokenize first file).1 = .ok p)
    (clean' : (tokenize second file).2.hasErrors = false)
    (reads' : Program.read (tokenize second file).1 = .ok q) :
    let shift := Shift.behind first
    let whole := tokenize (first ++ Piece.newline :: second) file
    whole.2.hasErrors = false ∧ ∃ joined, Program.read whole.1 = .ok joined ∧
      ∀ (limits : Limits) (start m : Machine), p.Ends limits start ⟨m, none⟩ →
        (∀ o, joined.Ends limits start o ↔ (q.moved shift).Ends limits m o) ∧
        (∀ o, q.Ends limits m o → ∃ o', joined.Ends limits start o' ∧ o.Restates shift o') ∧
        ∀ o', joined.Ends limits start o' → ∃ o, q.Ends limits m o ∧ o.Restates shift o' := by
  intro shift whole
  obtain ⟨tokens, errors⟩ := tokenize_newline second file clean
  refine ⟨errors.trans clean', p.append (q.moved shift), ?_, ?_⟩
  · rw [show whole.1 = _ from tokens]
    exact Program.read_append reads (Program.read_moved shift reads')
  · intro limits start m succeeds
    have joins : ∀ o, (p.append (q.moved shift)).Ends limits start o ↔
        (q.moved shift).Ends limits m o := fun o => succeeds.append_iff
    refine ⟨joins, ?_, ?_⟩
    · intro o ends
      obtain ⟨o', ends', moves⟩ := ends.moved shift
      exact ⟨o', (joins o').mpr ends', moves.restates⟩
    · intro o' ends
      obtain ⟨o, ends', moves⟩ := ((joins o').mp ends).of_moved
      exact ⟨o, ends', moves.restates⟩

/-- A script with a comment on its first line. -/
def constantScript : Text := Text.ofString "let x = 2; // half\nconst y = x * 2;"

/-- A script that goes on with it and, after a loop, fails at its constant. -/
def changingScript : Text := Text.ofString "while (x < 5) \x7b x = x + 1; \x7d\nx; y = 1;"

/-- The problem stands on the second line of the second script and on the fourth of the two. -/
theorem run_joined_constant : ∃ (q joined : Program) (m : Machine) (o o' : Outcome),
    Program.read (tokenize changingScript []).1 = .ok q ∧ q.Ends {} m o ∧
      Program.read (tokenize (constantScript ++ Piece.newline :: changingScript) []).1 =
        .ok joined ∧
      joined.Ends {} {} o' ∧ o.Restates (.behind constantScript) o' ∧
      o.problem?.map Diagnostic.line = some 2 ∧ o'.problem?.map Diagnostic.line = some 4 := by
  have runs : (match Program.read (tokenize constantScript []).1,
        Program.read (tokenize changingScript []).1 with
      | .ok p, .ok q => decide ((p.run {} {}).fault = none ∧
        (q.run {} (p.run {} {}).machine).problem?.map Diagnostic.line = some 2)
      | _, _ => false) = true := by decide +kernel
  cases reads : Program.read (tokenize constantScript []).1 with
  | error d => simp [reads] at runs
  | ok p =>
    cases reads' : Program.read (tokenize changingScript []).1 with
    | error d => simp [reads, reads'] at runs
    | ok q =>
      rw [reads, reads'] at runs
      obtain ⟨succeeds, line⟩ := of_decide_eq_true runs
      have ends : p.Ends {} {} ⟨(p.run {} {}).machine, none⟩ :=
        ⟨by simp, 0, by rw [← succeeds]⟩
      have ends' : q.Ends {} (p.run {} {}).machine (q.run {} (p.run {} {}).machine) := by
        refine ⟨?_, 0, rfl⟩
        intro given
        simp [Outcome.problem?, given] at line
      obtain ⟨-, joined, whole, shows⟩ :=
        run_joined (by decide +kernel) reads (by decide +kernel) reads'
      obtain ⟨o', ends'', restates⟩ := (shows {} {} _ ends).2.1 _ ends'
      refine ⟨q, joined, _, _, o', rfl, ends', whole, ends'', restates, line, ?_⟩
      rcases Option.rel_cases restates.problem with ⟨left, -⟩ | ⟨d, d', left, right, moves⟩
      · simp [left] at line
      · have lines : (Shift.behind constantScript).lines = 2 := by decide
        rw [left, Option.map_some, Option.some.injEq] at line
        rw [right, Option.map_some, moves.line_eq, line, lines]
        rfl

end NumScript
