import NumScript.Proofs.Run.Outcomes

/-! Two runs side by side. A `Comparison` says which states of the two runs belong together, which
faults do, and which tokens and expressions of their programs; `Comparison.Kept` asks of the single
steps that they keep this. Then the runs of programs that are the same statement by statement keep
it too, however their statements are nested. -/

namespace NumScript

theorem Option.eq_of_rel {α : Type} {a b : Option α} (h : Option.Rel Eq a b) : a = b := by
  cases h with
  | none => rfl
  | some same => rw [same]

/-- How two runs are compared. -/
structure Comparison where
  /-- The states of the two at the same point. -/
  states : Machine → Machine → Prop
  /-- The faults that end them. -/
  faults : Fault → Fault → Prop := Eq
  /-- A fault that cuts the second one off. The first may go on, and nothing is asked of it. -/
  cut : Fault → Prop := fun _ => False
  tokens : Token → Token → Prop := Eq
  values : Expression → Expression → Prop := Eq

namespace Comparison

/-- The two outcomes belong together, or the second run has been cut off. -/
inductive Outcomes (c : Comparison) (o o' : Outcome) : Prop
  | same : c.states o.machine o'.machine → Option.Rel c.faults o.fault o'.fault → c.Outcomes o o'
  | cut {fault : Fault} : o'.fault = some fault → c.cut fault → c.Outcomes o o'

/-- From states that belong together two pieces of runs come to outcomes that do. -/
def Holds (c : Comparison) (f f' : Machine → Outcome) : Prop :=
  ∀ m m', c.states m m' → c.Outcomes (f m) (f' m')

/-- What two expressions come to: the same number, or problems that belong together. -/
inductive Results (c : Comparison) : Except Diagnostic Float → Except Diagnostic Float → Prop
  | value (v : Float) : c.Results (.ok v) (.ok v)
  | problem {d d' : Diagnostic} : c.faults (.problem d) (.problem d') →
      c.Results (.error d) (.error d')

/-- The steps that are told alike on both sides. -/
inductive Notes (c : Comparison) : Event → Event → Prop
  | enterBlock {brace brace' : Token} : c.tokens brace brace' →
      c.Notes (.enterBlock brace.line) (.enterBlock brace'.line)
  | value {e e' : Expression} (v : Float) : c.values e e' →
      c.Notes (.value e.line e.text v) (.value e'.line e'.text v)
  | branch {keyword keyword' : Token} {e e' : Expression} (v : Float) :
      c.tokens keyword keyword' → c.values e e' →
      c.Notes (.branch keyword.line e.text v) (.branch keyword'.line e'.text v)

/-- Scopes that are opened in states that belong together, and left again. -/
def Opens (c : Comparison) (limits limits' : Limits) (kind kind' : ScopeKind) : Prop :=
  ∀ m m', c.states m m' → c.states (limits.entered kind m) (limits'.entered kind' m') ∧
    ∀ n n', c.states n n' → c.states (limits.left m n) (limits'.left m' n')

/-- The single steps of two runs keep what is compared. -/
structure Steps (c : Comparison) (limits limits' : Limits) : Prop where
  evaluate : ∀ {m m' e e'}, c.states m m' → c.values e e' →
    c.states (m.evaluate e.tree).2 (m'.evaluate e'.tree).2 ∧
      c.Results (m.evaluate e.tree).1 (m'.evaluate e'.tree).1
  note : ∀ {m m' event event'}, c.states m m' → c.Notes event event' →
    c.states (m.note event) (m'.note event')
  store : ∀ {m m'} (v : Float), c.states m m' →
    c.states { m with result := some v } { m' with result := some v }
  opens : ∀ kind, c.Opens limits limits' kind kind
  declare : ∀ {keyword keyword' name name'} (value : Option Float), c.tokens keyword keyword' →
    c.tokens name name' →
    c.Holds (fun m => m.declare keyword name value) (fun m => m.declare keyword' name' value)
  assign : ∀ {name name'} (v : Float), c.tokens name name' →
    c.Holds (fun m => m.assign name v) (fun m => m.assign name' v)
  allow : ∀ {keyword keyword'}, c.tokens keyword keyword' →
    c.Holds (limits.allow keyword) (limits'.allow keyword')

/-- Two runs keep what is compared: their steps do, and a loop is given up on both sides after as
many rounds, or earlier in the second run when that cuts it off. -/
structure Kept (c : Comparison) (limits limits' : Limits) : Prop extends
    c.Steps limits limits' where
  exhausted : c.faults .exhausted .exhausted
  rounds : limits.rounds = limits'.rounds ∨ limits'.rounds ≤ limits.rounds ∧ c.cut .exhausted

variable {c : Comparison} {limits limits' : Limits} {m m' : Machine} {o o' : Outcome}
  {f f' next next' : Machine → Outcome} {e e' : Expression}

theorem Outcomes.ended (h : c.states m m') : c.Outcomes ⟨m, none⟩ ⟨m', none⟩ := .same h .none

theorem Outcomes.failed (h : c.states m m') {fault fault' : Fault}
    (faults : c.faults fault fault') : c.Outcomes ⟨m, some fault⟩ ⟨m', some fault'⟩ :=
  .same h (.some faults)

/-- Two runs that end through the same fault, if any. -/
theorem Outcomes.alike (refl : ∀ fault, c.faults fault fault) (h : c.states m m')
    (fault : Option Fault) : c.Outcomes ⟨m, fault⟩ ⟨m', fault⟩ := by
  cases fault with
  | none => exact .ended h
  | some fault => exact .failed h (refl fault)

theorem Results.refl (refl : ∀ fault, c.faults fault fault) (r : Except Diagnostic Float) :
    c.Results r r := by
  cases r with
  | ok v => exact .value v
  | error d => exact .problem (refl (.problem d))

/-- Where the second run has not been cut off, outcomes are compared in full. -/
theorem Outcomes.uncut (h : c.Outcomes o o')
    (free : ∀ fault, o'.fault = some fault → ¬ c.cut fault) :
    c.states o.machine o'.machine ∧ Option.Rel c.faults o.fault o'.fault := by
  cases h with
  | same states faults => exact ⟨states, faults⟩
  | cut failed cut => exact absurd cut (free _ failed)

/-! ### Pieces of runs -/

theorem Outcomes.andThen (first : c.Outcomes o o') (second : c.Holds next next') :
    c.Outcomes (o.andThen next) (o'.andThen next') := by
  obtain ⟨n, fault⟩ := o
  obtain ⟨n', fault'⟩ := o'
  cases first with
  | same states faults =>
    cases faults with
    | none => exact second n n' states
    | some faults => exact .failed states faults
  | cut failed cut =>
    cases failed
    exact .cut rfl cut

theorem Holds.andThen (first : c.Holds f f') (second : c.Holds next next') :
    c.Holds (fun m => (f m).andThen next) (fun m => (f' m).andThen next') :=
  fun m m' states => (first m m' states).andThen second

theorem Holds.within {kind kind' : ScopeKind} (inside : c.Holds f f')
    (opens : c.Opens limits limits' kind kind') :
    c.Holds (limits.within kind f) (limits'.within kind' f') := by
  intro m m' states
  obtain ⟨entered, left⟩ := opens m m' states
  rw [Limits.within_eq, Limits.within_eq]
  cases inside _ _ entered with
  | same states faults => exact .same (left _ _ states) faults
  | cut failed cut => exact .cut failed cut

namespace Steps

theorem withValue (h : c.Steps limits limits') (value : c.values e e')
    {next next' : Float → Machine → Outcome} (later : ∀ v, c.Holds (next v) (next' v)) :
    c.Holds (fun m => m.withValue e next) (fun m => m.withValue e' next') := by
  intro m m' states
  obtain ⟨after, results⟩ := h.evaluate states value
  simp only [Machine.withValue]
  revert after results
  rcases m.evaluate e.tree with ⟨r, n⟩
  rcases m'.evaluate e'.tree with ⟨r', n'⟩
  intro after results
  cases results with
  | value v => exact later v n n' after
  | problem faults => exact .failed after faults

theorem iterate (h : c.Steps limits limits') {keyword keyword' : Token}
    (loop : c.tokens keyword keyword') (value : c.values e e') (body : c.Holds f f')
    (exhausted : c.faults .exhausted .exhausted) {fuel fuel' : Nat}
    (rounds : fuel = fuel' ∨ fuel' ≤ fuel ∧ c.cut .exhausted) :
    c.Holds (limits.iterate keyword e f fuel) (limits'.iterate keyword' e' f' fuel') := by
  induction fuel' generalizing fuel with
  | zero =>
    rcases rounds with rfl | ⟨-, cut⟩
    · exact fun m m' states => .failed states exhausted
    · exact fun m m' states => .cut rfl cut
  | succ fuel' ih =>
    obtain ⟨fuel, rfl⟩ : ∃ k, fuel = k + 1 := ⟨fuel - 1, by omega⟩
    rw [Limits.iterate_succ, Limits.iterate_succ]
    refine h.withValue value fun v m m' states => ?_
    split
    · exact .ended states
    · have fewer : fuel = fuel' ∨ fuel' ≤ fuel ∧ c.cut .exhausted :=
        rounds.imp Nat.succ.inj (And.imp_left Nat.le_of_succ_le_succ)
      have round := (h.allow loop).andThen ((body.within (h.opens .loop)).andThen (ih fewer))
      exact round m m' states

end Steps

/-! ### Comparisons without histories -/

/-- Histories are not compared. -/
def Untold (c : Comparison) : Prop :=
  ∀ m m' event event', c.states m m' → c.states (m.note event) (m'.note event')

/-- What becomes of two changes of environments: both are made, or both refused. -/
inductive Changes (c : Comparison) (m m' : Machine) :
    Except Diagnostic Env → Except Diagnostic Env → Prop
  | made {env env' : Env} : c.states { m with env := env } { m' with env := env' } →
      c.Changes m m' (.ok env) (.ok env')
  | refused {d d' : Diagnostic} : c.faults (.problem d) (.problem d') →
      c.Changes m m' (.error d) (.error d')

theorem Untold.declare (untold : c.Untold) {keyword keyword' name name' : Token}
    (same : Program.isConst keyword = Program.isConst keyword') {value : Option Float}
    (states : c.states m m')
    (changes : c.Changes m m' (m.env.declare (name.symbol (Program.isConst keyword) value))
      (m'.env.declare (name'.symbol (Program.isConst keyword) value))) :
    c.Outcomes (m.declare keyword name value) (m'.declare keyword' name' value) := by
  generalize left : m.env.declare _ = r, right : m'.env.declare _ = r' at changes
  rw [same] at right
  cases changes with
  | made after =>
    obtain ⟨event, ran⟩ := Machine.declare_of_ok left
    obtain ⟨event', ran'⟩ := Machine.declare_of_ok right
    rw [ran, ran']
    exact .ended (untold _ _ event event' after)
  | refused faults =>
    rw [Machine.declare_of_error left, Machine.declare_of_error right]
    exact .failed states faults

theorem Untold.assign (untold : c.Untold) {name name' : Token} {v : Float}
    (states : c.states m m')
    (changes : c.Changes m m' (m.env.assign name.lexeme v name.position)
      (m'.env.assign name'.lexeme v name'.position)) :
    c.Outcomes (m.assign name v) (m'.assign name' v) := by
  generalize left : m.env.assign _ _ _ = r, right : m'.env.assign _ _ _ = r' at changes
  cases changes with
  | made after =>
    rw [Machine.assign_of_ok left, Machine.assign_of_ok right]
    exact .ended (untold _ _ _ _ after)
  | refused faults =>
    rw [Machine.assign_of_error left, Machine.assign_of_error right]
    exact .failed (untold _ _ _ _ states) faults

/-! ### Statements -/

namespace Kept

variable {body body' rest rest' : Program} {keyword keyword' name name' brace brace' : Token}

theorem runDone : c.Holds (Program.run limits .done) (Program.run limits' .done) :=
  fun _ _ states => .ended states

theorem runBlock (h : c.Kept limits limits') (opening : c.tokens brace brace')
    (hBody : c.Holds (body.run limits) (body'.run limits'))
    (hRest : c.Holds (rest.run limits) (rest'.run limits')) :
    c.Holds (Program.run limits (.block brace body rest))
      (Program.run limits' (.block brace' body' rest')) :=
  fun _ _ states =>
    (hBody.within (h.opens .block)).andThen hRest _ _ (h.note states (.enterBlock opening))

theorem runDeclare (h : c.Kept limits limits') {value value' : Option Expression}
    (keywords : c.tokens keyword keyword') (names : c.tokens name name')
    (values : Option.Rel c.values value value')
    (hRest : c.Holds (rest.run limits) (rest'.run limits')) :
    c.Holds (Program.run limits (.declare keyword name value rest))
      (Program.run limits' (.declare keyword' name' value' rest')) := by
  cases values with
  | none => exact (h.declare none keywords names).andThen hRest
  | some value =>
    exact (h.withValue value fun v => h.declare (some v) keywords names).andThen hRest

theorem runAssign (h : c.Kept limits limits') (names : c.tokens name name')
    (value : c.values e e') (hRest : c.Holds (rest.run limits) (rest'.run limits')) :
    c.Holds (Program.run limits (.assign name e rest))
      (Program.run limits' (.assign name' e' rest')) :=
  (h.withValue value fun v => h.assign v names).andThen hRest

theorem runExpression (h : c.Kept limits limits') (value : c.values e e')
    (hRest : c.Holds (rest.run limits) (rest'.run limits')) :
    c.Holds (Program.run limits (.expression e rest))
      (Program.run limits' (.expression e' rest')) := by
  refine (h.withValue value fun v m m' states => ?_).andThen hRest
  exact .ended (h.note (h.store v states) (.value v value))

theorem runIfThen (h : c.Kept limits limits') (brace brace' : Token)
    (keywords : c.tokens keyword keyword') (value : c.values e e')
    (hBody : c.Holds (body.run limits) (body'.run limits'))
    (hRest : c.Holds (rest.run limits) (rest'.run limits')) :
    c.Holds (Program.run limits (.ifThen keyword e brace body rest))
      (Program.run limits' (.ifThen keyword' e' brace' body' rest')) := by
  refine (h.withValue value fun v m m' states => ?_).andThen hRest
  have noted := h.note states (.branch v keywords value)
  dsimp only
  split
  · exact hBody.within (h.opens .branch) _ _ noted
  · exact .ended noted

theorem runIfElse (h : c.Kept limits limits') (brace brace' elseBrace elseBrace' : Token)
    {elseBody elseBody' : Program} (keywords : c.tokens keyword keyword') (value : c.values e e')
    (hBody : c.Holds (body.run limits) (body'.run limits'))
    (hElse : c.Holds (elseBody.run limits) (elseBody'.run limits'))
    (hRest : c.Holds (rest.run limits) (rest'.run limits')) :
    c.Holds (Program.run limits (.ifElse keyword e brace body elseBrace elseBody rest))
      (Program.run limits' (.ifElse keyword' e' brace' body' elseBrace' elseBody' rest')) := by
  refine (h.withValue value fun v m m' states => ?_).andThen hRest
  have noted := h.note states (.branch v keywords value)
  dsimp only
  split
  · exact hBody.within (h.opens .branch) _ _ noted
  · exact hElse.within (h.opens .branch) _ _ noted

theorem runLoop (h : c.Kept limits limits') (brace brace' : Token)
    (keywords : c.tokens keyword keyword') (value : c.values e e')
    (hBody : c.Holds (body.run limits) (body'.run limits'))
    (hRest : c.Holds (rest.run limits) (rest'.run limits')) :
    c.Holds (Program.run limits (.loop keyword e brace body rest))
      (Program.run limits' (.loop keyword' e' brace' body' rest')) :=
  (h.iterate keywords value hBody h.exhausted h.rounds).andThen hRest

end Kept

/-! ### Programs -/

/-- The programs are the same statement by statement, with tokens and expressions that belong
together. -/
inductive Pairs (c : Comparison) : Program → Program → Prop
  | done : c.Pairs .done .done
  | block {brace brace' : Token} {body body' rest rest' : Program} :
      c.tokens brace brace' → c.Pairs body body' → c.Pairs rest rest' →
      c.Pairs (.block brace body rest) (.block brace' body' rest')
  | declare {keyword keyword' name name' : Token} {value value' : Option Expression}
      {rest rest' : Program} :
      c.tokens keyword keyword' → c.tokens name name' → Option.Rel c.values value value' →
      c.Pairs rest rest' →
      c.Pairs (.declare keyword name value rest) (.declare keyword' name' value' rest')
  | assign {name name' : Token} {value value' : Expression} {rest rest' : Program} :
      c.tokens name name' → c.values value value' → c.Pairs rest rest' →
      c.Pairs (.assign name value rest) (.assign name' value' rest')
  | expression {value value' : Expression} {rest rest' : Program} :
      c.values value value' → c.Pairs rest rest' →
      c.Pairs (.expression value rest) (.expression value' rest')
  | ifThen {keyword keyword' brace brace' : Token} {condition condition' : Expression}
      {body body' rest rest' : Program} :
      c.tokens keyword keyword' → c.values condition condition' → c.Pairs body body' →
      c.Pairs rest rest' →
      c.Pairs (.ifThen keyword condition brace body rest)
        (.ifThen keyword' condition' brace' body' rest')
  | ifElse {keyword keyword' brace brace' elseBrace elseBrace' : Token}
      {condition condition' : Expression} {body body' elseBody elseBody' rest rest' : Program} :
      c.tokens keyword keyword' → c.values condition condition' → c.Pairs body body' →
      c.Pairs elseBody elseBody' → c.Pairs rest rest' →
      c.Pairs (.ifElse keyword condition brace body elseBrace elseBody rest)
        (.ifElse keyword' condition' brace' body' elseBrace' elseBody' rest')
  | loop {keyword keyword' brace brace' : Token} {condition condition' : Expression}
      {body body' rest rest' : Program} :
      c.tokens keyword keyword' → c.values condition condition' → c.Pairs body body' →
      c.Pairs rest rest' →
      c.Pairs (.loop keyword condition brace body rest)
        (.loop keyword' condition' brace' body' rest')

/-- When their steps keep what is compared, programs that are the same statement by statement do. -/
theorem Kept.run (h : c.Kept limits limits') {p p' : Program} (pairs : c.Pairs p p') :
    c.Holds (p.run limits) (p'.run limits') := by
  induction pairs with
  | done => exact runDone
  | block opening _ _ ihBody ihRest => exact h.runBlock opening ihBody ihRest
  | declare keywords names values _ ihRest => exact h.runDeclare keywords names values ihRest
  | assign names value _ ihRest => exact h.runAssign names value ihRest
  | expression value _ ihRest => exact h.runExpression value ihRest
  | ifThen keywords value _ _ ihBody ihRest => exact h.runIfThen _ _ keywords value ihBody ihRest
  | ifElse keywords value _ _ _ ihBody ihElse ihRest =>
    exact h.runIfElse _ _ _ _ keywords value ihBody ihElse ihRest
  | loop keywords value _ _ ihBody ihRest => exact h.runLoop _ _ keywords value ihBody ihRest

/-- A program beside itself. -/
theorem pairs_self (tokens : ∀ t, c.tokens t t) (values : ∀ e, c.values e e) (p : Program) :
    c.Pairs p p := by
  induction p with
  | done => exact .done
  | block brace _ _ ihBody ihRest => exact .block (tokens brace) ihBody ihRest
  | declare keyword name value _ ihRest =>
    refine .declare (tokens keyword) (tokens name) ?_ ihRest
    cases value with
    | none => exact .none
    | some e => exact .some (values e)
  | assign name value _ ihRest => exact .assign (tokens name) (values value) ihRest
  | expression value _ ihRest => exact .expression (values value) ihRest
  | ifThen keyword condition _ _ _ ihBody ihRest =>
    exact .ifThen (tokens keyword) (values condition) ihBody ihRest
  | ifElse keyword condition _ _ _ _ _ ihBody ihElse ihRest =>
    exact .ifElse (tokens keyword) (values condition) ihBody ihElse ihRest
  | loop keyword condition _ _ _ ihBody ihRest =>
    exact .loop (tokens keyword) (values condition) ihBody ihRest

end Comparison

end NumScript
