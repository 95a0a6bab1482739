import NumScript.Proofs.Check.Meeting
import NumScript.Proofs.Check.Soundness
import NumScript.Proofs.Env.Reads
import NumScript.Proofs.Run.Isolating

/-! Names that are reported as never read. A run reads a name of a block from any depth inside the
block and any number of times, but never from outside; so when it comes to the end of the block, it
has read no other names of the block than the check, which has been through all statements inside
once. What the check then reports as unused, no run has read. -/

namespace NumScript

namespace Env

/-- The environment of a run has the outline of that of a check, and nothing has been read in it
beyond `bound`. -/
structure Covered (bound : Nat → Text → Prop) (env known : Env) : Prop where
  outline : env.outline = known.outline
  used : ∀ level name, env.UsedAt level name → bound level name

/-- Nothing has been read beyond `bound`. -/
def Bounded (bound : Nat → Text → Prop) (env : Env) : Prop :=
  ∀ level name, env.UsedAt level name → bound level name

/-- What a check has read in its innermost scope, and `outer` for the scopes around it. -/
def bound (known : Env) (outer : Nat → Text → Prop) : Nat → Text → Prop
  | 0 => known.UsedAt 0
  | level + 1 => outer level

/-- Around its innermost scope, a check has read nothing beyond `outer`. -/
def Fits (outer : Nat → Text → Prop) (known : Env) : Prop :=
  ∀ level name, known.UsedAt (level + 1) name → outer level name

end Env

/-- What a run may have read when it comes to the statement and the check is in state `c`. In a
loop it may have read what the check reads in the whole loop; other statements with statements
inside may be treated alike. -/
def Program.bound (p : Program) (c : Checker) (outer : Nat → Text → Prop) : Nat → Text → Prop :=
  if p.nests then (p.first.check c).env.bound outer else c.env.bound outer

/-- Unless the run has ended, its environment is covered. -/
def Outcome.Covered (o : Outcome) (bound : Nat → Text → Prop) (known : Env) : Prop :=
  o.Satisfies (fun m => Env.Covered bound m.env known) fun _ _ => True

variable {outer bound bound' : Nat → Text → Prop}

/-! ### Environments -/

namespace Env

variable {env known : Env}

theorem Fits.of_later {known' : Env} (h : known'.Fits outer)
    (stays : ∀ level name, known.UsedAt (level + 1) name → known'.UsedAt (level + 1) name) :
    known.Fits outer :=
  fun level name used => h level name (stays level name used)

theorem Fits.bounded (h : known.Fits outer) : known.Bounded (known.bound outer) := by
  intro level name used
  cases level with
  | zero => exact used
  | succ level => exact h level name used

theorem bound_mono {known' : Env} (stays : ∀ name, known.UsedAt 0 name → known'.UsedAt 0 name)
    (level : Nat) (name : Text) (within : known.bound outer level name) :
    known'.bound outer level name := by
  cases level with
  | zero => exact stays name within
  | succ level => exact within

namespace Covered

theorem mono (h : Covered bound env known)
    (grows : ∀ level name, bound level name → bound' level name) : Covered bound' env known :=
  ⟨h.outline, fun level name used => grows level name (h.used level name used)⟩

theorem congr {known' : Env} (h : Covered bound env known) (same : known'.outline = known.outline) :
    Covered bound env known' :=
  ⟨h.outline.trans same.symm, h.used⟩

theorem marked (h : Covered bound env known) (names : List Text)
    (top : (known.marked names).Bounded bound) :
    Covered bound (env.marked names) (known.marked names) where
  outline := by rw [outline_marked, outline_marked, h.outline]
  used level name used := by
    rcases usedAt_of_marked h.outline used with before | now
    · exact h.used level name before
    · exact top level name now

theorem child (h : Covered bound env known) (kind : ScopeKind) :
    Covered ((known.child kind).bound bound) (env.child kind) (known.child kind) where
  outline := congrArg (Scope.outline { kind := kind } :: ·) h.outline
  used level name used := by
    cases level with
    | zero => exact absurd used (not_usedAt_child kind env name)
    | succ level =>
      rw [Env.child, usedAt_cons_succ] at used
      exact h.used level name used

theorem tail (h : Covered (known.bound bound) env known) : Covered bound env.tail known.tail where
  outline := by rw [outline_tail, outline_tail, h.outline]
  used level name used := h.used (level + 1) name ((usedAt_tail env level name).mp used)

/-- What the run declares, the check declares, and both take away the same mark. -/
theorem declare (h : Covered (known.bound outer) env known) (sym sym' : Symbol)
    (name : sym.name = sym'.name) (constant : sym.constant = sym'.constant)
    (fresh : sym.used = false) (fresh' : sym'.used = false) {env' : Env}
    (declared : env.declare sym = .ok env') :
    ∃ known', known.declare sym' = .ok known' ∧ Covered (known'.bound outer) env' known' := by
  obtain ⟨known', declared', same⟩ :
      ∃ known', known.declare sym' = .ok known' ∧ env'.outline = known'.outline := by
    have whole := h.outline
    cases env with
    | nil =>
      obtain rfl : known = [] := List.map_eq_nil_iff.mp whole.symm
      cases declared
      exact ⟨[], rfl, rfl⟩
    | cons scope around =>
      obtain ⟨scope', around', rfl, here, below⟩ := List.map_eq_cons_iff.mp whole.symm
      obtain ⟨free, rfl⟩ := declare_cons_eq_ok_iff.mp declared
      have constants : scope'.constants = scope.constants := congrArg Prod.snd here
      refine ⟨_, declare_cons_eq_ok_iff.mpr ⟨by rwa [constants, ← name], rfl⟩, ?_⟩
      exact congrArg₂ List.cons (Scope.outline_extended here.symm name constant) below.symm
  refine ⟨known', declared', same, fun level other used => ?_⟩
  obtain ⟨before, apart⟩ := (UsedAt.declare fresh declared level other).mp used
  cases level with
  | zero =>
    show known'.UsedAt 0 other
    rw [UsedAt.declare fresh' declared', ← name]
    exact ⟨h.used 0 other before, apart⟩
  | succ level => exact h.used (level + 1) other before

theorem assign (h : Covered (known.bound outer) env known) {name : Text} {v w : Float}
    {place : Position} {env' : Env} (assigned : env.assign name v place = .ok env') :
    ∃ known', known.assign name w place = .ok known' ∧
      Covered (known'.bound outer) env' known' := by
  have same := constancy_congr h.outline name
  unfold constancy at same
  unfold Env.assign at assigned ⊢
  cases found : env.resolve? name with
  | none =>
    have found' : known.resolve? name = none := by simpa [found] using same.symm
    simp only [found] at assigned
    simp only [found']
    refine h.declare _ _ ?_ ?_ ?_ ?_ assigned <;> rfl
  | some sym =>
    rw [found, Option.map_some] at same
    obtain ⟨sym', found', constant⟩ := Option.map_eq_some_iff.mp same.symm
    simp only [found, found', constant] at assigned ⊢
    by_cases refused : sym.constant = true
    · simp [refused] at assigned
    · rw [if_neg refused] at assigned ⊢
      cases assigned
      refine ⟨_, rfl, ?_, fun level other used => ?_⟩
      · exact (outline_bind name v env).trans (h.outline.trans (outline_bind name w known).symm)
      · have before := h.used level other (UsedAt.bind.mp used)
        exact bound_mono (fun _ => UsedAt.bind.mpr) level other before

end Covered

end Env

/-! ### Expressions and blocks -/

theorem Machine.env_of_evaluate {m m' : Machine} {e : Expression} {v : Float}
    (shaped : e.tree.WellShaped) (value : m.evaluate e.tree = (.ok v, m')) :
    m'.env = m.env.marked (namesOf e.tree.leaves) := by
  unfold evaluate at value
  rcases Tree.evaluateIn_meaning shaped m.env with
    ⟨read, d, -, same⟩ | ⟨-, ⟨read, d, -, same⟩ | ⟨-, w, -, same⟩⟩
  · rw [same] at value
    cases value
  · rw [same] at value
    cases value
  · rw [same] at value
    cases value
    rfl

namespace Checker

theorem env_expression (c : Checker) (e : Expression) :
    (c.expression e).env = c.env.marked (namesOf e.tree.leaves) := by
  rw [expression_eq]

theorem usedAt_expression (c : Checker) (e : Expression) (level : Nat) (name : Text)
    (used : c.env.UsedAt level name) : (c.expression e).env.UsedAt level name := by
  rw [env_expression]
  exact Env.UsedAt.marked used _

theorem env_within (kind : ScopeKind) (body : Program) (c : Checker) :
    (within kind body.check c).env = (body.check (c.entered kind)).env.tail := by
  rw [within_eq]

/-- Around a block nothing is taken away. -/
theorem usedAt_within (kind : ScopeKind) (body : Program) (c : Checker) (level : Nat) (name : Text)
    (used : c.env.UsedAt level name) : (within kind body.check c).env.UsedAt level name := by
  rw [env_within, Env.usedAt_tail]
  apply Env.kept_used.check body (c.entered kind)
  exact (Env.usedAt_cons_succ _ c.env level name).mpr used

/-! What holds of all that has been read after a statement held of all that was read in front. -/

theorem bounded_of_within {kind : ScopeKind} {body : Program} {c : Checker}
    (h : (within kind body.check c).env.Bounded bound) : c.env.Bounded bound :=
  fun level name used => h level name (c.usedAt_within kind body level name used)

theorem fits_of_check (p : Program) {c : Checker} (h : (p.check c).env.Fits outer) :
    c.env.Fits outer :=
  h.of_later (Env.kept_used.check p c)

/-- What a block reads around it, the check of the block has read. -/
theorem fits_inside {kind : ScopeKind} {body : Program} {c : Checker}
    (top : (within kind body.check c).env.Bounded bound) :
    (body.check (c.entered kind)).env.Fits bound := by
  intro level name used
  apply top
  rw [env_within, Env.usedAt_tail]
  exact used

end Checker

theorem Env.Covered.evaluate {m m' : Machine} {c : Checker} {e : Expression} {v : Float}
    (h : Covered bound m.env c.env) (shaped : e.tree.WellShaped)
    (value : m.evaluate e.tree = (.ok v, m'))
    (top : (c.expression e).env.Bounded bound) :
    Covered bound m'.env (c.expression e).env := by
  rw [Checker.env_expression] at top ⊢
  rw [Machine.env_of_evaluate shaped value]
  exact h.marked _ top

theorem Env.Covered.decided {m m' : Machine} {c : Checker} {keyword : Token}
    {condition : Expression} {holds : Bool} (h : Covered bound m.env c.env)
    (shaped : condition.tree.WellShaped) (decides : m.Decides keyword condition holds m')
    (top : (c.expression condition).env.Bounded bound) :
    Covered bound m'.env (c.expression condition).env := by
  obtain ⟨v, m₁, value, -, rfl⟩ := decides
  have computed := h.evaluate shaped value top
  exact computed

theorem Env.Covered.round {limits : Limits} {m m' : Machine} {c : Checker} {keyword : Token}
    {condition : Expression} (h : Covered bound m.env c.env) (shaped : condition.tree.WellShaped)
    (round : limits.GoesRound keyword condition m m')
    (top : (c.expression condition).env.Bounded bound) :
    Covered bound m'.env (c.expression condition).env := by
  obtain ⟨v, m₁, value, -, -, rfl⟩ := round
  have computed := h.evaluate shaped value top
  exact computed

namespace Outcome.Covered

variable {o : Outcome} {m : Machine} {c : Checker} {known known' : Env}

theorem andThen {next : Machine → Outcome} (first : o.Covered bound known)
    (second : ∀ m, Env.Covered bound m.env known → (next m).Covered bound' known') :
    (o.andThen next).Covered bound' known' :=
  Satisfies.andThen first second

theorem congr (h : o.Covered bound known) (same : known'.outline = known.outline) :
    o.Covered bound known' :=
  h.mono (fun _ covered => covered.congr same) fun _ _ => id

theorem withValue {e : Expression} {next : Float → Machine → Outcome}
    (h : Env.Covered bound m.env c.env) (shaped : e.tree.WellShaped)
    (top : (c.expression e).env.Bounded bound)
    (later : ∀ v m', Env.Covered bound m'.env (c.expression e).env →
      (next v m').Covered bound' known) : (m.withValue e next).Covered bound' known :=
  Satisfies.withValue (fun _ _ _ => trivial) fun v m' value =>
    later v m' (h.evaluate shaped value top)

/-- A statement starts with its expression. -/
theorem startingWith {e : Expression} {next : Float → Machine → Outcome}
    (h : Env.Covered (c.env.bound outer) m.env c.env) (shaped : e.tree.WellShaped)
    (read : (c.expression e).env.Fits outer)
    (later : ∀ v m', Env.Covered ((c.expression e).env.bound outer) m'.env (c.expression e).env →
      (next v m').Covered bound' known) : (m.withValue e next).Covered bound' known :=
  withValue (h.mono (Env.bound_mono (c.usedAt_expression e 0))) shaped read.bounded later

theorem declare (h : Env.Covered (c.env.bound outer) m.env c.env) (keyword name : Token)
    (value : Option Float) (hasValue : Bool) :
    (m.declare keyword name value).Covered ((c.declare keyword name hasValue).env.bound outer)
      (c.declare keyword name hasValue).env := by
  refine Satisfies.declare (fun _ _ => trivial) fun env event declared => ?_
  let own : Symbol := name.symbol (Program.isConst keyword) value
  let sym : Symbol := name.symbol (Program.isConst keyword) (if hasValue then some 0 else none)
  obtain ⟨known', checked, covered⟩ := h.declare own sym rfl rfl rfl rfl declared
  have same : (c.declare keyword name hasValue).env = known' := by
    unfold Checker.declare
    dsimp only
    split
    · change (Checker.change _ (c.env.declare sym)).env = known'
      rw [checked]
      rfl
    · change (Checker.change _ (c.env.declare sym)).env = known'
      rw [checked]
      rfl
  rw [same]
  exact covered

theorem assign (h : Env.Covered (c.env.bound outer) m.env c.env) (name : Token) (v : Float) :
    (m.assign name v).Covered
      ((c.change (c.env.assign name.lexeme 0 name.position)).env.bound outer)
      (c.change (c.env.assign name.lexeme 0 name.position)).env := by
  refine Satisfies.assign (fun _ _ _ => trivial) fun env event assigned => ?_
  obtain ⟨known', checked, covered⟩ := h.assign (w := 0) assigned
  rw [checked]
  exact covered

end Outcome.Covered

/-! ### Runs -/

namespace Program

/-- Where the run of the program comes to its end, its environment is covered again. -/
def StaysCovered (limits : Limits) (p : Program) : Prop :=
  ∀ m c outer, (p.check c).env.Fits outer → Env.Covered (p.bound c outer) m.env c.env →
    (p.run limits m).Covered ((p.check c).env.bound outer) (p.check c).env

theorem usedAt_first {p : Program} (nests : p.nests = true) (c : Checker) (level : Nat)
    (name : Text) (used : c.env.UsedAt level name) : (p.first.check c).env.UsedAt level name := by
  cases p with
  | done | declare | assign | expression => cases nests
  | block brace body rest => exact c.usedAt_within .block body level name used
  | ifThen keyword condition brace body rest =>
    apply Checker.usedAt_within
    exact c.usedAt_expression condition level name used
  | ifElse keyword condition brace body elseBrace elseBody rest =>
    apply Checker.usedAt_within
    apply Checker.usedAt_within
    exact c.usedAt_expression condition level name used
  | loop keyword condition brace body rest =>
    apply Checker.usedAt_within
    exact c.usedAt_expression condition level name used

theorem covered_bound (p : Program) {env : Env} {c : Checker}
    (h : Env.Covered (c.env.bound outer) env c.env) : Env.Covered (p.bound c outer) env c.env := by
  unfold Program.bound
  split
  · rename_i nests
    exact h.mono (Env.bound_mono (usedAt_first nests c 0))
  · exact h

end Program

namespace Env.Covered

variable {limits : Limits} {m inner : Machine} {c : Checker}

theorem entered (h : Env.Covered bound m.env c.env) (chain : limits.scoping = .chain)
    (kind : ScopeKind) (body : Program) :
    Env.Covered (body.bound (c.entered kind) bound) (limits.entered kind m).env
      (c.entered kind).env := by
  apply body.covered_bound
  rw [Limits.entered, Limits.enter, chain]
  exact h.child kind

theorem left {kind : ScopeKind} {body : Program}
    (h : Env.Covered ((body.check (c.entered kind)).env.bound bound) inner.env
      (body.check (c.entered kind)).env) (chain : limits.scoping = .chain) (m : Machine) :
    Env.Covered bound (limits.left m inner).env (Checker.within kind body.check c).env := by
  rw [Checker.env_within, Limits.left, Limits.leave, chain]
  exact h.tail

/-- The innermost scope of a run has the names of that of the check, and no others of them have
been read. -/
theorem innermost {env around' : Env} {scope' : Scope}
    (h : Env.Covered (Env.bound (scope' :: around') outer) env (scope' :: around')) :
    ∃ scope around, env = scope :: around ∧ scope.names = scope'.names ∧
      ∀ name, scope.Used name → scope'.Used name := by
  obtain ⟨scope, around, known, here, -⟩ := List.map_eq_cons_iff.mp h.outline
  refine ⟨scope, around, known, Scope.names_congr here, fun name used => ?_⟩
  have shown : Env.UsedAt (scope' :: around') 0 name := by
    apply h.used 0 name
    rw [known, Env.usedAt_cons_zero]
    exact used
  rwa [Env.usedAt_cons_zero] at shown

end Env.Covered

namespace Outcome.Covered

variable {limits : Limits} {m : Machine} {c : Checker} {body : Program}

theorem within (chain : limits.scoping = .chain) (kind : ScopeKind)
    (inside : body.StaysCovered limits) (h : Env.Covered bound m.env c.env)
    (top : (Checker.within kind body.check c).env.Bounded bound) :
    (limits.within kind (body.run limits) m).Covered bound
      (Checker.within kind body.check c).env := by
  have covered := inside _ _ bound (Checker.fits_inside top) (h.entered chain kind body)
  exact Satisfies.within (covered.mono (fun _ inner => inner.left chain m) fun _ _ => id)

theorem iterate (chain : limits.scoping = .chain) (keyword : Token) {condition : Expression}
    (shaped : condition.tree.WellShaped) (inside : body.StaysCovered limits)
    (top : (Checker.within .loop body.check (c.expression condition)).env.Bounded bound)
    (fuel : Nat) (h : Env.Covered bound m.env c.env) :
    (limits.iterate keyword condition (body.run limits) fuel m).Covered bound
      (Checker.within .loop body.check (c.expression condition)).env := by
  have left := Checker.outline_within .loop body (c.expression condition)
  have read := Env.reading_outline.checkExpression c condition
  -- Every round starts from the outline that the check had in front of the loop.
  refine Satisfies.iterate
    (fun covered later => withValue covered shaped (Checker.bounded_of_within top) later)
    (fun m' covered => covered.congr left) (fun m' covered => ?_)
    (fun m' covered => (within chain .loop inside covered top).congr (by rw [left, read]))
    (fun _ _ => trivial) fuel h
  unfold Limits.allow
  split
  · trivial
  · exact covered

end Outcome.Covered

namespace Program

variable {limits : Limits}

theorem StaysCovered.after {o : Outcome} {rest : Program} {c : Checker}
    (h : rest.StaysCovered limits) (fits : (rest.check c).env.Fits outer)
    (first : o.Covered (c.env.bound outer) c.env) :
    (o.andThen (rest.run limits)).Covered ((rest.check c).env.bound outer) (rest.check c).env :=
  first.andThen fun m' covered => h m' c outer fits (rest.covered_bound covered)

/-- However often a run reads the names of a block from inside, it reads no others than the
check. -/
theorem staysCovered (chain : limits.scoping = .chain) {p : Program}
    (shaped : p.Forall fun e => e.tree.WellShaped) : p.StaysCovered limits := by
  induction p with
  | done => exact fun m c outer fits h => h
  | block brace body rest ihBody ihRest =>
    intro m c outer fits h
    have top := (Checker.fits_of_check rest fits).bounded
    have noted : Env.Covered _ (m.note (.enterBlock brace.line)).env c.env := h
    exact (ihRest shaped.2).after fits (.within chain .block (ihBody shaped.1) noted top)
  | declare keyword name value rest ihRest =>
    intro m c outer fits h
    have later := Checker.fits_of_check rest fits
    cases value with
    | none => exact (ihRest shaped.2).after fits (.declare h keyword name none false)
    | some e =>
      have read : (c.expression e).env.Fits outer :=
        later.of_later (Env.kept_used.checkDeclare (c.expression e) keyword name true)
      refine (ihRest shaped.2).after fits (.startingWith h (shaped.1 e rfl) read ?_)
      exact fun v m' covered => .declare covered keyword name (some v) true
  | assign name value rest ihRest =>
    intro m c outer fits h
    have read : (c.expression value).env.Fits outer := (Checker.fits_of_check rest fits).of_later
      (Env.kept_used.checkChange (c.expression value) fun env => Env.kept_used.assign)
    refine (ihRest shaped.2).after fits (.startingWith h shaped.1 read ?_)
    exact fun v m' covered => .assign covered name v
  | expression value rest ihRest =>
    intro m c outer fits h
    have read : (c.expression value).env.Fits outer := Checker.fits_of_check rest fits
    refine (ihRest shaped.2).after fits (.startingWith h shaped.1 read ?_)
    exact fun v m' covered => covered
  | ifThen keyword condition brace body rest ihBody ihRest =>
    obtain ⟨first, second, third⟩ := shaped
    intro m c outer fits h
    have top := (Checker.fits_of_check rest fits).bounded
    refine (ihRest third).after fits
      (.withValue h first (Checker.bounded_of_within top) fun v m' covered => ?_)
    have noted : Env.Covered _ (m'.note (.branch keyword.line condition.text v)).env
        (c.expression condition).env := covered
    dsimp only
    split
    · exact .within chain .branch (ihBody second) noted top
    · exact noted.congr (Checker.outline_within .branch body _)
  | ifElse keyword condition brace body elseBrace elseBody rest ihBody ihElse ihRest =>
    obtain ⟨first, second, third, fourth⟩ := shaped
    intro m c outer fits h
    have top := (Checker.fits_of_check rest fits).bounded
    have between := Checker.bounded_of_within top
    refine (ihRest fourth).after fits
      (.withValue h first (Checker.bounded_of_within between) fun v m' covered => ?_)
    have noted : Env.Covered _ (m'.note (.branch keyword.line condition.text v)).env
        (c.expression condition).env := covered
    dsimp only
    split
    · exact (Outcome.Covered.within chain .branch (ihBody second) noted between).congr
        (Checker.outline_within .branch elseBody _)
    · have passed := noted.congr (Checker.outline_within .branch body (c.expression condition))
      exact .within chain .branch (ihElse third) passed top
  | loop keyword condition brace body rest ihBody ihRest =>
    obtain ⟨first, second, third⟩ := shaped
    intro m c outer fits h
    have top := (Checker.fits_of_check rest fits).bounded
    exact (ihRest third).after fits
      (.iterate chain keyword first (ihBody second) top limits.rounds h)

/-! ### Points of a run -/

theorem Forall.first {P : Expression → Prop} {p : Program} (h : p.Forall P) : p.first.Forall P := by
  cases p <;> simp_all [Forall, Program.first]

theorem Forall.rest {P : Expression → Prop} {p : Program} (h : p.Forall P) : p.rest.Forall P := by
  cases p <;> simp_all [Forall, Program.rest]

theorem scopes_inside {c c₁ : Checker} {kind : ScopeKind} {depth : Nat} {env : Env}
    (before : c₁.env.length = c.env.length ∧ (c.env.Distinct → c₁.env.Distinct))
    (distinct : c.env.Distinct)
    (inside : (c₁.entered kind).env.Distinct →
      env.length = (c₁.entered kind).env.length + depth ∧ env.Distinct) :
    env.length = c.env.length + (depth + 1) ∧ env.Distinct := by
  obtain ⟨deeper, still⟩ :=
    inside (List.forall_mem_cons.mpr ⟨List.nodup_nil, before.2 distinct⟩)
  have opened : (c₁.entered kind).env.length = c₁.env.length + 1 := rfl
  exact ⟨by omega, still⟩

/-- Inside so many blocks the check has so many more scopes. -/
theorem Meets.scopes {p q : Program} {m m' : Machine} {c c' : Checker} {depth : Nat}
    (h : p.Meets limits m c depth q m' c') (distinct : c.env.Distinct) :
    c'.env.length = c.env.length + depth ∧ c'.env.Distinct := by
  have read (c : Checker) (e : Expression) := Env.kept_scopes.checkExpression c e
  induction h with
  | here => exact ⟨rfl, distinct⟩
  | @after p _ _ _ _ c _ _ _ _ ih =>
    obtain ⟨same, still⟩ := Env.kept_scopes.check p.first c
    exact same ▸ ih (still distinct)
  | @block _ _ _ _ _ _ c _ _ _ ih => exact scopes_inside (Env.kept_scopes.refl c.env) distinct ih
  | ifThen _ _ ih => exact scopes_inside (read _ _) distinct ih
  | ifElse _ _ ih => exact scopes_inside (read _ _) distinct ih
  | @otherwise _ _ _ _ body _ _ _ _ _ _ _ _ _ _ _ ih =>
    exact scopes_inside (Env.kept_scopes.trans (read _ _)
      (Env.kept_scopes.checkWithin (Env.kept_scopes.check body) _)) distinct ih
  | loop _ _ ih => exact scopes_inside (read _ _) distinct ih
  | again _ _ _ ih => exact ih distinct

theorem fits_first {p : Program} {c : Checker} (fits : (p.check c).env.Fits outer) :
    (p.first.check c).env.Fits outer := by
  rw [p.check_eq_first_rest] at fits
  exact Checker.fits_of_check p.rest fits

/-- At every point that a run comes to, its environment is covered. -/
theorem Meets.covered (chain : limits.scoping = .chain) {p q : Program} {m m' : Machine}
    {c c' : Checker} {depth : Nat} (h : p.Meets limits m c depth q m' c')
    (shaped : p.Forall fun e => e.tree.WellShaped) (fits : (p.check c).env.Fits outer)
    (start : Env.Covered (p.bound c outer) m.env c.env) :
    ∃ outer', Env.Covered (q.bound c' outer') m'.env c'.env := by
  induction h generalizing outer with
  | here => exact ⟨outer, start⟩
  | @after p _ m _ _ c _ _ ended _ ih =>
    obtain ⟨-, patience, ran⟩ := ended
    have first : Env.Covered (p.first.bound c outer) m.env c.env := by
      cases p <;> exact start
    have covered := @staysCovered { limits with patience := patience } chain p.first shaped.first
      m c outer (fits_first fits) first
    rw [ran] at covered
    rw [p.check_eq_first_rest] at fits
    exact ih shaped.rest fits (p.rest.covered_bound covered)
  | @block brace body _ _ m _ c _ _ _ ih =>
    have top := (fits_first fits).bounded
    have noted : Env.Covered _ (m.note (.enterBlock brace.line)).env c.env := start
    exact ih shaped.1 (Checker.fits_inside top) (noted.entered chain .block body)
  | @ifThen _ _ _ body _ _ _ _ _ _ _ _ decides _ ih =>
    have top := (fits_first fits).bounded
    have taken := start.decided shaped.1 decides (Checker.bounded_of_within top)
    exact ih shaped.2.1 (Checker.fits_inside top) (taken.entered chain .branch body)
  | @ifElse _ _ _ _ body _ _ _ _ _ _ _ _ _ decides _ ih =>
    have between := Checker.bounded_of_within (fits_first fits).bounded
    have taken := start.decided shaped.1 decides (Checker.bounded_of_within between)
    exact ih shaped.2.1 (Checker.fits_inside between) (taken.entered chain .branch body)
  | @otherwise _ _ _ condition body elseBody _ _ _ _ _ c _ _ decides _ ih =>
    have top := (fits_first fits).bounded
    have between := Checker.bounded_of_within top
    have refused := start.decided shaped.1 decides (Checker.bounded_of_within between)
    have passed := refused.congr (Checker.outline_within .branch body (c.expression condition))
    exact ih shaped.2.2.1 (Checker.fits_inside top) (passed.entered chain .branch elseBody)
  | @loop _ _ _ body _ _ _ _ _ _ _ _ round _ ih =>
    have top := (fits_first fits).bounded
    have around := start.round shaped.1 round (Checker.bounded_of_within top)
    exact ih shaped.2.1 (Checker.fits_inside top) (around.entered chain .loop body)
  | @again _ _ condition body _ _ _ _ _ _ c _ _ round ended _ ih =>
    obtain ⟨-, patience, ran⟩ := ended
    have top := (fits_first fits).bounded
    have around := start.round shaped.1 round (Checker.bounded_of_within top)
    have inside := @staysCovered { limits with patience := patience } chain body shaped.2.1
      _ _ _ (Checker.fits_inside top) (around.entered chain .loop body)
    rw [ran] at inside
    -- The round has left the outline alone, so the loop starts again as it did before.
    refine ih shaped fits ((Env.Covered.left inside chain _).congr ?_)
    rw [Checker.outline_within]
    exact (Env.reading_outline.checkExpression c condition).symm

/-! ### Reports -/

/-- When an execution of a block, a branch or a loop body comes to its end, every name of its scope
that has been read has also been read by the check of it; so a symbol that the check reports there
as never read has not been read in any such execution. -/
theorem unused_unread {tokens : List Token} {p : Program} (success : read tokens = .ok p)
    {limits : Limits} (chain : limits.scoping = .chain) {m : Machine} (empty : m.env = Env.global)
    {depth : Nat} {m' : Machine} {c' : Checker}
    (ended : p.Meets limits m {} (depth + 1) .done m' c') :
    ∃ scope outer scope' outer', m'.env = scope :: outer ∧ c'.env = scope' :: outer' ∧
      (∀ name sym, scope.find? name = some sym → sym.used = true →
        ∃ sym', scope'.find? name = some sym' ∧ sym'.used = true) ∧
      c'.findings ++ scope'.unused.map (Checker.unusedIn scope'.kind) <+: p.findings ∧
      ∀ sym' ∈ scope'.unused, ∃ sym, scope.find? sym'.name = some sym ∧ sym.used = false := by
  have start : Env.Covered (Env.bound ({} : Checker).env fun _ _ => True) m.env
      ({} : Checker).env := by
    rw [empty]
    refine ⟨rfl, fun level name used => ?_⟩
    cases level with
    | zero => exact used
    | succ level => trivial
  obtain ⟨outer', covered⟩ := ended.covered chain (wellShaped_of_read success)
    (fun _ _ _ => trivial) (p.covered_bound start)
  obtain ⟨deep, distinct⟩ := ended.scopes (by simp [Env.global, Env.Distinct, Scope.names])
  have reported := ended.reports (Nat.succ_pos depth)
  cases found : c'.env with
  | nil => simp [found] at deep
  | cons scope' around' =>
    have within : Env.Covered (c'.env.bound outer') m'.env c'.env := covered
    rw [found] at within distinct
    obtain ⟨scope, around, known, names, read⟩ := within.innermost
    refine ⟨scope, around, scope', around', known, rfl,
      fun name sym held used => read name ⟨sym, held, used⟩, ?_, fun sym' member => ?_⟩
    · simp only [check, Checker.reports, found] at reported
      exact reported
    · exact Scope.unread_of_mem_unused (distinct scope' List.mem_cons_self) names read member

/-- The tokens of `{ let x = 2; let y; while (x) { x = x - 1; let z = x; } y = 3; }`. -/
def unreadInBlock : List Token :=
  (tokenize (Text.ofString
    "\x7b let x = 2; let y; while (x) \x7b x = x - 1; let z = x; \x7d y = 3; \x7d") []).1

/-- In the block `x` is read from the loop, and `y` is only ever assigned. -/
theorem unused_unread_unreadInBlock :
    ∃ p m' c' scope scope', read unreadInBlock = .ok p ∧ p.Meets {} {} {} 1 .done m' c' ∧
      p.findings.map Diagnostic.lexeme = [Text.ofString "z", Text.ofString "y"] ∧
      m'.env.head? = some scope ∧ c'.env.head? = some scope' ∧
      (∀ sym' ∈ scope'.unused, ∃ sym, scope.find? sym'.name = some sym ∧ sym.used = false) ∧
      c'.findings ++ scope'.unused.map (Checker.unusedIn scope'.kind) <+: p.findings := by
  have told : (read unreadInBlock).toOption.map (fun p => p.findings.map Diagnostic.lexeme) =
      some [Text.ofString "z", Text.ofString "y"] := by decide +kernel
  let inside (brace : Token) : Machine :=
    Limits.entered {} .block (({} : Machine).note (.enterBlock brace.line))
  have shape : (read unreadInBlock).toOption.map (fun p => match p with
      | .block brace body _ => decide ((body.run {} (inside brace)).fault = none)
      | _ => false) = some true := by decide +kernel
  cases success : read unreadInBlock with
  | error d => simp [success, Except.toOption] at told
  | ok p =>
    rw [success] at told shape
    cases p with
    | block brace body rest =>
      have fine : (body.run {} (inside brace)).fault = none :=
        of_decide_eq_true (Option.some.inj shape)
      have ended : body.run {} (inside brace) = ⟨(body.run {} (inside brace)).machine, none⟩ := by
        rw [← fine]
      have meets : (block brace body rest).Meets {} {} {} 1 .done _ _ :=
        .block (.of_run ended (Checker.entered .block {}))
      obtain ⟨scope, _, scope', _, known, known', -, reported, unread⟩ :=
        @unused_unread _ _ success {} rfl {} rfl 0 _ _ meets
      exact ⟨_, _, _, scope, scope', rfl, meets, Option.some.inj told, by rw [known]; rfl,
        by rw [known']; rfl, unread, reported⟩
    | _ => simp [Except.toOption] at shape

end Program

end NumScript
