import NumScript.Proofs.Check.Findings
import NumScript.Proofs.Check.WellFormed
import NumScript.Proofs.Run.Failing

/-! A check speaks for every run. The check visits each block once and in the order of the text,
while a run skips some blocks and repeats others; but blocks leave the outline of the scopes around
them alone, so wherever a run comes, its environment agrees with the one that the check had there.
A run of a program about which nothing grave was found can then fail in two ways only. -/

namespace NumScript

/-- Nothing was found that is an error, and no name that is not declared. -/
def Checker.Clean (c : Checker) : Prop :=
  ∀ d ∈ c.findings, d.severity ≠ .error ∧ d.cause ≠ some .undefinedVariable

/-- The fault is one that a check does not exclude. -/
def Fault.Excused : Fault → Prop
  | problem d => d.cause = some .uninitialized ∨ d.cause = some .iterationLimit
  | exhausted => True

/-- The run has ended with an excused fault, or goes on in agreement with a check. -/
def Outcome.Follows (o : Outcome) (known : Env) : Prop :=
  o.Satisfies (fun m => Agrees m.env known) fun _ fault => fault.Excused

namespace Checker

theorem Clean.of_prefix {c c' : Checker} (h : c'.Clean) (grows : c.findings <+: c'.findings) :
    c.Clean :=
  fun d member => h d (grows.subset member)

/-! ### What a clean check shows -/

/-- When nothing was found in an expression, every leaf of it can be computed. -/
theorem Clean.shows {c : Checker} {e : Expression} (h : (c.expression e).Clean) :
    ∀ t ∈ e.tree.leaves, c.env.Shows t := by
  intro t member
  have reported (d : Diagnostic) (doubt : c.env.doubt? t = some d) :
      d ∈ (c.expression e).findings := by
    rw [expression_eq]
    exact List.mem_append_right _ (List.mem_filterMap.mpr ⟨t, member, doubt⟩)
  constructor
  · intro text
    exact (h _ (reported (nonNumeric t) (by simp [Env.doubt?, text]))).1 rfl
  · intro name
    cases found : c.env.resolve? t.lexeme with
    | some sym => simp [Env.constancy, found]
    | none =>
      have doubt : c.env.doubt? t = some (undeclared t) := by
        simp [Env.doubt?, name, Env.value?, found]
      exact absurd rfl (h _ (reported _ doubt)).2

/-- A change that would be refused with an error was not refused. -/
theorem Clean.changed {c : Checker} {result : Except Diagnostic Env}
    (h : (c.change result).Clean) (grave : ∀ d, result = .error d → d.severity = .error) :
    result = .ok (c.change result).env := by
  cases result with
  | ok env => rfl
  | error d =>
    have reported : { d with phase := .semantic } ∈ (c.change (.error d)).findings := by
      simp [change, report]
    exact absurd (grave d rfl) (h _ reported).1

theorem Clean.declared {c : Checker} {keyword name : Token} {hasValue : Bool}
    (h : (c.declare keyword name hasValue).Clean) :
    ∃ sym : Symbol, sym.name = name.lexeme ∧ sym.constant = Program.isConst keyword ∧
      c.env.declare sym = .ok (c.declare keyword name hasValue).env := by
  refine
    ⟨{ name := name.lexeme
       value := if hasValue then some 0 else none
       constant := Program.isConst keyword
       position := name.position }, rfl, rfl, ?_⟩
  unfold declare at h ⊢
  dsimp only at h ⊢
  split at h
  · rename_i bare
    rw [if_pos bare]
    exact h.changed fun d refused => (Env.rebinds_of_declare refused).severity
  · rename_i full
    rw [if_neg full]
    exact h.changed fun d refused => (Env.rebinds_of_declare refused).severity

end Checker

/-! ### Blocks -/

/-- A block of a run leaves the outline of the environment as it was. -/
theorem Limits.outline_within (limits : Limits) (kind : ScopeKind) (body : Program) (m : Machine) :
    (limits.within kind (body.run limits) m).machine.env.outline = m.env.outline := by
  have kept := Env.kept_outer.run limits body { m with env := limits.enter kind m.env }
  simp only [Limits.within, Limits.leave]
  cases mode : limits.scoping with
  | chain =>
    simp only [Limits.enter, mode] at kept ⊢
    exact kept
  | copy => rfl

/-- The check of a block leaves the outline of the environment as it was. -/
theorem Checker.outline_within (kind : ScopeKind) (body : Program) (c : Checker) :
    (within kind body.check c).env.outline = c.env.outline := by
  have kept : Env.outline (body.check { c with env := c.env.child kind }).env.tail =
      c.env.outline := Env.kept_outer.check body { c with env := c.env.child kind }
  unfold within
  dsimp only
  split
  · rename_i gone
    rw [gone] at kept ⊢
    exact kept
  · rename_i scope outer remains
    rw [remains] at kept
    exact kept

/-! ### Steps of a run -/

theorem Agrees.shows {env known : Env} (h : Agrees env known) {t : Token} (shown : known.Shows t) :
    env.Shows t :=
  ⟨shown.1, fun name => h.constancy t.lexeme ▸ shown.2 name⟩

namespace Outcome.Follows

theorem andThen {o : Outcome} {known known' : Env} (first : o.Follows known)
    {next : Machine → Outcome}
    (second : ∀ m, Agrees m.env known → (next m).Follows known') :
    (o.andThen next).Follows known' :=
  Satisfies.andThen first second

theorem congr {o : Outcome} {known known' : Env} (h : o.Follows known)
    (same : known'.outline = known.outline) : o.Follows known' :=
  h.mono (fun _ agrees => agrees.congr rfl same) fun _ _ => id

theorem withValue {m : Machine} {c : Checker} {e : Expression} {known : Env}
    {next : Float → Machine → Outcome} (agrees : Agrees m.env c.env)
    (clean : (c.expression e).Clean) (wellFormed : e.tree.WellFormed)
    (later : ∀ v m', Agrees m'.env (c.expression e).env → (next v m').Follows known) :
    (m.withValue e next).Follows known := by
  have same' := Env.reading_outline.checkExpression c e
  refine Satisfies.withValue (fun d m' evaluated => ?_) fun v m' evaluated => later v m' ?_
  · have failed : (e.tree.evaluateIn m.env).1 = .error d := congrArg Prod.fst evaluated
    rcases wellFormed.evaluateIn fun t member => agrees.shows (clean.shows t member) with
      ⟨d', found, cause⟩ | ⟨v, found⟩
    · cases found.symm.trans failed
      exact .inl cause
    · cases found.symm.trans failed
  · obtain rfl : (m.evaluate e.tree).2 = m' := congrArg Prod.snd evaluated
    exact agrees.congr (Env.reading_outline.evaluateIn m.env e.tree) same'

theorem declare {m : Machine} {c : Checker} {keyword name : Token} {hasValue : Bool}
    (agrees : Agrees m.env c.env) (clean : (c.declare keyword name hasValue).Clean)
    (value : Option Float) :
    (m.declare keyword name value).Follows (c.declare keyword name hasValue).env := by
  obtain ⟨sym, sameName, sameConstant, declared⟩ := clean.declared
  let own := name.symbol (Program.isConst keyword) value
  have ownName : own.name = sym.name := sameName.symm
  have ownConstant : own.constant = sym.constant := sameConstant.symm
  obtain ⟨env, run, agrees'⟩ := agrees.declare ownName ownConstant declared
  obtain ⟨event, ran⟩ := Machine.declare_of_ok run
  rw [ran]
  exact agrees'

theorem assign {m : Machine} {c : Checker} {name : Token}
    (agrees : Agrees m.env c.env)
    (clean : (c.change (c.env.assign name.lexeme 0 name.position)).Clean) (v : Float) :
    (m.assign name v).Follows (c.change (c.env.assign name.lexeme 0 name.position)).env := by
  have assigned := clean.changed fun d refused => (Env.rebinds_of_assign refused).severity
  obtain ⟨env, run, agrees'⟩ := agrees.assign assigned v
  rw [Machine.assign_of_ok run]
  exact agrees'

/-- A block whose inside follows the check inside follows the check around it. -/
theorem within {limits : Limits} {kind : ScopeKind} {body : Program} {m : Machine} {c : Checker}
    (agrees : Agrees m.env c.env)
    (inside : ∀ m, Agrees m.env (c.env.child kind) → ∃ known, (body.run limits m).Follows known) :
    (limits.within kind (body.run limits) m).Follows
      (Checker.within kind body.check c).env := by
  have same := limits.outline_within kind body m
  obtain ⟨known, follows⟩ :=
    inside { m with env := limits.enter kind m.env } (agrees.enter limits kind)
  unfold Outcome.Follows Outcome.Satisfies at follows ⊢
  split
  · exact agrees.congr same (Checker.outline_within kind body c)
  · rename_i fault failed
    have inner : (body.run limits { m with env := limits.enter kind m.env }).fault = some fault :=
      failed
    rw [inner] at follows
    exact follows

/-- A loop follows the check of its condition and its body, however often it goes round. -/
theorem iterate {limits : Limits} {keyword : Token} {condition : Expression} {body : Program}
    {c : Checker} (clean : (c.expression condition).Clean)
    (wellFormed : condition.tree.WellFormed)
    (inside : ∀ m, Agrees m.env ((c.expression condition).env.child .loop) →
      ∃ known, (body.run limits m).Follows known)
    (fuel : Nat) {m : Machine} (agrees : Agrees m.env c.env) :
    (limits.iterate keyword condition (body.run limits) fuel m).Follows
      (Checker.within .loop body.check (c.expression condition)).env := by
  have left := Checker.outline_within .loop body (c.expression condition)
  have read := Env.reading_outline.checkExpression c condition
  -- Every round starts in agreement with the check before the condition, whatever the body did.
  refine Satisfies.iterate (fun agrees later => withValue agrees clean wellFormed later)
    (fun m' agrees' => agrees'.congr rfl left) (fun m' agrees' => ?_)
    (fun m' agrees' => (within agrees' inside).congr (by rw [left, read])) (fun _ _ => trivial)
    fuel agrees
  unfold Limits.allow
  split
  · exact .inr rfl
  · exact agrees'

end Outcome.Follows

/-- A run follows the check of its program when that finds nothing grave. -/
theorem Program.run_follows (limits : Limits) (p : Program) {m : Machine} {c : Checker}
    (agrees : Agrees m.env c.env) (clean : (p.check c).Clean)
    (wellFormed : p.Forall fun e => e.tree.WellFormed) :
    (p.run limits m).Follows (p.check c).env := by
  induction p generalizing m c with
  | done => exact agrees
  | block brace body rest ihBody ihRest =>
    have around := clean.of_prefix (Checker.findings_check rest _)
    have inner := around.of_prefix (Checker.findings_within .block body.check c)
    have noted : Agrees (m.note (.enterBlock brace.line)).env c.env := agrees
    exact (Outcome.Follows.within noted fun m' entered =>
      ⟨_, ihBody entered inner wellFormed.1⟩).andThen
        fun m' agrees' => ihRest agrees' clean wellFormed.2
  | declare keyword name value rest ihRest =>
    have around := clean.of_prefix (Checker.findings_check rest _)
    refine Outcome.Follows.andThen ?_ fun m' agrees' => ihRest agrees' clean wellFormed.2
    cases value with
    | none => exact .declare agrees around none
    | some e =>
      have own := around.of_prefix (Checker.findings_declare _ keyword name true)
      exact .withValue agrees own (wellFormed.1 e rfl) fun v m' agrees' =>
        .declare agrees' around (some v)
  | assign name value rest ihRest =>
    have around := clean.of_prefix (Checker.findings_check rest _)
    have own := around.of_prefix (Checker.findings_change _ _)
    exact (Outcome.Follows.withValue agrees own wellFormed.1 fun v m' agrees' =>
      .assign agrees' around v).andThen fun m' agrees' => ihRest agrees' clean wellFormed.2
  | expression value rest ihRest =>
    have own := clean.of_prefix (Checker.findings_check rest _)
    refine (Outcome.Follows.withValue agrees own wellFormed.1 fun v m' agrees' => ?_).andThen
      fun m' agrees' => ihRest agrees' clean wellFormed.2
    exact agrees'
  | ifThen keyword condition brace body rest ihBody ihRest =>
    obtain ⟨first, second, third⟩ := wellFormed
    have around := clean.of_prefix (Checker.findings_check rest _)
    have inner := around.of_prefix (Checker.findings_within .branch body.check _)
    have own := around.of_prefix (Checker.findings_block (Checker.findings_check body) _)
    rw [Program.run]
    refine (Outcome.Follows.withValue agrees own first fun v m' agrees' => ?_).andThen
      fun m' agrees' => ihRest agrees' clean third
    have noted : Agrees (m'.note (.branch keyword.line condition.text v)).env
        (c.expression condition).env := agrees'
    dsimp only
    split
    · exact .within noted fun m'' entered => ⟨_, ihBody entered inner second⟩
    · exact noted.congr rfl (Checker.outline_within .branch body _)
  | ifElse keyword condition brace body elseBrace elseBody rest ihBody ihElse ihRest =>
    obtain ⟨first, second, third, fourth⟩ := wellFormed
    have around := clean.of_prefix (Checker.findings_check rest _)
    have innerElse := around.of_prefix (Checker.findings_within .branch elseBody.check _)
    have between := around.of_prefix (Checker.findings_block (Checker.findings_check elseBody) _)
    have inner := between.of_prefix (Checker.findings_within .branch body.check _)
    have own := between.of_prefix (Checker.findings_block (Checker.findings_check body) _)
    rw [Program.run]
    refine (Outcome.Follows.withValue agrees own first fun v m' agrees' => ?_).andThen
      fun m' agrees' => ihRest agrees' clean fourth
    have noted : Agrees (m'.note (.branch keyword.line condition.text v)).env
        (c.expression condition).env := agrees'
    dsimp only
    -- The check looks at both blocks in turn; the one that the run passes over leaves no trace.
    split
    · have taken := Outcome.Follows.within noted fun m'' entered =>
        ⟨_, ihBody entered inner second⟩
      exact taken.congr (Checker.outline_within .branch elseBody _)
    · have passed := noted.congr rfl (Checker.outline_within .branch body _)
      exact .within passed fun m'' entered => ⟨_, ihElse entered innerElse third⟩
  | loop keyword condition brace body rest ihBody ihRest =>
    obtain ⟨first, second, third⟩ := wellFormed
    have around := clean.of_prefix (Checker.findings_check rest _)
    have inner := around.of_prefix (Checker.findings_within .loop body.check _)
    have own := around.of_prefix (Checker.findings_block (Checker.findings_check body) _)
    exact (Outcome.Follows.iterate own first (fun m' entered => ⟨_, ihBody entered inner second⟩)
      limits.rounds agrees).andThen fun m' agrees' => ihRest agrees' clean third

/-- A program of a script about which a check finds no error and no undeclared name can, in a run
from an empty environment, only fail because a name has no value yet or a loop takes too long. -/
theorem Program.run_of_clean {tokens : List Token} {p : Program} (lexed : ∀ t ∈ tokens, t.Lexed)
    (success : read tokens = .ok p)
    (clean : ∀ d ∈ p.findings, d.severity ≠ .error ∧ d.cause ≠ some .undefinedVariable)
    (limits : Limits) {m : Machine} (empty : m.env = Env.global) {d : Diagnostic}
    (failed : (p.run limits m).problem? = some d) :
    d.cause = some .uninitialized ∨ d.cause = some .iterationLimit := by
  have start : Agrees m.env ({} : Checker).env := empty ▸ Agrees.global
  have follows := p.run_follows limits start clean (wellFormed_of_read lexed success)
  exact follows.of_problem failed

/-- The tokens of `let x; if (0) { x = 1; } x;`, where the check counts on the assignment and the
run passes over it. -/
def Program.lateName : List Token :=
  (tokenize (Text.ofString "let x; if (0) \x7b x = 1; \x7d x;") []).1

theorem Program.run_of_clean_lateName :
    ∃ p d, (∀ t ∈ lateName, t.Lexed) ∧ read lateName = .ok p ∧ p.findings = [] ∧
      (p.run {} {}).problem? = some d ∧
      (d.cause = some .uninitialized ∨ d.cause = some .iterationLimit) := by
  have lexed : ∀ t ∈ lateName, t.Lexed := fun t member => ⟨_, _, member⟩
  have silent : (read lateName).toOption.map findings = some [] := by decide +kernel
  have fails : ((read lateName).toOption.bind fun p => (p.run {} {}).problem?).isSome = true := by
    decide +kernel
  cases success : read lateName with
  | error d => simp [success, Except.toOption] at silent
  | ok p =>
    rw [success] at silent fails
    have clean : p.findings = [] := Option.some.inj silent
    obtain ⟨d, failed⟩ := Option.isSome_iff_exists.mp fails
    exact ⟨p, d, lexed, rfl, clean, failed,
      run_of_clean lexed success (by simp [clean]) {} rfl failed⟩

end NumScript
