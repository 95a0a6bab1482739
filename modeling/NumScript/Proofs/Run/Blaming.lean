import NumScript.Proofs.Optimize.Sourced
import NumScript.Proofs.Run.Failing

/-! What a program of a script can fail for. Its expressions are well formed, so no operator is
misplaced; what is left are texts and names without a number, constants that are bound again and
loops beyond the limit. Each of these is blamed on a token of the script, with or without
optimizing. -/

namespace NumScript

/-- The causes for which the run of a program of a script can fail. -/
def Program.failures : List Cause :=
  [.invalidLiteral, .undefinedVariable, .uninitialized, .constantRebinding, .iterationLimit]

/-- The problem is one that the run of a program of a script can have: its cause is one of those
above, and its line is the line of one of the tokens. -/
structure Diagnostic.Foreseen (tokens : List Token) (d : Diagnostic) : Prop where
  cause : ∃ cause ∈ Program.failures, d.cause = some cause
  line : ∃ t ∈ tokens, d.line = t.line

/-! ### Expressions -/

namespace Tree.Sourced

variable {tokens : List Token}

/-- A sourced tree has no other problems than the ones foreseen, neither in reading its names nor in
computing what was read. -/
theorem foreseen {t : Tree} (h : t.Sourced tokens) {env : Env} {d : Diagnostic}
    (failed : (t.evaluateIn env).1 = .error d) : d.Foreseen tokens := by
  rw [evaluateIn_eq_staged] at failed
  obtain ⟨wellFormed, leaves⟩ := h
  induction wellFormed generalizing env with
  | @name t kind =>
    have source : t ∈ tokens := leaves t (List.mem_singleton_self t) (by simp [kind])
    simp only [staged, Tree.bind, kind, if_true] at failed
    split at failed
    · simp [Except.map, Except.bind] at failed
    · rename_i read
      cases failed
      rcases Env.missing_of_get (congrArg Prod.fst read) with rfl | rfl
      · exact ⟨⟨.undefinedVariable, by decide, rfl⟩, t, source, rfl⟩
      · exact ⟨⟨.uninitialized, by decide, rfl⟩, t, source, rfl⟩
  | @text t kind =>
    have source : t ∈ tokens := leaves t (List.mem_singleton_self t) (by simp [kind])
    rw [staged_of_isConstant (by simp [isConstant, kind]), evaluate_leaf] at failed
    rcases Token.invalid_of_value failed with rfl | rfl <;>
      exact ⟨⟨.invalidLiteral, by decide, rfl⟩, t, source, rfl⟩
  | @number t v value =>
    have constant : (leaf t).isConstant = true :=
      isConstant_of_evaluate (t := leaf t) rfl (by rwa [evaluate_leaf])
    rw [staged_of_isConstant constant, evaluate_leaf, value] at failed
    cases failed
  | @unary op f a meaning _ ih =>
    refine @ih env ?_ leaves
    rw [staged_unary] at failed
    cases read : (a.staged env).1 with
    | error d' => simpa [read, Except.map, Except.bind] using failed
    | ok value =>
      cases value <;> simp_all [Except.map, Except.bind, applyUnary]
  | @binary op f a b meaning _ _ ihLeft ihRight =>
    have parts := List.forall_mem_append.mp leaves
    rw [staged_binary] at failed
    -- Both sides are read before either is computed: there are four places to fail, in this order.
    rcases left : a.staged env with ⟨_ | v, env₁⟩
    · refine @ihLeft env ?_ parts.1
      simpa [left] using failed
    cases right : (b.staged env₁).1 with
    | error d' =>
      refine @ihRight env₁ ?_ parts.2
      simpa [left, right, Except.map, Except.bind] using failed
    | ok w =>
      simp only [left, right, Except.map, Except.bind, applyBinary, meaning, id] at failed
      cases v with
      | error d' =>
        refine @ihLeft env ?_ parts.1
        simpa [left, Except.bind] using failed
      | ok v =>
        cases w with
        | error d' =>
          refine @ihRight env₁ ?_ parts.2
          simpa [right, Except.bind] using failed
        | ok w => cases failed

end Tree.Sourced

/-! ### Runs -/

theorem Diagnostic.Foreseen.of_rebinds {tokens : List Token} {name : Token}
    (source : name ∈ tokens) {d : Diagnostic} (rebinds : d.Rebinds name.line) :
    d.Foreseen tokens :=
  ⟨⟨.constantRebinding, by decide, rebinds.cause⟩, name, source, rebinds.line⟩

/-- The run goes on, or it has ended through no other problem than one that is foreseen. -/
def Outcome.Foreseen (tokens : List Token) : Outcome → Prop :=
  Satisfies (fun _ => True) fun _ fault => ∀ d, fault = .problem d → d.Foreseen tokens

namespace Outcome.Foreseen

variable {tokens : List Token} {o : Outcome} {m : Machine} {limits : Limits}
  {body next : Machine → Outcome}

theorem andThen (first : o.Foreseen tokens) (later : ∀ m, (next m).Foreseen tokens) :
    (o.andThen next).Foreseen tokens :=
  Satisfies.andThen first fun m _ => later m

theorem within {kind : ScopeKind} (inside : (body (limits.entered kind m)).Foreseen tokens) :
    (limits.within kind body m).Foreseen tokens :=
  Satisfies.within inside

theorem withValue {e : Expression} {next : Float → Machine → Outcome}
    (sourced : e.tree.Sourced tokens) (later : ∀ v m, (next v m).Foreseen tokens) :
    (m.withValue e next).Foreseen tokens := by
  refine Satisfies.withValue (fun d m' evaluated => ?_) fun v m' _ => later v m'
  rintro _ ⟨⟩
  exact sourced.foreseen (congrArg Prod.fst evaluated)

theorem declare {name : Token} (source : name ∈ tokens) (keyword : Token) (value : Option Float) :
    (m.declare keyword name value).Foreseen tokens := by
  refine Satisfies.declare (fun d refused => ?_) fun _ _ _ => trivial
  rintro _ ⟨⟩
  exact .of_rebinds source (Env.rebinds_of_declare refused)

theorem assign {name : Token} (source : name ∈ tokens) (v : Float) :
    (m.assign name v).Foreseen tokens := by
  refine Satisfies.assign (fun d _ refused => ?_) fun _ _ _ => trivial
  rintro _ ⟨⟩
  exact .of_rebinds source (Env.rebinds_of_assign refused)

theorem iterate {keyword : Token} {condition : Expression} (source : keyword ∈ tokens)
    (sourced : condition.tree.Sourced tokens) (inside : ∀ m, (body m).Foreseen tokens)
    (fuel : Nat) :
    (limits.iterate keyword condition body fuel m).Foreseen tokens := by
  refine Satisfies.iterate (fun _ later => withValue sourced fun v m => later v m trivial)
    (fun _ _ => trivial) (fun m _ => ?_) (fun m _ => within (inside _)) (fun _ _ d => nofun)
    fuel trivial
  unfold Limits.allow
  split
  · rintro _ ⟨⟩
    exact ⟨⟨.iterationLimit, by decide, rfl⟩, keyword, source, rfl⟩
  · trivial

end Outcome.Foreseen

namespace Program

/-- The run of a program made of some tokens has only problems that are foreseen. -/
theorem Sourced.run {tokens : List Token} {p : Program} (h : p.Sourced tokens) (limits : Limits)
    (m : Machine) : (p.run limits m).Foreseen tokens := by
  induction p generalizing m with
  | done => exact trivial
  | block brace body rest ihBody ihRest => exact .andThen (.within (ihBody h.1 _)) (ihRest h.2)
  | declare keyword name value rest ihRest =>
    obtain ⟨source, computed, below⟩ := h
    refine .andThen ?_ (ihRest below)
    cases value with
    | none => exact .declare source keyword none
    | some e => exact .withValue (computed e rfl) fun v m' => .declare source keyword (some v)
  | assign name value rest ihRest =>
    obtain ⟨source, computed, below⟩ := h
    exact .andThen (.withValue computed fun v m' => .assign source v) (ihRest below)
  | expression value rest ihRest =>
    exact .andThen (.withValue h.1 fun v m' => trivial) (ihRest h.2)
  | ifThen keyword condition brace body rest ihBody ihRest =>
    obtain ⟨decided, inner, below⟩ := h
    refine .andThen (.withValue decided fun v m' => ?_) (ihRest below)
    dsimp only
    split
    · exact .within (ihBody inner _)
    · exact trivial
  | ifElse keyword condition brace body elseBrace elseBody rest ihBody ihElse ihRest =>
    obtain ⟨decided, inner, other, below⟩ := h
    refine .andThen (.withValue decided fun v m' => ?_) (ihRest below)
    dsimp only
    split
    · exact .within (ihBody inner _)
    · exact .within (ihElse other _)
  | loop keyword condition brace body rest ihBody ihRest =>
    obtain ⟨source, decided, inner, below⟩ := h
    exact .andThen (.iterate source decided (ihBody inner) limits.rounds) (ihRest below)

theorem Sourced.foreseen {tokens : List Token} {p : Program} (h : p.Sourced tokens)
    {limits : Limits} {m : Machine} {d : Diagnostic}
    (failed : (p.run limits m).problem? = some d) : d.Foreseen tokens :=
  (h.run limits m).of_problem failed d rfl

/-- A program that is read from a source text, whether it is optimized or not, can fail in five ways
only: a text is no number, a name is unknown or has no value yet, a constant is bound again, or a
loop goes beyond the limit. The problem is on the line of a token of the source text. Optimizing
itself has no way to fail. -/
theorem run_foreseen (source file : Text) {p : Program}
    (success : read (tokenize source file).1 = .ok p) {q : Program}
    (version : q = p ∨ ∃ rounds, q = (p.optimize rounds).program) (limits : Limits) (m : Machine)
    {d : Diagnostic} (failed : (q.run limits m).problem? = some d) :
    (∃ cause ∈ failures, d.cause = some cause) ∧
      ∃ t ∈ (tokenize source file).1, d.line = t.line := by
  have sourced : p.Sourced (tokenize source file).1 :=
    sourced_of_read (fun t member => ⟨source, file, member⟩) success
  have sourced : q.Sourced (tokenize source file).1 := by
    rcases version with rfl | ⟨rounds, rfl⟩
    · exact sourced
    · exact sourced.optimize rounds
  obtain ⟨cause, line⟩ := sourced.foreseen failed
  exact ⟨cause, line⟩

/-- A text is added to a number in the second line. -/
def textInSum : Text := Text.ofString "let x = 1 + 2;\nx + \"a\";"

/-- Folding the first line does not change what the second one is blamed for. -/
theorem run_foreseen_textInSum :
    ∃ p d, read (tokenize textInSum []).1 = .ok p ∧
      ((p.optimize 2).program.run {} {}).problem? = some d ∧ d.line = 2 ∧
      (∃ cause ∈ failures, d.cause = some cause) ∧
      ∃ t ∈ (tokenize textInSum []).1, d.line = t.line := by
  have fails : ((read (tokenize textInSum []).1).toOption.bind fun p =>
      ((p.optimize 2).program.run {} {}).problem?).map Diagnostic.line = some 2 := by
    decide +kernel
  cases success : read (tokenize textInSum []).1 with
  | error d => simp [success, Except.toOption] at fails
  | ok p =>
    rw [success] at fails
    obtain ⟨d, failed, line⟩ := Option.map_eq_some_iff.mp fails
    exact ⟨p, d, rfl, failed, line,
      run_foreseen textInSum [] success (.inr ⟨2, rfl⟩) {} {} failed⟩

end Program

end NumScript
