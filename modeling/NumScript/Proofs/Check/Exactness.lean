import NumScript.Proofs.Check.Meeting
import NumScript.Proofs.Check.WellFormed
import NumScript.Proofs.Run.Failing
import NumScript.Proofs.Run.Isolating

/-! Programs without branches. There the check visits the statements just as the run does, and what
it does not know, the values, decides nothing: the run fails if and only if the check finds a name
that cannot be read, a text that is no number, or a constant that is bound again, and it fails in
the statement about which the first such thing is found. -/

namespace NumScript

/-- The symbol as a check knows it: it has a value or not, whichever that is. -/
def Symbol.sketch (s : Symbol) : Symbol :=
  { s with value := s.value.map fun _ => 0, used := false }

/-- The environments differ in nothing but values and in what has been read. -/
def Env.Alike (env known : Env) : Prop :=
  env.relabeled Symbol.sketch = known.relabeled Symbol.sketch

/-- The finding is about something that a run cannot get past. -/
def Diagnostic.Decisive (d : Diagnostic) : Prop :=
  ∃ cause ∈ [Cause.undefinedVariable, .uninitialized, .constantRebinding, .nonNumericOperand],
    d.cause = some cause

/-- Nothing decisive was found. -/
def Checker.Quiet (c : Checker) : Prop := ∀ d ∈ c.findings, ¬ d.Decisive

/-- The statements of the program are declarations, assignments, expressions and blocks. -/
def Program.straight : Program → Bool
  | done => true
  | block _ body rest => body.straight && rest.straight
  | declare _ _ _ rest | assign _ _ rest | expression _ rest => rest.straight
  | ifThen _ _ _ _ _ | ifElse _ _ _ _ _ _ _ | loop _ _ _ _ _ => false

/-- The run has not failed and nothing decisive was found, or the run has failed and something
was. -/
def Outcome.Accords (o : Outcome) (c : Checker) : Prop :=
  o.Satisfies (fun m => m.env.Alike c.env ∧ c.Quiet) fun _ _ => ¬ c.Quiet

/-- The run fails in a statement up to which nothing decisive is found, and there something is. -/
def Program.Stumbles (limits : Limits) (p : Program) (m : Machine) (c : Checker) (fault : Fault) :
    Prop :=
  ∃ depth q m' c', p.Meets limits m c depth q m' c' ∧ q.nests = false ∧
    (q.first.run limits m').fault = some fault ∧ c'.Quiet ∧ ¬ (q.first.check c').Quiet

/-! ### Environments -/

namespace Env

theorem relabels_sketch : Symbol.Relabels Symbol.sketch :=
  ⟨fun _ => rfl, fun _ => rfl, fun _ => rfl⟩

theorem sketch_marked (env : Env) (names : List Text) :
    (env.marked names).relabeled Symbol.sketch = env.relabeled Symbol.sketch := by
  have forgets (env : Env) : env.relabeled Symbol.sketch = env.unread.relabeled Symbol.sketch := by
    simp only [relabeled, unread, List.map_map]
    refine List.map_congr_left fun scope _ => ?_
    simp only [Scope.relabeled, Scope.unread, Function.comp_apply, List.map_map]
    rfl
  rw [forgets, unread_marked, ← forgets]

namespace Alike

variable {env known : Env}

theorem marked (h : env.Alike known) (names names' : List Text) :
    (env.marked names).Alike (known.marked names') := by
  rw [Alike, sketch_marked, sketch_marked]
  exact h

theorem child (h : env.Alike known) (kind : ScopeKind) :
    (env.child kind).Alike (known.child kind) := by
  rw [Alike, child_relabeled, child_relabeled, h]

theorem tail (h : env.Alike known) : Alike env.tail known.tail := by
  rw [Alike, relabeled, relabeled, List.map_tail, List.map_tail]
  exact congrArg List.tail h

theorem missing?_eq_none_iff (h : env.Alike known) (t : Token) :
    env.missing? t = none ↔ known.missing? t = none := by
  have value (env : Env) : (env.relabeled Symbol.sketch).value? t.lexeme =
      (env.value? t.lexeme).map (Option.map fun _ => 0) := by
    rw [value?, resolve?_relabeled relabels_sketch, value?, Option.map_map, Option.map_map]
    rfl
  have same : (env.value? t.lexeme).map (Option.map fun _ => (0 : Float)) =
      (known.value? t.lexeme).map (Option.map fun _ => 0) := by
    rw [← value, ← value, h]
  unfold missing?
  split
  · rcases here : env.value? t.lexeme with _ | _ | v <;>
      rcases there : known.value? t.lexeme with _ | _ | w <;> simp_all
  · rfl

/-- The outcomes of one operation on environments that are alike. -/
theorem cases {r r' : Except Diagnostic Env}
    (same : r.map (relabeled Symbol.sketch) = r'.map (relabeled Symbol.sketch)) :
    (∃ env known, r = .ok env ∧ r' = .ok known ∧ env.Alike known) ∨
      ∃ d, r = .error d ∧ r' = .error d := by
  cases r with
  | error d =>
    cases r' with
    | error d' => exact .inr ⟨d, rfl, by cases same; rfl⟩
    | ok known => cases same
  | ok env =>
    cases r' with
    | error d' => cases same
    | ok known => exact .inl ⟨env, known, rfl, rfl, Except.ok.inj same⟩

theorem declare (h : env.Alike known) {sym sym' : Symbol} (same : sym.sketch = sym'.sketch) :
    (∃ env' known', env.declare sym = .ok env' ∧ known.declare sym' = .ok known' ∧
        env'.Alike known') ∨
      ∃ d, env.declare sym = .error d ∧ known.declare sym' = .error d := by
  apply Alike.cases
  rw [declare_relabeled relabels_sketch, declare_relabeled relabels_sketch, same, h]

theorem assign (h : env.Alike known) (name : Text) (v w : Float) (place : Position) :
    (∃ env' known', env.assign name v place = .ok env' ∧ known.assign name w place = .ok known' ∧
        env'.Alike known') ∨
      ∃ d, env.assign name v place = .error d ∧ known.assign name w place = .error d := by
  have dummy (env : Env) (v : Float) : (env.assign name v place).map (relabeled Symbol.sketch) =
      (env.relabeled Symbol.sketch).assign name 0 place :=
    env.assign_relabeled relabels_sketch (fun _ => rfl) name place rfl
  apply Alike.cases
  rw [dummy, dummy, h]

end Alike

end Env

/-! ### Findings -/

theorem Checker.Quiet.of_prefix {c c' : Checker} (h : c'.Quiet)
    (grows : c.findings <+: c'.findings) : c.Quiet :=
  fun d member => h d (grows.subset member)

theorem Checker.quiet_report {c : Checker} (h : c.Quiet) {d : Diagnostic} :
    (c.report d).Quiet ↔ ¬ d.Decisive := by
  constructor
  · intro quiet
    exact quiet d (by simp [report])
  · intro harmless other member
    rcases List.mem_append.mp member with before | here
    · exact h other before
    · exact List.mem_singleton.mp here ▸ harmless

theorem Checker.not_decisive_of_reports {c : Checker} {d : Diagnostic}
    (reported : d ∈ c.reports) : ¬ d.Decisive := by
  rintro ⟨cause, decisive, told⟩
  unfold reports at reported
  split at reported
  · cases reported
  · obtain ⟨sym, -, rfl⟩ := List.mem_map.mp reported
    cases told
    revert decisive
    decide

/-- Everything that a check finds wrong with a leaf is decisive, and it finds what a run would. -/
theorem Env.doubt?_eq_none_iff (known : Env) (t : Token) :
    known.doubt? t = none ↔ known.missing? t = none ∧ t.kind ≠ .string := by
  unfold doubt? missing?
  split
  · rename_i name
    rcases known.value? t.lexeme with _ | _ | v <;> simp [name]
  · rename_i text
    simp [text]
  · rename_i unnamed noText
    have : t.kind ≠ .identifier := unnamed
    have : t.kind ≠ .string := noText
    simp [*]

theorem Env.decisive_of_doubt? {known : Env} {t : Token} {d : Diagnostic}
    (doubt : known.doubt? t = some d) : d.Decisive := by
  unfold doubt? at doubt
  split at doubt
  · split at doubt
    · cases doubt
      exact ⟨.undefinedVariable, by decide, rfl⟩
    · cases doubt
      exact ⟨.uninitialized, by decide, rfl⟩
    · cases doubt
  · cases doubt
    exact ⟨.nonNumericOperand, by decide, rfl⟩
  · cases doubt

theorem Checker.quiet_expression {c : Checker} (h : c.Quiet) (e : Expression) :
    (c.expression e).Quiet ↔ ∀ t ∈ e.tree.leaves, c.env.doubt? t = none := by
  rw [expression_eq]
  constructor
  · intro quiet t member
    cases doubt : c.env.doubt? t with
    | none => rfl
    | some d =>
      have found : d ∈ c.findings ++ e.tree.leaves.filterMap c.env.doubt? :=
        List.mem_append_right _ (List.mem_filterMap.mpr ⟨t, member, doubt⟩)
      exact absurd (Env.decisive_of_doubt? doubt) (quiet d found)
  · intro certain d member
    rcases List.mem_append.mp member with before | here
    · exact h d before
    · obtain ⟨t, leaf, doubt⟩ := List.mem_filterMap.mp here
      rw [certain t leaf] at doubt
      cases doubt

/-! ### Expressions -/

namespace Tree.WellFormed

theorem wellShaped {t : Tree} (h : t.WellFormed) : t.WellShaped := by
  induction h with
  | name kind | text kind => exact .leaf (by simp [kind, Phrase.operandKinds])
  | @number t v value =>
    have kind : t.kind = .number := by
      by_contra other
      simp [Token.value, other] at value
    exact .leaf (by simp [kind, Phrase.operandKinds])
  | unary meaning _ ih => exact .unary meaning ih
  | binary meaning _ _ ihLeft ihRight => exact .binary meaning ihLeft ihRight

/-- Only texts among the leaves are invalid. -/
theorem invalid?_eq_none_iff {t : Tree} (h : t.WellFormed) {leaf : Token}
    (member : leaf ∈ t.leaves) : leaf.invalid? = none ↔ leaf.kind ≠ .string := by
  induction h with
  | name kind | text kind =>
    obtain rfl := List.mem_singleton.mp member
    simp [Token.invalid?, kind]
  | @number t v value =>
    obtain rfl := List.mem_singleton.mp member
    unfold Token.value at value
    split at value
    · cases value
    · rename_i number
      have number : leaf.kind = .number := not_not.mp number
      simp only [Token.invalid?, number]
      cases held : leaf.number? with
      | some w => simp
      | none => cases spelled : Number.read? leaf.lexeme <;> simp_all
  | unary _ _ ih => exact ih member
  | binary _ _ _ ihLeft ihRight =>
    rcases List.mem_append.mp member with left | right
    · exact ihLeft left
    · exact ihRight right

end Tree.WellFormed

theorem FirstProblem.mem {problem? : Token → Option Diagnostic} {tokens read : List Token}
    {d : Diagnostic} (h : FirstProblem problem? tokens read d) :
    ∃ t ∈ tokens, problem? t = some d := by
  induction h with
  | here problem => exact ⟨_, List.mem_cons_self, problem⟩
  | later _ _ ih =>
    obtain ⟨t, member, problem⟩ := ih
    exact ⟨t, List.mem_cons_of_mem _ member, problem⟩

/-- An expression has a value in the run exactly when nothing is found wrong with it. -/
theorem Env.Alike.evaluate {m : Machine} {c : Checker} (h : m.env.Alike c.env) (quiet : c.Quiet)
    {e : Expression} (wellFormed : e.tree.WellFormed) :
    (∃ v m', m.evaluate e.tree = (.ok v, m') ∧ m'.env.Alike (c.expression e).env ∧
        (c.expression e).Quiet) ∨
      (∃ d m', m.evaluate e.tree = (.error d, m')) ∧ ¬ (c.expression e).Quiet := by
  have certain (t : Token) :
      c.env.doubt? t = none ↔ m.env.missing? t = none ∧ t.kind ≠ .string := by
    rw [doubt?_eq_none_iff, h.missing?_eq_none_iff]
  rw [Checker.quiet_expression quiet, Machine.evaluate]
  rcases Tree.evaluateIn_meaning wellFormed.wellShaped m.env with
    ⟨read, d, first, same⟩ | ⟨shown, ⟨read, d, first, same⟩ | ⟨valid, v, -, same⟩⟩
  · right
    refine ⟨⟨d, _, by rw [same]⟩, fun sure => ?_⟩
    obtain ⟨t, member, problem⟩ := first.mem
    rw [((certain t).mp (sure t member)).1] at problem
    cases problem
  · right
    refine ⟨⟨d, _, by rw [same]⟩, fun sure => ?_⟩
    obtain ⟨t, member, problem⟩ := first.mem
    rw [(wellFormed.invalid?_eq_none_iff member).mpr ((certain t).mp (sure t member)).2] at problem
    cases problem
  · left
    refine ⟨v, _, by rw [same], ?_, fun t member => ?_⟩
    · rw [Checker.expression_eq]
      exact h.marked _ _
    · exact (certain t).mpr
        ⟨shown t member, (wellFormed.invalid?_eq_none_iff member).mp (valid t member)⟩

/-! ### Single statements -/

namespace Outcome.Accords

variable {m : Machine} {c c' : Checker}

theorem withValue {e : Expression} {next : Float → Machine → Outcome} (h : m.env.Alike c.env)
    (quiet : c.Quiet) (wellFormed : e.tree.WellFormed)
    (grows : (c.expression e).findings <+: c'.findings)
    (later : ∀ v m', m'.env.Alike (c.expression e).env → (c.expression e).Quiet →
      (next v m').Accords c') : (m.withValue e next).Accords c' := by
  rcases h.evaluate quiet wellFormed with ⟨v, m', value, alike, still⟩ | ⟨⟨d, m', failed⟩, found⟩
  · rw [Machine.withValue, value]
    exact later v m' alike still
  · rw [Machine.withValue, failed]
    exact fun quiet' => found (quiet'.of_prefix grows)

theorem declare (h : m.env.Alike c.env) (quiet : c.Quiet) (keyword name : Token)
    (value : Option Float) :
    (m.declare keyword name value).Accords (c.declare keyword name value.isSome) := by
  -- That a constant has no value is told, but not decisive.
  obtain ⟨c₁, quiet₁, alike₁, same⟩ : ∃ c₁ : Checker, c₁.Quiet ∧ m.env.Alike c₁.env ∧
      c.declare keyword name value.isSome = c₁.change (c₁.env.declare
        (name.symbol (Program.isConst keyword) (if value.isSome then some 0 else none))) := by
    unfold Checker.declare
    dsimp only
    split
    · refine ⟨_, (Checker.quiet_report quiet).mpr ?_, h, rfl⟩
      rintro ⟨cause, decisive, told⟩
      cases told
      revert decisive
      decide
    · exact ⟨c, quiet, h, rfl⟩
  rw [same]
  have known : (name.symbol (Program.isConst keyword) value).sketch =
      (name.symbol (Program.isConst keyword) (if value.isSome then some 0 else none)).sketch := by
    cases value <;> rfl
  rcases alike₁.declare known with ⟨env, known, run, check, alike⟩ | ⟨d, run, check⟩
  · obtain ⟨event, ran⟩ := Machine.declare_of_ok run
    rw [ran, check]
    exact ⟨alike, quiet₁⟩
  · rw [Machine.declare_of_error run, check]
    have cause := (Env.rebinds_of_declare run).cause
    exact fun still =>
      (Checker.quiet_report quiet₁).mp still ⟨.constantRebinding, by decide, cause⟩

theorem assign (h : m.env.Alike c.env) (quiet : c.Quiet) (name : Token) (v : Float) :
    (m.assign name v).Accords (c.change (c.env.assign name.lexeme 0 name.position)) := by
  rcases h.assign name.lexeme v 0 name.position with
    ⟨env, known, run, check, alike⟩ | ⟨d, run, check⟩
  · rw [Machine.assign_of_ok run, check]
    exact ⟨alike, quiet⟩
  · rw [Machine.assign_of_error run, check]
    have cause := (Env.rebinds_of_assign run).cause
    exact fun still => (Checker.quiet_report quiet).mp still ⟨.constantRebinding, by decide, cause⟩

end Outcome.Accords

namespace Program

variable {limits : Limits} {p : Program} {m : Machine} {c : Checker}

/-- A statement without others inside fails exactly when something decisive is found in it. -/
theorem accords_first (simple : p.nests = false) (h : m.env.Alike c.env) (quiet : c.Quiet)
    (wellFormed : p.Forall fun e => e.tree.WellFormed) :
    (p.first.run limits m).Accords (p.first.check c) := by
  cases p with
  | done => exact ⟨h, quiet⟩
  | declare keyword name value rest =>
    simp only [first, run, check, andThen_done]
    cases value with
    | none => exact .declare h quiet keyword name none
    | some e =>
      exact .withValue h quiet (wellFormed.1 e rfl) (Checker.findings_declare _ _ _ _)
        fun v m' alike still => .declare alike still keyword name (some v)
  | assign name value rest =>
    simp only [first, run, check, andThen_done]
    exact .withValue h quiet wellFormed.1 (Checker.findings_change _ _)
      fun v m' alike still => .assign alike still name v
  | expression value rest =>
    simp only [first, run, check, andThen_done]
    exact .withValue h quiet wellFormed.1 List.prefix_rfl
      fun v m' alike still => ⟨alike, still⟩
  | block | ifThen | ifElse | loop => cases simple

/-! ### Programs -/

/-- The run goes through and nothing decisive is found, or the run fails where the first such thing
is found. -/
def Exact (limits : Limits) (p : Program) (m : Machine) (c : Checker) : Prop :=
  (∃ m', p.run limits m = ⟨m', none⟩ ∧ m'.env.Alike (p.check c).env ∧ (p.check c).Quiet) ∨
    ∃ m' fault, p.run limits m = ⟨m', some fault⟩ ∧ p.Stumbles limits m c fault

theorem Exact.after {m₁ : Machine} (ended : p.first.run limits m = ⟨m₁, none⟩)
    (later : p.rest.Exact limits m₁ (p.first.check c)) : p.Exact limits m c := by
  have onwards : p.run limits m = p.rest.run limits m₁ := by
    rw [run_eq_first_rest, ended]
    rfl
  unfold Exact
  rw [onwards, p.check_eq_first_rest]
  rcases later with through | ⟨m', fault, failed, depth, q, m₂, c', meets, stumbles⟩
  · exact .inl through
  · exact .inr ⟨m', fault, failed, depth, q, m₂, c', .after (.of_run ended) meets, stumbles⟩

theorem Exact.of_first (simple : p.nests = false) (h : m.env.Alike c.env) (quiet : c.Quiet)
    (wellFormed : p.Forall fun e => e.tree.WellFormed)
    (later : ∀ m₁, m₁.env.Alike (p.first.check c).env → (p.first.check c).Quiet →
      p.rest.Exact limits m₁ (p.first.check c)) : p.Exact limits m c := by
  have accords : (p.first.run limits m).Accords (p.first.check c) :=
    accords_first simple h quiet wellFormed
  cases ran : p.first.run limits m with
  | mk m₁ fault =>
    rw [ran] at accords
    cases fault with
    | none => exact .after ran (later m₁ accords.1 accords.2)
    | some fault =>
      refine .inr ⟨m₁, fault, ?_, 0, p, m, c, .here, simple, by rw [ran], quiet, accords⟩
      rw [run_eq_first_rest, ran]
      rfl

theorem Exact.block (chain : limits.scoping = .chain) {brace : Token} {body rest : Program}
    (inside : body.Exact limits (limits.entered .block (m.note (.enterBlock brace.line)))
      (c.entered .block))
    (later : ∀ m₁, m₁.env.Alike (Checker.within .block body.check c).env →
      (Checker.within .block body.check c).Quiet →
        rest.Exact limits m₁ (Checker.within .block body.check c)) :
    (Program.block brace body rest).Exact limits m c := by
  have blockRun : (Program.block brace body rest).first.run limits m =
      ⟨limits.left (m.note (.enterBlock brace.line))
        (body.run limits (limits.entered .block (m.note (.enterBlock brace.line)))).machine,
        (body.run limits (limits.entered .block (m.note (.enterBlock brace.line)))).fault⟩ := by
    simp only [first, run, andThen_done]
    exact limits.within_eq .block _ _
  rcases inside with
    ⟨inner, ended, alike, still⟩ | ⟨inner, fault, failed, depth, q, m', c', meets, stumbles⟩
  · rw [ended] at blockRun
    refine .after blockRun (later _ ?_ ?_)
    · rw [Checker.within_eq, Limits.left, Limits.leave, chain]
      exact alike.tail
    · rw [Checker.within_eq]
      intro d member
      rcases List.mem_append.mp member with inBlock | reported
      · exact still d inBlock
      · exact Checker.not_decisive_of_reports reported
  · rw [failed] at blockRun
    have stopped : (Program.block brace body rest).run limits m =
        ⟨limits.left (m.note (.enterBlock brace.line)) inner, some fault⟩ := by
      rw [run_eq_first_rest, blockRun]
      rfl
    exact .inr ⟨_, fault, stopped, depth + 1, q, m', c', .block meets, stumbles⟩

theorem straight_exact (chain : limits.scoping = .chain) (straight : p.straight = true)
    (wellFormed : p.Forall fun e => e.tree.WellFormed) (h : m.env.Alike c.env) (quiet : c.Quiet) :
    p.Exact limits m c := by
  induction p generalizing m c with
  | done => exact .inl ⟨m, rfl, h, quiet⟩
  | block brace body rest ihBody ihRest =>
    obtain ⟨inside, behind⟩ := Bool.and_eq_true_iff.mp straight
    have entered : (limits.entered .block (m.note (.enterBlock brace.line))).env.Alike
        (c.entered .block).env := by
      rw [Limits.entered, Limits.enter, chain]
      exact h.child .block
    exact .block chain (ihBody inside wellFormed.1 entered quiet)
      fun m₁ alike still => ihRest behind wellFormed.2 alike still
  | declare keyword name value rest ihRest =>
    exact .of_first rfl h quiet wellFormed fun m₁ alike still =>
      ihRest straight wellFormed.2 alike still
  | assign name value rest ihRest =>
    exact .of_first rfl h quiet wellFormed fun m₁ alike still =>
      ihRest straight wellFormed.2 alike still
  | expression value rest ihRest =>
    exact .of_first rfl h quiet wellFormed fun m₁ alike still =>
      ihRest straight wellFormed.2 alike still
  | ifThen | ifElse | loop => cases straight

/-- A program of a script without branches and loops runs through if and only if nothing decisive
is found about it. When it fails, the statement in which it fails is the one about which the first
decisive thing is found. -/
theorem check_exact {tokens : List Token} {p : Program} (lexed : ∀ t ∈ tokens, t.Lexed)
    (success : read tokens = .ok p) (straight : p.straight = true) {limits : Limits}
    (chain : limits.scoping = .chain) {m : Machine} (empty : m.env = Env.global) :
    ((p.run limits m).fault = none ↔ ∀ d ∈ p.findings, ¬ d.Decisive) ∧
      ∀ fault, (p.run limits m).fault = some fault →
        ∃ depth q m' c', p.Meets limits m {} depth q m' c' ∧ q.nests = false ∧
          (q.first.run limits m').fault = some fault ∧ (∀ d ∈ c'.findings, ¬ d.Decisive) ∧
          (∃ d ∈ (q.first.check c').findings, d.Decisive) ∧
          (q.first.check c').findings <+: p.findings := by
  have start : m.env.Alike ({} : Checker).env := by
    rw [empty]
    rfl
  have silent : ({} : Checker).Quiet := fun d member => by cases member
  rcases straight_exact chain straight (wellFormed_of_read lexed success) start silent with
    ⟨m', ended, -, quiet⟩ |
    ⟨m', fault, failed, depth, q, m₁, c', meets, simple, stopped, before, found⟩
  · rw [ended]
    exact ⟨⟨fun _ => quiet, fun _ => rfl⟩, fun fault failed => by cases failed⟩
  · have first := meets.findings_first
    rw [failed]
    refine ⟨⟨(nomatch ·), fun quiet => ?_⟩, ?_⟩
    · have whole : (p.check {}).Quiet := quiet
      exact absurd (whole.of_prefix first) found
    · rintro _ ⟨⟩
      refine ⟨depth, q, m₁, c', meets, simple, stopped, before, ?_, first⟩
      simpa [Checker.Quiet] using found

/-- The tokens of `const k = 2; { let x = k; k = x + 1; } y;`. -/
def rebindingInBlock : List Token :=
  (tokenize (Text.ofString "const k = 2; \x7b let x = k; k = x + 1; \x7d y;") []).1

/-- The run fails at the assignment in the block, before it comes to the unknown name, about which
the check complains as well. -/
theorem check_exact_rebindingInBlock :
    ∃ p fault depth q m' c', (∀ t ∈ rebindingInBlock, t.Lexed) ∧ read rebindingInBlock = .ok p ∧
      p.straight = true ∧ (p.run {} {}).fault = some fault ∧ p.Meets {} {} {} depth q m' c' ∧
      (q.first.run {} m').fault = some fault ∧ (∀ d ∈ c'.findings, ¬ d.Decisive) ∧
      (∃ d ∈ (q.first.check c').findings, d.Decisive) := by
  have lexed : ∀ t ∈ rebindingInBlock, t.Lexed := fun t member => ⟨_, _, member⟩
  have shape : (read rebindingInBlock).toOption.map straight = some true := by decide +kernel
  have fails : ((read rebindingInBlock).toOption.bind fun p => (p.run {} {}).fault).isSome =
      true := by decide +kernel
  cases success : read rebindingInBlock with
  | error d => simp [success, Except.toOption] at shape
  | ok p =>
    rw [success] at shape fails
    obtain ⟨fault, failed⟩ := Option.isSome_iff_exists.mp fails
    have straight : p.straight = true := Option.some.inj shape
    obtain ⟨depth, q, m', c', meets, -, stopped, before, found, -⟩ :=
      (@check_exact _ p lexed success straight {} rfl {} rfl).2 fault failed
    exact ⟨p, fault, depth, q, m', c', lexed, rfl, straight, failed, meets, stopped, before, found⟩

end Program

end NumScript
