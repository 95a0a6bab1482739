import NumScript.Proofs.Check.Findings

/-! Where a run and a check are at the same statement. A run may pass over a block or come through
it many times, while the check comes to every statement once; still each point that a run comes to
has its state of the check, and what the check has found there stays in front of all that it finds
later. -/

namespace NumScript

namespace Checker

/-- What is reported when the innermost scope is left. -/
def reports (c : Checker) : List Diagnostic :=
  match c.env with
  | [] => []
  | scope :: _ => scope.unused.map (unusedIn scope.kind)

/-- A block of a check is labelled by what opened it, so its reports are those of its scope. -/
theorem within_eq (kind : ScopeKind) (body : Program) (c : Checker) :
    within kind body.check c =
      { env := (body.check (c.entered kind)).env.tail
        findings := (body.check (c.entered kind)).findings ++
          (body.check (c.entered kind)).reports } := by
  have labels := Env.kept_kinds.check body (c.entered kind)
  cases inner : body.check (c.entered kind) with
  | mk env findings =>
    have same : body.check { c with env := c.env.child kind } = ⟨env, findings⟩ := inner
    rw [inner] at labels
    cases env with
    | nil => cases labels
    | cons scope outer =>
      have label : scope.kind = kind := (List.cons.inj labels).1
      simp only [within, same, reports, label, List.tail_cons]

end Checker

namespace Program

/-- The run of `p` from `m` comes, inside `depth` blocks, to a point where `q` is left to run and
the state is `m'`; the check of `p` from `c` comes to the same point of the text in state `c'`. -/
inductive Meets (limits : Limits) :
    Program → Machine → Checker → Nat → Program → Machine → Checker → Prop
  | here {p : Program} {m : Machine} {c : Checker} : Meets limits p m c 0 p m c
  | after {p q : Program} {m m₁ m' : Machine} {c c' : Checker} {depth : Nat} :
      p.first.Ends limits m ⟨m₁, none⟩ →
      Meets limits p.rest m₁ (p.first.check c) depth q m' c' → Meets limits p m c depth q m' c'
  | block {brace : Token} {body rest q : Program} {m m' : Machine} {c c' : Checker} {depth : Nat} :
      Meets limits body (limits.entered .block (m.note (.enterBlock brace.line)))
        (c.entered .block) depth q m' c' →
      Meets limits (.block brace body rest) m c (depth + 1) q m' c'
  | ifThen {keyword brace : Token} {condition : Expression} {body rest q : Program}
      {m m₁ m' : Machine} {c c' : Checker} {depth : Nat} :
      m.Decides keyword condition true m₁ →
      Meets limits body (limits.entered .branch m₁) ((c.expression condition).entered .branch)
        depth q m' c' →
      Meets limits (.ifThen keyword condition brace body rest) m c (depth + 1) q m' c'
  | ifElse {keyword brace elseBrace : Token} {condition : Expression}
      {body elseBody rest q : Program} {m m₁ m' : Machine} {c c' : Checker} {depth : Nat} :
      m.Decides keyword condition true m₁ →
      Meets limits body (limits.entered .branch m₁) ((c.expression condition).entered .branch)
        depth q m' c' →
      Meets limits (.ifElse keyword condition brace body elseBrace elseBody rest) m c (depth + 1)
        q m' c'
  | otherwise {keyword brace elseBrace : Token} {condition : Expression}
      {body elseBody rest q : Program} {m m₁ m' : Machine} {c c' : Checker} {depth : Nat} :
      m.Decides keyword condition false m₁ →
      -- The check has been through the other branch before.
      Meets limits elseBody (limits.entered .branch m₁)
        ((Checker.within .branch body.check (c.expression condition)).entered .branch)
        depth q m' c' →
      Meets limits (.ifElse keyword condition brace body elseBrace elseBody rest) m c (depth + 1)
        q m' c'
  | loop {keyword brace : Token} {condition : Expression} {body rest q : Program}
      {m m₁ m' : Machine} {c c' : Checker} {depth : Nat} :
      limits.GoesRound keyword condition m m₁ →
      Meets limits body (limits.entered .loop m₁) ((c.expression condition).entered .loop)
        depth q m' c' →
      Meets limits (.loop keyword condition brace body rest) m c (depth + 1) q m' c'
  | again {keyword brace : Token} {condition : Expression} {body rest q : Program}
      {m m₁ m₂ m' : Machine} {c c' : Checker} {depth : Nat} :
      limits.GoesRound keyword condition m m₁ →
      body.Ends limits (limits.entered .loop m₁) ⟨m₂, none⟩ →
      -- However often the run goes round, the check does not.
      Meets limits (.loop keyword condition brace body rest) (limits.left m₁ m₂) c depth q m' c' →
      Meets limits (.loop keyword condition brace body rest) m c depth q m' c'

variable {limits : Limits} {p q : Program} {m m' : Machine} {c c' : Checker} {depth : Nat}

theorem Reaches.exists_meets (h : p.Reaches limits m depth q m') (c : Checker) :
    ∃ c', p.Meets limits m c depth q m' c' := by
  induction h generalizing c with
  | here => exact ⟨c, .here⟩
  | @after p _ _ _ _ _ ended _ ih =>
    obtain ⟨c', meets⟩ := ih (p.first.check c)
    exact ⟨c', .after ended meets⟩
  | block _ ih =>
    obtain ⟨c', meets⟩ := ih (c.entered .block)
    exact ⟨c', .block meets⟩
  | @ifThen _ _ condition _ _ _ _ _ _ _ decides _ ih =>
    obtain ⟨c', meets⟩ := ih ((c.expression condition).entered .branch)
    exact ⟨c', .ifThen decides meets⟩
  | @ifElse _ _ _ condition body _ _ _ _ _ _ _ holds decides _ ih =>
    cases holds with
    | true =>
      obtain ⟨c', meets⟩ := ih ((c.expression condition).entered .branch)
      exact ⟨c', .ifElse decides meets⟩
    | false =>
      obtain ⟨c', meets⟩ :=
        ih ((Checker.within .branch body.check (c.expression condition)).entered .branch)
      exact ⟨c', .otherwise decides meets⟩
  | @loop _ _ condition _ _ _ _ _ _ _ round _ ih =>
    obtain ⟨c', meets⟩ := ih ((c.expression condition).entered .loop)
    exact ⟨c', .loop round meets⟩
  | again round ended _ ih =>
    obtain ⟨c', meets⟩ := ih c
    exact ⟨c', .again round ended meets⟩

theorem Meets.reaches (h : p.Meets limits m c depth q m' c') : p.Reaches limits m depth q m' := by
  induction h with
  | here => exact .here
  | after ended _ ih => exact .after ended ih
  | block _ ih => exact .block ih
  | ifThen decides _ ih => exact .ifThen decides ih
  | ifElse decides _ ih => exact .ifElse decides ih
  | otherwise decides _ ih => exact .ifElse decides ih
  | loop round _ ih => exact .loop round ih
  | again round ended _ ih => exact .again round ended ih

theorem Meets.of_first (ended : p.run limits m = ⟨m', none⟩)
    (later : ∀ m₁ c₁, p.rest.run limits m₁ = ⟨m', none⟩ →
      p.rest.Meets limits m₁ c₁ 0 .done m' (p.rest.check c₁)) (c : Checker) :
    p.Meets limits m c 0 .done m' (p.check c) := by
  rw [run_eq_first_rest] at ended
  cases through : p.first.run limits m with
  | mk m₁ fault =>
    rw [through] at ended
    cases fault with
    | none =>
      rw [p.check_eq_first_rest]
      exact .after (.of_run through) (later m₁ _ ended)
    | some fault => cases ended

/-- A run that comes to the end of a program, or of the inside of a block, meets the check at its
end. -/
theorem Meets.of_run (ended : p.run limits m = ⟨m', none⟩) (c : Checker) :
    p.Meets limits m c 0 .done m' (p.check c) := by
  induction p generalizing m c with
  | done =>
    cases ended
    exact .here
  | block _ _ _ _ ih => exact .of_first ended (fun _ c₁ rest => ih rest c₁) c
  | declare _ _ _ _ ih => exact .of_first ended (fun _ c₁ rest => ih rest c₁) c
  | assign _ _ _ ih => exact .of_first ended (fun _ c₁ rest => ih rest c₁) c
  | expression _ _ ih => exact .of_first ended (fun _ c₁ rest => ih rest c₁) c
  | ifThen _ _ _ _ _ _ ih => exact .of_first ended (fun _ c₁ rest => ih rest c₁) c
  | ifElse _ _ _ _ _ _ _ _ _ ih => exact .of_first ended (fun _ c₁ rest => ih rest c₁) c
  | loop _ _ _ _ _ _ ih => exact .of_first ended (fun _ c₁ rest => ih rest c₁) c

/-- At the level of the whole program the check goes on to the same end. -/
theorem Meets.check_eq (h : p.Meets limits m c depth q m' c') (level : depth = 0) :
    q.check c' = p.check c := by
  induction h with
  | here => rfl
  | @after p _ _ _ _ _ _ _ _ _ ih => rw [ih level, ← p.check_eq_first_rest]
  | again _ _ _ ih => exact ih level
  | _ => cases level

theorem Meets.reports_within {kind : ScopeKind} {body : Program}
    (h : body.Meets limits m (c.entered kind) depth q m' c')
    (inside : 0 < depth →
      (q.check c').findings ++ (q.check c').reports <+: (body.check (c.entered kind)).findings) :
    (q.check c').findings ++ (q.check c').reports <+:
      (Checker.within kind body.check c).findings := by
  rw [Checker.within_eq]
  rcases Nat.eq_zero_or_pos depth with level | deeper
  · exact h.check_eq level ▸ List.prefix_rfl
  · exact (inside deeper).trans (List.prefix_append ..)

/-- Inside a block, the check goes on to the end of the block, where it reports the names that were
never read. -/
theorem Meets.reports (h : p.Meets limits m c depth q m' c') (nested : 0 < depth) :
    (q.check c').findings ++ (q.check c').reports <+: (p.check c).findings := by
  induction h with
  | here => cases nested
  | @after p _ _ _ _ _ _ _ _ _ ih =>
    rw [p.check_eq_first_rest]
    exact ih nested
  | block inner ih => exact (inner.reports_within ih).trans (Checker.findings_check _ _)
  | ifThen _ inner ih => exact (inner.reports_within ih).trans (Checker.findings_check _ _)
  | @ifElse _ _ _ _ _ elseBody _ _ _ _ _ _ _ _ _ inner ih =>
    exact (inner.reports_within ih).trans
      ((Checker.findings_block (Checker.findings_check elseBody) _).trans
        (Checker.findings_check _ _))
  | otherwise _ inner ih => exact (inner.reports_within ih).trans (Checker.findings_check _ _)
  | loop _ inner ih => exact (inner.reports_within ih).trans (Checker.findings_check _ _)
  | again _ _ _ ih => exact ih nested

/-- What has been found up to a point, and about the statement there, comes first. -/
theorem Meets.findings_first (h : p.Meets limits m c depth q m' c') :
    (q.first.check c').findings <+: (p.check c).findings := by
  have onwards : (q.first.check c').findings <+: (q.check c').findings := by
    rw [q.check_eq_first_rest]
    exact Checker.findings_check q.rest _
  rcases Nat.eq_zero_or_pos depth with level | deeper
  · rwa [← h.check_eq level]
  · exact onwards.trans ((List.prefix_append ..).trans (h.reports deeper))

end Program

end NumScript
