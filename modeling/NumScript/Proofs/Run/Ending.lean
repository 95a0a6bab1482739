import NumScript.Proofs.Run.Comparing

/-! When a run ends. Without a limit on loops a run may go on for ever; it ends when some patience
is enough for it. More patience never changes a run that has ended, so a run ends in one way at
most. -/

namespace NumScript

/-- The run of `p` from `m` ends in `o`: some patience is enough. -/
def Program.Ends (p : Program) (limits : Limits) (m : Machine) (o : Outcome) : Prop :=
  o.fault ≠ some .exhausted ∧ ∃ patience, p.run { limits with patience := patience } m = o

/-- Where `f` comes to an end, `g` comes to the same one. -/
def Extends (f g : Machine → Outcome) : Prop :=
  ∀ m, (f m).fault ≠ some .exhausted → g m = f m

/-- Where `f` comes to an end and not through one of the given faults, `g` comes to the same one. -/
def ExtendsUnless (given : Fault → Prop) (f g : Machine → Outcome) : Prop :=
  ∀ m, (∀ fault, (f m).fault = some fault → ¬ given fault) → g m = f m

/-- A run with `limits'` goes at least as far as with `limits`. Blocks see the same, loops have as
many rounds and are let on where they were let on before; a loop that was refused is refused in the
same way, unless its refusal is one of the given faults. -/
structure Limits.Widens (given : Fault → Prop) (limits limits' : Limits) : Prop where
  scoping : limits'.scoping = limits.scoping
  rounds : limits.rounds ≤ limits'.rounds
  exhausted : given .exhausted
  unspent : ∀ m, limits.spent m = false → limits'.spent m = false
  refused : ∀ m keyword, limits.spent m = true → given (.problem (limits.exceeded keyword)) ∨
    limits'.spent m = true ∧ limits'.exceeded keyword = limits.exceeded keyword

theorem Limits.Widens.refl (limits : Limits) : limits.Widens (· = .exhausted) limits :=
  ⟨rfl, Nat.le_refl _, rfl, fun _ unspent => unspent, fun _ _ spent => .inr ⟨spent, rfl⟩⟩

/-- A run beside one from the same state that may be cut off by one of the given faults. -/
def Comparison.extension (given : Fault → Prop) : Comparison where
  states := Eq
  cut := given

theorem Comparison.eq_of_extension {given : Fault → Prop} {o o' : Outcome}
    (h : (extension given).Outcomes o o')
    (free : ∀ fault, o'.fault = some fault → ¬ given fault) : o = o' := by
  obtain ⟨machine, faults⟩ := h.uncut free
  rw [show o = ⟨o.machine, o.fault⟩ from rfl, machine, Option.eq_of_rel faults]

theorem Comparison.extension_refl (given : Fault → Prop) (f : Machine → Outcome) :
    (extension given).Holds f f := by
  rintro m _ rfl
  exact .alike (fun _ => rfl) rfl _

theorem Limits.Widens.kept {given : Fault → Prop} {limits limits' : Limits}
    (wider : limits.Widens given limits') :
    (Comparison.extension given).Kept limits' limits where
  evaluate := by
    rintro m _ e _ rfl rfl
    exact ⟨rfl, .refl (fun _ => rfl) _⟩
  note := by
    rintro m _ event event' rfl notes
    cases notes <;> simp_all [Comparison.extension]
  store := by
    rintro m _ v rfl
    rfl
  opens := by
    rintro kind m _ rfl
    refine ⟨?_, ?_⟩
    · change limits'.entered kind m = limits.entered kind m
      simp only [Limits.entered, Limits.enter, wider.scoping]
    · rintro n _ rfl
      change limits'.left m n = limits.left m n
      simp only [Limits.left, Limits.leave, wider.scoping]
  declare := by
    rintro keyword _ name _ value rfl rfl
    exact Comparison.extension_refl given _
  assign := by
    rintro name _ v rfl
    exact Comparison.extension_refl given _
  allow := by
    rintro keyword _ rfl m _ rfl
    cases spent : limits.spent m with
    | true =>
      have stopped : limits.allow keyword m = m.fail (limits.exceeded keyword) := if_pos spent
      rw [stopped]
      rcases wider.refused m keyword spent with hit | ⟨spent', same⟩
      · exact .cut rfl hit
      · rw [Limits.allow, if_pos spent', same]
        exact .alike (fun _ => rfl) rfl _
    | false =>
      simp only [Limits.allow, spent, wider.unspent m spent]
      exact .alike (fun _ => rfl) rfl _
  exhausted := rfl
  rounds := .inr ⟨wider.rounds, wider.exhausted⟩

/-- Wider limits never change a run that has ended, and not through one of the given faults. -/
theorem Program.run_widens {given : Fault → Prop} {limits limits' : Limits}
    (wider : limits.Widens given limits') (p : Program) :
    ExtendsUnless given (p.run limits) (p.run limits') := by
  intro m free
  have pairs : (Comparison.extension given).Pairs p p :=
    Comparison.pairs_self (fun _ => rfl) (fun _ => rfl) p
  exact Comparison.eq_of_extension (wider.kept.run pairs m m rfl) free

/-- More patience never changes a run that has ended. -/
theorem Program.run_patience (p : Program) (limits : Limits) {patience : Nat}
    (more : limits.patience ≤ patience) :
    Extends (p.run limits) (p.run { limits with patience := patience }) := by
  have wider : limits.Widens (· = .exhausted) { limits with patience := patience } := by
    refine ⟨rfl, ?_, rfl, fun _ unspent => unspent, fun _ _ spent => .inr ⟨spent, rfl⟩⟩
    simp only [Limits.rounds]
    split
    · exact Nat.le_refl _
    · exact more
  intro m ended
  refine p.run_widens wider m fun fault failed given => ended ?_
  rw [failed, given]

/-- More rounds never change a loop that has ended. -/
theorem Limits.iterate_extends (limits : Limits) (keyword : Token) (condition : Expression)
    (body : Machine → Outcome) {fuel fuel' : Nat} (more : fuel ≤ fuel') :
    Extends (limits.iterate keyword condition body fuel)
      (limits.iterate keyword condition body fuel') := by
  intro m ended
  have loops := (Limits.Widens.refl limits).kept.iterate (@rfl _ keyword) (@rfl _ condition)
    (Comparison.extension_refl _ body) rfl (.inr ⟨more, rfl⟩) m m rfl
  refine Comparison.eq_of_extension loops fun fault failed given => ended ?_
  rw [failed, given]

/-- A run ends in one way at most. -/
theorem Program.Ends.unique {p : Program} {limits : Limits} {m : Machine} {o o' : Outcome}
    (h : p.Ends limits m o) (h' : p.Ends limits m o') : o = o' := by
  obtain ⟨ended, k, rfl⟩ := h
  obtain ⟨ended', k', rfl⟩ := h'
  rcases Nat.le_total k k' with more | more
  · exact (p.run_patience { limits with patience := k } more m ended).symm
  · exact p.run_patience { limits with patience := k' } more m ended'

end NumScript
