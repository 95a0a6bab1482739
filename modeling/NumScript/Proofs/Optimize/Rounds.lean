import NumScript.Proofs.Optimize.Sweeping

/-! Rounds. One round brings a program into normal form, a round over a normal form changes and
counts nothing, so the second round is the last one, whatever number is allowed. -/

namespace NumScript.Program

/-- The program is in normal form. -/
structure Normal (p : Program) : Prop where
  folded : p.Folded
  swept : p.Swept

/-! ### One round -/

theorem Shaped.optimizeOnce {p : Program} (shaped : p.Shaped) : p.optimizeOnce.1.Shaped :=
  Forall.sweep shaped.fold

theorem Shaped.normal_optimizeOnce {p : Program} (shaped : p.Shaped) :
    p.optimizeOnce.1.Normal where
  folded := Forall.sweep shaped.folded_fold
  swept := swept_sweep p.fold.1

theorem Shaped.optimizeOnce_of_normal {p : Program} (shaped : p.Shaped) (normal : p.Normal) :
    p.optimizeOnce = (p, {}) := by
  simp only [Program.optimizeOnce, shaped.fold_of_folded normal.folded, normal.swept.sweep_eq]
  rfl

/-- The counters of a round tell whether it has changed anything. -/
theorem Shaped.total_optimizeOnce {p : Program} (shaped : p.Shaped) :
    p.optimizeOnce.2.total = 0 ↔ p.optimizeOnce.1 = p := by
  constructor
  · intro uncounted
    have parts : p.optimizeOnce.2.total = p.fold.2 + p.fold.1.sweep.2.total :=
      Savings.total_add { folded := p.fold.2 } _
    obtain ⟨folded, swept⟩ := Nat.add_eq_zero_iff.mp (parts.symm.trans uncounted)
    exact (sweep_of_total swept).trans (fold_of_count folded)
  · intro unchanged
    have normal := shaped.normal_optimizeOnce
    rw [unchanged] at normal
    rw [shaped.optimizeOnce_of_normal normal]
    rfl

/-! ### All rounds -/

theorem optimizeFrom_of_normal {o : Optimized} (shaped : o.program.Shaped)
    (normal : o.program.Normal) (rounds : Nat) :
    optimizeFrom o (rounds + 1) = { o with rounds := o.rounds + 1 } := by
  rw [optimizeFrom, shaped.optimizeOnce_of_normal normal]
  rfl

theorem optimize_one (p : Program) :
    p.optimize 1 = ⟨p.optimizeOnce.1, {} + p.optimizeOnce.2, 1⟩ := by
  show optimizeFrom { program := p } 1 = _
  rw [optimizeFrom]
  dsimp only
  split <;> rfl

/-- A second round is run when one is allowed and the first has changed something; it is the last
and saves nothing. -/
theorem Shaped.optimize_cases {p : Program} (shaped : p.Shaped) {n : Int} (positive : 1 ≤ n) :
    (n = 1 ∨ (p.optimize 1).program = p) ∧ p.optimize n = p.optimize 1 ∨
      ¬ (n = 1 ∨ (p.optimize 1).program = p) ∧
        p.optimize n = { p.optimize 1 with rounds := 2 } := by
  obtain ⟨k, rfl⟩ : ∃ k : Nat, n = k + 1 := ⟨(n - 1).toNat, by omega⟩
  have first : p.optimize (k + 1) =
      if p.optimizeOnce.2.total = 0 then p.optimize 1 else optimizeFrom (p.optimize 1) k := by
    rw [optimize_one]
    rfl
  by_cases unchanged : (p.optimize 1).program = p
  · refine .inl ⟨.inr unchanged, ?_⟩
    rw [optimize_one] at unchanged
    rw [first, if_pos (shaped.total_optimizeOnce.mpr unchanged)]
  · cases k with
    | zero => exact .inl ⟨.inl rfl, rfl⟩
    | succ k =>
      refine .inr ⟨not_or.mpr ⟨by omega, unchanged⟩, ?_⟩
      rw [optimize_one] at unchanged
      rw [first, if_neg (mt shaped.total_optimizeOnce.mp unchanged), optimize_one]
      exact optimizeFrom_of_normal shaped.optimizeOnce shaped.normal_optimizeOnce k

/-- Rounds over a normal form change and save nothing. -/
theorem Shaped.optimize_of_normal {p : Program} (shaped : p.Shaped) (normal : p.Normal)
    (m : Int) : (p.optimize m).program = p ∧ (p.optimize m).savings = {} := by
  show (optimizeFrom { program := p } m.toNat).program = p ∧
    (optimizeFrom { program := p } m.toNat).savings = {}
  cases m.toNat with
  | zero => exact ⟨rfl, rfl⟩
  | succ k =>
    rw [optimizeFrom_of_normal shaped normal]
    exact ⟨rfl, rfl⟩

/-- However many rounds are allowed, a program that is read is optimized to the same program as by
one. In it no operator over numbers has a value, no condition is decided but for loops that are
always entered, and no block within a block is empty. Each pass is run once when one round is
allowed or the first changes nothing, and twice otherwise. Optimizing the result once more changes
and saves nothing. -/
theorem optimize_normal {tokens : List Token} {p : Program} (success : read tokens = .ok p)
    {n : Int} (positive : 1 ≤ n) :
    (p.optimize n).program = (p.optimize 1).program ∧
      (p.optimize n).program.Normal ∧
      ((n = 1 ∨ (p.optimize 1).program = p) ∧ (p.optimize n).rounds = 1 ∨
        ¬ (n = 1 ∨ (p.optimize 1).program = p) ∧ (p.optimize n).rounds = 2) ∧
      ∀ m : Int, ((p.optimize n).program.optimize m).program = (p.optimize n).program ∧
        ((p.optimize n).program.optimize m).savings = {} := by
  have shaped : p.Shaped := wellShaped_of_read success
  have once : (p.optimize 1).program = p.optimizeOnce.1 := by rw [optimize_one]
  have normal : (p.optimize 1).program.Normal := once ▸ shaped.normal_optimizeOnce
  have kept : (p.optimize 1).program.Shaped := once ▸ shaped.optimizeOnce
  have settled (m : Int) := kept.optimize_of_normal normal m
  have rounds : (p.optimize 1).rounds = 1 := by rw [optimize_one]
  rcases shaped.optimize_cases positive with ⟨single, same⟩ | ⟨double, same⟩
  · rw [same]
    exact ⟨rfl, normal, .inl ⟨single, rounds⟩, settled⟩
  · rw [same]
    exact ⟨rfl, normal, .inr ⟨double, rfl⟩, settled⟩

/-- The tokens of `if (2 * 3 > 10) { r; } else { { } } while (x) { 1 - 1; }`. -/
def cascade : List Token :=
  (tokenize
    (Text.ofString
      "if (2 * 3 > 10) \x7b r; \x7d else \x7b \x7b \x7d \x7d while (x) \x7b 1 - 1; \x7d") []).1

/-- Folding decides the condition, and the branch that is taken becomes empty and goes with it. -/
theorem optimize_normal_cascade :
    ∃ p, read cascade = .ok p ∧ (1 : Int) ≤ 10 ∧
      (p.optimize 10).program.outline =
        Text.ofString "scope\n  while x\n    scope\n      expr 0\n" ∧
      (p.optimize 10).program = (p.optimize 1).program ∧ (p.optimize 10).program.Normal ∧
      (p.optimize 10).rounds = 2 ∧
      ((p.optimize 10).program.optimize 10).savings = {} := by
  have shape : (read cascade).toOption.map
      (fun p => ((p.optimize 10).program.outline, (p.optimize 10).rounds)) =
        some (Text.ofString "scope\n  while x\n    scope\n      expr 0\n", 2) := by
    decide +kernel
  cases success : read cascade with
  | error d => simp [success, Except.toOption] at shape
  | ok p =>
    rw [success] at shape
    obtain ⟨outline, rounds⟩ := Prod.mk.inj (Option.some.inj shape)
    obtain ⟨same, normal, -, settled⟩ := optimize_normal success (n := 10) (by decide)
    exact ⟨p, rfl, by decide, outline, same, normal, rounds, (settled 10).2⟩

end NumScript.Program
