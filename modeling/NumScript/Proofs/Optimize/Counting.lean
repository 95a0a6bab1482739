import NumScript.Proofs.Optimize.Rounds

/-! What optimizing counts. Folding counts the operators that it makes go, either pass counts
something just when it changes the program, and so the rounds end with the first one that leaves
the program as it was, or with the last one that is allowed. -/

namespace NumScript

/-! ### Operators -/

namespace Tree

/-- The number of operators in the tree. -/
def operators (t : Tree) : Nat := t.nodes.countP fun node => !node.isLeaf

@[simp] theorem operators_leaf (t : Token) : (leaf t).operators = 0 := rfl

@[simp] theorem operators_unary (op : Token) (a : Tree) :
    (unary op a).operators = a.operators + 1 := by
  simp [operators, nodes, isLeaf]

@[simp] theorem operators_binary (op : Token) (a b : Tree) :
    (binary op a b).operators = a.operators + b.operators + 1 := by
  simp [operators, nodes, isLeaf]

theorem operators_of_isNumberLeaf {t : Tree} (number : t.isNumberLeaf = true) :
    t.operators = 0 := by
  cases t with
  | leaf t => rfl
  | _ => cases number

/-- A node that is replaced has numbers for operands, so it is the only operator that goes. -/
theorem foldNode_unary_operators (op : Token) (a : Tree) :
    (foldNode (unary op a)).2 + (foldNode (unary op a)).1.operators = a.operators + 1 := by
  by_cases numbers : (unary op a).operands.all isNumberLeaf = true
  · have plain : a.operators = 0 := operators_of_isNumberLeaf (by simpa [operands] using numbers)
    rcases foldNode_cases (unary op a) with ⟨-, same⟩ | ⟨v, replaced⟩
    · simp [same]
    · simp [replaced, plain]
  · simp [foldNode, numbers]

theorem foldNode_binary_operators (op : Token) (a b : Tree) :
    (foldNode (binary op a b)).2 + (foldNode (binary op a b)).1.operators =
      a.operators + b.operators + 1 := by
  by_cases numbers : (binary op a b).operands.all isNumberLeaf = true
  · obtain ⟨left, right⟩ : a.isNumberLeaf = true ∧ b.isNumberLeaf = true := by
      simpa [operands] using numbers
    rcases foldNode_cases (binary op a b) with ⟨-, same⟩ | ⟨v, replaced⟩
    · simp [same]
    · simp [replaced, operators_of_isNumberLeaf left, operators_of_isNumberLeaf right]
  · simp [foldNode, numbers]

/-- Folding a tree counts the operators that go. -/
theorem fold_operators {t : Tree} (h : t.WellShaped) :
    t.fold.2 + t.fold.1.operators = t.operators := by
  induction h with
  | leaf => rfl
  | @unary op _ a _ _ ih =>
    have here := foldNode_unary_operators op a.fold.1
    rw [fold, operators_unary]
    dsimp only
    omega
  | @binary op _ a b _ _ _ ihLeft ihRight =>
    have here := foldNode_binary_operators op a.fold.1 b.fold.1
    rw [fold, operators_binary]
    dsimp only
    omega

end Tree

namespace Program

/-- The number of operators in the expressions of the program. -/
def operators : Program → Nat
  | done => 0
  | block _ body rest => body.operators + rest.operators
  | declare _ _ value rest => (value.elim 0 fun e => e.tree.operators) + rest.operators
  | assign _ value rest => value.tree.operators + rest.operators
  | expression value rest => value.tree.operators + rest.operators
  | ifThen _ condition _ body rest =>
    condition.tree.operators + body.operators + rest.operators
  | ifElse _ condition _ body _ elseBody rest =>
    condition.tree.operators + body.operators + elseBody.operators + rest.operators
  | loop _ condition _ body rest =>
    condition.tree.operators + body.operators + rest.operators

/-- Folding a program counts the operators that go. -/
theorem Shaped.fold_operators {p : Program} (shaped : p.Shaped) :
    p.fold.2 + p.fold.1.operators = p.operators := by
  have expression {e : Expression} (h : e.tree.WellShaped) :
      e.fold.2 + e.fold.1.tree.operators = e.tree.operators := Tree.fold_operators h
  induction p with
  | done => rfl
  | block brace body rest ihBody ih =>
    have inner := ihBody shaped.1
    have below := ih shaped.2
    simp only [Program.fold, operators]
    omega
  | declare keyword name value rest ih =>
    have below := ih shaped.2
    cases value with
    | none =>
      simp only [Program.fold, operators, Option.elim_none]
      omega
    | some e =>
      have value := expression (shaped.1 e rfl)
      simp only [Program.fold, operators, Option.elim_some]
      omega
  | assign name value rest ih =>
    have value := expression shaped.1
    have below := ih shaped.2
    simp only [Program.fold, operators]
    omega
  | expression value rest ih =>
    have value := expression shaped.1
    have below := ih shaped.2
    simp only [Program.fold, operators]
    omega
  | ifThen keyword condition brace body rest ihBody ih =>
    have decided := expression shaped.1
    have inner := ihBody shaped.2.1
    have below := ih shaped.2.2
    simp only [Program.fold, operators]
    omega
  | ifElse keyword condition brace body elseBrace elseBody rest ihBody ihElse ih =>
    have decided := expression shaped.1
    have inner := ihBody shaped.2.1
    have other := ihElse shaped.2.2.1
    have below := ih shaped.2.2.2
    simp only [Program.fold, operators]
    omega
  | loop keyword condition brace body rest ihBody ih =>
    have decided := expression shaped.1
    have inner := ihBody shaped.2.1
    have below := ih shaped.2.2
    simp only [Program.fold, operators]
    omega

/-! ### Passes -/

/-- What the passes count when they are run over the program with some savings before them: folding
the operators that go, and either pass something just when it changes the program. -/
structure Counted (p : Program) : Prop where
  folded (s : Savings) : (s + { folded := p.fold.2 }).folded + p.fold.1.operators =
    s.folded + p.operators
  fold (s : Savings) : (s + { folded := p.fold.2 }).total = s.total ↔ p.fold.1 = p
  sweep (s : Savings) : (s + p.sweep.2).total = s.total ↔ p.sweep.1 = p

theorem sweep_total_eq_zero_iff {p : Program} : p.sweep.2.total = 0 ↔ p.sweep.1 = p := by
  constructor
  · exact sweep_of_total
  · intro unchanged
    have swept : p.Swept := unchanged ▸ swept_sweep p
    rw [swept.sweep_eq]
    rfl

theorem Shaped.fold_count_eq_zero_iff {p : Program} (shaped : p.Shaped) :
    p.fold.2 = 0 ↔ p.fold.1 = p := by
  constructor
  · exact fold_of_count
  · intro unchanged
    have count := shaped.fold_operators
    rw [unchanged] at count
    omega

theorem Shaped.counted {p : Program} (shaped : p.Shaped) : p.Counted where
  folded s := by
    have count := shaped.fold_operators
    show s.folded + p.fold.2 + p.fold.1.operators = _
    omega
  fold s := by
    rw [Savings.total_add, Nat.add_eq_left, ← shaped.fold_count_eq_zero_iff]
    rfl
  sweep s := by
    rw [Savings.total_add, Nat.add_eq_left, sweep_total_eq_zero_iff]

/-! ### Rounds -/

/-- The program after `k` rounds. -/
def afterRounds (p : Program) : Nat → Program
  | 0 => p
  | k + 1 => p.optimizeOnce.1.afterRounds k

theorem Shaped.afterRounds {p : Program} (shaped : p.Shaped) (k : Nat) :
    (p.afterRounds k).Shaped := by
  induction k generalizing p with
  | zero => exact shaped
  | succ k ih => exact ih shaped.optimizeOnce

/-- `r` rounds are run when `n` are allowed: one more as long as each has changed the program. -/
def Runs (p : Program) (n r : Nat) : Prop :=
  ∀ k, k < r ↔ k < n ∧ ∀ j < k, p.afterRounds (j + 1) ≠ p.afterRounds j

theorem runs_zero (p : Program) : p.Runs 0 0 := by simp [Runs]

theorem runs_one {p : Program} (unchanged : p.optimizeOnce.1 = p) (n : Nat) :
    p.Runs (n + 1) 1 := by
  intro k
  cases k with
  | zero => simp
  | succ k =>
    refine ⟨fun more => absurd more (by omega), fun ⟨_, changes⟩ => ?_⟩
    exact absurd unchanged (changes 0 (Nat.succ_pos k))

theorem Runs.succ {p : Program} {n r : Nat} (changed : p.optimizeOnce.1 ≠ p)
    (h : p.optimizeOnce.1.Runs n r) : p.Runs (n + 1) (r + 1) := by
  intro k
  cases k with
  | zero => simp
  | succ k =>
    rw [Nat.add_lt_add_iff_right, Nat.add_lt_add_iff_right, h k]
    refine and_congr_right fun _ => ⟨fun changes j below => ?_, fun changes j below => ?_⟩
    · cases j with
      | zero => exact changed
      | succ j => exact changes j (by omega)
    · exact changes (j + 1) (by omega)

/-- The counters of a round tell whether to go on, so rounds are run as long as they change the
program. -/
theorem optimizeFrom_runs (n : Nat) {o : Optimized} (shaped : o.program.Shaped) :
    ∃ r, (optimizeFrom o n).rounds = o.rounds + r ∧
      (optimizeFrom o n).program = o.program.afterRounds r ∧ o.program.Runs n r := by
  induction n generalizing o with
  | zero => exact ⟨0, rfl, rfl, runs_zero _⟩
  | succ n ih =>
    by_cases unchanged : o.program.optimizeOnce.1 = o.program
    · have uncounted := shaped.total_optimizeOnce.mpr unchanged
      refine ⟨1, ?_, ?_, runs_one unchanged n⟩ <;> simp only [optimizeFrom, uncounted, if_true]
      rfl
    · have counted := mt shaped.total_optimizeOnce.mp unchanged
      obtain ⟨r, rounds, program, runs⟩ := ih
        (o := ⟨o.program.optimizeOnce.1, o.savings + o.program.optimizeOnce.2, o.rounds + 1⟩)
        shaped.optimizeOnce
      refine ⟨r + 1, ?_, ?_, runs.succ unchanged⟩ <;> simp only [optimizeFrom, counted, if_false]
      · exact rounds.trans (by simp only [Nat.add_assoc, Nat.add_comm 1])
      · exact program

/-- Before and after any number of rounds over a program that is read, and between the two passes of
a round, folding counts as many operators as it makes go, and the sum of the counters is kept by a
pass just when the pass changes nothing. Of the rounds that are allowed one more is run as long as
each one before has changed the program. -/
theorem optimize_counts {tokens : List Token} {p : Program} (success : read tokens = .ok p) :
    (∀ k, (p.afterRounds k).Counted ∧ (p.afterRounds k).fold.1.Counted) ∧
      ∀ n : Int, (p.optimize n).program = p.afterRounds (p.optimize n).rounds ∧
        ∀ k, k < (p.optimize n).rounds ↔
          (k : Int) < n ∧ ∀ j < k, p.afterRounds (j + 1) ≠ p.afterRounds j := by
  have shaped : p.Shaped := wellShaped_of_read success
  refine ⟨fun k => ⟨(shaped.afterRounds k).counted, (shaped.afterRounds k).fold.counted⟩,
    fun n => ?_⟩
  obtain ⟨r, rounds, program, runs⟩ := optimizeFrom_runs n.toNat (o := { program := p }) shaped
  have count : (p.optimize n).rounds = r := rounds.trans (Nat.zero_add r)
  refine ⟨count ▸ program, fun k => ?_⟩
  rw [count, runs k, Int.lt_toNat]

/-- The tokens of `let y = 2 * 3 + "a"; if (y) { { } }`. -/
def textOperand : List Token :=
  (tokenize (Text.ofString "let y = 2 * 3 + \"a\"; if (y) \x7b \x7b \x7d \x7d") []).1

/-- The product is folded, the sum has a text for an operand and stays, and the empty block goes;
the second of ten rounds finds nothing to do. -/
theorem optimize_counts_textOperand :
    ∃ p, read textOperand = .ok p ∧ p.operators = 2 ∧ p.fold.2 = 1 ∧ p.fold.1.operators = 1 ∧
      p.fold.1 ≠ p ∧ (p.optimize 10).rounds = 2 ∧ p.afterRounds 1 ≠ p ∧
      p.afterRounds 2 = p.afterRounds 1 := by
  have shape : (read textOperand).toOption.map
      (fun p => (p.operators, p.fold.2, (p.optimize 10).rounds)) = some (2, 1, 2) := by
    decide +kernel
  cases success : read textOperand with
  | error d => simp [success, Except.toOption] at shape
  | ok p =>
    rw [success] at shape
    simp only [Except.toOption, Option.map_some, Option.some.injEq, Prod.mk.injEq] at shape
    obtain ⟨operators, folded, rounds⟩ := shape
    obtain ⟨counted, ends⟩ := optimize_counts success
    have gone : p.fold.2 + p.fold.1.operators = p.operators := by
      have count : 0 + p.fold.2 + p.fold.1.operators = 0 + p.operators := (counted 0).1.folded {}
      omega
    have changed : p.fold.1 ≠ p := by
      intro unchanged
      have kept : 0 + p.fold.2 + 0 + 0 = 0 := ((counted 0).1.fold {}).mpr unchanged
      omega
    have more := (ends 10).2
    rw [rounds] at more
    have first : p.afterRounds 1 ≠ p := ((more 1).mp (by decide)).2 0 (by decide)
    have second : p.afterRounds 2 = p.afterRounds 1 := by
      by_contra changes
      refine absurd ((more 2).mpr ⟨by decide, fun j below => ?_⟩) (by decide)
      obtain rfl | rfl : j = 0 ∨ j = 1 := by omega
      · exact first
      · exact changes
    exact ⟨p, rfl, operators, folded, by omega, changed, rounds, first, second⟩

end Program

end NumScript
