import NumScript.Optimize
import NumScript.Proofs.Check.WellFormed

/-! What optimizing leaves of a script. Folding puts numbers in the place of operators and sweeping
drops statements, so a program made of the tokens of a script is still made of them afterwards, and
its trees are still well formed. -/

namespace NumScript

/-! ### Trees -/

namespace Tree

variable {tokens : List Token}

theorem sourced_unary_iff {op : Token} {a : Tree} :
    (unary op a).Sourced tokens ↔
      (∃ f, op.kind.unaryMeaning? = some f) ∧ a.Sourced tokens := by
  constructor
  · rintro ⟨wellFormed, leaves⟩
    cases wellFormed with
    | unary meaning inner => exact ⟨⟨_, meaning⟩, inner, leaves⟩
  · rintro ⟨⟨f, meaning⟩, inner, leaves⟩
    exact ⟨.unary meaning inner, leaves⟩

theorem sourced_binary_iff {op : Token} {a b : Tree} :
    (binary op a b).Sourced tokens ↔
      (∃ f, op.kind.binaryMeaning? = some f) ∧ a.Sourced tokens ∧ b.Sourced tokens := by
  constructor
  · rintro ⟨wellFormed, leaves⟩
    have parts := List.forall_mem_append.mp leaves
    cases wellFormed with
    | binary meaning left right => exact ⟨⟨_, meaning⟩, ⟨left, parts.1⟩, ⟨right, parts.2⟩⟩
  · rintro ⟨⟨f, meaning⟩, ⟨left, fromLeft⟩, ⟨right, fromRight⟩⟩
    exact ⟨.binary meaning left right, List.forall_mem_append.mpr ⟨fromLeft, fromRight⟩⟩

theorem sourced_number (v : Float) (t : Token) : (leaf (Token.ofNumber v t)).Sourced tokens := by
  refine ⟨.number (Token.value_ofNumber v t), fun other member kind => ?_⟩
  obtain rfl := List.mem_singleton.mp member
  exact absurd (Token.ofNumber_kind v t) kind

namespace Sourced

theorem foldNode {t : Tree} (h : t.Sourced tokens) : (foldNode t).1.Sourced tokens := by
  unfold Tree.foldNode
  split
  · split
    · exact sourced_number _ _
    · exact h
  · exact h

theorem fold {t : Tree} (h : t.Sourced tokens) : t.fold.1.Sourced tokens := by
  obtain ⟨wellFormed, leaves⟩ := h
  induction wellFormed with
  | name kind => exact ⟨.name kind, leaves⟩
  | text kind => exact ⟨.text kind, leaves⟩
  | number value => exact ⟨.number value, leaves⟩
  | unary meaning inner ih =>
    rw [Tree.fold]
    exact foldNode (sourced_unary_iff.mpr ⟨⟨_, meaning⟩, ih leaves⟩)
  | binary meaning left right ihLeft ihRight =>
    rw [Tree.fold]
    have parts := List.forall_mem_append.mp leaves
    exact foldNode (sourced_binary_iff.mpr ⟨⟨_, meaning⟩, ihLeft parts.1, ihRight parts.2⟩)

end Sourced

end Tree

/-! ### Programs -/

namespace Program.Sourced

variable {tokens : List Token}

theorem fold {p : Program} (h : p.Sourced tokens) : p.fold.1.Sourced tokens := by
  induction p with
  | done => trivial
  | block brace body rest ihBody ih => exact ⟨ihBody h.1, ih h.2⟩
  | declare keyword name value rest ih =>
    obtain ⟨named, computed, below⟩ := h
    cases value with
    | none => exact ⟨named, by simp, ih below⟩
    | some e => exact ⟨named, by simpa using (computed e rfl).fold, ih below⟩
  | assign name value rest ih => exact ⟨h.1, h.2.1.fold, ih h.2.2⟩
  | expression value rest ih => exact ⟨h.1.fold, ih h.2⟩
  | ifThen keyword condition brace body rest ihBody ih =>
    exact ⟨h.1.fold, ihBody h.2.1, ih h.2.2⟩
  | ifElse keyword condition brace body elseBrace elseBody rest ihBody ihElse ih =>
    exact ⟨h.1.fold, ihBody h.2.1, ihElse h.2.2.1, ih h.2.2.2⟩
  | loop keyword condition brace body rest ihBody ih =>
    exact ⟨h.1, h.2.1.fold, ihBody h.2.2.1, ih h.2.2.2⟩

theorem keepBlock {brace : Token} {body rest : Program} (inner : body.Sourced tokens)
    (below : rest.Sourced tokens) : (keepBlock brace body rest).1.Sourced tokens := by
  unfold Program.keepBlock
  split
  · exact below
  · exact ⟨inner, below⟩

theorem sweep {p : Program} (h : p.Sourced tokens) : p.sweep.1.Sourced tokens := by
  induction p with
  | done => trivial
  | block brace body rest ihBody ih => exact keepBlock (ihBody h.1) (ih h.2)
  | declare keyword name value rest ih => exact ⟨h.1, h.2.1, ih h.2.2⟩
  | assign name value rest ih => exact ⟨h.1, h.2.1, ih h.2.2⟩
  | expression value rest ih => exact ⟨h.1, ih h.2⟩
  | ifThen keyword condition brace body rest ihBody ih =>
    obtain ⟨decided, inner, below⟩ := h
    cases constant : condition.constant? with
    | none =>
      simp only [Program.sweep, constant]
      exact ⟨decided, ihBody inner, ih below⟩
    | some v =>
      simp only [Program.sweep, constant]
      split
      · exact keepBlock (ihBody inner) (ih below)
      · exact ih below
  | ifElse keyword condition brace body elseBrace elseBody rest ihBody ihElse ih =>
    obtain ⟨decided, inner, other, below⟩ := h
    cases constant : condition.constant? with
    | none =>
      simp only [Program.sweep, constant]
      exact ⟨decided, ihBody inner, ihElse other, ih below⟩
    | some v =>
      simp only [Program.sweep, constant]
      split
      · exact keepBlock (ihBody inner) (ih below)
      · exact keepBlock (ihElse other) (ih below)
  | loop keyword condition brace body rest ihBody ih =>
    obtain ⟨looped, decided, inner, below⟩ := h
    cases constant : condition.constant? with
    | none =>
      simp only [Program.sweep, constant]
      exact ⟨looped, decided, ihBody inner, ih below⟩
    | some v =>
      simp only [Program.sweep, constant]
      split
      · exact ⟨looped, decided, ihBody inner, ih below⟩
      · exact ih below

theorem optimizeOnce {p : Program} (h : p.Sourced tokens) : p.optimizeOnce.1.Sourced tokens :=
  h.fold.sweep

theorem optimizeFrom {o : Optimized} (h : o.program.Sourced tokens) (rounds : Nat) :
    (optimizeFrom o rounds).program.Sourced tokens := by
  induction rounds generalizing o with
  | zero => exact h
  | succ rounds ih =>
    rw [Program.optimizeFrom]
    dsimp only
    split
    · exact h.optimizeOnce
    · exact ih h.optimizeOnce

/-- No number of rounds brings anything into a program that is neither a number nor a token of its
script. -/
theorem optimize {p : Program} (h : p.Sourced tokens) (rounds : Int) :
    (p.optimize rounds).program.Sourced tokens :=
  optimizeFrom h rounds.toNat

end Program.Sourced

end NumScript
