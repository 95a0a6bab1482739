import NumScript.Proofs.Check.WellFormed
import NumScript.Proofs.Run.Failing

/-! Why an expression is refused. The reader works through the groups from left to right and from
the inside out, and the first thing that is wrong ends the reading: a parenthesis without its
partner, a group that cannot be computed, or, when all groups are read, a token out of place. -/

namespace NumScript

section Failure

variable {α β : Type}

theorem Except.map_eq_error_iff {f : α → β} {r : Except Diagnostic α} {d : Diagnostic} :
    r.map f = .error d ↔ r = .error d := by
  cases r <;> simp [Except.map]

theorem Except.bind_eq_error_iff {f : α → Except Diagnostic β} {r : Except Diagnostic α}
    {d : Diagnostic} : r.bind f = .error d ↔ r = .error d ∨ ∃ x, r = .ok x ∧ f x = .error d := by
  cases r <;> simp [Except.bind]

/-- What follows a computation and cannot fail leaves only the computation to fail. -/
theorem Except.error_of_bind_ok {f : α → β} {r : Except Diagnostic α} {d : Diagnostic}
    (failed : (r.bind fun x => .ok (f x)) = .error d) : r = .error d := by
  cases r with
  | error d' => exact congrArg Except.error (Except.error.inj failed)
  | ok x => cases failed

end Failure

/-- The problem is that the token stands where it stands, and no matter of delimiters. -/
structure Diagnostic.Blames (d : Diagnostic) (t : Token) : Prop where
  phase : d.phase = .parse
  line : d.line = t.line
  cause : d.cause ≠ some .unmatchedDelimiter

theorem Diagnostic.Blames.error {cause : Cause} (other : cause ≠ .unmatchedDelimiter) (t : Token)
    (lexeme message : Text) :
    (Diagnostic.error .parse cause t.line lexeme message).Blames t :=
  ⟨rfl, rfl, by simpa [Diagnostic.error] using other⟩

/-- A phrase has no more atoms than tokens. -/
theorem Phrase.length_le_flatMap (atoms : List Phrase) :
    atoms.length ≤ (atoms.flatMap tokens).length := by
  induction atoms with
  | nil => exact Nat.le_refl 0
  | cons atom rest ih =>
    have := List.length_pos_iff.mpr atom.tokens_ne_nil
    rw [List.flatMap_cons, List.length_append, List.length_cons]
    omega

namespace Expression

open Phrase (Stands)

/-! ### Tokens out of place -/

theorem emptyNear_blames (near : Token) : (emptyNear near).Blames near := by
  unfold emptyNear
  split <;> exact .error (by decide) near _ _

theorem readItems_nil (fuel : Nat) (near : Token) :
    readItems fuel [] near = .error (emptyNear near) := by
  cases fuel <;> rfl

/-- Items without parentheses are refused for one of them. -/
theorem blames_of_readItems {fuel : Nat} {items : List Item} {near : Token} {d : Diagnostic}
    (free : ParenFree items) (filled : items ≠ []) (room : items.length ≤ fuel)
    (failed : readItems fuel items near = .error d) : ∃ item ∈ items, d.Blames item.source := by
  induction fuel generalizing items near with
  | zero => exact absurd (List.length_eq_zero_iff.mp (Nat.le_zero.mp room)) filled
  | succ fuel ih =>
    -- A part of the items is refused for one of them, or for the operator beside it.
    have part {inside : List Item} {beside : Item} (within : inside ⊆ items)
        (shorter : inside.length ≤ fuel) (member : beside ∈ items)
        (failed : readItems fuel inside beside.source = .error d) :
        ∃ item ∈ items, d.Blames item.source := by
      by_cases empty : inside = []
      · rw [empty, readItems_nil] at failed
        cases failed
        exact ⟨beside, member, emptyNear_blames beside.source⟩
      · obtain ⟨item, here, blames⟩ :=
          ih (fun item here => free item (within here)) empty shorter failed
        exact ⟨item, within here, blames⟩
    rw [readItems_of_parenFree fuel filled free, readReduced.eq_def] at failed
    cases split : split? items with
    | none =>
      rw [split] at failed
      cases items with
      | nil => exact absurd rfl filled
      | cons first rest =>
        dsimp only at failed
        unfold operand at failed
        split at failed
        · exact part (List.subset_cons_self first rest) (by simpa using room)
            List.mem_cons_self (Except.error_of_bind_ok failed)
        · cases rest with
          | cons extra others =>
            cases failed
            exact ⟨extra, by simp, .error (by decide) extra.source _ _⟩
          | nil =>
            cases first with
            | group paren tree => cases failed
            | token t =>
              dsimp only at failed
              split at failed
              all_goals cases failed
              exact ⟨.token t, List.mem_cons_self, .error (by decide) t _ _⟩
    | some k =>
      rw [split] at failed
      obtain ⟨left, operator, right, -, rfl, rfl, -, -⟩ := exists_parts_of_split? split
      simp only [List.drop_left, List.take_left, List.length_append, List.length_cons]
        at failed room
      have member : Item.token operator ∈ left ++ .token operator :: right := by simp
      rcases Except.bind_eq_error_iff.mp failed with first | ⟨a, -, more⟩
      · exact part (List.subset_append_left _ _) (by omega) member first
      · exact part (List.subset_append_of_subset_right _ (List.subset_cons_self _ _)) (by omega)
          member (Except.error_of_bind_ok more)

/-- An item is on the line of a token that it stands for. -/
theorem exists_line_of_stands {atoms : List Phrase} {items : List Item}
    (stand : List.Forall₂ Stands atoms items) :
    ∀ item ∈ items, ∃ t ∈ atoms.flatMap Phrase.tokens, item.source.line = t.line := by
  induction stand with
  | nil => exact fun item member => absurd member List.not_mem_nil
  | @cons atom item atoms items here _ ih =>
    rw [List.flatMap_cons]
    intro other member
    rcases List.mem_cons.mp member with rfl | below
    · cases atom with
      | operand t =>
        cases here
        exact ⟨t, by simp [Phrase.tokens], rfl⟩
      | group opening inside closing =>
        obtain ⟨tree, -, grouped⟩ := here
        refine ⟨opening, by simp [Phrase.tokens], ?_⟩
        unfold Expression.grouped at grouped
        split at grouped
        · obtain ⟨v, -, rfl⟩ := Except.map_eq_ok_iff.mp grouped
          rfl
        · cases grouped
          rfl
      | signed sign inside => exact here.elim
      | joined operator left right => exact here.elim
    · obtain ⟨t, inside, line⟩ := ih other below
      exact ⟨t, List.mem_append_right _ inside, line⟩

/-! ### Where reading comes to -/

/-- The tokens are behind the reader: they stand in no group, or belong to groups that are read and,
where they hold no name, computed. -/
def Settled (ts : List Token) : Prop :=
  ∃ (atoms : List Phrase) (items : List Item), (∀ atom ∈ atoms, atom.Atomic) ∧
    List.Forall₂ Stands atoms items ∧ atoms.flatMap Phrase.tokens = ts

/-- The second tokens are inside a group of the first ones, with what is settled in front. -/
inductive ComesTo : List Token → List Token → Prop
  | here (ts : List Token) : ComesTo ts ts
  | group {before inside after us : List Token} {opening closing : Token} :
      Settled before → opening.kind = .leftParen → closing.kind = .rightParen →
      Balanced .leftParen .rightParen inside → ComesTo inside us →
      ComesTo (before ++ opening :: (inside ++ closing :: after)) us

/-- What is wrong with tokens, but not inside one of their groups. -/
inductive Flaw : List Token → Diagnostic → Prop
  | stray {before after : List Token} {closing : Token} : Settled before →
      closing.kind = .rightParen → Flaw (before ++ closing :: after) (unmatched closing)
  | unclosed {before after : List Token} {opening : Token} : Settled before →
      opening.kind = .leftParen → Program.enclosed? .leftParen .rightParen 0 after = none →
      Flaw (before ++ opening :: after) (unmatched opening)
  | uncomputed {before after : List Token} {opening closing : Token} {inside : Phrase}
      {tree : Tree} {d : Diagnostic} : Settled before → opening.kind = .leftParen →
      closing.kind = .rightParen → inside.Derives 1 → inside.folded = .ok tree →
      grouped opening tree = .error d →
      Flaw (before ++ opening :: (inside.tokens ++ closing :: after)) d
  | misplaced {ts : List Token} {t : Token} {d : Diagnostic} : t ∈ ts → d.Blames t → Flaw ts d

namespace Settled

theorem nil : Settled [] := ⟨[], [], by simp, .nil, rfl⟩

theorem append {ts us : List Token} (first : Settled ts) (second : Settled us) :
    Settled (ts ++ us) := by
  obtain ⟨atoms, items, atomic, stand, rfl⟩ := first
  obtain ⟨atoms', items', atomic', stand', rfl⟩ := second
  exact ⟨atoms ++ atoms', items ++ items', List.forall_mem_append.mpr ⟨atomic, atomic'⟩,
    List.rel_append stand stand', List.flatMap_append⟩

theorem token {t : Token} (opens : t.kind ≠ .leftParen) (closes : t.kind ≠ .rightParen) :
    Settled [t] :=
  ⟨[.operand t], [.token t], by simp [Phrase.Atomic, opens, closes], .cons rfl .nil, rfl⟩

theorem group {opening closing : Token} {inside : Phrase} {tree : Tree} {item : Item}
    (opens : opening.kind = .leftParen) (closes : closing.kind = .rightParen)
    (derives : inside.Derives 1) (folded : inside.folded = .ok tree)
    (grouped : grouped opening tree = .ok item) :
    Settled (opening :: (inside.tokens ++ [closing])) :=
  ⟨[.group opening inside closing], [item], by simp [Phrase.Atomic, opens, closes, derives],
    .cons ⟨tree, folded, grouped⟩ .nil, by simp [Phrase.tokens]⟩

end Settled

theorem ComesTo.subset {ts us : List Token} (h : ComesTo ts us) : us ⊆ ts := by
  induction h with
  | here ts => exact List.Subset.refl ts
  | group _ _ _ _ _ ih => exact fun t member => by simp [ih member]

theorem ComesTo.trans {ts us vs : List Token} (first : ComesTo ts us) (second : ComesTo us vs) :
    ComesTo ts vs := by
  induction first with
  | here ts => exact second
  | group settled opens closes balanced _ ih =>
    exact .group settled opens closes balanced (ih second)

/-! ### Refused expressions -/

section Refused

variable {fuel : Nat} {d : Diagnostic}

/-- Groups that cannot be reduced have a flaw, given that what is inside them is known to. -/
theorem exists_flaw_of_reduceFrom
    (below : ∀ {us : List Token} {near : Token}, us ≠ [] → us.length ≤ fuel →
      readItems fuel (us.map .token) near = .error d → ∃ vs, ComesTo us vs ∧ Flaw vs d)
    {before ts : List Token} (settled : Settled before) (room : ts.length ≤ fuel + 1)
    (failed : reduceFrom (readItems fuel) 0 (ts.map .token) = .error d) :
    ∃ us, ComesTo (before ++ ts) us ∧ Flaw us d := by
  -- On the number of tokens left: what has been passed is settled and joins what stands in front.
  induction size : ts.length using Nat.strongRecOn generalizing before ts with
  | ind size ih =>
  subst size
  cases ts with
  | nil => cases failed
  | cons t rest =>
    simp only [List.length_cons] at ih room
    by_cases closes : t.kind = .rightParen
    · rw [reduceFrom_closer _ rest closes] at failed
      cases failed
      exact ⟨_, .here _, .stray settled closes⟩
    · by_cases opens : t.kind = .leftParen
      · rw [reduceFrom_opener _ rest opens] at failed
        split at failed
        · rename_i open'
          cases failed
          exact ⟨_, .here _, .unclosed settled opens open'⟩
        · rename_i inside after found
          obtain ⟨c, rfl, closer, balanced⟩ := (Program.enclosed?_eq_some_iff (by decide)).mp found
          simp only [List.length_append, List.length_cons] at ih room
          rcases Except.bind_eq_error_iff.mp failed with inner | ⟨tree, inner, more⟩
          · by_cases empty : inside = []
            · rw [empty, List.map_nil, readItems_nil] at inner
              cases inner
              exact ⟨_, .here _, .misplaced (by simp) (emptyNear_blames t)⟩
            · obtain ⟨us, comes, flaw⟩ := below empty (by omega) inner
              exact ⟨us, .group settled opens closer balanced comes, flaw⟩
          obtain ⟨p, derives, rfl, folded⟩ := (readItems_eq_ok_iff (by omega) t tree).mp inner
          rcases Except.bind_eq_error_iff.mp more with uncomputed | ⟨item, grouped, later⟩
          · exact ⟨_, .here _, .uncomputed settled opens closer derives folded uncomputed⟩
          · have behind := settled.append (.group opens closer derives folded grouped)
            obtain ⟨us, comes, flaw⟩ := ih after.length (by omega) behind (by omega)
              (Except.map_eq_error_iff.mp later) rfl
            exact ⟨us, by simpa using comes, flaw⟩
      · rw [reduceFrom_other _ rest opens closes] at failed
        have behind := settled.append (.token opens closes)
        obtain ⟨us, comes, flaw⟩ := ih rest.length (by omega) behind (by omega)
          (Except.map_eq_error_iff.mp failed) rfl
        exact ⟨us, by simpa using comes, flaw⟩

/-- Tokens that are refused as an expression have a flaw, in a group or beside all groups. -/
theorem exists_flaw_of_readItems {ts : List Token} {near : Token} (filled : ts ≠ [])
    (room : ts.length ≤ fuel) (failed : readItems fuel (ts.map .token) near = .error d) :
    ∃ us, ComesTo ts us ∧ Flaw us d := by
  induction fuel generalizing ts near with
  | zero => exact absurd (List.length_eq_zero_iff.mp (Nat.le_zero.mp room)) filled
  | succ fuel ih =>
    rw [readItems_succ fuel (by simpa using filled)] at failed
    rcases Except.bind_eq_error_iff.mp failed with groups | ⟨items, reduced, rest⟩
    · exact exists_flaw_of_reduceFrom ih Settled.nil room groups
    · obtain ⟨atoms, atomic, rfl, stand⟩ := stands_of_reduceFrom
        (fun us shorter near tree => (readItems_eq_ok_iff (by omega) near tree).mp) reduced
      have free := Phrase.Stands.parenFree atomic stand
      have nonempty : items ≠ [] := by
        rintro rfl
        cases stand
        exact filled rfl
      have short : items.length ≤ fuel + 1 := by
        have := stand.length_eq
        have := Phrase.length_le_flatMap atoms
        omega
      rw [← readItems_of_parenFree fuel nonempty free near] at rest
      obtain ⟨item, member, blames⟩ := blames_of_readItems free nonempty short rest
      obtain ⟨t, inside, line⟩ := exists_line_of_stands stand item member
      exact ⟨_, .here _, .misplaced inside ⟨blames.phase, blames.line.trans line, blames.cause⟩⟩

theorem exists_flaw_of_readTree {ts : List Token} (filled : ts ≠ [])
    (failed : readTree ts = .error d) : ∃ us, ComesTo ts us ∧ Flaw us d :=
  exists_flaw_of_readItems filled (Nat.le_succ _) failed

end Refused

/-! ### Where a reading ends -/

/-- What is settled is reduced, and the reduction goes on behind it. -/
theorem Settled.reduceFrom_append {before : List Token} (settled : Settled before) {fuel : Nat}
    (room : before.length ≤ fuel) (rest : List Token) :
    ∃ items, reduceFrom (readItems fuel) 0 ((before ++ rest).map .token) =
      (reduceFrom (readItems fuel) 0 (rest.map .token)).map (items ++ ·) := by
  obtain ⟨atoms, items, atomic, stand, rfl⟩ := settled
  refine ⟨items, reduceFrom_append_of_stands stand atomic ?_ rest⟩
  intro p derives shorter near tree folded
  exact (readItems_eq_ok_iff (by omega) near tree).mpr ⟨p, derives, rfl, folded⟩

section Group

variable {before inside after : List Token} {opening closing : Token} {d : Diagnostic}
  (settled : Settled before) (opens : opening.kind = .leftParen)
  (closes : closing.kind = .rightParen) (balanced : Balanced .leftParen .rightParen inside)

include settled opens closes balanced

/-- The first group behind what is settled ends the reading if it is not read or computed. -/
theorem readItems_of_group {fuel : Nat} {near : Token}
    (room : (before ++ opening :: (inside ++ closing :: after)).length ≤ fuel + 1)
    (failed : (readItems fuel (inside.map .token) opening).bind (grouped opening) = .error d) :
    readItems (fuel + 1) ((before ++ opening :: (inside ++ closing :: after)).map .token) near =
      .error d := by
  simp only [List.length_append, List.length_cons] at room
  have shorter : before.length ≤ fuel := by omega
  obtain ⟨items, reduced⟩ :=
    settled.reduceFrom_append shorter (opening :: (inside ++ closing :: after))
  rw [readItems_succ fuel (by simp), reduced, reduceFrom_opener _ _ opens,
    Program.enclosed?_of_balanced (by decide) closes balanced]
  rcases Except.bind_eq_error_iff.mp failed with inner | ⟨tree, inner, uncomputed⟩
  · simp [inner, Except.bind, Except.map]
  · simp [inner, uncomputed, Except.bind, Except.map]

end Group

/-- What ends the reading of a part ends that of the whole. -/
theorem ComesTo.readItems_eq_error {ts us : List Token} (comes : ComesTo ts us) {d : Diagnostic}
    (failed : ∀ fuel near, us.length ≤ fuel → readItems fuel (us.map .token) near = .error d) :
    ∀ fuel near, ts.length ≤ fuel → readItems fuel (ts.map .token) near = .error d := by
  induction comes with
  | here ts => exact failed
  | @group before inside after us opening closing settled opens closes balanced _ ih =>
    intro fuel near room
    cases fuel with
    | zero => simp at room
    | succ fuel =>
      refine readItems_of_group settled opens closes balanced room ?_
      simp only [List.length_append, List.length_cons] at room
      rw [ih failed fuel opening (by omega)]
      rfl

/-! ### Groups that cannot be computed -/

/-- Only a leaf without a number keeps a well-formed tree from having a value. -/
theorem exists_leaf_of_evaluate {tree : Tree} (h : tree.WellFormed) {d : Diagnostic}
    (failed : tree.evaluate = .error d) :
    ∃ leaf ∈ tree.leaves, leaf.kind ≠ .number ∧ d = leaf.notNumber := by
  have other {t : Token} (kind : t.kind ≠ .number) (failed : (Tree.leaf t).evaluate = .error d) :
      ∃ leaf ∈ (Tree.leaf t).leaves, leaf.kind ≠ .number ∧ d = leaf.notNumber := by
    simp only [Tree.evaluate_leaf, Token.value, if_pos kind] at failed
    cases failed
    exact ⟨t, List.mem_singleton_self t, kind, rfl⟩
  induction h with
  | name kind => exact other (by simp [kind]) failed
  | text kind => exact other (by simp [kind]) failed
  | number value =>
    rw [Tree.evaluate_leaf, value] at failed
    cases failed
  | @unary op f a meaning _ ih =>
    simp only [Tree.evaluate_unary, Tree.applyUnary, meaning, Except.map_eq_error_iff] at failed
    exact ih failed
  | @binary op f a b meaning _ _ ihLeft ihRight =>
    simp only [Tree.evaluate_binary, Tree.applyBinary, meaning, Except.bind_eq_error_iff,
      Except.map_eq_error_iff] at failed
    rcases failed with left | ⟨v, -, right⟩
    · obtain ⟨leaf, member, found⟩ := ihLeft left
      exact ⟨leaf, List.mem_append_left _ member, found⟩
    · obtain ⟨leaf, member, found⟩ := ihRight right
      exact ⟨leaf, List.mem_append_right _ member, found⟩

section Computed

variable {inside : Phrase} {tree : Tree} (derives : inside.Derives 1)
  (folded : inside.folded = .ok tree)

include derives folded

/-- A group cannot be computed exactly when it holds no name but a text. -/
theorem exists_grouped_error_iff (lexed : ∀ t ∈ inside.tokens, t.Lexed) (opening : Token) :
    (∃ d, grouped opening tree = .error d) ↔
      inside.isConstant = true ∧ inside.isTextFree = false := by
  have constant := derives.isConstant_folded folded
  unfold grouped
  split
  · rename_i closed
    rw [constant] at closed
    have value : (∃ v, tree.evaluate = .ok v) ↔ inside.isTextFree = true := by
      simp [← derives.evaluate_iff lexed closed, ← inside.evaluate_folded, folded]
    rw [← Bool.not_eq_true, ← value]
    cases tree.evaluate <;> simp [closed, Except.map]
  · rename_i opened
    rw [constant] at opened
    simp [opened]

/-- The group is refused for one of its tokens. -/
theorem exists_token_of_grouped (lexed : ∀ t ∈ inside.tokens, t.Lexed) {opening : Token}
    {d : Diagnostic} (failed : grouped opening tree = .error d) :
    ∃ t ∈ inside.tokens, d = t.notNumber := by
  unfold grouped at failed
  split at failed
  · obtain ⟨leaf, member, kind, same⟩ := exists_leaf_of_evaluate (derives.wellFormed lexed folded)
      (Except.map_eq_error_iff.mp failed)
    exact ⟨leaf, Phrase.leaves_folded folded leaf member kind, same⟩
  · cases failed

end Computed

/-- Reading the tokens as an expression comes to computing a group: what stands in front is settled,
and the group itself is read and holds no name. -/
def Folds (ts : List Token) (inside : Phrase) : Prop :=
  ∃ (before after : List Token) (opening closing : Token),
    ComesTo ts (before ++ opening :: (inside.tokens ++ closing :: after)) ∧ Settled before ∧
    opening.kind = .leftParen ∧ closing.kind = .rightParen ∧ inside.Derives 1 ∧
    (∃ tree, inside.folded = .ok tree) ∧ inside.isConstant = true

section Lexed

variable {ts : List Token} (lexed : ∀ t ∈ ts, t.Lexed) {d : Diagnostic}

include lexed

/-- A flaw is on the line of a token, and it is a matter of values only in a group that cannot be
computed. -/
theorem Flaw.traits (flaw : Flaw ts d) :
    (∃ t ∈ ts, d.line = t.line) ∧
      (d.phase = .parse ∨ d.phase = .eval ∧ d.cause = some .invalidLiteral ∧
        ∃ inside, Folds ts inside ∧ inside.isTextFree = false) := by
  cases flaw with
  | @stray _ _ closing => exact ⟨⟨closing, by simp, rfl⟩, .inl rfl⟩
  | @unclosed _ _ opening => exact ⟨⟨opening, by simp, rfl⟩, .inl rfl⟩
  | @uncomputed before after opening closing inside tree _ settled opens closes derives folded
      failed =>
    have below : ∀ t ∈ inside.tokens, t.Lexed := fun t member => lexed t (by simp [member])
    obtain ⟨t, member, rfl⟩ := exists_token_of_grouped derives folded below failed
    obtain ⟨constant, text⟩ :=
      (exists_grouped_error_iff derives folded below opening).mp ⟨_, failed⟩
    exact ⟨⟨t, by simp [member], rfl⟩, .inr ⟨rfl, rfl, inside, ⟨before, after, opening, closing,
      .here _, settled, opens, closes, derives, ⟨tree, folded⟩, constant⟩, text⟩⟩
  | misplaced member blames => exact ⟨⟨_, member, blames.line⟩, .inl blames.phase⟩

/-- A group without names that holds a text ends the reading that comes to it. -/
theorem Folds.exists_error {inside : Phrase} (folds : Folds ts inside)
    (text : inside.isTextFree = false) : ∃ d, readTree ts = .error d ∧ d.phase = .eval := by
  obtain ⟨before, after, opening, closing, comes, settled, opens, closes, derives,
    ⟨tree, folded⟩, constant⟩ := folds
  have below : ∀ t ∈ inside.tokens, t.Lexed :=
    fun t member => lexed t (comes.subset (by simp [member]))
  obtain ⟨d, failed⟩ :=
    (exists_grouped_error_iff derives folded below opening).mpr ⟨constant, text⟩
  obtain ⟨t, -, rfl⟩ := exists_token_of_grouped derives folded below failed
  refine ⟨t.notNumber, comes.readItems_eq_error ?_ _ _ (Nat.le_succ _), rfl⟩
  intro fuel near room
  cases fuel with
  | zero => simp at room
  | succ fuel =>
    refine readItems_of_group settled opens closes derives.balanced room ?_
    simp only [List.length_append, List.length_cons] at room
    rw [(readItems_eq_ok_iff (by omega) opening tree).mpr ⟨inside, derives, rfl, folded⟩]
    exact failed

end Lexed

section Refused

variable {ts : List Token} (filled : ts ≠ []) {d : Diagnostic} (failed : readTree ts = .error d)

include filled failed

/-- A refused expression is refused on the line of one of its tokens, and for want of a value only
where it comes to a group without names that holds a text. -/
theorem traits_of_readTree (lexed : ∀ t ∈ ts, t.Lexed) :
    (∃ t ∈ ts, d.line = t.line) ∧
      (d.phase = .parse ∨ d.phase = .eval ∧ d.cause = Option.some .invalidLiteral ∧
        ∃ inside, Folds ts inside ∧ inside.isTextFree = false) := by
  obtain ⟨us, comes, flaw⟩ := exists_flaw_of_readTree filled failed
  obtain ⟨⟨t, member, line⟩, phase⟩ := flaw.traits fun t member => lexed t (comes.subset member)
  refine ⟨⟨t, comes.subset member, line⟩, phase.imp_right ?_⟩
  rintro ⟨eval, cause, inside, ⟨before, after, opening, closing, further, rest⟩, text⟩
  exact ⟨eval, cause, inside, ⟨before, after, opening, closing, comes.trans further, rest⟩, text⟩

/-- A delimiter that an expression is refused for is one of its parentheses. -/
theorem exists_unmatched_of_readTree (cause : d.cause = Option.some .unmatchedDelimiter) :
    ∃ t ∈ ts, (t.kind = .leftParen ∨ t.kind = .rightParen) ∧ d = unmatched t := by
  obtain ⟨us, comes, flaw⟩ := exists_flaw_of_readTree filled failed
  cases flaw with
  | stray _ closes => exact ⟨_, comes.subset (by simp), .inr closes, rfl⟩
  | unclosed _ opens _ => exact ⟨_, comes.subset (by simp), .inl opens, rfl⟩
  | uncomputed _ _ _ _ _ uncomputed =>
    unfold grouped at uncomputed
    split at uncomputed
    · have complaint := Tree.complains_of_evaluate _ (Except.map_eq_error_iff.mp uncomputed)
      cases complaint <;> cases cause
    · cases uncomputed
  | misplaced _ blames => exact absurd cause blames.cause

end Refused

end Expression

end NumScript
