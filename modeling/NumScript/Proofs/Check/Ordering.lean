import NumScript.Proofs.Check.Meeting
import NumScript.Proofs.Check.WellFormed
import NumScript.Proofs.Token.Places

/-! The order of findings. A check comes to the lines of a script from first to last, but not every
finding is told where it belongs: that a name is never read shows at the end of its block, and that
a constant is bound again is told behind the findings about its new value. All other findings come
in the order of their lines. -/

namespace NumScript

/-! ### Lines of tokens -/

/-- The lines of the tokens rise from `low` to `high`. -/
def Rises (low : Int) : List Token → Int → Prop
  | [], high => low ≤ high
  | t :: rest, high => low ≤ t.line ∧ Rises t.line rest high

namespace Rises

variable {low mid high : Int} {ts us : List Token}

theorem le (h : Rises low ts high) : low ≤ high := by
  induction ts generalizing low with
  | nil => exact h
  | cons t rest ih => exact Int.le_trans h.1 (ih h.2)

theorem of_le (below : low ≤ mid) (h : Rises mid ts high) : Rises low ts high := by
  cases ts with
  | nil => exact Int.le_trans below h
  | cons t rest => exact ⟨Int.le_trans below h.1, h.2⟩

theorem append_iff : Rises low (ts ++ us) high ↔ ∃ mid, Rises low ts mid ∧ Rises mid us high := by
  induction ts generalizing low with
  | nil => exact ⟨fun h => ⟨low, Int.le_refl low, h⟩, fun ⟨_, below, h⟩ => h.of_le below⟩
  | cons t rest ih =>
    rw [List.cons_append, Rises, ih]
    exact ⟨fun ⟨here, mid, first, second⟩ => ⟨mid, ⟨here, first⟩, second⟩,
      fun ⟨mid, ⟨here, first⟩, second⟩ => ⟨here, mid, first, second⟩⟩

theorem sublist (h : Rises low us high) (part : ts.Sublist us) : Rises low ts high := by
  induction part generalizing low with
  | slnil => exact h
  | cons t _ ih => exact ih (h.2.of_le h.1)
  | cons_cons t _ ih => exact ⟨h.1, ih h.2⟩

end Rises

theorem Place.line_le_after (p : Place) (s : Text) : p.line ≤ (p.after s).line := by
  induction s generalizing p with
  | nil => exact Nat.le_refl _
  | cons b rest ih =>
    refine Nat.le_trans ?_ (ih (p.step b))
    unfold step
    split
    · exact Nat.le_succ _
    · exact Nat.le_refl _

/-- The tokens of a script stand in the order of their lines. -/
theorem Lexer.rises_readFrom (file : Text) (place : Place) (pieces : List Piece) :
    ∃ high, Rises place.line (readFrom file place pieces).1 high := by
  induction pieces generalizing place with
  | nil => exact ⟨place.line, Int.le_refl _⟩
  | cons piece rest ih =>
    obtain ⟨high, later⟩ := ih (place.after piece.text)
    have onward : (place.line : Int) ≤ (place.after piece.text).line := by
      exact_mod_cast place.line_le_after piece.text
    refine ⟨high, Rises.append_iff.mpr ⟨place.line, ?_, later.of_le onward⟩⟩
    cases piece with
    | token kind text => exact ⟨Int.le_refl _, Int.le_refl _⟩
    | _ => exact Int.le_refl _

/-! ### Findings -/

namespace Diagnostic

/-- The finding is about a leaf of an expression. -/
def OfLeaf (d : Diagnostic) : Prop :=
  d.cause ∈ [some .undefinedVariable, some .uninitialized, some .nonNumericOperand]

/-- The finding `d` may come in front of `d'`: it belongs there, or `d'` tells that a name is never
read, or that a constant is bound again while `d` is about a leaf. -/
def MayPrecede (d d' : Diagnostic) : Prop :=
  d.line ≤ d'.line ∨ d'.cause = some .unusedVariable ∨
    d'.cause = some .constantRebinding ∧ d.OfLeaf

end Diagnostic

theorem Env.doubt?_eq_some {env : Env} {t : Token} {d : Diagnostic}
    (doubt : env.doubt? t = some d) : d.line = t.line ∧ d.OfLeaf ∧ t.kind ≠ .number := by
  unfold Env.doubt? at doubt
  split at doubt
  · rename_i name
    split at doubt <;> cases doubt <;>
      exact ⟨rfl, by simp [Diagnostic.OfLeaf, Checker.undeclared, Checker.unassigned,
        Diagnostic.warning, Diagnostic.error], by simp [name]⟩
  · rename_i text
    cases doubt
    exact ⟨rfl, by simp [Diagnostic.OfLeaf, Checker.nonNumeric, Diagnostic.error], by simp [text]⟩
  · cases doubt

/-- What is found wrong with leaves comes in their order. -/
theorem Rises.doubts (env : Env) {leaves : List Token} {low high : Int}
    (rises : Rises low (leaves.filter fun t => t.kind ≠ .number) high) :
    (∀ d ∈ leaves.filterMap env.doubt?, low ≤ d.line ∧ d.line ≤ high ∧ d.OfLeaf) ∧
      (leaves.filterMap env.doubt?).Pairwise fun d d' => d.line ≤ d'.line := by
  induction leaves generalizing low with
  | nil => simp
  | cons t rest ih =>
    cases doubt : env.doubt? t with
    | none =>
      rw [List.filterMap_cons_none doubt]
      exact ih (rises.sublist ((List.sublist_cons_self t rest).filter _))
    | some d =>
      obtain ⟨line, leaf, kind⟩ := Env.doubt?_eq_some doubt
      rw [List.filter_cons_of_pos (by simpa using kind)] at rises
      obtain ⟨here, later⟩ := rises
      obtain ⟨bounds, ordered⟩ := ih later
      rw [List.filterMap_cons_some doubt]
      refine ⟨List.forall_mem_cons.mpr ⟨⟨line ▸ here, line ▸ later.le, leaf⟩, fun d' member => ?_⟩,
        List.pairwise_cons.mpr ⟨fun d' member => line ▸ (bounds d' member).1, ordered⟩⟩
      obtain ⟨above, rest⟩ := bounds d' member
      exact ⟨Int.le_trans here above, rest⟩

/-- Folding a phrase keeps the order of its names and texts. -/
theorem Phrase.leaves_sublist {p : Phrase} {tree : Tree} (success : p.folded = .ok tree) :
    (tree.leaves.filter fun t => t.kind ≠ .number).Sublist p.tokens := by
  induction p generalizing tree with
  | operand t =>
    cases success
    exact List.filter_sublist
  | group opening inside closing ih =>
    rw [folded] at success
    split at success
    · obtain ⟨v, -, rfl⟩ := Except.map_eq_ok_iff.mp success
      rw [Tree.leaves, List.filter_cons_of_neg (by simp [Token.ofNumber_kind])]
      exact List.nil_sublist _
    · exact ((ih success).trans (List.sublist_append_left _ _)).cons opening
  | signed sign inside ih =>
    obtain ⟨a, first, rfl⟩ := Except.map_eq_ok_iff.mp success
    exact (ih first).cons sign
  | joined operator left right ihLeft ihRight =>
    obtain ⟨a, first, more⟩ := Except.bind_eq_ok_iff.mp success
    obtain ⟨b, second, rfl⟩ := Except.map_eq_ok_iff.mp more
    rw [Tree.leaves, List.filter_append]
    exact (ihLeft first).append ((ihRight second).cons operator)

theorem Slice.leaves_sublist (s : Slice) :
    (s.expression.tree.leaves.filter fun t => t.kind ≠ .number).Sublist s.tokens := by
  obtain ⟨p, -, same, folded⟩ := Expression.readTree_eq_ok_iff.mp s.reads
  have whole : p.tokens = s.tokens := same
  exact whole ▸ Phrase.leaves_sublist folded

/-! ### Environments -/

theorem Scope.mem_put {sym other : Symbol} {symbols : List Symbol}
    (member : other ∈ Scope.put sym symbols) : other = sym ∨ other ∈ symbols := by
  induction symbols with
  | nil => exact .inl (List.mem_singleton.mp member)
  | cons first rest ih =>
    unfold put at member
    split at member
    · exact (List.mem_cons.mp member).imp_right (List.mem_cons_of_mem first)
    · rcases List.mem_cons.mp member with rfl | member
      · exact .inr List.mem_cons_self
      · exact (ih member).imp_right (List.mem_cons_of_mem first)

namespace Env

/-- No symbol was declared behind a line. -/
def Until (line : Int) (env : Env) : Prop :=
  ∀ scope ∈ env, ∀ sym ∈ scope.symbols, sym.position.line ≤ line

variable {env env' : Env} {line line' : Int}

theorem Until.mono (h : env.Until line) (later : line ≤ line') : env.Until line' :=
  fun scope here sym member => Int.le_trans (h scope here sym member) later

theorem Until.marked (h : env.Until line) (names : List Text) : (env.marked names).Until line := by
  induction env generalizing names with
  | nil => exact h
  | cons scope outer ih =>
    obtain ⟨here, around⟩ := List.forall_mem_cons.mp h
    refine List.forall_mem_cons.mpr ⟨fun sym member => ?_, ih around _⟩
    obtain ⟨sym', member', rfl⟩ := List.mem_map.mp member
    have placed := here sym' member'
    split
    · exact placed
    · exact placed

theorem Until.bind (h : env.Until line) (name : Text) (v : Float) :
    (env.modify name (Symbol.bind v)).Until line := by
  induction env with
  | nil => exact h
  | cons scope outer ih =>
    obtain ⟨here, around⟩ := List.forall_mem_cons.mp h
    rw [modify]
    split
    · refine List.forall_mem_cons.mpr ⟨fun sym member => ?_, around⟩
      obtain ⟨sym', member', rfl⟩ := List.mem_map.mp member
      have placed := here sym' member'
      split
      · exact placed
      · exact placed
    · exact List.forall_mem_cons.mpr ⟨here, ih around⟩

theorem Until.child (h : env.Until line) (kind : ScopeKind) : (env.child kind).Until line :=
  List.forall_mem_cons.mpr ⟨fun _ member => absurd member List.not_mem_nil, h⟩

theorem Until.tail (h : env.Until line) : Until line env.tail :=
  fun scope member => h scope (List.mem_of_mem_tail member)

theorem Until.declare (h : env.Until line) {sym : Symbol} (here : sym.position.line ≤ line)
    (declared : env.declare sym = .ok env') : env'.Until line := by
  cases env with
  | nil =>
    cases declared
    exact h
  | cons scope outer =>
    obtain ⟨inner, around⟩ := List.forall_mem_cons.mp h
    obtain ⟨-, rfl⟩ := declare_cons_eq_ok_iff.mp declared
    refine List.forall_mem_cons.mpr ⟨fun other member => ?_, around⟩
    rcases Scope.mem_put member with rfl | member
    · exact here
    · exact inner other member

theorem Until.assign (h : env.Until line) {name : Text} {v : Float} {place : Position}
    (here : place.line ≤ line) (assigned : env.assign name v place = .ok env') :
    env'.Until line := by
  unfold Env.assign at assigned
  split at assigned
  · exact h.declare here assigned
  · split at assigned
    · cases assigned
    · cases assigned
      exact h.bind name v

theorem declare_eq_error {sym : Symbol} {d : Diagnostic} (refused : env.declare sym = .error d) :
    d.line = sym.position.line ∧ d.cause = some .constantRebinding := by
  cases env with
  | nil => cases refused
  | cons scope outer =>
    simp only [declare, Scope.declare] at refused
    split at refused <;> cases refused
    exact ⟨rfl, rfl⟩

theorem assign_eq_error {name : Text} {v : Float} {place : Position} {d : Diagnostic}
    (refused : env.assign name v place = .error d) :
    d.line = place.line ∧ d.cause = some .constantRebinding := by
  unfold assign at refused
  split at refused
  · exact declare_eq_error refused
  · split at refused <;> cases refused
    exact ⟨rfl, rfl⟩

end Env

/-! ### States of the check -/

namespace Checker

/-- All that was found and declared belongs in front of the end of a line, and what was found is in
order. -/
structure Ordered (line : Int) (c : Checker) : Prop where
  bounds : ∀ d ∈ c.findings, d.line ≤ line
  declared : c.env.Until line
  pairs : c.findings.Pairwise Diagnostic.MayPrecede

namespace Ordered

variable {line low high : Int} {c : Checker}

theorem mono (h : c.Ordered low) (later : low ≤ high) : c.Ordered high where
  bounds d member := Int.le_trans (h.bounds d member) later
  declared := h.declared.mono later
  pairs := h.pairs

theorem report (h : c.Ordered line) {d : Diagnostic} (here : d.line ≤ line)
    (precede : ∀ d' ∈ c.findings, d'.MayPrecede d) : (c.report d).Ordered line where
  bounds := List.forall_mem_append.mpr ⟨h.bounds, List.forall_mem_singleton.mpr here⟩
  declared := h.declared
  pairs := List.pairwise_append.mpr ⟨h.pairs, List.pairwise_singleton _ d,
    fun d' member => List.forall_mem_singleton.mpr (precede d' member)⟩

/-- A change of the environment may be refused because a name is constant. -/
theorem change (h : c.Ordered line) {result : Except Diagnostic Env} {own : Int} (here : own ≤ line)
    (changed : ∀ env, result = .ok env → env.Until line)
    (refused : ∀ d, result = .error d → d.line = own ∧ d.cause = some .constantRebinding)
    (precede : ∀ d ∈ c.findings, d.line ≤ own ∨ d.OfLeaf) : (c.change result).Ordered line := by
  cases result with
  | ok env => exact ⟨h.bounds, changed env rfl, h.pairs⟩
  | error d =>
    obtain ⟨rfl, cause⟩ := refused d rfl
    refine h.report here fun d' member => ?_
    exact (precede d' member).imp id fun leaf => .inr ⟨cause, leaf⟩

theorem expression (h : c.Ordered low) (s : Slice) (rises : Rises low s.tokens high) :
    (c.expression s.expression).Ordered high := by
  obtain ⟨bounds, ordered⟩ := (rises.sublist s.leaves_sublist).doubts c.env
  rw [expression_eq]
  refine ⟨List.forall_mem_append.mpr ⟨(h.mono rises.le).bounds, ?_⟩,
    (h.mono rises.le).declared.marked _, List.pairwise_append.mpr ⟨h.pairs, ?_, ?_⟩⟩
  · exact fun d member => (bounds d member).2.1
  · exact ordered.imp .inl
  · exact fun d before d' member => .inl (Int.le_trans (h.bounds d before) (bounds d' member).1)

/-- Behind an expression every finding is older or about a leaf. -/
theorem old_or_ofLeaf (h : c.Ordered low) (s : Slice) (rises : Rises low s.tokens high) :
    ∀ d ∈ (c.expression s.expression).findings, d.line ≤ low ∨ d.OfLeaf := by
  obtain ⟨bounds, -⟩ := (rises.sublist s.leaves_sublist).doubts c.env
  rw [expression_eq]
  exact List.forall_mem_append.mpr
    ⟨fun d before => .inl (h.bounds d before), fun d member => .inr (bounds d member).2.2⟩

/-- Declaring a name without a value. -/
theorem declare (keyword name : Token) (h : c.Ordered name.line) :
    (c.declare keyword name false).Ordered name.line := by
  unfold Checker.declare
  have warned : (if Program.isConst keyword && !false then c.report (constWithoutValue name)
      else c).Ordered name.line := by
    split
    · exact h.report (Int.le_refl _) fun d before => .inl (h.bounds d before)
    · exact h
  refine warned.change (Int.le_refl _) (fun env declared => ?_) (fun d => Env.declare_eq_error)
    fun d before => .inl (warned.bounds d before)
  exact warned.declared.declare (Int.le_refl _) declared

/-- Declaring a name with a value. -/
theorem define (keyword name : Token) (h : c.Ordered name.line) (value : Slice)
    (rises : Rises name.line value.tokens high) :
    ((c.expression value.expression).declare keyword name true).Ordered high := by
  unfold Checker.declare
  have checked := h.expression value rises
  simp only [Bool.not_true, Bool.and_false, Bool.false_eq_true, if_false]
  refine checked.change rises.le (fun env declared => ?_) (fun d => Env.declare_eq_error)
    (h.old_or_ofLeaf value rises)
  exact checked.declared.declare rises.le declared

theorem assign (name : Token) (h : c.Ordered name.line) (value : Slice)
    (rises : Rises name.line value.tokens high) :
    ((c.expression value.expression).change
      ((c.expression value.expression).env.assign name.lexeme 0 name.position)).Ordered high := by
  have checked := h.expression value rises
  refine checked.change rises.le (fun env assigned => ?_) (fun d => Env.assign_eq_error)
    (h.old_or_ofLeaf value rises)
  exact checked.declared.assign rises.le assigned

/-- At the end of a block the names that were never read are told, wherever they were declared. -/
theorem within (kind : ScopeKind) {body : Program}
    (inside : ∀ {c : Checker}, c.Ordered low → (body.check c).Ordered high) (h : c.Ordered low) :
    (Checker.within kind body.check c).Ordered high := by
  have left := inside (c := c.entered kind) ⟨h.bounds, h.declared.child kind, h.pairs⟩
  rw [within_eq]
  have reports : ∀ d ∈ (body.check (c.entered kind)).reports,
      d.line ≤ high ∧ d.cause = some .unusedVariable := by
    unfold Checker.reports
    split
    · simp
    · rename_i scope outer env
      intro d member
      obtain ⟨sym, unread, rfl⟩ := List.mem_map.mp member
      refine ⟨?_, rfl⟩
      exact left.declared scope (env ▸ List.mem_cons_self) sym (List.mem_filter.mp unread).1
  refine ⟨List.forall_mem_append.mpr ⟨left.bounds, fun d member => (reports d member).1⟩,
    left.declared.tail, List.pairwise_append.mpr ⟨left.pairs, ?_, ?_⟩⟩
  · refine List.pairwise_iff_forall_sublist.mpr fun part => .inr (.inl (reports _ ?_).2)
    exact part.subset (by simp)
  · exact fun d _ d' member => .inr (.inl (reports d' member).2)

end Ordered

end Checker

/-! ### Programs -/

/-- The check of a script comes to its lines from first to last. -/
theorem Script.ordered_check (s : Script) {low high : Int} (rises : Rises low s.tokens high)
    {c : Checker} (h : c.Ordered low) : (s.program.check c).Ordered high := by
  induction s generalizing low high c with
  | done => exact h.mono rises
  | empty semicolon rest ih => exact ih rises.2 (h.mono rises.1)
  | block opening body closing rest ihBody ih =>
    obtain ⟨start, more⟩ := rises
    obtain ⟨mid, inside, behind, after⟩ := Rises.append_iff.mp more
    exact ih (after.of_le behind) (.within _ (ihBody inside) (h.mono start))
  | declare keyword name semicolon rest ih =>
    obtain ⟨first, second, third, after⟩ := rises
    exact ih (after.of_le third)
      (.declare keyword.val name.val (h.mono (Int.le_trans first second)))
  | define keyword name equals value semicolon rest ih =>
    obtain ⟨first, second, third, more⟩ := rises
    obtain ⟨mid, inside, behind, after⟩ := Rises.append_iff.mp more
    exact ih (after.of_le behind) (.define keyword.val name.val
      (h.mono (Int.le_trans first second)) value (inside.of_le third))
  | assign name equals value semicolon rest ih =>
    obtain ⟨first, second, more⟩ := rises
    obtain ⟨mid, inside, behind, after⟩ := Rises.append_iff.mp more
    exact ih (after.of_le behind) (.assign name.val (h.mono first) value (inside.of_le second))
  | expression value semicolon rest ih =>
    obtain ⟨mid, inside, behind, after⟩ := Rises.append_iff.mp rises
    exact ih (after.of_le behind) (h.expression value inside)
  | ifThen keyword paren condition parenEnd brace body braceEnd rest ihBody ih =>
    obtain ⟨first, second, more⟩ := rises
    obtain ⟨mid, decided, third, fourth, more⟩ := Rises.append_iff.mp more
    obtain ⟨mid', inside, behind, after⟩ := Rises.append_iff.mp more
    have checked := (h.mono (Int.le_trans first second)).expression condition decided
    exact ih (after.of_le behind)
      (.within _ (ihBody inside) (checked.mono (Int.le_trans third fourth)))
  | ifElse keyword paren condition parenEnd brace body braceEnd otherwise elseBrace elseBody
      elseEnd rest ihBody ihElse ih =>
    obtain ⟨first, second, more⟩ := rises
    obtain ⟨mid, decided, third, fourth, more⟩ := Rises.append_iff.mp more
    obtain ⟨mid', inside, fifth, sixth, seventh, more⟩ := Rises.append_iff.mp more
    obtain ⟨mid'', other, behind, after⟩ := Rises.append_iff.mp more
    have checked := (h.mono (Int.le_trans first second)).expression condition decided
    have taken := Checker.Ordered.within .branch (ihBody inside)
      (checked.mono (Int.le_trans third fourth))
    exact ih (after.of_le behind) (.within _ (ihElse other)
      (taken.mono (Int.le_trans fifth (Int.le_trans sixth seventh))))
  | loop keyword paren condition parenEnd brace body braceEnd rest ihBody ih =>
    obtain ⟨first, second, more⟩ := rises
    obtain ⟨mid, decided, third, fourth, more⟩ := Rises.append_iff.mp more
    obtain ⟨mid', inside, behind, after⟩ := Rises.append_iff.mp more
    have checked := (h.mono (Int.le_trans first second)).expression condition decided
    exact ih (after.of_le behind)
      (.within _ (ihBody inside) (checked.mono (Int.le_trans third fourth)))

namespace Program

/-- The findings about a program that is read from a script come in the order of their lines, but
for two kinds: that a name is never read is told at the end of its block, and that a constant is
bound again is told behind the findings about its new value. -/
theorem findings_ordered (source file : Text) {p : Program}
    (success : read (tokenize source file).1 = .ok p) :
    p.findings.Pairwise Diagnostic.MayPrecede := by
  obtain ⟨s, same, rfl⟩ := exists_script (Nat.lt_succ_self _) success
  obtain ⟨high, rises⟩ := Lexer.rises_readFrom file {} (Piece.split source)
  have start : Checker.Ordered 1 {} := by
    refine ⟨by simp, fun scope member sym inside => ?_, .nil⟩
    obtain rfl := List.mem_singleton.mp member
    cases inside
  exact (s.ordered_check (same ▸ rises) start).pairs

/-- The tokens of a block with a name that is never read in its first line, a name that is not
declared in its second, and a constant that is bound again before an operand on another line. -/
def lateFindings : List Token :=
  (tokenize (Text.ofString "\x7b let t = 1;\n  x; \x7d\nconst k = 1; k =\n  \"a\";") []).1

theorem findings_ordered_lateFindings :
    ∃ p, read lateFindings = .ok p ∧
      p.findings.map (fun d => (d.cause, d.line)) =
        [(some .undefinedVariable, 2), (some .unusedVariable, 1), (some .nonNumericOperand, 4),
          (some .constantRebinding, 3)] ∧
      p.findings.Pairwise Diagnostic.MayPrecede := by
  have found : (read lateFindings).toOption.map
      (fun p => p.findings.map fun d => (d.cause, d.line)) =
        some [(some .undefinedVariable, 2), (some .unusedVariable, 1),
          (some .nonNumericOperand, 4), (some .constantRebinding, 3)] := by decide +kernel
  cases success : read lateFindings with
  | error d => simp [success, Except.toOption] at found
  | ok p =>
    rw [success] at found
    exact ⟨p, rfl, Option.some.inj found, findings_ordered _ _ success⟩

/-- A block that ends behind the finding about its second line. -/
def unreadInFront : Text := Text.ofString "\x7b\n  let t = 1;\n  x;\n\x7d"

/-- The lines of findings can fall. -/
theorem findings_not_sorted :
    ∃ p, read (tokenize unreadInFront []).1 = .ok p ∧
      p.findings.map Diagnostic.line = [3, 2] ∧
      ¬ p.findings.Pairwise fun d d' => d.line ≤ d'.line := by
  have found : (read (tokenize unreadInFront []).1).toOption.map
      (fun p => p.findings.map Diagnostic.line) = some [3, 2] := by decide +kernel
  cases success : read (tokenize unreadInFront []).1 with
  | error d => simp [success, Except.toOption] at found
  | ok p =>
    rw [success] at found
    have lines : p.findings.map Diagnostic.line = [3, 2] := Option.some.inj found
    refine ⟨p, rfl, lines, fun sorted => ?_⟩
    rw [← List.pairwise_map, lines] at sorted
    exact absurd sorted (by decide)

end Program

end NumScript
