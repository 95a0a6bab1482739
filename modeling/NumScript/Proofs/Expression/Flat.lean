import NumScript.Proofs.Expression.Splitting

/-! Expressions without parentheses. `Flat` is the grammar of items among which every group has been
read already; the reader reads such items exactly when they are flat, and to the tree that the
grammar gives them. -/

namespace NumScript

open Phrase (operandKinds signKinds operatorKinds signLevel)

/-- Items without parentheses that belong to a level of the grammar, and their tree. -/
inductive Flat : Nat → List Item → Tree → Prop
  | operand {level : Nat} {t : Token} : t.kind ∈ operandKinds → Flat level [.token t] (.leaf t)
  | group {level : Nat} {paren : Token} {tree : Tree} : Flat level [.group paren tree] tree
  | signed {level : Nat} {sign : Token} {items : List Item} {tree : Tree} :
      level ≤ signLevel → sign.kind ∈ signKinds → Flat signLevel items tree →
      Flat level (.token sign :: items) (.unary sign tree)
  | joined {level own : Nat} {operator : Token} {left right : List Item} {a b : Tree} :
      level ≤ own → operator.kind ∈ operatorKinds own → Flat own left a → Flat (own + 1) right b →
      Flat level (left ++ .token operator :: right) (.binary operator a b)

/-- No item is a parenthesis. -/
def ParenFree (items : List Item) : Prop :=
  ∀ item ∈ items, item.isKind .leftParen = false ∧ item.isKind .rightParen = false

namespace Item

theorem isOperator_token_of_sign {t : Token} (sign : t.kind ∈ signKinds) :
    (token t).isOperator = true := by
  have : t.kind.isPrefixSign = true := TokenKind.isPrefixSign_iff.mpr sign
  simp [isOperator, isSign, this]

theorem isOperator_token_of_operator {t : Token} {level : Nat}
    (operator : t.kind ∈ operatorKinds level) : (token t).isOperator = true := by
  have : t.kind.precedence? = some level := TokenKind.precedence?_eq_some_iff.mpr operator
  simp [isOperator, precedence?, this]

theorem isOperator_token_of_operand {t : Token} (operand : t.kind ∈ operandKinds) :
    (token t).isOperator = false := by
  unfold operandKinds at operand
  simp only [List.mem_cons, List.not_mem_nil, or_false] at operand
  rcases operand with kind | kind | kind <;>
    simp [isOperator, precedence?, isSign, kind, TokenKind.precedence?, TokenKind.isPrefixSign,
      TokenKind.unaryMeaning?]

end Item

/-- Around an operator that follows an operand, the operators between operands are those on the
left, the operator itself, and those on the right. -/
theorem Joins.append_cases {left right : List Item} {operator : Item} {i precedence : Nat}
    (isOperator : operator.isOperator = true)
    (h : Joins (left ++ operator :: right) i precedence) :
    Joins left i precedence ∨
      (i + 1 = left.length ∧ operator.precedence? = some precedence) ∨
      ∃ j, i = left.length + 1 + j ∧ Joins right j precedence := by
  obtain ⟨previous, item, first, second, before, own⟩ := h
  rcases Nat.lt_trichotomy (i + 1) left.length with inside | here | beyond
  · rw [List.getElem?_append_left (by omega)] at first second
    exact .inl ⟨previous, item, first, second, before, own⟩
  · rw [here, List.getElem?_append_right (Nat.le_refl _), Nat.sub_self] at second
    cases second
    exact .inr (.inl ⟨here, own⟩)
  · rcases Nat.lt_or_ge left.length i with after | at_operator
    · refine .inr (.inr ⟨i - (left.length + 1), by omega, previous, item, ?_, ?_, before, own⟩)
      · rw [List.getElem?_append_right (by omega)] at first
        rwa [show i - left.length = (i - (left.length + 1)) + 1 by omega,
          List.getElem?_cons_succ] at first
      · rw [List.getElem?_append_right (by omega)] at second
        rwa [show i + 1 - left.length = (i - (left.length + 1) + 1) + 1 by omega,
          List.getElem?_cons_succ] at second
    · obtain rfl : i = left.length := by omega
      rw [List.getElem?_append_right (Nat.le_refl _), Nat.sub_self] at first
      cases first
      rw [isOperator] at before
      cases before

theorem Joins.cons_cases {items : List Item} {operator : Item} {i precedence : Nat}
    (isOperator : operator.isOperator = true) (h : Joins (operator :: items) i precedence) :
    ∃ j, i = j + 1 ∧ Joins items j precedence := by
  have whole : Joins ([] ++ operator :: items) i precedence := h
  rcases whole.append_cases isOperator with none | ⟨none, _⟩ | ⟨j, place, joins⟩
  · exact absurd none.lt_length (by simp)
  · simp at none
  · exact ⟨j, by simpa [Nat.add_comm] using place, joins⟩

namespace Flat

variable {level : Nat} {items : List Item} {tree : Tree}

/-- Flat items end with an operand. -/
theorem last (h : Flat level items tree) :
    ∃ before item, items = before ++ [item] ∧ item.isOperator = false := by
  induction h with
  | @operand _ t kind => exact ⟨[], .token t, rfl, Item.isOperator_token_of_operand kind⟩
  | @group _ paren tree => exact ⟨[], .group paren tree, rfl, rfl⟩
  | @signed _ sign _ _ _ _ _ ih =>
    obtain ⟨before, item, rfl, operand⟩ := ih
    exact ⟨.token sign :: before, item, rfl, operand⟩
  | @joined _ _ operator left _ _ _ _ _ _ _ _ ihRight =>
    obtain ⟨before, item, rfl, operand⟩ := ihRight
    exact ⟨left ++ .token operator :: before, item, by simp, operand⟩

theorem length_pos (h : Flat level items tree) : 0 < items.length := by
  obtain ⟨before, item, rfl, _⟩ := h.last
  simp

theorem parenFree (h : Flat level items tree) : ParenFree items := by
  have token {t : Token} (other : t.kind ≠ .leftParen ∧ t.kind ≠ .rightParen) :
      (Item.token t).isKind .leftParen = false ∧ (Item.token t).isKind .rightParen = false := by
    simpa [Item.isKind] using other
  induction h with
  | operand kind =>
    intro item member
    obtain rfl := List.mem_singleton.mp member
    exact token ⟨ne_of_mem_of_not_mem kind (by decide), ne_of_mem_of_not_mem kind (by decide)⟩
  | group =>
    intro item member
    obtain rfl := List.mem_singleton.mp member
    exact ⟨rfl, rfl⟩
  | signed _ sign _ ih =>
    intro item member
    rcases List.mem_cons.mp member with rfl | member
    · exact token ⟨ne_of_mem_of_not_mem sign (by decide), ne_of_mem_of_not_mem sign (by decide)⟩
    · exact ih item member
  | joined _ operator _ _ ihLeft ihRight =>
    intro item member
    rcases List.mem_append.mp member with member | member
    · exact ihLeft item member
    · rcases List.mem_cons.mp member with rfl | member
      · exact token ⟨ne_of_mem_of_not_mem operator (Phrase.not_mem_operatorKinds rfl _),
          ne_of_mem_of_not_mem operator (Phrase.not_mem_operatorKinds rfl _)⟩
      · exact ihRight item member

/-- The operator of a joined expression stands between its operands. -/
theorem joins_operator {own : Nat} {operator : Token} {left right : List Item} {a : Tree}
    (kind : operator.kind ∈ operatorKinds own) (h : Flat own left a) :
    Joins (left ++ .token operator :: right) (left.length - 1) own := by
  obtain ⟨before, item, rfl, operand⟩ := h.last
  have precedence : (Item.token operator).precedence? = some own :=
    TokenKind.precedence?_eq_some_iff.mpr kind
  simpa using Joins.at_iff.mpr ⟨operand, precedence⟩

/-- No operator between operands binds looser than the level says. -/
theorem le_of_joins (h : Flat level items tree) {i precedence : Nat}
    (joins : Joins items i precedence) : level ≤ precedence := by
  induction h generalizing i with
  | operand | group => exact absurd joins.lt_length (by simp)
  | signed le sign _ ih =>
    obtain ⟨j, _, below⟩ := joins.cons_cases (Item.isOperator_token_of_sign sign)
    exact Nat.le_trans le (ih below)
  | @joined level own operator left right a b le kind _ _ ihLeft ihRight =>
    rcases joins.append_cases (Item.isOperator_token_of_operator kind) with
      below | ⟨_, here⟩ | ⟨j, _, below⟩
    · exact Nat.le_trans le (ihLeft below)
    · rw [show (Item.token operator).precedence? = some own from
        TokenKind.precedence?_eq_some_iff.mpr kind] at here
      cases here
      exact le
    · have := ihRight below
      omega

/-- Signs and operands hold no operator between operands. -/
theorem not_joins (h : Flat signLevel items tree) (i precedence : Nat) :
    ¬ Joins items i precedence := by
  intro joins
  have above := h.le_of_joins joins
  obtain ⟨_, item, _, _, _, own⟩ := joins
  cases item with
  | token t =>
    have := TokenKind.lt_signLevel_of_precedence? own
    omega
  | group paren tree => cases own

/-- A joined expression is split at its operator. -/
theorem split?_joined {own : Nat} {operator : Token} {left right : List Item} {a b : Tree}
    (kind : operator.kind ∈ operatorKinds own) (hLeft : Flat own left a)
    (hRight : Flat (own + 1) right b) :
    Expression.split? (left ++ .token operator :: right) = some left.length := by
  have long := hLeft.length_pos
  refine Expression.split?_eq_some_iff.mpr
    ⟨left.length - 1, own, by omega, joins_operator kind hLeft, fun j precedence joins => ?_⟩
  rcases joins.append_cases (Item.isOperator_token_of_operator kind) with
    below | ⟨place, here⟩ | ⟨k, place, below⟩
  · have := below.lt_length
    exact ⟨hLeft.le_of_joins below, fun later => by omega⟩
  · rw [show (Item.token operator).precedence? = some own from
      TokenKind.precedence?_eq_some_iff.mpr kind] at here
    cases here
    exact ⟨Nat.le_refl _, fun later => by omega⟩
  · have := hRight.le_of_joins below
    exact ⟨by omega, fun _ => by omega⟩

theorem split?_of_signLevel (h : Flat signLevel items tree) : Expression.split? items = none :=
  Expression.split?_eq_none_iff.mpr h.not_joins

/-- Flat items belong to every level that none of their operators is looser than. -/
theorem raise (h : Flat level items tree) {level' : Nat} (le : level' ≤ signLevel)
    (above : ∀ i precedence, Joins items i precedence → level' ≤ precedence) :
    Flat level' items tree := by
  cases h with
  | operand kind => exact .operand kind
  | group => exact .group
  | signed _ sign inside => exact .signed le sign inside
  | joined _ kind hLeft hRight =>
    exact .joined (above _ _ (joins_operator kind hLeft)) kind hLeft hRight

/-- Two flat lists are joined by an operator that is the last of the loosest ones. -/
theorem joined_of_loosest {operator : Token} {own : Nat} {left right : List Item} {a b : Tree}
    (precedence : operator.kind.precedence? = some own) (hLeft : Flat 1 left a)
    (hRight : Flat 1 right b)
    (least : ∀ j precedence, Joins (left ++ .token operator :: right) j precedence →
      own ≤ precedence ∧ (left.length ≤ j → own < precedence)) :
    Flat 1 (left ++ .token operator :: right) (.binary operator a b) := by
  have below := TokenKind.lt_signLevel_of_precedence? precedence
  have above : 1 ≤ own := by
    cases kind : operator.kind <;> rw [kind] at precedence <;> cases precedence <;> decide
  refine .joined above (TokenKind.precedence?_eq_some_iff.mp precedence)
    (hLeft.raise (by omega) ?_) (hRight.raise (by omega) ?_)
  · intro j precedence joins
    exact (least j precedence (joins.append_right _)).1
  · intro j precedence joins
    have behind : Joins (left ++ .token operator :: right) (left.length + (1 + j)) precedence :=
      (joins.append_left [.token operator]).append_left left
    exact (least _ precedence behind).2 (by omega)

/-- One item alone is an operand. -/
theorem singleton {item : Item} (h : Flat level [item] tree) :
    (∃ t, item = .token t ∧ t.kind ∈ operandKinds ∧ tree = .leaf t) ∨
      ∃ paren, item = .group paren tree := by
  generalize single : [item] = items at h
  cases h with
  | @operand _ t kind =>
    cases single
    exact .inl ⟨t, rfl, kind, rfl⟩
  | @group _ paren =>
    cases single
    exact .inr ⟨paren, rfl⟩
  | signed _ _ inside =>
    cases single
    exact absurd inside.length_pos (by simp)
  | joined _ _ hLeft hRight =>
    have := congrArg List.length single
    have := hLeft.length_pos
    have := hRight.length_pos
    simp at *
    omega

/-- One item alone has one tree. -/
theorem singleton_unique {item : Item} {level' : Nat} {tree' : Tree} (h : Flat level [item] tree)
    (h' : Flat level' [item] tree') : tree = tree' := by
  rcases h.singleton with ⟨t, rfl, -, rfl⟩ | ⟨paren, rfl⟩ <;>
    rcases h'.singleton with ⟨t', same, -, rfl⟩ | ⟨paren', same⟩ <;> cases same <;> rfl

end Flat

/-! ### Reading flat items -/

namespace Expression

/-- Reads items among which every group has been read already. -/
def readReduced (fuel : Nat) (items : List Item) : Except Diagnostic Tree :=
  match split? items with
  | some k =>
    match items.drop k with
    | [] => .error (emptyNear {})
    | operator :: right => do
      let left ← readItems fuel (items.take k) operator.source
      let right ← readItems fuel right operator.source
      return .binary operator.source left right
  | none =>
    match items with
    | [] => .error (emptyNear {})
    | first :: rest => operand (readItems fuel) first rest

/-- Reading is reading the groups first and then what remains. -/
theorem readItems_succ (fuel : Nat) {items : List Item} (filled : items ≠ []) (near : Token) :
    readItems (fuel + 1) items near =
      (reduceFrom (readItems fuel) 0 items).bind (readReduced fuel) := by
  cases items with
  | nil => exact absurd rfl filled
  | cons first rest => rfl

theorem reduceFrom_of_parenFree (read : List Item → Token → Except Diagnostic Tree)
    {items : List Item} (free : ParenFree items) : reduceFrom read 0 items = .ok items := by
  induction items with
  | nil => rfl
  | cons item rest ih =>
    obtain ⟨opens, closes⟩ := free item List.mem_cons_self
    have below := ih fun other member => free other (List.mem_cons_of_mem item member)
    simp [reduceFrom, opens, closes, below, bind, Except.bind, pure, Except.pure]

theorem readItems_of_parenFree (fuel : Nat) {items : List Item} (filled : items ≠ [])
    (free : ParenFree items) (near : Token) :
    readItems (fuel + 1) items near = readReduced fuel items := by
  rw [readItems_succ fuel filled, reduceFrom_of_parenFree _ free]
  rfl

/-- Flat items are read to their tree. -/
theorem readItems_of_flat {level fuel : Nat} {items : List Item} {tree : Tree}
    (h : Flat level items tree) (room : items.length ≤ fuel) (near : Token) :
    readItems fuel items near = .ok tree := by
  induction fuel generalizing level items tree near with
  | zero =>
    have := h.length_pos
    omega
  | succ fuel ih =>
    have filled : items ≠ [] := List.length_pos_iff.mp h.length_pos
    rw [readItems_of_parenFree fuel filled h.parenFree, readReduced.eq_def]
    cases h with
    | operand kind =>
      have flat : Flat signLevel [.token _] _ := .operand kind
      rw [flat.split?_of_signLevel]
      simp only [operandKinds, List.mem_cons, List.not_mem_nil, or_false] at kind
      rcases kind with kind | kind | kind <;>
        simp [Expression.operand, Item.isSign, kind, TokenKind.isPrefixSign,
          TokenKind.unaryMeaning?]
    | @group _ paren _ =>
      have flat : Flat signLevel [.group paren tree] tree := .group
      rw [flat.split?_of_signLevel]
      rfl
    | @signed _ sign items inner _ kind inside =>
      have flat : Flat signLevel _ _ := .signed (Nat.le_refl _) kind inside
      have isSign : sign.kind.isPrefixSign = true := TokenKind.isPrefixSign_iff.mpr kind
      have short : items.length ≤ fuel := by simpa using room
      rw [flat.split?_of_signLevel]
      simp only [Expression.operand, Item.isSign, isSign, if_true, Item.source, ih inside short]
      rfl
    | @joined _ own operator left right a b _ kind hLeft hRight =>
      simp only [List.length_append, List.length_cons] at room
      have first : readItems fuel left operator = .ok a := ih hLeft (by omega) operator
      have second : readItems fuel right operator = .ok b := ih hRight (by omega) operator
      rw [Flat.split?_joined kind hLeft hRight]
      simp only [List.drop_left, List.take_left, Item.source, first, second]
      rfl

/-- Flat items of the sign level, behind a sign or alone, are what an operand is read from. -/
theorem flat_of_operand {read : List Item → Token → Except Diagnostic Tree} {first : Item}
    {rest : List Item} {tree : Tree}
    (below : ∀ near tree, read rest near = .ok tree → Flat 1 rest tree)
    (apart : ∀ i precedence, ¬ Joins (first :: rest) i precedence)
    (success : operand read first rest = .ok tree) : Flat 1 (first :: rest) tree := by
  unfold operand at success
  split at success
  · rename_i sign
    cases first with
    | group paren tree => cases sign
    | token t =>
      obtain ⟨tree', inside, same⟩ := Except.bind_eq_ok_iff.mp success
      cases same
      have kind : t.kind ∈ signKinds := TokenKind.isPrefixSign_iff.mp sign
      refine .signed (by decide) kind ((below t tree' inside).raise (Nat.le_refl _) ?_)
      intro i precedence joins
      -- An operator behind the sign would have been a place to split.
      exact absurd (joins.append_left [.token t]) (apart _ _)
  · cases rest with
    | cons extra others => cases success
    | nil =>
      cases first with
      | group paren inner =>
        cases success
        exact .group
      | token t =>
        have leaf {kind : TokenKind} (same : t.kind = kind) (operand : kind ∈ operandKinds) :
            Flat 1 [.token t] (.leaf t) := .operand (same ▸ operand)
        dsimp only at success
        split at success
        · rename_i number
          cases success
          exact leaf number (by decide)
        · rename_i name
          cases success
          exact leaf name (by decide)
        · rename_i text
          cases success
          exact leaf text (by decide)
        · cases success

/-- What is read from items without parentheses is flat. -/
theorem flat_of_readItems {fuel : Nat} {items : List Item} {near : Token} {tree : Tree}
    (free : ParenFree items) (success : readItems fuel items near = .ok tree) :
    Flat 1 items tree := by
  induction fuel generalizing items near tree with
  | zero => cases success
  | succ fuel ih =>
    cases items with
    | nil => cases success
    | cons first rest =>
      rw [readItems_of_parenFree fuel (by simp) free, readReduced.eq_def] at success
      cases split : split? (first :: rest) with
      | none =>
        rw [split] at success
        refine flat_of_operand (fun near tree => ih ?_) (split?_eq_none_iff.mp split) success
        exact fun item member => free item (List.mem_cons_of_mem _ member)
      | some k =>
        rw [split] at success
        obtain ⟨left, operator, right, own, whole, rfl, precedence, least⟩ :=
          exists_parts_of_split? split
        rw [whole] at free least success ⊢
        simp only [List.drop_left, List.take_left] at success
        obtain ⟨a, first, more⟩ := Except.bind_eq_ok_iff.mp success
        obtain ⟨b, second, same⟩ := Except.bind_eq_ok_iff.mp more
        cases same
        have flatLeft := ih (fun item member => free item (List.mem_append_left _ member)) first
        have flatRight := ih (fun item member => free item
          (List.mem_append_right _ (List.mem_cons_of_mem _ member))) second
        exact flatLeft.joined_of_loosest precedence flatRight least

end Expression

end NumScript
