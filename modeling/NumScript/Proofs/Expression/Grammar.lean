import NumScript.Proofs.Delimiters
import NumScript.Proofs.Expression.Staged

/-! The grammar of expressions. A phrase is a derivation with all its tokens in place; its level
says how loosely it may bind. Beside the tokens of a phrase stand its tree, and the tree in which
every group without names has become a number. -/

namespace NumScript

/-- An expression as it is written, every token in its place. -/
inductive Phrase where
  | operand (t : Token)
  /-- `( … )` -/
  | group (opening : Token) (inside : Phrase) (closing : Token)
  /-- A sign or a negation in front of a phrase. -/
  | signed (sign : Token) (inside : Phrase)
  /-- An operator between two phrases. -/
  | joined (operator : Token) (left right : Phrase)
  deriving Inhabited

namespace Phrase

/-- The kinds that stand for a value by themselves. -/
def operandKinds : List TokenKind := [.number, .identifier, .string]

/-- The kinds that stand in front of an operand. -/
def signKinds : List TokenKind := [.minus, .plus, .bang]

/-- The operators between two operands, by level: a higher level binds tighter. -/
def operatorKinds : Nat → List TokenKind
  | 1 => [.or]
  | 2 => [.and]
  | 3 => [.equalEqual, .bangEqual]
  | 4 => [.less, .lessEqual, .greater, .greaterEqual]
  | 5 => [.plus, .minus]
  | 6 => [.star, .slash]
  | _ => []

/-- The level of signs, above the levels of all operators. -/
def signLevel : Nat := 7

/-- The phrase belongs to a level of the grammar. Every level holds the phrases of the tighter
ones. The left operand of an operator has the level of the operator and the right one a tighter
level, so that operators of one level associate to the left. -/
inductive Derives : Nat → Phrase → Prop
  | operand {level : Nat} {t : Token} : t.kind ∈ operandKinds → Derives level (operand t)
  | group {level : Nat} {opening closing : Token} {inside : Phrase} :
      opening.kind = .leftParen → closing.kind = .rightParen → Derives 1 inside →
      Derives level (group opening inside closing)
  | signed {level : Nat} {sign : Token} {inside : Phrase} :
      level ≤ signLevel → sign.kind ∈ signKinds → Derives signLevel inside →
      Derives level (signed sign inside)
  | joined {level own : Nat} {operator : Token} {left right : Phrase} :
      level ≤ own → operator.kind ∈ operatorKinds own → Derives own left →
      Derives (own + 1) right → Derives level (joined operator left right)

/-- The tokens of a phrase, from left to right. -/
def tokens : Phrase → List Token
  | operand t => [t]
  | group opening inside closing => opening :: inside.tokens ++ [closing]
  | signed sign inside => sign :: inside.tokens
  | joined operator left right => left.tokens ++ operator :: right.tokens

/-- The tree of a phrase: a group is the tree of its inside. -/
def tree : Phrase → Tree
  | operand t => .leaf t
  | group _ inside _ => inside.tree
  | signed sign inside => .unary sign inside.tree
  | joined operator left right => .binary operator left.tree right.tree

/-- The insides of all groups of a phrase. -/
def groups : Phrase → List Phrase
  | operand _ => []
  | group _ inside _ => inside :: inside.groups
  | signed _ inside => inside.groups
  | joined _ left right => left.groups ++ right.groups

/-- The phrase holds no name. -/
def isConstant (p : Phrase) : Bool := p.tokens.all fun t => t.kind ≠ .identifier

/-- The phrase holds no text in quotes. -/
def isTextFree (p : Phrase) : Bool := p.tokens.all fun t => t.kind ≠ .string

/-- The tree of a phrase in which every group without names is a number, in the place of its
parenthesis, that holds the value of the group. -/
def folded : Phrase → Except Diagnostic Tree
  | operand t => .ok (.leaf t)
  | group opening inside _ =>
    if inside.isConstant then inside.tree.evaluate.map fun v => .leaf (.ofNumber v opening)
    else inside.folded
  | signed sign inside => inside.folded.map (.unary sign)
  | joined operator left right =>
    left.folded.bind fun a => right.folded.map fun b => .binary operator a b

end Phrase

/-! ### Operators -/

namespace TokenKind

theorem precedence?_eq_some_iff {kind : TokenKind} {level : Nat} :
    kind.precedence? = some level ↔ kind ∈ Phrase.operatorKinds level := by
  constructor
  · intro h
    cases kind <;> simp only [precedence?, Option.some.injEq, reduceCtorEq] at h <;> subst h <;>
      decide
  · intro h
    unfold Phrase.operatorKinds at h
    split at h <;> simp only [List.mem_cons, List.not_mem_nil, or_false] at h
    · rw [h]
      rfl
    · rw [h]
      rfl
    · rcases h with rfl | rfl <;> rfl
    · rcases h with rfl | rfl | rfl | rfl <;> rfl
    · rcases h with rfl | rfl <;> rfl
    · rcases h with rfl | rfl <;> rfl

theorem lt_signLevel_of_precedence? {kind : TokenKind} {level : Nat}
    (h : kind.precedence? = some level) : level < Phrase.signLevel := by
  cases kind <;> simp only [precedence?, Option.some.injEq, reduceCtorEq] at h <;> subst h <;>
    decide

theorem isPrefixSign_iff {kind : TokenKind} :
    kind.isPrefixSign = true ↔ kind ∈ Phrase.signKinds := by
  cases kind <;> decide

theorem binaryMeaning?_of_precedence? {kind : TokenKind} {level : Nat}
    (h : kind.precedence? = some level) : ∃ f, kind.binaryMeaning? = some f := by
  cases kind <;> first | exact ⟨_, rfl⟩ | cases h

end TokenKind

namespace Phrase

/-! ### Tokens of a phrase -/

/-- The kinds of tokens that a phrase is made of. -/
def kinds : List TokenKind :=
  operandKinds ++ signKinds ++ [.leftParen, .rightParen, .or, .and, .equalEqual, .bangEqual, .less,
    .lessEqual, .greater, .greaterEqual, .star, .slash]

/-- The kinds of tokens that a phrase starts with. -/
def startKinds : List TokenKind := .leftParen :: operandKinds ++ signKinds

theorem not_mem_operatorKinds {kind : TokenKind} (other : kind.precedence? = none) (level : Nat) :
    kind ∉ operatorKinds level := by
  rw [← TokenKind.precedence?_eq_some_iff, other]
  simp

theorem mem_kinds_of_operatorKinds {kind : TokenKind} {level : Nat}
    (h : kind ∈ operatorKinds level) : kind ∈ kinds := by
  have := TokenKind.precedence?_eq_some_iff.mpr h
  cases kind <;> first | decide | cases this

theorem tokens_ne_nil (p : Phrase) : p.tokens ≠ [] := by
  cases p <;> simp [tokens]

namespace Derives

variable {level : Nat} {p : Phrase}

theorem kind_mem (h : Derives level p) {t : Token} (ht : t ∈ p.tokens) : t.kind ∈ kinds := by
  induction h with
  | operand kind =>
    obtain rfl := List.mem_singleton.mp ht
    exact List.mem_append_left _ (List.mem_append_left _ kind)
  | group opens closes _ ih =>
    simp only [tokens, List.cons_append, List.mem_cons, List.mem_append, List.not_mem_nil,
      or_false] at ht
    rcases ht with rfl | inside | rfl
    · rw [opens]
      decide
    · exact ih inside
    · rw [closes]
      decide
  | signed _ sign _ ih =>
    rcases List.mem_cons.mp ht with rfl | inside
    · exact List.mem_append_left _ (List.mem_append_right _ sign)
    · exact ih inside
  | joined _ operator _ _ ihLeft ihRight =>
    rcases List.mem_append.mp ht with left | right
    · exact ihLeft left
    · rcases List.mem_cons.mp right with rfl | right
      · exact mem_kinds_of_operatorKinds operator
      · exact ihRight right

/-- A phrase starts with an operand, a sign or a parenthesis. -/
theorem start_mem (h : Derives level p) {t : Token} {rest : List Token}
    (starts : p.tokens = t :: rest) : t.kind ∈ startKinds := by
  induction h generalizing rest with
  | operand kind =>
    cases starts
    exact List.mem_cons_of_mem _ (List.mem_append_left _ kind)
  | group opens _ _ _ =>
    cases starts
    rw [opens]
    decide
  | signed _ sign _ _ =>
    cases starts
    exact List.mem_cons_of_mem _ (List.mem_append_right _ sign)
  | @joined _ _ _ left _ _ _ _ _ ihLeft _ =>
    obtain ⟨first, more, begins⟩ := List.exists_cons_of_ne_nil left.tokens_ne_nil
    rw [tokens, begins] at starts
    cases starts
    exact ihLeft begins

/-- A phrase closes the parentheses that it opens. -/
theorem balanced (h : Derives level p) : Balanced .leftParen .rightParen p.tokens := by
  induction h with
  | operand kind =>
    exact Balanced.cons (ne_of_mem_of_not_mem kind (by decide))
      (ne_of_mem_of_not_mem kind (by decide)) .nil
  | group opens closes _ ih => exact Balanced.enclose (by decide) opens closes ih .nil
  | signed _ sign _ ih =>
    exact Balanced.cons (ne_of_mem_of_not_mem sign (by decide))
      (ne_of_mem_of_not_mem sign (by decide)) ih
  | joined _ operator _ _ ihLeft ihRight =>
    exact ihLeft.append (Balanced.cons (ne_of_mem_of_not_mem operator (not_mem_operatorKinds rfl _))
      (ne_of_mem_of_not_mem operator (not_mem_operatorKinds rfl _)) ihRight)

end Derives

end Phrase

end NumScript
