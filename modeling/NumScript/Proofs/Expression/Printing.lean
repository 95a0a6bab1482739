import NumScript.Proofs.Expression.Acceptance
import NumScript.Proofs.Token.Joining
import NumScript.Proofs.Token.Layout

/-! The text of a tree, read again. A tree whose tokens are those of a script is printed in full
parentheses; its text is cut into just the tokens that were printed, and they are the tokens of a
phrase of the same shape. -/

namespace NumScript

open Piece

/-- The token is spelled as in a script: its text is a piece of its kind by itself, and its literal
is the one that this text stands for. -/
structure Token.Spelled (t : Token) : Prop where
  whole : (Piece.token t.kind t.lexeme).FollowedBy []
  literal : t.literal = Literal.ofLexeme t.kind t.lexeme

/-- The token is a symbol with its own spelling. -/
structure Token.IsSymbol (t : Token) : Prop where
  lexeme : t.lexeme = t.kind.spelling
  literal : t.literal = .none

namespace Tree

/-- The tree is made of names, numbers, signs and operators as a script spells them. -/
inductive Printed : Tree → Prop
  | leaf {t : Token} : t.kind = .identifier ∨ t.kind = .number → t.Spelled → Printed (.leaf t)
  | unary {op : Token} {a : Tree} : op.kind ∈ Phrase.signKinds → op.IsSymbol → Printed a →
      Printed (.unary op a)
  | binary {op : Token} {level : Nat} {a b : Tree} : op.kind ∈ Phrase.operatorKinds level →
      op.IsSymbol → Printed a → Printed b → Printed (.binary op a b)

/-- The pieces of the text of a tree. -/
def pieces : Tree → List Piece
  | leaf t => [.token t.kind t.lexeme]
  | unary op a =>
    .token .leftParen (Text.ofString "(") :: .token op.kind op.lexeme ::
      (a.pieces ++ [.token .rightParen (Text.ofString ")")])
  | binary op a b =>
    .token .leftParen (Text.ofString "(") :: (a.pieces ++ .blank (Text.byte ' ') ::
      .token op.kind op.lexeme :: .blank (Text.byte ' ') ::
        (b.pieces ++ [.token .rightParen (Text.ofString ")")]))
  | wide _ _ _ _ _ => []

/-- The phrase is the tree in full parentheses. -/
inductive Prints : Tree → Phrase → Prop
  | leaf {t t' : Token} : t'.spelled = t.spelled → Prints (.leaf t) (.operand t')
  | unary {op sign opening closing : Token} {a : Tree} {p : Phrase} :
      opening.kind = .leftParen → closing.kind = .rightParen → sign.spelled = op.spelled →
      Prints a p → Prints (.unary op a) (.group opening (.signed sign p) closing)
  | binary {op operator opening closing : Token} {a b : Tree} {p q : Phrase} :
      opening.kind = .leftParen → closing.kind = .rightParen → operator.spelled = op.spelled →
      Prints a p → Prints b q →
      Prints (.binary op a b) (.group opening (.joined operator p q) closing)

end Tree

/-! ### The pieces of the text -/

theorem TokenKind.mem_symbols_of_signKinds {kind : TokenKind} (h : kind ∈ Phrase.signKinds) :
    kind ∈ symbols := by
  have within : ∀ kind ∈ Phrase.signKinds, kind ∈ symbols := by decide
  exact within kind h

theorem TokenKind.mem_symbols_of_operatorKinds {kind : TokenKind} {level : Nat}
    (h : kind ∈ Phrase.operatorKinds level) : kind ∈ symbols := by
  have := TokenKind.precedence?_eq_some_iff.mpr h
  cases kind <;> first | decide | cases this

theorem Piece.not_mem_doublings_of_isWordByte {b : UInt8} (word : isWordByte b = true) :
    b ∉ doublings := by
  have others : doublings.all (fun c => !isWordByte c) = true := by decide
  intro here
  have other := List.all_eq_true.mp others b here
  simp [word] at other

/-- Names and numbers start with a letter or a digit. -/
theorem Piece.FollowedBy.head?_isWordByte {kind : TokenKind} {word rest : Text}
    (h : (token kind word).FollowedBy rest) (operand : kind = .identifier ∨ kind = .number) :
    ∃ b tail, word = b :: tail ∧ isWordByte b = true := by
  have digit {b : UInt8} (h : Text.isDigit b = true) : isWordByte b = true := by
    rw [isWordByte, h, Bool.or_true]
  cases h with
  | word letter _ _ => exact ⟨_, _, rfl, by rw [isWordByte, letter, Bool.true_or]⟩
  | whole filled inside _ _ =>
    obtain ⟨b, tail, rfl⟩ := List.exists_cons_of_ne_nil filled
    exact ⟨b, tail, rfl, digit (inside b List.mem_cons_self)⟩
  | fraction filled _ inside _ =>
    obtain ⟨b, tail, rfl⟩ := List.exists_cons_of_ne_nil filled
    exact ⟨b, _, rfl, digit (inside b List.mem_cons_self)⟩
  | string _ => rcases operand with other | other <;> cases other
  | symbol known _ _ => rcases operand with rfl | rfl <;> exact absurd known (by decide)
  | lone _ _ => rcases operand with other | other <;> cases other

/-- A symbol in front of a divided text. -/
theorem Piece.Divides.symbol {t : Token} (h : t.IsSymbol) (known : t.kind ∈ TokenKind.symbols)
    {pieces : List Piece} {rest : Text} (divides : Divides pieces rest)
    (stop : ∀ b ∈ rest.head?, b ∉ doublings) :
    Divides (.token t.kind t.lexeme :: pieces) (t.lexeme ++ rest) := by
  have whole := followedBy_symbol known stop
  rw [← h.lexeme] at whole
  exact .cons whole divides

theorem Piece.Divides.opening {pieces : List Piece} {rest : Text} (divides : Divides pieces rest)
    (stop : ∀ b ∈ rest.head?, b ∉ doublings) :
    Divides (.token .leftParen (Text.ofString "(") :: pieces) (Text.ofString "(" ++ rest) :=
  .cons (followedBy_symbol (by decide) stop) divides

theorem Piece.Divides.closing {pieces : List Piece} {rest : Text} (divides : Divides pieces rest)
    (stop : ∀ b ∈ rest.head?, separates b = true) :
    Divides (.token .rightParen (Text.ofString ")") :: pieces) (Text.ofString ")" ++ rest) := by
  have alone : (Piece.token .rightParen (Text.ofString ")")).FollowedBy [] :=
    followedBy_symbol (by decide) (by simp)
  exact .cons (alone.apart stop) divides

theorem Piece.Divides.space {pieces : List Piece} {rest : Text} (divides : Divides pieces rest) :
    Divides (.blank (Text.byte ' ') :: pieces) (Text.ofString " " ++ rest) :=
  .cons (.blank rfl) divides

namespace Tree

theorem Printed.head?_text {t : Tree} (h : t.Printed) (rest : Text) :
    ∀ b ∈ (t.text ++ rest).head?, b ∉ doublings := by
  cases h with
  | @leaf t operand spelled =>
    obtain ⟨b, tail, text, word⟩ := spelled.whole.head?_isWordByte operand
    intro c here
    rw [Tree.text, text] at here
    cases here
    exact not_mem_doublings_of_isWordByte word
  | unary | binary =>
    intro c here
    cases here
    decide

theorem Printed.divides {t : Tree} (h : t.Printed) {pieces : List Piece} {rest : Text}
    (divides : Divides pieces rest) (stop : ∀ b ∈ rest.head?, separates b = true) :
    Divides (t.pieces ++ pieces) (t.text ++ rest) := by
  have closed (rest : Text) : ∀ b ∈ (Text.ofString ")" ++ rest).head?, separates b = true := by
    intro b here
    cases here
    decide
  have spaced (rest : Text) : ∀ b ∈ (Text.ofString " " ++ rest).head?,
      separates b = true ∧ b ∉ doublings := by
    intro b here
    cases here
    decide
  induction h generalizing pieces rest with
  | leaf _ spelled => exact Divides.cons (spelled.whole.apart stop) divides
  | @unary op a sign symbol printed ih =>
    have inside := ih (divides.closing stop) (closed _)
    have signed := inside.symbol symbol (TokenKind.mem_symbols_of_signKinds sign)
      (printed.head?_text _)
    have front : ∀ b ∈ (op.lexeme ++ (a.text ++ (Text.ofString ")" ++ rest))).head?,
        b ∉ doublings := by
      simp only [Phrase.signKinds, List.mem_cons, List.not_mem_nil, or_false] at sign
      rw [symbol.lexeme]
      rcases sign with kind | kind | kind <;> rw [kind] <;> intro b here <;> cases here <;> decide
    simpa [Tree.pieces, Tree.text] using signed.opening front
  | @binary op level a b kind symbol left right ihLeft ihRight =>
    have second := ihRight (divides.closing stop) (closed _)
    have joined := second.space.symbol symbol (TokenKind.mem_symbols_of_operatorKinds kind)
      fun b here => (spaced _ b here).2
    have first := ihLeft joined.space fun b here => (spaced _ b here).1
    simpa [Tree.pieces, Tree.text] using first.opening (left.head?_text _)

/-- The text of a tree is cut into its pieces. -/
theorem Printed.split_text {t : Tree} (h : t.Printed) : split t.text = t.pieces := by
  have divides := h.divides .nil (by simp)
  rw [List.append_nil, List.append_nil] at divides
  exact divides.split_eq

theorem Printed.fault?_eq_none {t : Tree} (h : t.Printed) :
    ∀ piece ∈ t.pieces, piece.fault? = none := by
  have symbol {kind : TokenKind} (known : kind ∈ TokenKind.symbols) (text : Text) :
      (Piece.token kind text).fault? = none := by
    cases kind <;> first | rfl | exact absurd known (by decide)
  have opening := symbol (show TokenKind.leftParen ∈ TokenKind.symbols by decide)
  have closing := symbol (show TokenKind.rightParen ∈ TokenKind.symbols by decide)
  have space : (Piece.blank (Text.byte ' ')).fault? = none := rfl
  induction h with
  | @leaf t operand _ =>
    intro piece here
    obtain rfl := List.mem_singleton.mp here
    rcases operand with kind | kind <;> rw [kind] <;> rfl
  | unary sign _ _ ih =>
    have known := TokenKind.mem_symbols_of_signKinds sign
    simpa [Tree.pieces, or_imp, forall_and, symbol known, opening, closing] using ih
  | binary kind _ _ _ ihLeft ihRight =>
    have known := TokenKind.mem_symbols_of_operatorKinds kind
    simpa [Tree.pieces, or_imp, forall_and, symbol known, opening, closing, space]
      using ⟨ihLeft, ihRight⟩

theorem Printed.hasErrors_tokenize {t : Tree} (h : t.Printed) (file : Text) :
    (tokenize t.text file).2.hasErrors = false := by
  rw [NumScript.hasErrors_tokenize, h.split_text, List.any_eq_false]
  intro piece here
  simp [h.fault?_eq_none piece here]

end Tree

/-! ### The phrase of the text -/

theorem Token.IsSymbol.spelled?_eq {t : Token} (h : t.IsSymbol)
    (known : t.kind ∈ TokenKind.symbols) :
    (Piece.token t.kind t.lexeme).spelled? = some t.spelled := by
  have bare : Literal.ofLexeme t.kind t.lexeme = .none := by
    cases kind : t.kind <;> rw [kind] at known <;> first | rfl | exact absurd known (by decide)
  rw [spelled?, bare, Token.spelled, h.literal]

namespace Tree

/-- Tokens that are spelled like the text of a tree are the tokens of a phrase that prints it. -/
theorem Printed.exists_phrase {t : Tree} (h : t.Printed) {tokens : List Token}
    (same : tokens.map Token.spelled = t.pieces.filterMap spelled?) :
    ∃ p, t.Prints p ∧ p.tokens = tokens := by
  have opened : (Piece.token .leftParen (Text.ofString "(")).spelled? =
    some (.leftParen, Text.ofString "(", .none) := rfl
  have space : (Piece.blank (Text.byte ' ')).spelled? = none := rfl
  induction h generalizing tokens with
  | @leaf t _ spelled =>
    have own : (Piece.token t.kind t.lexeme).spelled? = some t.spelled := by
      rw [spelled?, Token.spelled, spelled.literal]
    rw [Tree.pieces, List.filterMap_cons_some own, List.filterMap_nil, List.map_eq_singleton_iff]
      at same
    obtain ⟨t', rfl, same⟩ := same
    exact ⟨.operand t', .leaf same, rfl⟩
  | @unary op a sign symbol _ ih =>
    have own := symbol.spelled?_eq (TokenKind.mem_symbols_of_signKinds sign)
    rw [Tree.pieces, List.filterMap_cons_some opened, List.filterMap_cons_some own,
      List.filterMap_append, List.map_eq_cons_iff] at same
    obtain ⟨opening, _, rfl, opens, behind⟩ := same
    obtain ⟨sign, _, rfl, signed, behind⟩ := List.map_eq_cons_iff.mp behind
    obtain ⟨inside, _, rfl, inner, last⟩ := List.map_eq_append_iff.mp behind
    obtain ⟨closing, rfl, closes⟩ := List.map_eq_singleton_iff.mp last
    obtain ⟨p, prints, rfl⟩ := ih inner
    exact ⟨.group opening (.signed sign p) closing,
      .unary (congrArg Prod.fst opens) (congrArg Prod.fst closes) signed prints, rfl⟩
  | @binary op level a b kind symbol _ _ ihLeft ihRight =>
    have own := symbol.spelled?_eq (TokenKind.mem_symbols_of_operatorKinds kind)
    rw [Tree.pieces, List.filterMap_cons_some opened, List.filterMap_append,
      List.filterMap_cons_none space, List.filterMap_cons_some own, List.filterMap_cons_none space,
      List.filterMap_append, List.map_eq_cons_iff] at same
    obtain ⟨opening, _, rfl, opens, behind⟩ := same
    obtain ⟨first, _, rfl, left, behind⟩ := List.map_eq_append_iff.mp behind
    obtain ⟨operator, _, rfl, joined, behind⟩ := List.map_eq_cons_iff.mp behind
    obtain ⟨second, _, rfl, right, last⟩ := List.map_eq_append_iff.mp behind
    obtain ⟨closing, rfl, closes⟩ := List.map_eq_singleton_iff.mp last
    obtain ⟨p, prints, rfl⟩ := ihLeft left
    obtain ⟨q, prints', rfl⟩ := ihRight right
    exact ⟨.group opening (.joined operator p q) closing,
      .binary (congrArg Prod.fst opens) (congrArg Prod.fst closes) joined prints prints', by
        simp [Phrase.tokens]⟩

/-- A phrase in full parentheses belongs to every level. -/
theorem Prints.derives {t : Tree} {p : Phrase} (h : t.Prints p) (printed : t.Printed)
    (level : Nat) : p.Derives level := by
  induction h generalizing level with
  | leaf same =>
    cases printed with
    | leaf operand _ =>
      apply Phrase.Derives.operand
      rw [Token.kind_of_spelled same]
      rcases operand with name | number
      · rw [name]
        decide
      · rw [number]
        decide
  | unary opens closes same _ ih =>
    cases printed with
    | unary sign _ below =>
      rw [← Token.kind_of_spelled same] at sign
      exact .group opens closes (.signed (by decide) sign (ih below _))
  | binary opens closes same _ _ ihLeft ihRight =>
    cases printed with
    | @binary _ own _ _ operator _ left right =>
      rw [← Token.kind_of_spelled same] at operator
      have positive : 1 ≤ own := by
        by_cases zero : own = 0
        · subst zero
          cases operator
        · omega
      exact .group opens closes (.joined positive operator (ihLeft left _) (ihRight right _))

theorem Prints.isConstant_eq {t : Tree} {p : Phrase} (h : t.Prints p) :
    p.isConstant = t.isConstant := by
  induction h with
  | leaf same =>
    have kind := Token.kind_of_spelled same
    simp [Phrase.isConstant, Phrase.tokens, Tree.isConstant, kind]
  | unary opens closes same _ ih =>
    have kind := Token.kind_of_spelled same
    simp only [Phrase.isConstant, ne_eq, decide_not] at ih
    simp [Phrase.isConstant, Phrase.tokens, Tree.isConstant, kind, opens, closes, ih]
  | binary opens closes same _ _ ihLeft ihRight =>
    have kind := Token.kind_of_spelled same
    simp only [Phrase.isConstant, ne_eq, decide_not] at ihLeft ihRight
    simp [Phrase.isConstant, Phrase.tokens, Tree.isConstant, kind, opens, closes, ihLeft, ihRight,
      Bool.and_left_comm, Bool.and_assoc]

end Tree

end NumScript
