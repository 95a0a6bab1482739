import NumScript.Proofs.Token.Division
import NumScript.Proofs.Token.Places

/-! Tokens do not depend on layout. When the tokens of a script are written down again, in their
order and with blanks and comments between them, they are read as the same tokens, and the only
problems are those that a token brings with it. -/

namespace NumScript

/-- Blanks and whole comments, each comment with its line feed. -/
inductive Filler : Text → Prop
  | nil : Filler []
  | blank {b : UInt8} {rest : Text} : Piece.isBlank b = true → Filler rest → Filler (b :: rest)
  | comment {body rest : Text} : Piece.newline ∉ body → Filler rest →
      Filler (Piece.slashes ++ body ++ Piece.newline :: rest)

/-- What keeps two tokens apart: a blank, and then any blanks and comments. -/
inductive Separator : Text → Prop
  | blank {b : UInt8} {rest : Text} : Piece.isBlank b = true → Filler rest → Separator (b :: rest)

/-- The words stand in the text in their order, with a separator before each of them and at most
one behind the last. -/
inductive LaidOut : List Text → Text → Prop
  | nil : LaidOut [] []
  | separator {gap : Text} : Separator gap → LaidOut [] gap
  | cons {gap word rest : Text} {words : List Text} : Separator gap → LaidOut words rest →
      LaidOut (word :: words) (gap ++ word ++ rest)

/-- What a token is apart from its place. -/
def Token.spelled (t : Token) : TokenKind × Text × Literal := (t.kind, t.lexeme, t.literal)

theorem Token.kind_of_spelled {t t' : Token} (same : t.spelled = t'.spelled) : t.kind = t'.kind :=
  congrArg Prod.fst same

/-- The problem without its line. -/
def Diagnostic.unplaced (d : Diagnostic) : Diagnostic := { d with line := 0 }

namespace Piece

def isToken : Piece → Bool
  | token _ _ => true
  | _ => false

/-- The token that a piece is, apart from its place. -/
def spelled? : Piece → Option (TokenKind × Text × Literal)
  | token kind text => some (kind, text, Literal.ofLexeme kind text)
  | _ => none

end Piece

open Piece

/-! ### Dividing the text -/

theorem Filler.divides {gap rest : Text} (h : Filler gap) {pieces : List Piece}
    (divides : Divides pieces rest) :
    ∃ layout, (∀ piece ∈ layout, piece.isLayout = true) ∧
      Divides (layout ++ pieces) (gap ++ rest) := by
  induction h with
  | nil => exact ⟨[], by simp, divides⟩
  | @blank b _ white _ ih =>
    obtain ⟨layout, silent, below⟩ := ih
    exact ⟨.blank b :: layout, List.forall_mem_cons.mpr ⟨rfl, silent⟩,
      Divides.cons (.blank white) below⟩
  | @comment body more free _ ih =>
    obtain ⟨layout, silent, below⟩ := ih
    have feed : isBlank newline = true := by decide
    have line := Divides.cons (FollowedBy.blank feed) below
    have stop : ∀ b ∈ (newline :: (more ++ rest)).head?, b = newline := by simp
    refine ⟨.comment (slashes ++ body) :: .blank newline :: layout, ?_, ?_⟩
    · simpa [isLayout] using silent
    · have whole := Divides.cons (FollowedBy.comment free stop) line
      simpa [text] using whole

theorem Separator.divides {gap rest : Text} (h : Separator gap) {pieces : List Piece}
    (divides : Divides pieces rest) :
    ∃ layout, (∀ piece ∈ layout, piece.isLayout = true) ∧
      Divides (layout ++ pieces) (gap ++ rest) := by
  cases h with
  | blank white filler => exact (Filler.blank white filler).divides divides

theorem Separator.head?_separates {gap : Text} (h : Separator gap) (rest : Text) :
    ∀ b ∈ (gap ++ rest).head?, separates b = true := by
  cases h with
  | blank white _ =>
    intro b here
    cases here
    exact separates_of_isBlank white

theorem LaidOut.head?_separates {words : List Text} {text : Text} (h : LaidOut words text) :
    ∀ b ∈ text.head?, separates b = true := by
  cases h with
  | nil => simp
  | separator gap =>
    have front := gap.head?_separates []
    rwa [List.append_nil] at front
  | cons gap _ =>
    rw [List.append_assoc]
    exact gap.head?_separates _

/-- Tokens that are laid out again divide the text, with nothing but layout between them. -/
theorem LaidOut.divides {tokens : List Piece} {text : Text}
    (each : ∀ piece ∈ tokens, piece.isToken = true ∧ ∃ rest, piece.FollowedBy rest)
    (h : LaidOut (tokens.map Piece.text) text) :
    ∃ pieces, Divides pieces text ∧ pieces.filter (fun piece => !piece.isLayout) = tokens := by
  have layoutOnly {layout : List Piece} (silent : ∀ piece ∈ layout, piece.isLayout = true) :
      layout.filter (fun piece => !piece.isLayout) = [] := by
    rw [List.filter_eq_nil_iff]
    simpa using silent
  induction tokens generalizing text with
  | nil =>
    cases h with
    | nil => exact ⟨[], .nil, rfl⟩
    | separator gap =>
      obtain ⟨layout, silent, divides⟩ := gap.divides .nil
      rw [List.append_nil, List.append_nil] at divides
      exact ⟨layout, divides, layoutOnly silent⟩
  | cons piece tokens ih =>
    obtain ⟨⟨first, before, stood⟩, each⟩ := List.forall_mem_cons.mp each
    cases h with
    | @cons gap _ rest _ gap below =>
      obtain ⟨pieces, divides, rfl⟩ := ih each below
      cases piece with
      | token kind word =>
        have whole := stood.apart below.head?_separates
        obtain ⟨layout, silent, all⟩ := gap.divides (Divides.cons whole divides)
        refine ⟨layout ++ .token kind word :: pieces, ?_, ?_⟩
        · rw [List.append_assoc]
          exact all
        · rw [List.filter_append, layoutOnly silent, List.nil_append]
          exact List.filter_cons_of_pos rfl
      | _ => cases first

/-! ### Reading the text -/

namespace Lexer

theorem map_spelled_readFrom (file : Text) (place : Place) (pieces : List Piece) :
    (readFrom file place pieces).1.map Token.spelled = pieces.filterMap spelled? := by
  induction pieces generalizing place with
  | nil => rfl
  | cons piece rest ih =>
    rw [readFrom, List.map_append, ih, List.filterMap_cons]
    cases piece <;> rfl

theorem map_unplaced_readFrom (file : Text) (place : Place) (pieces : List Piece) :
    (readFrom file place pieces).2.map Diagnostic.unplaced = pieces.filterMap (problem? 0) := by
  induction pieces generalizing place with
  | nil => rfl
  | cons piece rest ih =>
    have first : (piece.problem? place.line).map Diagnostic.unplaced = piece.problem? 0 := by
      cases piece with
      | token kind text =>
        cases kind with
        | identifier =>
          simp only [problem?]
          split <;> rfl
        | _ => rfl
      | _ => rfl
    rw [readFrom, List.map_append, ih, List.filterMap_cons, ← first]
    cases piece.problem? place.line <;> rfl

end Lexer

theorem tokenize_spelled (source file : Text) :
    (tokenize source file).1.map Token.spelled = (split source).filterMap spelled? :=
  Lexer.map_spelled_readFrom file {} _

theorem tokenize_unplaced (source file : Text) :
    (tokenize source file).2.items.map Diagnostic.unplaced =
      (split source).filterMap (problem? 0) := by
  have items : (tokenize source file).2.items = (Lexer.readFrom file {} (split source)).2 :=
    Log.items_reportAll {} _
  rw [items, Lexer.map_unplaced_readFrom]

theorem filterMap_spelled? (pieces : List Piece) :
    (pieces.filter isToken).filterMap spelled? = pieces.filterMap spelled? := by
  rw [List.filterMap_filter]
  congr 1
  funext piece
  cases piece <;> rfl

theorem map_text_filter (pieces : List Piece) :
    (pieces.filterMap spelled?).map (fun t => t.2.1) = (pieces.filter isToken).map Piece.text := by
  induction pieces with
  | nil => rfl
  | cons piece rest ih =>
    cases piece with
    | token kind word => exact congrArg (word :: ·) ih
    | _ => exact ih

/-- Layout makes neither tokens nor problems. -/
theorem filterMap_layout {α : Type} {f : Piece → Option α}
    (silent : ∀ piece, piece.isLayout = true → f piece = none) (pieces : List Piece) :
    (pieces.filter fun piece => !piece.isLayout).filterMap f = pieces.filterMap f := by
  rw [List.filterMap_filter]
  congr 1
  funext piece
  cases layout : piece.isLayout with
  | false => rfl
  | true => exact (silent piece layout).symm

/-- The problem comes with a token: it is a malformed operator, or a keyword in another case. -/
def Diagnostic.ofToken (d : Diagnostic) : Bool :=
  d.cause = some .malformedOperator || d.cause = some .keywordCase

theorem filter_problem?_ofToken (pieces : List Piece) :
    (pieces.filterMap (problem? 0)).filter Diagnostic.ofToken =
      (pieces.filter isToken).filterMap (problem? 0) := by
  rw [List.filterMap_filter, List.filter_filterMap]
  congr 1
  funext piece
  cases piece with
  | token kind text =>
    cases kind with
    | identifier =>
      simp only [problem?, isToken]
      split <;> rfl
    | _ => rfl
  | _ => rfl

/-- When the tokens of a script are laid out again they are read as the same tokens, whatever the
layout, and of the problems those that come with a token remain. -/
theorem tokenize_laidOut {source text : Text} (file file' : Text)
    (laid : LaidOut ((tokenize source file).1.map Token.lexeme) text) :
    (tokenize text file').1.map Token.spelled = (tokenize source file).1.map Token.spelled ∧
      (tokenize text file').2.items.map Diagnostic.unplaced =
        ((tokenize source file).2.items.filter Diagnostic.ofToken).map Diagnostic.unplaced := by
  have words : (tokenize source file).1.map Token.lexeme =
      ((split source).filter isToken).map Piece.text := by
    rw [← map_text_filter, ← tokenize_spelled source file, List.map_map]
    rfl
  rw [words] at laid
  obtain ⟨pieces, divides, tokens⟩ := laid.divides (by
    intro piece here
    obtain ⟨here, token⟩ := List.mem_filter.mp here
    obtain ⟨before, after, parts⟩ := List.append_of_mem here
    exact ⟨token, _, (split_divides source).whole before piece after parts⟩)
  constructor
  · have silent : ∀ piece : Piece, piece.isLayout = true → piece.spelled? = none := by
      rintro (_ | _ | _ | _ | _) layout <;> cases layout <;> rfl
    rw [tokenize_spelled, tokenize_spelled, divides.split_eq, ← filterMap_layout silent, tokens,
      filterMap_spelled?]
  · have silent : ∀ piece : Piece, piece.isLayout = true → piece.problem? 0 = none := by
      rintro (_ | _ | _ | _ | _) layout <;> cases layout <;> rfl
    have kept (ds : List Diagnostic) : (ds.filter Diagnostic.ofToken).map Diagnostic.unplaced =
        (ds.map Diagnostic.unplaced).filter Diagnostic.ofToken := by
      rw [List.filter_map]
      rfl
    rw [kept, tokenize_unplaced, tokenize_unplaced, divides.split_eq, ← filterMap_layout silent,
      tokens, filter_problem?_ofToken]

/-- The tokens of `If/&#`, with a comment behind the slash. -/
def commented : Text :=
  Text.ofString " " ++ Text.ofString "If" ++ (Text.ofString " " ++ Text.ofString "/" ++
    (Text.ofString "\t// / \"\n" ++ Text.ofString "&" ++ Text.ofString "\n"))

theorem tokenize_laidOut_commented :
    LaidOut ((tokenize (Text.ofString "If/&#") []).1.map Token.lexeme) commented ∧
      (tokenize commented []).2.items.map Diagnostic.unplaced =
        ((tokenize (Text.ofString "If/&#") []).2.items.filter Diagnostic.ofToken).map
          Diagnostic.unplaced := by
  have words : (tokenize (Text.ofString "If/&#") []).1.map Token.lexeme =
    [Text.ofString "If", Text.ofString "/", Text.ofString "&"] := by decide +kernel
  have space : Separator (Text.ofString " ") := .blank (b := Text.byte ' ') rfl .nil
  have feed : Separator (Text.ofString "\n") := .blank (b := newline) rfl .nil
  have free : newline ∉ Text.ofString " / \"" := by decide
  have remark : Separator (Text.ofString "\t// / \"\n") :=
    .blank (b := Text.byte '\t') rfl (.comment free .nil)
  have laid : LaidOut ((tokenize (Text.ofString "If/&#") []).1.map Token.lexeme) commented := by
    rw [words]
    exact .cons space (.cons space (.cons remark (.separator feed)))
  exact ⟨laid, (tokenize_laidOut [] [] laid).2⟩

end NumScript
