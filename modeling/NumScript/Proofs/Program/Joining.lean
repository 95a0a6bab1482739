import NumScript.Proofs.Program.Reading
import NumScript.Proofs.Token.Joining

/-! Reading scripts one after the other. A program whose tokens are moved to another place is the
same program with everything in it moved, and the tokens of two programs together are read to the
statements of the one followed by those of the other. -/

namespace NumScript

variable (shift : Shift)

/-- The same problem, found so many lines further down. -/
def Diagnostic.moved (d : Diagnostic) : Diagnostic := { d with line := d.line + shift.lines }

/-! ### Expressions -/

theorem Token.value_moved (t : Token) :
    (t.moved shift).value = t.value.mapError (Diagnostic.moved shift) := by
  have kind : (t.moved shift).kind = t.kind := rfl
  have number : (t.moved shift).number? = t.number? := rfl
  have lexeme : (t.moved shift).lexeme = t.lexeme := rfl
  unfold Token.value
  rw [kind, number, lexeme]
  by_cases other : t.kind ≠ .number
  · rw [if_pos other, if_pos other]
    rfl
  · rw [if_neg other, if_neg other]
    cases t.number? with
    | some v => rfl
    | none => cases Number.read? t.lexeme <;> rfl

namespace Tree

mutual

def moved : Tree → Tree
  | leaf t => leaf (t.moved shift)
  | unary op a => unary (op.moved shift) (a.moved)
  | binary op a b => binary (op.moved shift) a.moved b.moved
  | wide op a b c more => wide (op.moved shift) a.moved b.moved c.moved (allMoved more)

def allMoved : List Tree → List Tree
  | [] => []
  | t :: rest => t.moved :: allMoved rest

end

theorem length_allMoved (ts : List Tree) : (allMoved shift ts).length = ts.length := by
  induction ts with
  | nil => rfl
  | cons t rest ih => simp [allMoved, ih]

mutual

theorem isConstant_moved : (t : Tree) → (t.moved shift).isConstant = t.isConstant
  | leaf t => by simp [moved, isConstant, Token.moved]
  | unary op a => by simp [moved, isConstant, Token.moved, isConstant_moved a]
  | binary op a b => by
    simp [moved, isConstant, Token.moved, isConstant_moved a, isConstant_moved b]
  | wide op a b c more => by
    simp [moved, isConstant, Token.moved, isConstant_moved a, isConstant_moved b,
      isConstant_moved c, allConstant_moved more]

theorem allConstant_moved : (ts : List Tree) → allConstant (allMoved shift ts) = allConstant ts
  | [] => rfl
  | t :: rest => by simp [allMoved, allConstant, isConstant_moved t, allConstant_moved rest]

end

theorem evaluate_moved : (t : Tree) →
    (t.moved shift).evaluate = t.evaluate.mapError (Diagnostic.moved shift)
  | leaf t => by rw [moved, evaluate_leaf, evaluate_leaf, t.value_moved]
  | unary op a => by
    rw [moved, evaluate_unary, evaluate_unary, evaluate_moved a]
    have kind : (op.moved shift).kind = op.kind := rfl
    unfold applyUnary
    rw [kind]
    cases op.kind.unaryMeaning? with
    | none => rfl
    | some f => cases a.evaluate <;> rfl
  | binary op a b => by
    rw [moved, evaluate_binary, evaluate_binary, evaluate_moved a, evaluate_moved b]
    have kind : (op.moved shift).kind = op.kind := rfl
    unfold applyBinary
    rw [kind]
    cases op.kind.binaryMeaning? with
    | none => rfl
    | some f => cases a.evaluate <;> cases b.evaluate <;> rfl
  | wide op a b c more => by
    rw [moved, evaluate, evaluate, length_allMoved]
    rfl

end Tree

def Expression.moved (e : Expression) : Expression :=
  { start := e.start.moved shift, tree := e.tree.moved shift }

namespace Phrase

def moved : Phrase → Phrase
  | operand t => operand (t.moved shift)
  | group opening inside closing =>
    group (opening.moved shift) inside.moved (closing.moved shift)
  | signed sign inside => signed (sign.moved shift) inside.moved
  | joined operator left right => joined (operator.moved shift) left.moved right.moved

theorem tokens_moved (p : Phrase) : (p.moved shift).tokens = p.tokens.map (Token.moved shift) := by
  induction p with
  | operand t => rfl
  | group opening inside closing ih => simp [moved, tokens, ih]
  | signed sign inside ih => simp [moved, tokens, ih]
  | joined operator left right ihLeft ihRight => simp [moved, tokens, ihLeft, ihRight]

theorem tree_moved (p : Phrase) : (p.moved shift).tree = p.tree.moved shift := by
  induction p with
  | operand t => rfl
  | group opening inside closing ih => exact ih
  | signed sign inside ih => rw [moved, tree, ih, tree, Tree.moved]
  | joined operator left right ihLeft ihRight => rw [moved, tree, ihLeft, ihRight, tree, Tree.moved]

theorem Derives.moved {level : Nat} {p : Phrase} (h : p.Derives level) :
    (p.moved shift).Derives level := by
  induction h with
  | operand kind => exact .operand kind
  | group opens closes _ ih => exact .group opens closes ih
  | signed le sign _ ih => exact .signed le sign ih
  | joined le operator _ _ ihLeft ihRight => exact .joined le operator ihLeft ihRight

theorem folded_moved {p : Phrase} {tree : Tree} (computed : p.folded = .ok tree) :
    (p.moved shift).folded = .ok (tree.moved shift) := by
  induction p generalizing tree with
  | operand t =>
    cases computed
    rfl
  | group opening inside closing ih =>
    have constant : (inside.moved shift).isConstant = inside.isConstant := by
      rw [isConstant, tokens_moved, List.all_map]
      rfl
    rw [folded] at computed
    rw [moved, folded, constant]
    split at computed
    · -- A group without names takes its place from its parenthesis, which is moved.
      rename_i known
      obtain ⟨v, value, rfl⟩ := Except.map_eq_ok_iff.mp computed
      rw [if_pos known, tree_moved, Tree.evaluate_moved, value]
      rfl
    · rename_i unknown
      rw [if_neg unknown, ih computed]
  | signed sign inside ih =>
    obtain ⟨a, below, rfl⟩ := Except.map_eq_ok_iff.mp computed
    rw [moved, folded, ih below]
    rfl
  | joined operator left right ihLeft ihRight =>
    obtain ⟨a, first, rest⟩ := Except.bind_eq_ok_iff.mp computed
    obtain ⟨b, second, rfl⟩ := Except.map_eq_ok_iff.mp rest
    rw [moved, folded, ihLeft first, ihRight second]
    rfl

end Phrase

theorem Expression.readTree_moved {ts : List Token} {tree : Tree} (reads : readTree ts = .ok tree) :
    readTree (ts.map (Token.moved shift)) = .ok (tree.moved shift) := by
  obtain ⟨p, derives, rfl, computed⟩ := readTree_eq_ok_iff.mp reads
  exact readTree_eq_ok_iff.mpr
    ⟨p.moved shift, derives.moved shift, p.tokens_moved shift, Phrase.folded_moved shift computed⟩

/-! ### Programs -/

namespace Program

def moved : Program → Program
  | done => done
  | block brace body rest => block (brace.moved shift) body.moved rest.moved
  | declare keyword name value rest =>
    declare (keyword.moved shift) (name.moved shift) (value.map (Expression.moved shift)) rest.moved
  | assign name value rest => assign (name.moved shift) (value.moved shift) rest.moved
  | expression value rest => expression (value.moved shift) rest.moved
  | ifThen keyword condition brace body rest =>
    ifThen (keyword.moved shift) (condition.moved shift) (brace.moved shift) body.moved rest.moved
  | ifElse keyword condition brace body elseBrace elseBody rest =>
    ifElse (keyword.moved shift) (condition.moved shift) (brace.moved shift) body.moved
      (elseBrace.moved shift) elseBody.moved rest.moved
  | loop keyword condition brace body rest =>
    loop (keyword.moved shift) (condition.moved shift) (brace.moved shift) body.moved rest.moved

end Program

def Word.moved {kind : TokenKind} (w : Word kind) : Word kind := ⟨w.val.moved shift, w.property⟩

def DeclareWord.moved (w : DeclareWord) : DeclareWord := ⟨w.val.moved shift, w.property⟩

def Slice.moved (s : Slice) : Slice where
  start := s.start.moved shift
  more := s.more.map (Token.moved shift)
  tree := s.tree.moved shift
  reads := Expression.readTree_moved shift s.reads

namespace Script

def moved : Script → Script
  | done => done
  | empty semicolon rest => empty (semicolon.moved shift) rest.moved
  | block opening body closing rest =>
    block (opening.moved shift) body.moved (closing.moved shift) rest.moved
  | declare keyword name semicolon rest =>
    declare (keyword.moved shift) (name.moved shift) (semicolon.moved shift) rest.moved
  | define keyword name equals value semicolon rest =>
    define (keyword.moved shift) (name.moved shift) (equals.moved shift) (value.moved shift)
      (semicolon.moved shift) rest.moved
  | assign name equals value semicolon rest =>
    assign (name.moved shift) (equals.moved shift) (value.moved shift) (semicolon.moved shift)
      rest.moved
  | expression value semicolon rest =>
    expression (value.moved shift) (semicolon.moved shift) rest.moved
  | ifThen keyword paren condition parenEnd brace body braceEnd rest =>
    ifThen (keyword.moved shift) (paren.moved shift) (condition.moved shift)
      (parenEnd.moved shift) (brace.moved shift) body.moved (braceEnd.moved shift) rest.moved
  | ifElse keyword paren condition parenEnd brace body braceEnd otherwise elseBrace elseBody
      elseEnd rest =>
    ifElse (keyword.moved shift) (paren.moved shift) (condition.moved shift)
      (parenEnd.moved shift) (brace.moved shift) body.moved (braceEnd.moved shift)
      (otherwise.moved shift) (elseBrace.moved shift) elseBody.moved (elseEnd.moved shift)
      rest.moved
  | loop keyword paren condition parenEnd brace body braceEnd rest =>
    loop (keyword.moved shift) (paren.moved shift) (condition.moved shift) (parenEnd.moved shift)
      (brace.moved shift) body.moved (braceEnd.moved shift) rest.moved

theorem tokens_moved (s : Script) : (s.moved shift).tokens = s.tokens.map (Token.moved shift) := by
  have slice (value : Slice) : (value.moved shift).tokens = value.tokens.map (Token.moved shift) :=
    rfl
  induction s <;> simp_all [moved, tokens, Word.moved, DeclareWord.moved]

theorem program_moved (s : Script) : (s.moved shift).program = s.program.moved shift := by
  have slice (value : Slice) : (value.moved shift).expression = value.expression.moved shift := rfl
  induction s <;> simp_all [moved, program, Program.moved, Word.moved, DeclareWord.moved]

/-- The statements of one script followed by those of another. -/
def append : Script → Script → Script
  | done, s => s
  | empty semicolon rest, s => empty semicolon (rest.append s)
  | block opening body closing rest, s => block opening body closing (rest.append s)
  | declare keyword name semicolon rest, s => declare keyword name semicolon (rest.append s)
  | define keyword name equals value semicolon rest, s =>
    define keyword name equals value semicolon (rest.append s)
  | assign name equals value semicolon rest, s =>
    assign name equals value semicolon (rest.append s)
  | expression value semicolon rest, s => expression value semicolon (rest.append s)
  | ifThen keyword paren condition parenEnd brace body braceEnd rest, s =>
    ifThen keyword paren condition parenEnd brace body braceEnd (rest.append s)
  | ifElse keyword paren condition parenEnd brace body braceEnd otherwise elseBrace elseBody
      elseEnd rest, s =>
    ifElse keyword paren condition parenEnd brace body braceEnd otherwise elseBrace elseBody
      elseEnd (rest.append s)
  | loop keyword paren condition parenEnd brace body braceEnd rest, s =>
    loop keyword paren condition parenEnd brace body braceEnd (rest.append s)

theorem tokens_append (s s' : Script) : (s.append s').tokens = s.tokens ++ s'.tokens := by
  induction s <;> simp_all [append, tokens]

theorem program_append (s s' : Script) :
    (s.append s').program = s.program.append s'.program := by
  induction s <;> simp_all [append, program, Program.append]

end Script

namespace Program

variable {ts us : List Token} {p q : Program}

theorem exists_script_of_read (reads : read ts = .ok p) :
    ∃ s : Script, s.tokens = ts ∧ s.program = p :=
  exists_script (Nat.lt_succ_self _) reads

theorem read_tokens (s : Script) : read s.tokens = .ok s.program :=
  readFrom_tokens s (Nat.lt_succ_self _)

/-- Moved tokens are read to the moved program. -/
theorem read_moved (reads : read ts = .ok p) :
    read (ts.map (Token.moved shift)) = .ok (p.moved shift) := by
  obtain ⟨s, rfl, rfl⟩ := exists_script_of_read reads
  rw [← s.tokens_moved, ← s.program_moved]
  exact read_tokens _

/-- No statement goes on where another program starts: there is no `else` at its front. -/
theorem read_append (first : read ts = .ok p) (second : read us = .ok q) :
    read (ts ++ us) = .ok (p.append q) := by
  obtain ⟨s, rfl, rfl⟩ := exists_script_of_read first
  obtain ⟨s', rfl, rfl⟩ := exists_script_of_read second
  rw [← Script.tokens_append, ← Script.program_append]
  exact read_tokens _

end Program

end NumScript
