import NumScript.Proofs.Env.Marking
import NumScript.Proofs.Expression.Shape

/-! What an expression means, said directly. A name stands for its value in the environment, every
operator computes all its operands, and nothing is put into the tree. Reading the names first and
computing afterwards comes to the same, and decides which problem is told when there are several:
that of the first name without a value, or else that of the first leaf that is no number. -/

namespace NumScript

/-- Why the leaf, if it is a name, cannot be read. -/
def Env.missing? (env : Env) (t : Token) : Option Diagnostic :=
  if t.kind = .identifier then
    match env.value? t.lexeme with
    | none => some (undefined t.lexeme t.line)
    | some none => some (uninitialized t.lexeme t.line)
    | some (some _) => none
  else none

/-- Why the leaf, if it is no name, is no number either. -/
def Token.invalid? (t : Token) : Option Diagnostic :=
  match t.kind with
  | .string => some t.notNumber
  | .number =>
    if t.number? = none ∧ Number.read? t.lexeme = none then some t.malformedNumber else none
  | _ => none

/-- `read` are the tokens up to the first that has a problem, which is `d`. -/
inductive FirstProblem (problem? : Token → Option Diagnostic) :
    List Token → List Token → Diagnostic → Prop
  | here {t : Token} {rest : List Token} {d : Diagnostic} :
      problem? t = some d → FirstProblem problem? (t :: rest) [t] d
  | later {t : Token} {rest read : List Token} {d : Diagnostic} :
      problem? t = none → FirstProblem problem? rest read d →
      FirstProblem problem? (t :: rest) (t :: read) d

/-- The names among the tokens. -/
def namesOf (tokens : List Token) : List Text :=
  (tokens.filter fun t => t.kind = .identifier).map Token.lexeme

/-- The value of a tree in an environment. -/
def Tree.meaning? (env : Env) : Tree → Option Float
  | leaf t =>
    if t.kind = .identifier then (env.value? t.lexeme).join
    else if t.kind = .number then t.number?.or (Number.read? t.lexeme)
    else none
  | unary op a => op.kind.unaryMeaning?.bind fun f => (a.meaning? env).map f
  | binary op a b =>
    op.kind.binaryMeaning?.bind fun f =>
      (a.meaning? env).bind fun v => (b.meaning? env).map (f v)
  | wide _ _ _ _ _ => none

/-! ### The first problem -/

section

variable {problem? : Token → Option Diagnostic}

theorem FirstProblem.append_right {xs read : List Token} {d : Diagnostic}
    (h : FirstProblem problem? xs read d) (ys : List Token) :
    FirstProblem problem? (xs ++ ys) read d := by
  induction h with
  | here problem => exact .here problem
  | later sound _ ih => exact .later sound ih

theorem FirstProblem.append_left {xs ys read : List Token} {d : Diagnostic}
    (sound : ∀ t ∈ xs, problem? t = none) (h : FirstProblem problem? ys read d) :
    FirstProblem problem? (xs ++ ys) (xs ++ read) d := by
  induction xs with
  | nil => exact h
  | cons t xs ih =>
    obtain ⟨first, below⟩ := List.forall_mem_cons.mp sound
    exact .later first (ih below)

theorem FirstProblem.unique {tokens read read' : List Token} {d d' : Diagnostic}
    (h : FirstProblem problem? tokens read d) (h' : FirstProblem problem? tokens read' d') :
    read = read' ∧ d = d' := by
  induction h generalizing read' with
  | here problem =>
    cases h' with
    | here problem' => exact ⟨rfl, Option.some.inj (problem.symm.trans problem')⟩
    | later sound => simp [problem] at sound
  | later sound _ ih =>
    cases h' with
    | here problem => simp [sound] at problem
    | later _ below =>
      obtain ⟨rfl, rfl⟩ := ih below
      exact ⟨rfl, rfl⟩

end

theorem namesOf_append (xs ys : List Token) : namesOf (xs ++ ys) = namesOf xs ++ namesOf ys := by
  simp [namesOf]

theorem Env.missing?_marked (env : Env) (names : List Text) :
    (env.marked names).missing? = env.missing? := by
  funext t
  simp [missing?, value?_marked]

namespace Tree

theorem meaning?_marked (env : Env) (names : List Text) (t : Tree) :
    t.meaning? (env.marked names) = t.meaning? env := by
  induction t using Tree.meaning?.induct with
  | case1 t | case2 t | case3 t => simp [meaning?, Env.value?_marked]
  | case4 op a ih => simp [meaning?, ih]
  | case5 op a b ihLeft ihRight => simp [meaning?, ihLeft, ihRight]
  | case6 => rfl

/-! ### Computing -/

/-- What comes out of computing a tree whose names have been read: the problem of the first leaf
that is no number, or the value of the tree. -/
def Computes (env : Env) (t : Tree) (r : Except Diagnostic Float) : Prop :=
  (∃ read d, FirstProblem Token.invalid? t.leaves read d ∧ r = .error d) ∨
    (∀ leaf ∈ t.leaves, leaf.invalid? = none) ∧ ∃ v, t.meaning? env = some v ∧ r = .ok v

theorem Computes.unary {env : Env} {op : Token} {f : Float → Float} {a : Tree}
    {r : Except Diagnostic Float} (meaning : op.kind.unaryMeaning? = some f)
    (h : a.Computes env r) : (Tree.unary op a).Computes env (applyUnary op r) := by
  rcases h with ⟨read, d, first, rfl⟩ | ⟨sound, v, value, rfl⟩
  · exact .inl ⟨read, d, first, by simp [applyUnary, meaning, Except.map]⟩
  · refine .inr ⟨sound, f v, ?_, ?_⟩
    · simp [meaning?, meaning, value]
    · simp [applyUnary, meaning, Except.map]

theorem Computes.binary {env : Env} {op : Token} {f : Float → Float → Float} {a b : Tree}
    {r r' : Except Diagnostic Float} (meaning : op.kind.binaryMeaning? = some f)
    (left : a.Computes env r) (right : b.Computes env r') :
    (Tree.binary op a b).Computes env (applyBinary op r r') := by
  rcases left with ⟨read, d, first, rfl⟩ | ⟨sound, v, value, rfl⟩
  · refine .inl ⟨read, d, first.append_right b.leaves, ?_⟩
    simp [applyBinary, meaning, Except.bind]
  · rcases right with ⟨read, d, second, rfl⟩ | ⟨sound', w, value', rfl⟩
    · refine .inl ⟨a.leaves ++ read, d, second.append_left sound, ?_⟩
      simp [applyBinary, meaning, Except.bind, Except.map]
    · refine .inr ⟨List.forall_mem_append.mpr ⟨sound, sound'⟩, f v w, ?_, ?_⟩
      · simp [meaning?, meaning, value, value']
      · simp [applyBinary, meaning, Except.bind, Except.map]

/-! ### Leaves -/

theorem staged_of_missing {env : Env} {t : Token} {d : Diagnostic}
    (missing : env.missing? t = some d) :
    (leaf t).staged env = (.error d, env.marked (namesOf [t])) := by
  by_cases name : t.kind = .identifier
  · simp only [Env.missing?, name, if_true, Env.value?] at missing
    simp only [staged, bind, name, if_true, Env.get, Env.modify_markUsed, namesOf]
    cases found : env.resolve? t.lexeme with
    | none => simp_all [Except.map]
    | some sym => cases value : sym.value <;> simp_all [Except.map]
  · simp [Env.missing?, name] at missing

theorem staged_of_name {env : Env} {t : Token} (name : t.kind = .identifier)
    (shown : env.missing? t = none) :
    ∃ r, (leaf t).Computes env r ∧ (leaf t).staged env = (.ok r, env.marked (namesOf [t])) := by
  obtain ⟨v, value⟩ : ∃ v, env.value? t.lexeme = some (some v) := by
    simp only [Env.missing?, name, if_true] at shown
    split at shown <;> simp_all
  obtain ⟨sym, found, held⟩ := Option.map_eq_some_iff.mp value
  refine ⟨.ok v, .inr ⟨?_, v, ?_, rfl⟩, ?_⟩
  · simp [leaves, Token.invalid?, name]
  · simp [meaning?, name, value]
  · simp [staged, bind, name, Env.get, found, held, Env.modify_markUsed, namesOf, Except.map]

theorem staged_of_literal {env : Env} {t : Token} (kind : t.kind ∈ Phrase.operandKinds)
    (literal : t.kind ≠ .identifier) :
    ∃ r, (leaf t).Computes env r ∧ (leaf t).staged env = (.ok r, env.marked (namesOf [t])) := by
  have unread : (leaf t).staged env = (.ok t.value, env.marked (namesOf [t])) := by
    simp [staged, bind, literal, namesOf, Env.marked_nil, Except.map]
  refine ⟨t.value, ?_, unread⟩
  simp only [Phrase.operandKinds, List.mem_cons, List.not_mem_nil, or_false, literal, false_or]
    at kind
  rcases kind with number | text
  · cases held : t.number? with
    | some v =>
      refine .inr ⟨by simp [leaves, Token.invalid?, number, held], v, ?_, ?_⟩
      · simp [meaning?, number, held]
      · simp [Token.value, number, held]
    | none =>
      cases spelled : Number.read? t.lexeme with
      | some v =>
        refine .inr ⟨by simp [leaves, Token.invalid?, number, spelled], v, ?_, ?_⟩
        · simp [meaning?, number, held, spelled]
        · simp [Token.value, number, held, spelled]
      | none =>
        refine .inl ⟨[t], t.malformedNumber, .here ?_, ?_⟩
        · simp [Token.invalid?, number, held, spelled]
        · simp [Token.value, number, held, spelled]
  · refine .inl ⟨[t], t.notNumber, .here ?_, ?_⟩
    · simp [Token.invalid?, text]
    · simp [Token.value, text]

/-! ### Trees -/

/-- The stages of a well-shaped tree, with what each leaves behind. -/
theorem WellShaped.staged_cases {t : Tree} (h : t.WellShaped) (env : Env) :
    (∃ read d, FirstProblem env.missing? t.leaves read d ∧
      t.staged env = (.error d, env.marked (namesOf read))) ∨
    (∀ leaf ∈ t.leaves, env.missing? leaf = none) ∧
      ∃ r, t.Computes env r ∧ t.staged env = (.ok r, env.marked (namesOf t.leaves)) := by
  induction h generalizing env with
  | @leaf t kind =>
    cases missing : env.missing? t with
    | some d => exact .inl ⟨[t], d, .here missing, staged_of_missing missing⟩
    | none =>
      refine .inr ⟨by simpa [leaves] using missing, ?_⟩
      by_cases name : t.kind = .identifier
      · exact staged_of_name name missing
      · exact staged_of_literal kind name
  | unary meaning _ ih =>
    rw [staged_unary]
    rcases ih env with ⟨read, d, first, same⟩ | ⟨shown, r, computes, same⟩
    · exact .inl ⟨read, d, first, by rw [same]; rfl⟩
    · exact .inr ⟨shown, _, computes.unary meaning, by rw [same]; rfl⟩
  | @binary _ _ a b meaning _ _ ihLeft ihRight =>
    rw [staged_binary]
    rcases ihLeft env with ⟨read, d, first, same⟩ | ⟨shown, r, computes, same⟩
    · exact .inl ⟨read, d, first.append_right b.leaves, by rw [same]⟩
    · -- The right operand finds the names of the left one marked, which it does not notice.
      have right := ihRight (env.marked (namesOf a.leaves))
      simp only [Env.missing?_marked, Env.marked_append, ← namesOf_append, Computes,
        meaning?_marked] at right
      rw [same]
      rcases right with ⟨read, d, second, same'⟩ | ⟨shown', r', computes', same'⟩
      · refine .inl ⟨a.leaves ++ read, d, second.append_left shown, ?_⟩
        simp only [same']
        rfl
      · refine .inr ⟨List.forall_mem_append.mpr ⟨shown, shown'⟩, _,
          computes.binary meaning computes', ?_⟩
        simp only [same']
        rfl

/-- What a well-shaped expression comes to in an environment. If a name among its leaves is
undefined or has no value, the problem is that of the first such name; otherwise, if a leaf is no
number, the problem is that of the first such leaf; otherwise the expression has the value that
its meaning gives it. The names up to the one that cannot be read, or all of them, are marked as
read, and nothing else in the environment is changed. -/
theorem evaluateIn_meaning {t : Tree} (shaped : t.WellShaped) (env : Env) :
    (∃ read d, FirstProblem env.missing? t.leaves read d ∧
      t.evaluateIn env = (.error d, env.marked (namesOf read))) ∨
    (∀ leaf ∈ t.leaves, env.missing? leaf = none) ∧
      ((∃ read d, FirstProblem Token.invalid? t.leaves read d ∧
          t.evaluateIn env = (.error d, env.marked (namesOf t.leaves))) ∨
        (∀ leaf ∈ t.leaves, leaf.invalid? = none) ∧
          ∃ v, t.meaning? env = some v ∧
            t.evaluateIn env = (.ok v, env.marked (namesOf t.leaves))) := by
  rw [evaluateIn_eq_staged]
  rcases shaped.staged_cases env with ⟨read, d, first, same⟩ | ⟨shown, r, computes, same⟩
  · left
    exact ⟨read, d, first, by rw [same]; rfl⟩
  · right
    rw [same]
    refine ⟨shown, ?_⟩
    rcases computes with ⟨read, d, first, rfl⟩ | ⟨sound, v, value, rfl⟩
    · exact .inl ⟨read, d, first, rfl⟩
    · exact .inr ⟨sound, v, value, rfl⟩

/-- `"a" + x * -y`, where `y` is declared again inside without a value. -/
def textAndNames : Tree :=
  .binary { kind := .plus } (.leaf { kind := .string, lexeme := Text.ofString "\"a\"" })
    (.binary { kind := .star } (.leaf { kind := .identifier, lexeme := Text.ofString "x" })
      (.unary { kind := .minus } (.leaf { kind := .identifier, lexeme := Text.ofString "y" })))

def shadowedName : Env :=
  [{ kind := .block, depth := 1, symbols := [{ name := Text.ofString "y" }] },
    { symbols := [{ name := Text.ofString "x", value := some 2 },
        { name := Text.ofString "y", value := some 3 }] }]

/-- The name without a value is told, not the text in front of it, and the outer `y` is not read. -/
theorem evaluateIn_meaning_textAndNames :
    textAndNames.WellShaped ∧
      textAndNames.evaluateIn shadowedName =
        (.error (Env.uninitialized (Text.ofString "y") 0),
          [{ kind := .block, depth := 1,
             symbols := [{ name := Text.ofString "y", used := true }] },
            { symbols := [{ name := Text.ofString "x", value := some 2, used := true },
                { name := Text.ofString "y", value := some 3 }] }]) := by
  have shaped : textAndNames.WellShaped :=
    .binary rfl (.leaf (by decide))
      (.binary rfl (.leaf (by decide)) (.unary rfl (.leaf (by decide))))
  have expected : FirstProblem shadowedName.missing? textAndNames.leaves textAndNames.leaves
      (Env.uninitialized (Text.ofString "y") 0) :=
    .later (by decide) (.later (by decide) (.here (by decide)))
  refine ⟨shaped, ?_⟩
  rcases evaluateIn_meaning shaped shadowedName with ⟨read, d, first, same⟩ | ⟨shown, -⟩
  · obtain ⟨rfl, rfl⟩ := first.unique expected
    rw [same]
    decide
  · exact absurd (shown { kind := .identifier, lexeme := Text.ofString "y" } (by decide))
      (by decide)

end Tree

end NumScript
