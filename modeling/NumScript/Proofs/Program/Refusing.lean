import NumScript.Program.Reading
import NumScript.Proofs.Run.Failing

/-! What a script is refused for. Whatever part of it cannot be read, the problem is an error, and
never a warning: also when a group of numbers has no value. -/

namespace NumScript

/-- The computation fails only with errors. -/
def Grave {α : Type} (r : Except Diagnostic α) : Prop := ∀ d, r = .error d → d.severity = .error

namespace Grave

variable {α β γ : Type} {r : Except Diagnostic α}

theorem ok (x : α) : Grave (.ok x) := fun d failed => by cases failed

theorem returned (x : α) : Grave (pure x) := ok x

theorem error {d : Diagnostic} (grave : d.severity = .error) :
    Grave (.error d : Except Diagnostic α) := by
  rintro _ ⟨⟩
  exact grave

theorem bind {f : α → Except Diagnostic β} (first : Grave r) (next : ∀ x, Grave (f x)) :
    Grave (r.bind f) := by
  cases r with
  | ok x => exact next x
  | error d => exact error (first d rfl)

theorem bindPair {r : Except Diagnostic (α × β)} {f : α × β → Except Diagnostic γ}
    (first : Grave r) (next : ∀ x y, Grave (f (x, y))) : Grave (r.bind f) :=
  first.bind fun pair => next pair.1 pair.2

theorem map {f : α → β} (h : Grave r) : Grave (r.map f) := by
  cases r with
  | ok x => exact ok (f x)
  | error d => exact error (h d rfl)

end Grave

/-! ### Expressions -/

namespace Expression

theorem emptyNear_severity (near : Token) : (emptyNear near).severity = .error := by
  unfold emptyNear
  split <;> rfl

theorem grouped_grave (paren : Token) (tree : Tree) : Grave (grouped paren tree) := by
  unfold grouped
  split
  · exact .map fun d failed => (Tree.complains_of_evaluate tree failed).severity
  · exact .ok _

variable {read : List Item → Token → Except Diagnostic Tree}

theorem reduceFrom_grave (inner : ∀ items near, Grave (read items near)) (skip : Nat)
    (items : List Item) : Grave (reduceFrom read skip items) := by
  induction items generalizing skip with
  | nil => exact .ok []
  | cons item rest ih =>
    cases skip with
    | succ skip => exact ih skip
    | zero =>
      unfold reduceFrom
      split
      · exact .error rfl
      split
      · split
        · exact .error rfl
        · rename_i size _
          exact .bind (inner _ _) fun tree => .bind (grouped_grave _ tree) fun group =>
            .bind (ih (size + 1)) fun rest => .returned _
      · exact .bind (ih 0) fun rest => .returned _

theorem operand_grave (inner : ∀ items near, Grave (read items near)) (first : Item)
    (rest : List Item) : Grave (operand read first rest) := by
  unfold operand
  split
  · exact .bind (inner _ _) fun tree => .returned _
  split
  · exact .error rfl
  split
  · exact .ok _
  split
  · exact .ok _
  · exact .ok _
  · exact .ok _
  · exact .error rfl

theorem readItems_grave (fuel : Nat) (items : List Item) (near : Token) :
    Grave (readItems fuel items near) := by
  induction fuel generalizing items near with
  | zero => exact .error (emptyNear_severity near)
  | succ fuel ih =>
    cases items with
    | nil => exact .error (emptyNear_severity near)
    | cons item more =>
      refine .bind (reduceFrom_grave ih 0 (item :: more)) fun items => ?_
      split
      · split
        · exact .error (emptyNear_severity {})
        · rename_i operator right _
          exact .bind (ih _ _) fun left => .bind (ih _ _) fun right =>
            .returned _
      · split
        · exact .error (emptyNear_severity {})
        · rename_i first rest _
          exact operand_grave ih first rest

theorem readTree_grave (tokens : List Token) : Grave (readTree tokens) := readItems_grave _ _ _

end Expression

/-! ### Programs -/

namespace Program

theorem readExpression_grave (after : Token) (tokens : List Token) :
    Grave (readExpression after tokens) := by
  unfold readExpression
  split
  · exact .error rfl
  · rename_i start more
    exact .bind (Expression.readTree_grave _) fun tree => .returned _

theorem readTerminated_grave (after : Token) (tokens : List Token) :
    Grave (readTerminated after tokens) := by
  unfold readTerminated
  dsimp only
  split
  · exact .error rfl
  · rename_i t rest _
    split
    · exact .bind (readExpression_grave after _) fun e => .returned _
    · exact .error rfl

theorem readCondition_grave (keyword : Token) (tokens : List Token) :
    Grave (readCondition keyword tokens) := by
  unfold readCondition
  split
  · rename_i paren rest
    split
    · split
      · exact .error rfl
      · rename_i inside after _
        exact .bind (readExpression_grave paren inside) fun e => .returned _
    · exact .error rfl
  · exact .error rfl

theorem cutBlock_grave (what : Text) (near : Token) (tokens : List Token) :
    Grave (cutBlock what near tokens) := by
  unfold cutBlock
  split
  · split
    · split
      · exact .error rfl
      · exact .ok _
    · exact .error rfl
  · exact .error rfl

theorem readDeclaration_grave (keyword : Token) (tokens : List Token) :
    Grave (readDeclaration keyword tokens) := by
  unfold readDeclaration
  split
  · exact .error rfl
  rename_i name rest
  split
  · split
    · exact .error rfl
    rename_i next rest
    split
    · exact .ok _
    split
    · exact .bindPair (readTerminated_grave next rest) fun e rest => .returned _
    · exact .error rfl
  · exact .error rfl

theorem readFrom_grave (fuel : Nat) (tokens : List Token) : Grave (readFrom fuel tokens) := by
  induction fuel generalizing tokens with
  | zero => exact .ok done
  | succ fuel ih =>
    cases tokens with
    | nil => exact .ok done
    | cons t rest =>
      -- A statement of one expression and a semicolon, an assignment or not.
      have stated (after : Token) (tokens : List Token) (make : Expression → Program → Program) :
          Grave ((readTerminated after tokens).bind fun found =>
            (readFrom fuel found.2).bind fun rest => .ok (make found.1 rest)) :=
        .bind (readTerminated_grave after tokens) fun found => .bind (ih found.2) fun rest => .ok _
      have declared : Grave ((readDeclaration t rest).bind fun found =>
          (readFrom fuel found.2.2).bind fun rest => .ok (declare t found.1 found.2.1 rest)) :=
        .bind (readDeclaration_grave t rest) fun found => .bind (ih found.2.2) fun rest => .ok _
      unfold readFrom
      split
      · exact ih rest
      · exact .bind (cutBlock_grave _ _ _) fun cut => .bind (ih cut.inside) fun body =>
          .bind (ih cut.after) fun rest => .returned _
      · exact declared
      · exact declared
      · refine .bindPair (readCondition_grave t rest) fun condition rest =>
          .bind (cutBlock_grave _ _ _) fun cut => .bind (ih cut.inside) fun body => ?_
        split
        · exact .returned _
        rename_i next others _
        split
        · exact .bind (cutBlock_grave _ _ _) fun elseCut => .bind (ih _) fun elseBody =>
            .bind (ih _) fun rest => .returned _
        · exact .bind (ih _) fun rest => .returned _
      · exact .bindPair (readCondition_grave t rest) fun condition rest =>
          .bind (cutBlock_grave _ _ _) fun cut => .bind (ih cut.inside) fun body =>
            .bind (ih cut.after) fun rest => .returned _
      · split
        · rename_i next others
          split
          · exact stated next others (assign t)
          · exact stated t (t :: next :: others) expression
        · exact stated t [t] expression
      · exact stated t (t :: rest) expression
      · exact stated t (t :: rest) expression
      · exact stated t (t :: rest) expression
      · exact stated t (t :: rest) expression
      · exact stated t (t :: rest) expression
      · exact stated t (t :: rest) expression
      all_goals exact .error rfl

/-- A script that cannot be read is refused with an error. -/
theorem read_grave (tokens : List Token) : Grave (read tokens) := readFrom_grave _ tokens

end Program

end NumScript
