import NumScript.Check
import NumScript.Proofs.Expression.Interpretation
import NumScript.Proofs.Run.Reaching

/-! The findings of a check, in order. What is found wrong with a leaf of an expression depends on
the environment in front of the expression only, and whatever is checked later adds its findings
behind those that are there. -/

namespace NumScript

/-- What a check finds wrong with a leaf. -/
def Env.doubt? (env : Env) (t : Token) : Option Diagnostic :=
  match t.kind with
  | .identifier =>
    match env.value? t.lexeme with
    | none => some (Checker.undeclared t)
    | some none => some (Checker.unassigned t)
    | some (some _) => none
  | .string => some (Checker.nonNumeric t)
  | _ => none

theorem Env.doubt?_marked (env : Env) (names : List Text) :
    (env.marked names).doubt? = env.doubt? := by
  funext t
  simp only [doubt?, value?_marked]

namespace Checker

/-! ### Expressions -/

theorem leaf_eq (c : Checker) (t : Token) :
    c.leaf t =
      { env := c.env.marked (namesOf [t]), findings := c.findings ++ (c.env.doubt? t).toList } := by
  unfold leaf Env.doubt?
  split
  · rename_i name
    simp only [Env.lookup, Env.value?, Env.modify_markUsed, namesOf, name, List.filter_cons_of_pos,
      decide_true, List.filter_nil, List.map_cons, List.map_nil]
    cases found : c.env.resolve? t.lexeme with
    | none => simp [report]
    | some sym => cases value : sym.value <;> simp [report, Symbol.isBound, Symbol.markUsed, value]
  · rename_i text
    simp [report, namesOf, text, Env.marked_nil]
  · rename_i literal _
    have unnamed : t.kind ≠ .identifier := literal
    simp [namesOf, unnamed, Env.marked_nil]

theorem expression_eq (c : Checker) (e : Expression) :
    c.expression e =
      { env := c.env.marked (namesOf e.tree.leaves)
        findings := c.findings ++ e.tree.leaves.filterMap c.env.doubt? } := by
  unfold expression
  generalize e.tree.leaves = leaves
  induction leaves generalizing c with
  | nil => simp [namesOf, Env.marked_nil]
  | cons t rest ih =>
    have names : namesOf (t :: rest) = namesOf [t] ++ namesOf rest := namesOf_append [t] rest
    rw [List.foldl_cons, ih, leaf_eq]
    simp only [Env.marked_append, Env.doubt?_marked, names, List.append_assoc, mk.injEq, true_and]
    cases doubt : c.env.doubt? t <;> simp [doubt]

/-! ### Findings are never taken back -/

theorem findings_report (c : Checker) (d : Diagnostic) : c.findings <+: (c.report d).findings :=
  List.prefix_append ..

theorem findings_expression (c : Checker) (e : Expression) :
    c.findings <+: (c.expression e).findings := by
  rw [expression_eq]
  exact List.prefix_append ..

theorem findings_change (c : Checker) (result : Except Diagnostic Env) :
    c.findings <+: (c.change result).findings := by
  cases result with
  | ok env => exact List.prefix_rfl
  | error d => exact c.findings_report _

theorem findings_declare (c : Checker) (keyword name : Token) (hasValue : Bool) :
    c.findings <+: (c.declare keyword name hasValue).findings := by
  unfold declare
  dsimp only
  split
  · exact (c.findings_report _).trans (findings_change _ _)
  · exact c.findings_change _

/-- The state in which the inside of a block is checked. -/
def entered (kind : ScopeKind) (c : Checker) : Checker := { c with env := c.env.child kind }

theorem findings_within (kind : ScopeKind) (body : Checker → Checker) (c : Checker) :
    (body (c.entered kind)).findings <+: (within kind body c).findings := by
  unfold within
  dsimp only
  split
  · exact List.prefix_rfl
  · exact List.prefix_append ..

theorem findings_block {kind : ScopeKind} {body : Checker → Checker}
    (grows : ∀ c, c.findings <+: (body c).findings) (c : Checker) :
    c.findings <+: (within kind body c).findings :=
  List.IsPrefix.trans (grows (c.entered kind)) (findings_within kind body c)

theorem findings_check (p : Program) (c : Checker) : c.findings <+: (p.check c).findings := by
  induction p generalizing c with
  | done => exact List.prefix_rfl
  | block brace body rest ihBody ihRest =>
    exact (findings_block ihBody c).trans (ihRest _)
  | declare keyword name value rest ihRest =>
    refine List.IsPrefix.trans ?_ (ihRest _)
    cases value with
    | none => exact c.findings_declare keyword name false
    | some e => exact (c.findings_expression e).trans (findings_declare _ keyword name true)
  | assign name value rest ihRest =>
    exact (c.findings_expression value).trans ((findings_change _ _).trans (ihRest _))
  | expression value rest ihRest =>
    exact (c.findings_expression value).trans (ihRest _)
  | ifThen keyword condition brace body rest ihBody ihRest =>
    exact (c.findings_expression condition).trans ((findings_block ihBody _).trans (ihRest _))
  | ifElse keyword condition brace body elseBrace elseBody rest ihBody ihElse ihRest =>
    exact (c.findings_expression condition).trans
      ((findings_block ihBody _).trans ((findings_block ihElse _).trans (ihRest _)))
  | loop keyword condition brace body rest ihBody ihRest =>
    exact (c.findings_expression condition).trans ((findings_block ihBody _).trans (ihRest _))

end Checker

/-- A check goes through the first statement and then through the rest. -/
theorem Program.check_eq_first_rest (p : Program) (c : Checker) :
    p.check c = p.rest.check (p.first.check c) := by
  cases p <;> rfl

end NumScript
