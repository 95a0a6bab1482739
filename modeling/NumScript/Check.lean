import NumScript.Diagnostic.Log
import NumScript.Env
import NumScript.Program

/-! Checking a program without running it. The statements are visited once, in the order of the
text, with child scopes as in a run; a symbol has a value once some statement before has given it
one. Every finding is collected. -/

namespace NumScript

/-- The names declared so far and the findings so far, in order. -/
structure Checker where
  env : Env := Env.global
  findings : List Diagnostic := []
  deriving DecidableEq

namespace Checker

def report (c : Checker) (d : Diagnostic) : Checker := { c with findings := c.findings ++ [d] }

def undeclared (t : Token) : Diagnostic :=
  .warning .semantic .undefinedVariable t.line t.lexeme
    (Text.quoted t.lexeme ++ " is not declared in any enclosing scope")

def unassigned (t : Token) : Diagnostic :=
  .warning .semantic .uninitialized t.line t.lexeme
    (Text.quoted t.lexeme ++ " may be read before it is assigned")

def nonNumeric (t : Token) : Diagnostic :=
  .error .semantic .nonNumericOperand t.line t.lexeme
    ("string literal " ++ t.lexeme ++ " cannot be used as a number")

def constWithoutValue (name : Token) : Diagnostic :=
  .warning .semantic .constWithoutValue name.line name.lexeme
    ("constant " ++ Text.quoted name.lexeme ++ " declared without a value can never be assigned")

def unusedIn (kind : ScopeKind) (sym : Symbol) : Diagnostic :=
  .warning .semantic .unusedVariable sym.position.line sym.name
    (Text.quoted sym.name ++ " is declared in a " ++ kind.name ++
      (" scope but never read" : Text))

/-- Checks one leaf: a name must be declared and have a value, and a text is no number. -/
def leaf (c : Checker) (t : Token) : Checker :=
  match t.kind with
  | .identifier =>
    let (sym, env) := c.env.lookup t.lexeme
    let c := { c with env := env }
    match sym with
    | none => c.report (undeclared t)
    | some sym => if sym.isBound then c else c.report (unassigned t)
  | .string => c.report (nonNumeric t)
  | _ => c

/-- Checks the leaves of an expression from left to right. -/
def expression (c : Checker) (e : Expression) : Checker := e.tree.leaves.foldl leaf c

/-- A change of the environment, or the finding that it is refused. -/
def change (c : Checker) : Except Diagnostic Env → Checker
  | .ok env => { c with env := env }
  | .error d => c.report { d with phase := .semantic }

/-- Declares a name. -/
def declare (c : Checker) (keyword name : Token) (hasValue : Bool) : Checker :=
  let constant := Program.isConst keyword
  let c := if constant && !hasValue then c.report (constWithoutValue name) else c
  c.change (c.env.declare
    { name := name.lexeme
      value := if hasValue then some 0 else none
      constant := constant
      position := name.position })

/-- Checks the inside of a block in a scope of its own, then reports the names of that scope which
were never read. -/
def within (kind : ScopeKind) (body : Checker → Checker) (c : Checker) : Checker :=
  let c := body { c with env := c.env.child kind }
  match c.env with
  | [] => c
  | scope :: outer =>
    { env := outer, findings := c.findings ++ scope.unused.map (unusedIn kind) }

end Checker

namespace Program

/-- Checks a sequence of statements. -/
def check : Program → Checker → Checker
  | done, c => c
  | block _ body rest, c => rest.check (Checker.within .block body.check c)
  | declare keyword name value rest, c =>
    let c := match value with
      | some e => c.expression e
      | none => c
    rest.check (c.declare keyword name value.isSome)
  | assign name value rest, c =>
    let c := c.expression value
    rest.check (c.change (c.env.assign name.lexeme 0 name.position))
  | expression value rest, c => rest.check (c.expression value)
  | ifThen _ condition _ body rest, c =>
    rest.check (Checker.within .branch body.check (c.expression condition))
  | ifElse _ condition _ body _ elseBody rest, c =>
    let c := Checker.within .branch body.check (c.expression condition)
    rest.check (Checker.within .branch elseBody.check c)
  | loop _ condition _ body rest, c =>
    rest.check (Checker.within .loop body.check (c.expression condition))

/-- The findings about a program that is checked by itself, in order. -/
def findings (p : Program) : List Diagnostic := (p.check {}).findings

end Program

end NumScript
