import NumScript.Env
import NumScript.Expression.Evaluate

/-! The value of an expression in an environment. All names are read first, from left to right, and
only then is anything computed: a name without a value is found before a text that is no number. -/

namespace NumScript.Tree

mutual

/-- The tree with a number in the place of each name, and the environment after reading them. A
tree without names is left as it is. -/
def bind (env : Env) : Tree → Except Diagnostic Tree × Env
  | leaf t =>
    if t.kind = .identifier then
      match env.get t.lexeme t.line with
      | (.ok v, env) => (.ok (leaf (Token.ofNumber v t)), env)
      | (.error d, env) => (.error d, env)
    else (.ok (leaf t), env)
  | unary op a =>
    if (unary op a).isConstant then (.ok (unary op a), env)
    else match a.bind env with
      | (.ok a, env) => (.ok (unary op a), env)
      | (.error d, env) => (.error d, env)
  | binary op a b =>
    if (binary op a b).isConstant then (.ok (binary op a b), env)
    else match a.bind env with
      | (.error d, env) => (.error d, env)
      | (.ok a, env) => match b.bind env with
        | (.error d, env) => (.error d, env)
        | (.ok b, env) => (.ok (binary op a b), env)
  | wide op a b c more =>
    if (wide op a b c more).isConstant then (.ok (wide op a b c more), env)
    else match a.bind env with
      | (.error d, env) => (.error d, env)
      | (.ok _, env) => match b.bind env with
        | (.error d, env) => (.error d, env)
        | (.ok _, env) => match c.bind env with
          | (.error d, env) => (.error d, env)
          | (.ok _, env) => match bindAll env more with
            | (some d, env) => (.error d, env)
            | (none, env) => (.error (tooWide op (more.length + 3)), env)

/-- Reads the names of several trees; answers the first problem. -/
def bindAll (env : Env) : List Tree → Option Diagnostic × Env
  | [] => (none, env)
  | t :: rest =>
    match t.bind env with
    | (.error d, env) => (some d, env)
    | (.ok _, env) => bindAll env rest

end

/-- The value of a tree in an environment, and the environment after reading its names. -/
def evaluateIn (env : Env) (t : Tree) : Except Diagnostic Float × Env :=
  match t.bind env with
  | (.error d, env) => (.error d, env)
  | (.ok t, env) => (t.evaluate, env)

end NumScript.Tree
