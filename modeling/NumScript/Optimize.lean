import NumScript.Expression.Evaluate
import NumScript.Program

/-! Making a program cheaper without changing what it does. Folding replaces an operator whose
operands are all numbers by its value; sweeping drops what can never run and unwraps what always
does. The two take turns until neither changes anything. -/

namespace NumScript

/-- What was changed. -/
structure Savings where
  /-- Operators replaced by their values. -/
  folded : Nat := 0
  /-- Conditions that were already decided. -/
  branches : Nat := 0
  /-- Statements dropped. -/
  removed : Nat := 0
  deriving DecidableEq, Repr

namespace Savings

def add (a b : Savings) : Savings :=
  ⟨a.folded + b.folded, a.branches + b.branches, a.removed + b.removed⟩

instance : Add Savings := ⟨add⟩

def total (s : Savings) : Nat := s.folded + s.branches + s.removed

def text (s : Savings) : Text :=
  Text.ofNat s.folded ++ " constants folded, " ++ Text.ofNat s.branches ++
    " branches resolved, " ++ Text.ofNat s.removed ++ " statements removed"

end Savings

/-! ### Folding -/

namespace Tree

def isNumberLeaf : Tree → Bool
  | leaf t => t.kind = .number
  | _ => false

/-- The node itself, or its value as a number in the place of its operator when the node has one
and all operands are numbers. -/
def foldNode (t : Tree) : Tree × Nat :=
  if t.operands.all isNumberLeaf then
    match t.evaluate with
    | .ok v => (leaf (Token.ofNumber v t.token), 1)
    | .error _ => (t, 0)
  else (t, 0)

mutual

/-- The tree with every operator over numbers replaced by its value, and how many were. A subtree
that has no value is left alone, so that the problem shows when the program runs. -/
def fold : Tree → Tree × Nat
  | leaf t => (leaf t, 0)
  | unary op a =>
    let (a, n) := a.fold
    let (t, k) := foldNode (unary op a)
    (t, n + k)
  | binary op a b =>
    let (a, n) := a.fold
    let (b, m) := b.fold
    let (t, k) := foldNode (binary op a b)
    (t, n + m + k)
  | wide op a b c more =>
    (wide op a b c more, a.fold.2 + b.fold.2 + c.fold.2 + foldCount more)

/-- How many operators would be replaced in several trees. -/
def foldCount : List Tree → Nat
  | [] => 0
  | t :: rest => t.fold.2 + foldCount rest

end

end Tree

namespace Expression

def fold (e : Expression) : Expression × Nat :=
  let (tree, n) := e.tree.fold
  ({ e with tree := tree }, n)

/-- The value of an expression that is a single number. -/
def constant? (e : Expression) : Option Float :=
  if e.tree.isNumberLeaf then e.tree.evaluate.toOption else none

end Expression

namespace Program

/-- Folds every expression of a program; answers how many operators were replaced. -/
def fold : Program → Program × Nat
  | done => (done, 0)
  | block brace body rest =>
    let (body, n) := body.fold
    let (rest, m) := rest.fold
    (block brace body rest, n + m)
  | declare keyword name value rest =>
    let (rest, m) := rest.fold
    match value with
    | none => (declare keyword name none rest, m)
    | some e =>
      let (e, n) := e.fold
      (declare keyword name (some e) rest, n + m)
  | assign name value rest =>
    let (value, n) := value.fold
    let (rest, m) := rest.fold
    (assign name value rest, n + m)
  | expression value rest =>
    let (value, n) := value.fold
    let (rest, m) := rest.fold
    (expression value rest, n + m)
  | ifThen keyword condition brace body rest =>
    let (condition, n) := condition.fold
    let (body, k) := body.fold
    let (rest, m) := rest.fold
    (ifThen keyword condition brace body rest, n + k + m)
  | ifElse keyword condition brace body elseBrace elseBody rest =>
    let (condition, n) := condition.fold
    let (body, k) := body.fold
    let (elseBody, l) := elseBody.fold
    let (rest, m) := rest.fold
    (ifElse keyword condition brace body elseBrace elseBody rest, n + k + l + m)
  | loop keyword condition brace body rest =>
    let (condition, n) := condition.fold
    let (body, k) := body.fold
    let (rest, m) := rest.fold
    (loop keyword condition brace body rest, n + k + m)

/-! ### Sweeping -/

/-- A block in front of `rest`, or nothing when the block is empty. -/
def keepBlock (brace : Token) (body rest : Program) : Program × Savings :=
  if body.isEmpty then (rest, { removed := 1 }) else (block brace body rest, {})

/-- Drops empty blocks, branches and loops that are never entered, and replaces a decided `if` by
the block it takes. A loop that is always entered stays. -/
def sweep : Program → Program × Savings
  | done => (done, {})
  | block brace body rest =>
    let (body, n) := body.sweep
    let (rest, m) := rest.sweep
    let (p, k) := keepBlock brace body rest
    (p, n + m + k)
  | declare keyword name value rest =>
    let (rest, m) := rest.sweep
    (declare keyword name value rest, m)
  | assign name value rest =>
    let (rest, m) := rest.sweep
    (assign name value rest, m)
  | expression value rest =>
    let (rest, m) := rest.sweep
    (expression value rest, m)
  | ifThen keyword condition brace body rest =>
    let (body, n) := body.sweep
    let (rest, m) := rest.sweep
    match condition.constant? with
    | none => (ifThen keyword condition brace body rest, n + m)
    | some v =>
      let (p, k) := if truthy v then keepBlock brace body rest else (rest, { removed := 1 })
      (p, n + m + k + { branches := 1 })
  | ifElse keyword condition brace body elseBrace elseBody rest =>
    let (body, n) := body.sweep
    let (elseBody, l) := elseBody.sweep
    let (rest, m) := rest.sweep
    match condition.constant? with
    | none => (ifElse keyword condition brace body elseBrace elseBody rest, n + l + m)
    | some v =>
      let (p, k) :=
        if truthy v then keepBlock brace body rest else keepBlock elseBrace elseBody rest
      (p, n + l + m + k + { branches := 1 })
  | loop keyword condition brace body rest =>
    let (body, n) := body.sweep
    let (rest, m) := rest.sweep
    match condition.constant? with
    | none => (loop keyword condition brace body rest, n + m)
    | some v =>
      if truthy v then (loop keyword condition brace body rest, n + m)
      else (rest, n + m + { branches := 1, removed := 1 })

/-! ### Rounds -/

/-- A program after some rounds, what they saved, and how many there were. -/
structure Optimized where
  program : Program
  savings : Savings := {}
  rounds : Nat := 0

/-- One round: folding, then sweeping. -/
def optimizeOnce (p : Program) : Program × Savings :=
  let (folded, n) := p.fold
  let (swept, s) := folded.sweep
  (swept, { folded := n } + s)

/-- At most `rounds` rounds, up to and including the first one that changes nothing. -/
def optimizeFrom (o : Optimized) : Nat → Optimized
  | 0 => o
  | rounds + 1 =>
    let (p, s) := o.program.optimizeOnce
    let o : Optimized := ⟨p, o.savings + s, o.rounds + 1⟩
    if s.total = 0 then o else optimizeFrom o rounds

/-- The program after at most `rounds` rounds. -/
def optimize (p : Program) (rounds : Int) : Optimized := optimizeFrom { program := p } rounds.toNat

namespace Optimized

/-- The passes of a round, in order. -/
def passes : List String := ["ConstantFolding", "DeadBranchElimination"]

/-- What is told of the rounds. -/
def log (o : Optimized) : List Text :=
  ((List.range o.rounds).flatMap fun round => passes.map fun (pass : String) =>
    "optimizer: round " ++ Text.ofNat (round + 1) ++ ": running " ++ (pass : Text)) ++
    ["optimizer: " ++ o.savings.text]

end Optimized

end Program

end NumScript
