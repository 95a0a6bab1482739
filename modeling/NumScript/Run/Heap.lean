import NumScript.Env.Heap
import NumScript.Run

/-! Running a program on environments in memory. The statements run in the environment that the
state points to; a block gets an environment of its own, and when it is left, however it ends, the
state points to the one before again. Nothing is written back: what is seen of a block afterwards is
what it did to cells that others can reach. -/

namespace NumScript

namespace Heap

/-- The state of a run. -/
structure State where
  heap : Heap
  /-- The environment of the statements that run. -/
  env : Nat
  /-- The value of the last expression statement. -/
  result : Option Float := none
  /-- How often the body of a loop was entered. -/
  iterations : Nat := 0
  /-- The steps so far, the latest first. -/
  history : List Event := []

/-- The state at the end of a run and what ended it early; nothing when a pointer to nothing was
followed. -/
abbrev Result := Option (State × Option Fault)

/-! ### Expressions -/

mutual

/-- The tree with a number in the place of each name that environment `e` shows. -/
def bindTree (e : Nat) : Tree → Heap → Option (Except Diagnostic Tree × Heap)
  | .leaf t, h =>
    if t.kind = .identifier then do
      match ← h.get e t.lexeme t.line with
      | (.ok v, h) => return (.ok (.leaf (Token.ofNumber v t)), h)
      | (.error d, h) => return (.error d, h)
    else some (.ok (.leaf t), h)
  | .unary op a, h =>
    if (Tree.unary op a).isConstant then some (.ok (.unary op a), h)
    else do match ← bindTree e a h with
      | (.ok a, h) => return (.ok (.unary op a), h)
      | (.error d, h) => return (.error d, h)
  | .binary op a b, h =>
    if (Tree.binary op a b).isConstant then some (.ok (.binary op a b), h)
    else do match ← bindTree e a h with
      | (.error d, h) => return (.error d, h)
      | (.ok a, h) => match ← bindTree e b h with
        | (.error d, h) => return (.error d, h)
        | (.ok b, h) => return (.ok (.binary op a b), h)
  | .wide op a b c more, h =>
    if (Tree.wide op a b c more).isConstant then some (.ok (.wide op a b c more), h)
    else do match ← bindTree e a h with
      | (.error d, h) => return (.error d, h)
      | (.ok _, h) => match ← bindTree e b h with
        | (.error d, h) => return (.error d, h)
        | (.ok _, h) => match ← bindTree e c h with
          | (.error d, h) => return (.error d, h)
          | (.ok _, h) => match ← bindTrees e more h with
            | (some d, h) => return (.error d, h)
            | (none, h) => return (.error (Tree.tooWide op (more.length + 3)), h)

/-- Reads the names of several trees; answers the first problem. -/
def bindTrees (e : Nat) : List Tree → Heap → Option (Option Diagnostic × Heap)
  | [], h => some (none, h)
  | t :: rest, h => do
    match ← bindTree e t h with
    | (.error d, h) => return (some d, h)
    | (.ok _, h) => bindTrees e rest h

end

namespace State

/-- Computes a tree in the environment of the run. -/
def evaluate (s : State) (t : Tree) : Option (Except Diagnostic Float × State) := do
  match ← bindTree s.env t s.heap with
  | (.error d, h) => return (.error d, { s with heap := h })
  | (.ok t, h) => return (t.evaluate, { s with heap := h })

/-! ### Steps -/

def note (s : State) (e : Event) : State := { s with history := e :: s.history }

/-- Ends the run with a problem. -/
def fail (s : State) (d : Diagnostic) : Result := some (s, some (.problem d))

/-- Computes an expression and goes on with its value. -/
def withValue (s : State) (e : Expression) (next : Float → State → Result) : Result := do
  match ← s.evaluate e.tree with
  | (.error d, s) => s.fail d
  | (.ok v, s) => next v s

/-- The state for the inside of a block: its environment is the next one. -/
def enter (s : State) (limits : Limits) (kind : ScopeKind) : Option State := do
  let heap ← match limits.scoping with
    | .chain => s.heap.newScope kind (some s.env)
    | .copy => s.heap.dup kind s.env
  return { s with heap := heap, env := s.heap.frames.length }

/-- Runs the inside of a block, and goes back to the environment before. -/
def within (limits : Limits) (kind : ScopeKind) (body : State → Result) (s : State) : Result := do
  let (inner, fault) ← body (← s.enter limits kind)
  return ({ inner with env := s.env }, fault)

/-- The symbol in a cell belongs to a global environment. -/
def isGlobal (h : Heap) (cell : Cell) : Option Bool :=
  match cell.owner with
  | none => some false
  | some e => h.frames[e]?.map fun frame => decide (frame.kind = .global)

/-- Declares a name, with the value if there is one. -/
def declare (s : State) (keyword name : Token) (value : Option Float) : Result := do
  let sym : Symbol :=
    { name := name.lexeme
      value := value
      constant := Program.isConst keyword
      position := name.position }
  match ← (s.heap.alloc sym).declare s.env s.heap.cells.length with
  | (some d, h) => fail { s with heap := h } d
  | (none, h) =>
    let cell ← h.cells[s.heap.cells.length]?
    let global ← isGlobal h cell
    return (note { s with heap := h } (.declare keyword.line cell.symbol global), none)

/-- Gives a name a value. The step is noted before it is tried. -/
def assign (s : State) (name : Token) (v : Float) : Result := do
  let s := s.note (.assign name.line name.lexeme v)
  match ← s.heap.assign s.env name.lexeme v name.position with
  | (some d, h) => fail { s with heap := h } d
  | (none, h) => return ({ s with heap := h }, none)

end State

namespace Result

/-- Goes on with `next` unless the run has ended. -/
def andThen (r : Result) (next : State → Result) : Result :=
  r.bind fun
    | (s, none) => next s
    | (s, some fault) => some (s, some fault)

end Result

/-! ### Programs -/

/-- Runs a loop for at most `fuel` rounds. -/
def iterate (limits : Limits) (keyword : Token) (condition : Expression)
    (body : State → Result) : Nat → State → Result
  | 0, s => some (s, some .exhausted)
  | fuel + 1, s =>
    s.withValue condition fun v s =>
      if !truthy v then some (s, none)
      else if 0 < limits.budget ∧ limits.budget ≤ s.iterations then
        s.fail (limits.exceeded keyword)
      else
        let s := { s with iterations := s.iterations + 1 }.note (.iterate keyword.line)
        (s.within limits .loop body).andThen (iterate limits keyword condition body fuel)

/-- Runs a sequence of statements. -/
def execute (limits : Limits) : Program → State → Result
  | .done, s => some (s, none)
  | .block brace body rest, s =>
    ((s.note (.enterBlock brace.line)).within limits .block (execute limits body)).andThen
      (execute limits rest)
  | .declare keyword name value rest, s =>
    let declared := match value with
      | none => s.declare keyword name none
      | some e => s.withValue e fun v s => s.declare keyword name (some v)
    declared.andThen (execute limits rest)
  | .assign name value rest, s =>
    (s.withValue value fun v s => s.assign name v).andThen (execute limits rest)
  | .expression value rest, s =>
    (s.withValue value fun v s =>
      some ({ s with result := some v }.note (.value value.line value.text v), none)).andThen
      (execute limits rest)
  | .ifThen keyword condition _ body rest, s =>
    (s.withValue condition fun v s =>
      let s := s.note (.branch keyword.line condition.text v)
      if truthy v then s.within limits .branch (execute limits body) else some (s, none)).andThen
      (execute limits rest)
  | .ifElse keyword condition _ body _ elseBody rest, s =>
    (s.withValue condition fun v s =>
      let s := s.note (.branch keyword.line condition.text v)
      if truthy v then s.within limits .branch (execute limits body)
      else s.within limits .branch (execute limits elseBody)).andThen
      (execute limits rest)
  | .loop keyword condition _ body rest, s =>
    (iterate limits keyword condition (execute limits body) limits.rounds s).andThen
      (execute limits rest)

end Heap

end NumScript
