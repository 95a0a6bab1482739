import Mathlib.Data.Finmap
import NumScript.Env.Forest

/-! Environments in memory. A symbol is a cell that knows the environment that owns it. An
environment keeps a table from names to cells, beside it the names in the order of their
declaration and the set of the names declared constant, and leads to the environment around it;
each of these is changed by itself. A step that would follow a pointer to nothing has no result. -/

namespace NumScript

/-- A symbol and the number of the environment that owns it. -/
structure Heap.Cell where
  symbol : Symbol
  owner : Option Nat := none
  deriving DecidableEq

/-- One environment. -/
structure Heap.Frame where
  kind : ScopeKind := .global
  /-- The environment around this one: none for a global one and for a copy. -/
  parent : Option Nat := none
  depth : Nat := 0
  /-- The cells of the names declared here. -/
  symbols : Finmap fun _ : Text => Nat := ∅
  /-- The names in the order of their declaration. -/
  order : List Text := []
  /-- The names declared constant here. -/
  constants : Finset Text := ∅

/-- Cells and environments, each known by its number. -/
structure Heap where
  cells : List Heap.Cell := []
  frames : List Heap.Frame := []

namespace Heap

/-- Makes a new cell; its number is the number of cells before. -/
def alloc (h : Heap) (sym : Symbol) (owner : Option Nat := none) : Heap :=
  { h with cells := h.cells ++ [⟨sym, owner⟩] }

/-- Changes the symbol in a cell. -/
def update (h : Heap) (p : Nat) (f : Symbol → Symbol) : Heap :=
  { h with cells := h.cells.modify p fun cell => { cell with symbol := f cell.symbol } }

/-- At most `fuel` environments, from `e` outwards. -/
def chainFrom (frames : List Frame) : Nat → Nat → List Nat
  | 0, _ => []
  | fuel + 1, e =>
    match frames[e]? with
    | none => []
    | some frame => e :: match frame.parent with
      | none => []
      | some p => chainFrom frames fuel p

/-- The environments from `e` outwards. The environment around another has the smaller number. -/
def chain (h : Heap) (e : Nat) : List Nat := chainFrom h.frames (e + 1) e

/-- The cell of a name in environment `e` itself. -/
def lookupLocal? (h : Heap) (e : Nat) (name : Text) : Option Nat :=
  h.frames[e]?.bind fun frame => frame.symbols.lookup name

/-- The cell of the nearest symbol of a name. -/
def resolve? (h : Heap) (e : Nat) (name : Text) : Option Nat :=
  (h.chain e).findSome? fun i => h.lookupLocal? i name

def has (h : Heap) (e : Nat) (name : Text) : Bool := (h.resolve? e name).isSome

/-! ### New environments -/

/-- Opens an empty environment, inside another one if there is one around it. -/
def newScope (h : Heap) (kind : ScopeKind) (parent : Option Nat) : Option Heap := do
  let depth ← match parent with
    | none => some 0
    | some p => h.frames[p]?.map fun outer => outer.depth + 1
  return { h with frames := h.frames ++ [{ kind := kind, parent := parent, depth := depth }] }

/-- Puts a cell under a name; a new name goes to the end of the order. -/
def Frame.enter (frame : Frame) (name : Text) (p : Nat) : Frame :=
  { frame with
    order := if name ∈ frame.symbols then frame.order else frame.order ++ [name]
    symbols := frame.symbols.insert name p }

/-- Clones the cells that `source` has under the given names for environment `d`, and puts the
clones into `copy`. -/
def cloneNames (d : Nat) (source : Frame) : List Text → Heap → Frame → Option (Heap × Frame)
  | [], h, copy => some (h, copy)
  | name :: names, h, copy => do
    let p ← source.symbols.lookup name
    let cell ← h.cells[p]?
    cloneNames d source names (h.alloc cell.symbol (some d)) (copy.enter name h.cells.length)

/-- Clones the cells of the given environments, one environment after the other. -/
def cloneAll (d : Nat) : List Nat → Heap → Frame → Option (Heap × Frame)
  | [], h, copy => some (h, copy)
  | e :: rest, h, copy => do
    let source ← h.frames[e]?
    let (h, copy) ← cloneNames d source source.order h copy
    cloneAll d rest h copy

/-- Opens an environment of its own with clones of all that is visible from `e`. The outermost
environment is cloned first, so that inner names take the place of outer ones. -/
def dup (h : Heap) (kind : ScopeKind) (e : Nat) : Option Heap := do
  let frame ← h.frames[e]?
  let (h, copy) ←
    cloneAll h.frames.length (h.chain e).reverse h { kind := kind, depth := frame.depth + 1 }
  return { h with frames := h.frames ++ [copy] }

/-! ### Changes -/

/-- Declares the symbol in cell `p`. -/
def Frame.declare (frame : Frame) (sym : Symbol) (p : Nat) : Frame :=
  { frame.enter sym.name p with
    constants := if sym.constant then insert sym.name frame.constants else frame.constants }

/-- Makes environment `e` the owner of cell `p` and gives it a new frame. -/
def own (h : Heap) (e p : Nat) (frame : Frame) : Heap where
  cells := h.cells.modify p fun cell => { cell with owner := some e }
  frames := h.frames.set e frame

/-- Declares the symbol in cell `p` in environment `e`; answers what is wrong with that. -/
def declare (h : Heap) (e p : Nat) : Option (Option Diagnostic × Heap) := do
  let frame ← h.frames[e]?
  let cell ← h.cells[p]?
  let sym := cell.symbol
  let previous := frame.symbols.lookup sym.name
  if sym.name ∈ frame.constants then
    let cited ← h.cells[← previous]?
    return (some (sym.redeclared cited.symbol), h)
  else return (none, h.own e p (frame.declare sym p))

/-- Gives the symbol in cell `p` a value, unless it is a constant. -/
def assignCell (h : Heap) (p : Nat) (v : Float) (place : Position) :
    Option (Option Diagnostic × Heap) := do
  let cell ← h.cells[p]?
  if cell.symbol.constant then return (some (cell.symbol.assigned place), h)
  else return (none, h.update p (·.bind v))

/-- Gives the nearest symbol of a name a value. For a name that is not visible, a new symbol is
declared first. -/
def assign (h : Heap) (e : Nat) (name : Text) (v : Float) (place : Position) :
    Option (Option Diagnostic × Heap) :=
  match h.resolve? e name with
  | some p => h.assignCell p v place
  | none => do
    match ← (h.alloc { name := name, position := place }).declare e h.cells.length with
    | (some d, h) => return (some d, h)
    | (none, after) => after.assignCell h.cells.length v place

/-- Finds the cell of the nearest symbol of a name and marks the symbol as used. -/
def lookup (h : Heap) (e : Nat) (name : Text) : Option (Option Nat × Heap) :=
  match h.resolve? e name with
  | none => some (none, h)
  | some p => h.cells[p]?.map fun _ => (some p, h.update p Symbol.markUsed)

/-- The value of a name, read on `line`. -/
def get (h : Heap) (e : Nat) (name : Text) (line : Int) :
    Option (Except Diagnostic Float × Heap) := do
  match ← h.lookup e name with
  | (none, h) => return (.error (Env.undefined name line), h)
  | (some p, h) =>
    let cell ← h.cells[p]?
    match cell.symbol.value with
    | none => return (.error (Env.uninitialized name line), h)
    | some v => return (.ok v, h)

/-! ### Views -/

/-- The symbols declared in environment `e` itself, in the order of their declaration. -/
def localSymbols (h : Heap) (e : Nat) : Option (List Symbol) := do
  let frame ← h.frames[e]?
  frame.order.mapM fun name => do
    let cell ← h.cells[← frame.symbols.lookup name]?
    return cell.symbol

/-- The names that come first in a list, each once. -/
def distinct (names : List Text) : List Text :=
  names.foldl (fun seen name => if seen.contains name then seen else seen ++ [name]) []

/-- Every visible name, sorted. -/
def names (h : Heap) (e : Nat) : List Text :=
  let declared := (h.chain e).flatMap fun i => (h.frames[i]?.map Frame.order).getD []
  (distinct declared).mergeSort fun name other => decide (name ≤ other)

/-- Adds the value of a visible name, if it has one. -/
def tell (h : Heap) (e : Nat) (values : Finmap fun _ : Text => Float) (name : Text) :
    Option (Finmap fun _ : Text => Float) := do
  let cell ← h.cells[← h.resolve? e name]?
  return match cell.symbol.value with
    | none => values
    | some v => values.insert name v

/-- The values of the visible names that have one. -/
def snapshot (h : Heap) (e : Nat) : Option (Finmap fun _ : Text => Float) :=
  (h.names e).foldlM (h.tell e) ∅

end Heap

end NumScript
