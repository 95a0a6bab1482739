import NumScript.Text

/-! The digest of a text: its 256-bit BLAKE3 hash, by which a compiled program is known. The text
is cut into chunks and the chunks into blocks; the blocks of a chunk are compressed one after the
other, and the chunks are joined two by two up to a single root. -/

namespace NumScript

namespace Digest

/-- Four words, which are mixed side by side. -/
structure Row where
  a : UInt32
  b : UInt32
  c : UInt32
  d : UInt32
  deriving DecidableEq, Repr

namespace Row

def zipWith (f : UInt32 → UInt32 → UInt32) (x y : Row) : Row :=
  ⟨f x.a y.a, f x.b y.b, f x.c y.c, f x.d y.d⟩

def map (f : UInt32 → UInt32) (x : Row) : Row := ⟨f x.a, f x.b, f x.c, f x.d⟩

instance : Add Row := ⟨zipWith (· + ·)⟩

instance : XorOp Row := ⟨zipWith (· ^^^ ·)⟩

/-- The words moved one place to the left, the first one to the end. -/
def shift (x : Row) : Row := ⟨x.b, x.c, x.d, x.a⟩

def toList (x : Row) : List UInt32 := [x.a, x.b, x.c, x.d]

end Row

/-- A word turned right by `n` bits. -/
def rotateRight (n : UInt32) (w : UInt32) : UInt32 := (w >>> n) ||| (w <<< (32 - n))

/-- The sixteen words of a compression, in four rows. -/
structure State where
  a : Row
  b : Row
  c : Row
  d : Row
  deriving DecidableEq, Repr

namespace State

/-- Mixes the four columns with the message words `x` and then `y`. -/
def mix (x y : Row) (s : State) : State :=
  let a := s.a + s.b + x
  let d := (s.d ^^^ a).map (rotateRight 16)
  let c := s.c + d
  let b := (s.b ^^^ c).map (rotateRight 12)
  let a := a + b + y
  let d := (d ^^^ a).map (rotateRight 8)
  let c := c + d
  let b := (b ^^^ c).map (rotateRight 7)
  ⟨a, b, c, d⟩

/-- Turns the diagonals into columns. -/
def skew (s : State) : State := ⟨s.a, s.b.shift, s.c.shift.shift, s.d.shift.shift.shift⟩

/-- Turns the columns back into diagonals. -/
def unskew (s : State) : State := ⟨s.a, s.b.shift.shift.shift, s.c.shift.shift, s.d.shift⟩

end State

/-- A message word; a block that is too short goes on with zeros. -/
def wordAt (words : List UInt32) (i : Nat) : UInt32 := words[i]?.getD 0

/-- Every second message word from `i` on, four in all. -/
def rowAt (words : List UInt32) (i : Nat) : Row :=
  ⟨wordAt words i, wordAt words (i + 2), wordAt words (i + 4), wordAt words (i + 6)⟩

/-- The places that the message words of the next round are taken from. -/
def permutation : List Nat := [2, 6, 3, 10, 7, 0, 4, 13, 1, 11, 12, 5, 9, 14, 15, 8]

/-- `n` rounds: columns, then diagonals, then the message words in a new order. -/
def rounds : Nat → List UInt32 → State → State
  | 0, _, s => s
  | n + 1, words, s =>
    let s := s.mix (rowAt words 0) (rowAt words 1)
    let s := (s.skew.mix (rowAt words 8) (rowAt words 9)).unskew
    rounds n (permutation.map (wordAt words)) s

/-- A chaining value: two rows, passed from one compression to the next. -/
structure Chain where
  low : Row
  high : Row
  deriving DecidableEq, Repr

namespace Chain

/-- The chaining value that every chunk starts from. -/
def start : Chain :=
  { low := ⟨0x6A09E667, 0xBB67AE85, 0x3C6EF372, 0xA54FF53A⟩
    high := ⟨0x510E527F, 0x9B05688C, 0x1F83D9AB, 0x5BE0CD19⟩ }

def toList (v : Chain) : List UInt32 := v.low.toList ++ v.high.toList

end Chain

/-- What a compression is told about its block. -/
structure Flags where
  chunkStart : Bool := false
  chunkEnd : Bool := false
  parent : Bool := false
  root : Bool := false
  deriving DecidableEq, Repr

def Flags.word (f : Flags) : UInt32 :=
  (if f.chunkStart then 1 else 0) + (if f.chunkEnd then 2 else 0) +
    (if f.parent then 4 else 0) + (if f.root then 8 else 0)

/-- A compression that is still to be done. The last one of a text is done as the root, so each is
put off until it is known whether it is the last. -/
structure Pending where
  chain : Chain
  words : List UInt32
  /-- The number of the chunk. -/
  counter : Nat := 0
  /-- The number of bytes in the block. -/
  length : Nat := 64
  flags : Flags
  deriving DecidableEq, Repr

namespace Pending

/-- Does the compression. -/
def value (p : Pending) : Chain :=
  let s := rounds 7 p.words
    { a := p.chain.low
      b := p.chain.high
      c := Chain.start.low
      d :=
        ⟨p.counter.toUInt32, (p.counter / 0x100000000).toUInt32, p.length.toUInt32, p.flags.word⟩ }
  { low := s.a ^^^ s.c, high := s.b ^^^ s.d }

/-- Does the compression as the last one. -/
def rootValue (p : Pending) : Chain :=
  { p with counter := 0, flags := { p.flags with root := true } }.value

/-- Two subtrees under one node. -/
def join (left right : Pending) : Pending :=
  { chain := .start
    words := left.value.toList ++ right.value.toList
    flags := { parent := true } }

end Pending

/-- `n` pieces of `size` bytes each; the last ones may be shorter. -/
def pieces (size : Nat) : Nat → Text → List Text
  | 0, _ => []
  | n + 1, s => s.take size :: pieces size n (s.drop size)

/-- The number of pieces of `size` bytes that hold a text: at least one. -/
def pieceCount (size : Nat) (s : Text) : Nat := max 1 ((s.length + size - 1) / size)

/-- The words of a block, with the lowest byte first. -/
def wordsOf : Text → List UInt32
  | [] => []
  | [a] => [a.toUInt32]
  | [a, b] => [a.toUInt32 + b.toUInt32 * 2 ^ 8]
  | [a, b, c] => [a.toUInt32 + b.toUInt32 * 2 ^ 8 + c.toUInt32 * 2 ^ 16]
  | a :: b :: c :: d :: rest =>
    (a.toUInt32 + b.toUInt32 * 2 ^ 8 + c.toUInt32 * 2 ^ 16 + d.toUInt32 * 2 ^ 24) :: wordsOf rest

/-- The compression of the last block of a chunk, after those of the blocks before it. -/
def chunkFrom (counter : Nat) (first : Bool) (chain : Chain) : List Text → Pending
  | [] => { chain := chain, words := [], counter := counter, length := 0, flags := {} }
  | [block] =>
    { chain := chain
      words := wordsOf block
      counter := counter
      length := block.length
      flags := { chunkStart := first, chunkEnd := true } }
  | block :: rest =>
    let p : Pending :=
      { chain := chain
        words := wordsOf block
        counter := counter
        length := block.length
        flags := { chunkStart := first } }
    chunkFrom counter false p.value rest

/-- The compression that ends the chunk with a number. -/
def chunk (counter : Nat) (s : Text) : Pending :=
  chunkFrom counter true .start (pieces 64 (pieceCount 64 s) s)

/-- Joins neighbours two by two; one that is left over goes along as it is. -/
def pairUp : List Pending → List Pending
  | left :: right :: rest => left.join right :: pairUp rest
  | other => other

/-- The root over the nodes of one level, which is at most `height` levels below it. -/
def root : Nat → List Pending → Pending
  | height + 1, first :: second :: rest => root height (pairUp (first :: second :: rest))
  | _, nodes => nodes.headD (chunk 0 [])

/-- The four bytes of a word in hexadecimal digits, the lowest byte first. -/
def wordText (w : UInt32) : Text :=
  [0, 8, 16, 24].flatMap fun shift => Text.ofHex 2 (w.toNat >>> shift % 256)

end Digest

open Digest in
/-- The digest of a text in hexadecimal digits. -/
def Text.digest (s : Text) : Text :=
  let chunks := (pieces 1024 (pieceCount 1024 s) s).zipIdx.map fun (piece, i) => chunk i piece
  (root chunks.length chunks).rootValue.toList.flatMap wordText

end NumScript
