/-!
The generator of random words.

A generator is a stream cipher run on an empty message. Its key of eight words is stretched from a
64-bit seed. Block after block, numbered by a 64-bit counter, it mixes sixteen words (four
constants, the key, the number of the block, two zeros) in six double rounds and adds the words that
went in; the words of the blocks in order are its output.

* `Row` holds four words side by side, so that a quarter round works on four columns at once.
* `Key.ofSeed` stretches a seed, `block` computes the words of one block.
* `Generator.next` gives the next word and the generator after it.
-/

namespace StoreSoak

/-- Four words side by side. -/
structure Row where
  a : UInt32
  b : UInt32
  c : UInt32
  d : UInt32
  deriving DecidableEq, Repr

namespace Row

/-- Word by word in two rows. -/
def zipWith (f : UInt32 → UInt32 → UInt32) (x y : Row) : Row :=
  ⟨f x.a y.a, f x.b y.b, f x.c y.c, f x.d y.d⟩

/-- Sums modulo `2 ^ 32`. -/
def add : Row → Row → Row := zipWith (· + ·)

/-- Differing bits. -/
def xor : Row → Row → Row := zipWith (· ^^^ ·)

/-- Every word with its bits moved `n` places to the left, those that fall out coming back in. -/
def rotate (n : UInt32) (x : Row) : Row :=
  let turn (w : UInt32) : UInt32 := (w <<< n) ||| (w >>> (32 - n))
  ⟨turn x.a, turn x.b, turn x.c, turn x.d⟩

/-- The words one place to the left, the first one coming last. -/
def shift (x : Row) : Row := ⟨x.b, x.c, x.d, x.a⟩

/-- The words in order. -/
def toList (x : Row) : List UInt32 := [x.a, x.b, x.c, x.d]

end Row

/-- The sixteen words of a block, in four rows. -/
structure Grid where
  r0 : Row
  r1 : Row
  r2 : Row
  r3 : Row
  deriving DecidableEq, Repr

namespace Grid

/-- A quarter round on all four columns. -/
def columns (g : Grid) : Grid :=
  let r0 := g.r0.add g.r1
  let r3 := (g.r3.xor r0).rotate 16
  let r2 := g.r2.add r3
  let r1 := (g.r1.xor r2).rotate 12
  let r0 := r0.add r1
  let r3 := (r3.xor r0).rotate 8
  let r2 := r2.add r3
  let r1 := (r1.xor r2).rotate 7
  ⟨r0, r1, r2, r3⟩

/-- The diagonals moved into the columns. -/
def slant (g : Grid) : Grid :=
  ⟨g.r0, g.r1.shift, g.r2.shift.shift, g.r3.shift.shift.shift⟩

/-- The columns moved back into the diagonals. -/
def straighten (g : Grid) : Grid :=
  ⟨g.r0, g.r1.shift.shift.shift, g.r2.shift.shift, g.r3.shift⟩

/-- Columns, then diagonals. -/
def doubleRound (g : Grid) : Grid :=
  g.columns.slant.columns.straighten

/-- So many double rounds. -/
def mix : Nat → Grid → Grid
  | 0, g => g
  | n + 1, g => mix n g.doubleRound

/-- Sums word by word. -/
def add (g h : Grid) : Grid :=
  ⟨g.r0.add h.r0, g.r1.add h.r1, g.r2.add h.r2, g.r3.add h.r3⟩

/-- The words row by row. -/
def toList (g : Grid) : List UInt32 :=
  g.r0.toList ++ g.r1.toList ++ g.r2.toList ++ g.r3.toList

end Grid

/-- The eight words of a key. -/
structure Key where
  low : Row
  high : Row
  deriving DecidableEq, Repr

namespace Key

/-- The next state of the sequence that stretches a seed. -/
def advance (s : UInt64) : UInt64 :=
  s * 6364136223846793005 + 11634580027462260723

/-- The word that a state of the sequence gives. -/
def word (s : UInt64) : UInt32 :=
  let x : UInt32 := (((s >>> 18) ^^^ s) >>> 27).toUInt32
  let n : UInt32 := (s >>> 59).toUInt32
  (x >>> n) ||| (x <<< ((32 - n) % 32))

/-- Four words of the sequence, and the state after them. -/
def row (s : UInt64) : Row × UInt64 :=
  let s1 := advance s
  let s2 := advance s1
  let s3 := advance s2
  let s4 := advance s3
  (⟨word s1, word s2, word s3, word s4⟩, s4)

/-- The key stretched from a seed. -/
def ofSeed (seed : UInt64) : Key :=
  let low := row seed
  let high := row low.2
  ⟨low.1, high.1⟩

end Key

/-- The constants of every block. -/
def Row.constants : Row := ⟨0x61707865, 0x3320646e, 0x79622d32, 0x6b206574⟩

/-- The words that go into the block of the given number. -/
def Key.grid (k : Key) (number : UInt64) : Grid :=
  ⟨Row.constants, k.low, k.high, ⟨number.toUInt32, (number >>> 32).toUInt32, 0, 0⟩⟩

/-- The words of the block of the given number. -/
def Key.block (k : Key) (number : UInt64) : List UInt32 :=
  let g := k.grid number
  ((g.mix 6).add g).toList

/-- A key, the number of the next block, and the words of the last block still to be given. -/
structure Generator where
  key : Key
  number : UInt64
  buffer : List UInt32
  deriving DecidableEq, Repr

namespace Generator

/-- The generator of a seed. -/
def ofSeed (seed : UInt64) : Generator :=
  ⟨Key.ofSeed seed, 0, []⟩

/-- The generator of a worker: the base seed is varied by the worker's index. -/
def ofWorker (base : UInt64) (index : Nat) : Generator :=
  ofSeed (base ^^^ UInt64.ofNat index)

/-- The next word, and the generator after it. -/
def next (g : Generator) : UInt32 × Generator :=
  match g.buffer with
  | w :: rest => (w, { g with buffer := rest })
  | [] =>
    match g.key.block g.number with
    | w :: rest => (w, { g with number := g.number + 1, buffer := rest })
    | [] => (0, g)

/-- The next words in order. -/
def words (g : Generator) : Nat → List UInt32
  | 0 => []
  | n + 1 =>
    let r := g.next
    r.1 :: words r.2 n

end Generator

end StoreSoak
