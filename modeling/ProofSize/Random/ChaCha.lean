/-! # A keyed stream of random words

ChaCha with eight rounds: a block of sixteen 32-bit words is made from a key of eight words and a
64-bit block number. The stream is the blocks from number 0 on, taken as 64-bit words, of which the
low half comes first.
-/

namespace ProofSize.Random

/-- Sixteen words in four rows of four. -/
abbrev Block := Vector UInt32 16

def rotateLeft (x : UInt32) (n : UInt32) : UInt32 := (x <<< n) ||| (x >>> (32 - n))

/-- Mixes four words of a block. -/
def quarterRound (b : Block) (i j k l : Fin 16) : Block :=
  let w := b[i]
  let x := b[j]
  let y := b[k]
  let z := b[l]
  let w := w + x
  let z := rotateLeft (z ^^^ w) 16
  let y := y + z
  let x := rotateLeft (x ^^^ y) 12
  let w := w + x
  let z := rotateLeft (z ^^^ w) 8
  let y := y + z
  let x := rotateLeft (x ^^^ y) 7
  (((b.set i w).set j x).set k y).set l z

/-- Mixes the columns of a block, then its diagonals. -/
def doubleRound (b : Block) : Block :=
  let b := quarterRound b 0 4 8 12
  let b := quarterRound b 1 5 9 13
  let b := quarterRound b 2 6 10 14
  let b := quarterRound b 3 7 11 15
  let b := quarterRound b 0 5 10 15
  let b := quarterRound b 1 6 11 12
  let b := quarterRound b 2 7 8 13
  quarterRound b 3 4 9 14

/-- A key of eight words. -/
abbrev Key := Vector UInt32 8

/-- The block of a number before it is mixed. -/
def initialBlock (key : Key) (number : UInt64) : Block :=
  #v[0x61707865, 0x3320646e, 0x79622d32, 0x6b206574,
    key[0], key[1], key[2], key[3], key[4], key[5], key[6], key[7],
    number.toUInt32, (number >>> 32).toUInt32, 0, 0]

/-- The block of a number. -/
def block (key : Key) (number : UInt64) : Block :=
  let start := initialBlock key number
  let mixed := doubleRound (doubleRound (doubleRound (doubleRound start)))
  mixed.zipWith (· + ·) start

/-- Pairs of words as 64-bit words, the low half first. -/
def pairs : List UInt32 → List UInt64
  | low :: high :: rest => (low.toUInt64 ||| high.toUInt64 <<< 32) :: pairs rest
  | _ => []

/-- What is left of a stream: the rest of the open block, and the blocks from a number on. -/
structure Stream where
  key : Key
  pending : List UInt64
  number : UInt64

namespace Stream

/-- The stream of a key. -/
def ofKey (key : Key) : Stream := ⟨key, [], 0⟩

/-- The first word of the stream, and what is left behind it. -/
def next (s : Stream) : UInt64 × Stream :=
  match s.pending with
  | w :: rest => (w, { s with pending := rest })
  | [] =>
    match pairs (block s.key s.number).toList with
    | w :: rest => (w, ⟨s.key, rest, s.number + 1⟩)
    | [] => (0, s)

end Stream

/-- One word of a key from a state, which counts modulo `2 ^ 64`. -/
def keyWord (state : UInt64) : UInt32 :=
  let x := (((state >>> 18) ^^^ state) >>> 27).toUInt32
  let n := (state >>> 59).toUInt32
  (x >>> n) ||| (x <<< ((32 - n) % 32))

/-- The state behind a state. -/
def nextState (state : UInt64) : UInt64 := state * 6364136223846793005 + 11634580027462260723

/-- The key that a 64-bit seed stands for: the words of the eight states behind the seed. -/
def Key.ofSeed (seed : UInt64) : Key :=
  Vector.ofFn fun i => keyWord (Nat.repeat nextState (i.val + 1) seed)

/-- The stream that a 64-bit seed stands for. -/
def Stream.ofSeed (seed : UInt64) : Stream := ofKey (.ofSeed seed)

end ProofSize.Random
