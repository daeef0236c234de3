/-!
# A stream of random words

The words come from the ChaCha stream cipher with twelve rounds, keyed from a 64-bit seed. The
stream has no state but a position: `word64 key i` is its `i`-th 64-bit word, computed from the block
in which it lies.
-/

namespace DemandPaging.ChaCha

/-- Sixteen words: what the rounds work on and what a block of the stream holds. -/
abbrev Block := Vector UInt32 16

/-- The key of a stream. -/
abbrev Key := Vector UInt32 8

/-- The word turned left by `n` bits, for `n` below 32. -/
def rotateLeft (x n : UInt32) : UInt32 :=
  (x <<< n) ||| (x >>> (32 - n))

/-! ### Blocks -/

/-- Adds word `b` to word `a`, and mixes the sum into word `d`, turned by `n` bits. A quarter of
a round is four of these. -/
def addMix (s : Block) (a b d : Fin 16) (n : UInt32) : Block :=
  let sum := s[a] + s[b]
  (s.set a sum).set d (rotateLeft (s[d] ^^^ sum) n)

/-- One quarter of a round. -/
def quarterRound (s : Block) (a b c d : Fin 16) : Block :=
  let s := addMix s a b d 16
  let s := addMix s c d b 12
  let s := addMix s a b d 8
  addMix s c d b 7

/-- A round over the columns of the block and one over its diagonals. Six of them make the
twelve rounds. -/
def doubleRound (s : Block) : Block :=
  let s := quarterRound s 0 4 8 12
  let s := quarterRound s 1 5 9 13
  let s := quarterRound s 2 6 10 14
  let s := quarterRound s 3 7 11 15
  let s := quarterRound s 0 5 10 15
  let s := quarterRound s 1 6 11 12
  let s := quarterRound s 2 7 8 13
  quarterRound s 3 4 9 14

/-- The block that the rounds start from: constants, the key, the counter, and two empty words. -/
def start (key : Key) (counter : Nat) : Block :=
  #v[0x61707865, 0x3320646e, 0x79622d32, 0x6b206574,
    key[0], key[1], key[2], key[3], key[4], key[5], key[6], key[7],
    .ofNat counter, .ofNat (counter >>> 32), 0, 0]

/-- The block of the stream with the given number. What the rounds started from is added to what
they ended with, so that they cannot be run backwards. -/
def block (key : Key) (counter : Nat) : Block :=
  let first := start key counter
  (Nat.repeat doubleRound 6 first).zipWith (· + ·) first

/-- The 64-bit word at a position of the stream; of two 32-bit words the first is the low half.
A block holds eight of them, so the position says both the block and the place in it. -/
def word64 (key : Key) (position : Nat) : UInt64 :=
  let words := block key (position / 8)
  let low := words.toArray.getD (2 * (position % 8)) 0
  let high := words.toArray.getD (2 * (position % 8) + 1) 0
  low.toUInt64 ||| (high.toUInt64 <<< 32)

/-! ### Keys -/

/-- One step of the linear congruence that a seed is spread with. -/
def seedStep (s : UInt64) : UInt64 :=
  s * 6364136223846793005 + 11634580027462260723

/-- The key word that a state of the congruence yields: some of its middle bits, turned right by as
many places as its highest five bits say. -/
def seedWord (s : UInt64) : UInt32 :=
  let x := (((s >>> 18) ^^^ s) >>> 27).toUInt32
  let turn := (s >>> 59).toUInt32
  (x >>> turn) ||| (x <<< (32 - turn))

/-- The key for a seed. The congruence is stepped before each word is taken, so that the seed
itself is not part of the key. -/
def keyOfSeed (seed : UInt64) : Key :=
  .ofFn fun i => seedWord (Nat.repeat seedStep (i.val + 1) seed)

end DemandPaging.ChaCha
