import DemandPaging.Number
import DemandPaging.Random.ChaCha

/-!
# Drawing numbers

A `RandomStream` is a stream of random 64-bit words and a position in it. `below` draws a number
below a bound. Multiplying a word by the bound and keeping the high half is all but uniform; where the
low half shows that the result may be too small, a second word decides whether it goes up by one.

The main statement is `below_lt`: a number drawn below a positive bound is below it.
-/

namespace DemandPaging

/-- A stream of random words and how many of them have been drawn. Two streams of one seed that
have drawn as many words go on alike. -/
structure RandomStream where
  /-- The key of the words. -/
  key : ChaCha.Key
  /-- The number of words drawn. -/
  position : Nat := 0
  deriving DecidableEq

namespace RandomStream

/-- The stream for a seed, from its start. Of the seed the lowest 64 bits count. -/
def ofSeed (seed : Nat) : RandomStream where
  key := ChaCha.keyOfSeed (.ofNat seed)

/-- Draws a word. -/
def next (s : RandomStream) : Nat × RandomStream :=
  ((ChaCha.word64 s.key s.position).toNat, { s with position := s.position + 1 })

theorem next_lt (s : RandomStream) : s.next.1 < 2 ^ 64 :=
  UInt64.toNat_lt _

/-- Draws a number below `bound`, a positive number of at most 64 bits. It takes one word, or
two where the low half of the product leaves the result in doubt. -/
def below (bound : Nat) (s : RandomStream) : Nat × RandomStream :=
  let (word, s) := s.next
  let high := word * bound / 2 ^ 64
  let low := word * bound % 2 ^ 64
  if 2 ^ 64 - bound < low then
    let (word, s) := s.next
    if low + word * bound / 2 ^ 64 < 2 ^ 64 then (high, s) else (high + 1, s)
  else
    (high, s)

theorem below_lt {bound : Nat} (s : RandomStream) (h : 0 < bound) :
    (below bound s).1 < bound := by
  have hp : s.next.1 * bound ≤ (2 ^ 64 - 1) * bound :=
    Nat.mul_le_mul_right _ (Nat.le_sub_one_of_lt s.next_lt)
  simp only [below]
  split
  · split <;> simp only <;> omega
  · simp only
    omega

end RandomStream

end DemandPaging
