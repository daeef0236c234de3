import DemandPaging.Fault

/-!
# Totals

What is counted while a simulation runs: hits, misses and evictions, and two sums over the ticks, of
the frames in use and of the ticks at which some process could run. The counts have 64 bits and the
sums 128.

Ticks with the same sample may be counted one by one (`Totals.addTickRepeatedly`) or at once by a
product (`Totals.addTicks`).
-/

namespace DemandPaging

/-- What has been counted. Nothing is ever subtracted, so a total that fits into its width has
not overflowed before. -/
@[ext] structure Totals where
  /-- References to pages in memory. -/
  hits : Nat := 0
  /-- References to other pages. -/
  misses : Nat := 0
  /-- Pages taken out of memory for another one. -/
  evictions : Nat := 0
  /-- The frames in use, summed over the ticks. -/
  memoryTicks : Nat := 0
  /-- The ticks at which some process could run. -/
  runnableTicks : Nat := 0
  deriving DecidableEq, Repr

namespace Totals

/-- Counts a hit. -/
def addHit (t : Totals) : Except Fault Totals := do
  return { t with hits := ← Fault.fit 64 (t.hits + 1) }

/-- Counts a miss. -/
def addMiss (t : Totals) : Except Fault Totals := do
  return { t with misses := ← Fault.fit 64 (t.misses + 1) }

/-- Counts an eviction. -/
def addEviction (t : Totals) : Except Fault Totals := do
  return { t with evictions := ← Fault.fit 64 (t.evictions + 1) }

/-- Counts `count` ticks, at each of which `frames` frames were in use. The product is not
checked apart from the sum: the sum fits only if the product does. -/
def addTicks (t : Totals) (frames : Nat) (runnable : Bool) (count : Nat) : Except Fault Totals := do
  return { t with
    memoryTicks := ← Fault.fit 128 (t.memoryTicks + frames * count)
    runnableTicks := ← Fault.fit 128 (t.runnableTicks + runnable.toNat * count) }

/-- Counts a tick. -/
def addTick (t : Totals) (frames : Nat) (runnable : Bool) : Except Fault Totals := do
  return { t with
    memoryTicks := ← Fault.fit 128 (t.memoryTicks + frames)
    runnableTicks := ← Fault.fit 128 (t.runnableTicks + runnable.toNat) }

/-- Counts `count` ticks with the same sample, one after the other. The first one that does not
fit is the fault, and the ticks after it are not looked at. -/
def addTickRepeatedly (t : Totals) (frames : Nat) (runnable : Bool) :
    (count : Nat) → Except Fault Totals
  | 0 => .ok t
  | count + 1 => do (← t.addTick frames runnable).addTickRepeatedly frames runnable count

end Totals

end DemandPaging
