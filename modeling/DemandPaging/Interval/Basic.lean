import DemandPaging.Fault

/-!
# Intervals

The records of a trace are numbered from one, and those numbers are called lines. An interval is a
stretch of lines that all belong to one process, together with the byte at which its first line
starts. Its bounds are in order, so it has at least one line.
-/

namespace DemandPaging

/-- A stretch of lines of one process. It is never empty, since its bounds are in order by
construction; the offset is that of the line `low`. -/
@[ext] structure Interval where
  /-- The process. -/
  pid : Pid
  /-- The first line. -/
  low : Nat
  /-- The last line. -/
  high : Nat
  /-- The offset in the trace of the first line. -/
  offset : Nat
  /-- The bounds are in order. -/
  low_le_high : low ≤ high := by omega
  deriving DecidableEq, Repr

namespace Interval

/-- The interval with the given bounds, which must be in order. -/
def ofBounds (pid : Pid) (low high offset : Nat) : Except Fault Interval :=
  if h : low ≤ high then .ok { pid, low, high, offset }
  else .error (.breach (.invertedInterval low high))

/-- Membership: the line lies between the bounds, bounds included. -/
instance : Membership Nat Interval where
  mem i line := i.low ≤ line ∧ line ≤ i.high

instance (line : Nat) (i : Interval) : Decidable (line ∈ i) :=
  inferInstanceAs (Decidable (i.low ≤ line ∧ line ≤ i.high))

theorem mem_iff {line : Nat} {i : Interval} : line ∈ i ↔ i.low ≤ line ∧ line ≤ i.high := Iff.rfl

/-- The number of lines, which must fit into 64 bits. Of the intervals between numbers of 64
bits only the one of all of them is too long. -/
def length (i : Interval) : Except Fault Nat :=
  Fault.fit 64 (i.high - i.low + 1)

/-- Whether some line lies in both intervals. For intervals with their bounds in order two
comparisons are enough. -/
def meets (i j : Interval) : Bool := i.low ≤ j.high && j.low ≤ i.high

theorem meets_iff {i j : Interval} : i.meets j = true ↔ ∃ line, line ∈ i ∧ line ∈ j := by
  have hi := i.low_le_high
  have hj := j.low_le_high
  simp only [meets, Bool.and_eq_true, decide_eq_true_eq, mem_iff]
  exact ⟨fun h => ⟨max i.low j.low, by omega⟩, fun ⟨line, h⟩ => by omega⟩

end Interval

end DemandPaging
