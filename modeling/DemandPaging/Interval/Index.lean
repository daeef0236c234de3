import DemandPaging.Interval.Basic
import DemandPaging.OrderedMap

/-!
# The interval index

For each process the intervals of its lines, in the order of the trace. No two intervals of a process
meet, which `IntervalIndex.insert` sees to: it compares a new interval with the neighbours between
which it would stand.
-/

namespace DemandPaging

/-- The lines of one process. The greatest line is kept beside the intervals, since each process
asks for it and the last interval would have to be searched. -/
structure LineSet where
  /-- The intervals, each under its first line. -/
  byLow : OrderedMap Interval := ∅
  /-- The greatest line. -/
  lastLine : Nat := 0
  deriving DecidableEq

/-- The lines of every process. Lines of different processes may meet as far as the index is
concerned; a survey gives each line to one process. -/
structure IntervalIndex where
  /-- The lines of each process, under its number. -/
  processes : OrderedMap LineSet := ∅
  deriving DecidableEq

namespace IntervalIndex

instance : EmptyCollection IntervalIndex := ⟨{}⟩

/-- The number of processes that have an interval. -/
def size (index : IntervalIndex) : Nat := index.processes.size

/-- Whether no process has an interval. -/
def isEmpty (index : IntervalIndex) : Bool := index.size == 0

/-- The processes that have an interval, ascending. -/
def pids (index : IntervalIndex) : List Pid := index.processes.keys

/-- The lines of a process, none if it is unknown. -/
def lines (index : IntervalIndex) (pid : Pid) : LineSet :=
  (index.processes.get? pid).getD {}

/-- The intervals of a process, ascending. -/
def intervals (index : IntervalIndex) (pid : Pid) : List Interval :=
  (index.lines pid).byLow.values

/-- Records an interval. Its bounds must be in order, and it must not meet another of its
process. Since the others do not meet each other, only the two neighbours of its first line can
meet it. -/
def insert (index : IntervalIndex) (pid : Pid) (low high offset : Nat) :
    Except Fault (Interval × IntervalIndex) := do
  let interval ← Interval.ofBounds pid low high offset
  let { byLow, lastLine } := index.lines pid
  let neighbours := (byLow.lastAtMost? low).toList ++ (byLow.firstAtLeast? low).toList
  match neighbours.find? (·.meets interval) with
  | some other => throw (.breach (.overlappingInterval pid low high other.low other.high))
  | none =>
    let lines := { byLow := byLow.insert low interval, lastLine := max lastLine high }
    return (interval, { processes := index.processes.insert pid lines })

/-- The first interval of a process. -/
def first? (index : IntervalIndex) (pid : Pid) : Option Interval :=
  (index.lines pid).byLow.first?

/-- The interval of the same process that follows one. The one given need not be in the index;
what counts is where it begins. -/
def next? (index : IntervalIndex) (interval : Interval) : Option Interval :=
  (index.lines interval.pid).byLow.firstAbove? interval.low

/-- The interval of a process that holds a line. The last one that begins no later is the only
one that can hold it. -/
def find? (index : IntervalIndex) (pid : Pid) (line : Nat) : Option Interval :=
  ((index.lines pid).byLow.lastAtMost? line).filter (line ∈ ·)

/-- The first line of a process. -/
def firstLine? (index : IntervalIndex) (pid : Pid) : Option Nat :=
  (index.first? pid).map (·.low)

/-- The last line of a process. -/
def lastLine? (index : IntervalIndex) (pid : Pid) : Option Nat :=
  (index.processes.get? pid).map (·.lastLine)

end IntervalIndex

end DemandPaging
