/-!
# States of a process

A process waits for its turn, waits for the disk, or is done. `QueueOrder` says how those that wait
for their turn are lined up.
-/

namespace DemandPaging

/-- What a process is doing. It begins as runnable, changes to and fro between runnable and
blocked, and ends as finished for good. -/
inductive ProcessState where
  /-- Ready to execute its next reference. -/
  | runnable
  /-- Waiting for a page to be read from disk. -/
  | blocked
  /-- Past its last reference. -/
  | finished
  deriving DecidableEq, Repr

namespace ProcessState

/-- Every state, in the order in which the queues are listed. -/
def all : List ProcessState := [runnable, blocked, finished]

instance : ToString ProcessState where
  toString
    | runnable => "RUNNABLE"
    | blocked => "BLOCKED"
    | finished => "FINISHED"

theorem mem_all (s : ProcessState) : s ∈ all := by
  cases s <;> decide

end ProcessState

/-- How the queue of runnable processes is lined up. The order is a parameter of the simulation;
the other queues are first come, first served in either case. -/
inductive QueueOrder where
  /-- First come, first served. -/
  | arrival
  /-- By the place in the trace of each process's next reference, earliest first. -/
  | tracePosition
  deriving DecidableEq, Repr

end DemandPaging
