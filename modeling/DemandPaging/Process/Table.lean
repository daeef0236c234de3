import DemandPaging.Policy.Basic
import DemandPaging.Process.Basic

/-!
# The process table

All processes, and for each state the queue of the processes in it. A process enters a queue at the
back; only the queue of runnable processes may be lined up by trace position instead, where a process
goes in front of the first one that stands further on.

Moving a process from one queue to another changes its state as well, and nothing else does.
-/

namespace DemandPaging

/-- The processes in each state, in the order of their queue. A process stands in the queue of
its state and in no other; the table sees to that. -/
structure Queues where
  /-- Those that can run; the first one does. -/
  runnable : List Pid := []
  /-- Those that wait for the disk. -/
  blocked : List Pid := []
  /-- Those that are done. -/
  finished : List Pid := []
  deriving DecidableEq, Repr

namespace Queues

/-- The queue of a state. -/
def get (q : Queues) : ProcessState → List Pid
  | .runnable => q.runnable
  | .blocked => q.blocked
  | .finished => q.finished

/-- Puts another queue in the place of one. The other two stay as they are, which is all that is
needed of it: `get_set`. -/
def set (q : Queues) (state : ProcessState) (pids : List Pid) : Queues :=
  match state with
  | .runnable => { q with runnable := pids }
  | .blocked => { q with blocked := pids }
  | .finished => { q with finished := pids }

theorem get_set {q : Queues} {state other : ProcessState} {pids : List Pid} :
    (q.set state pids).get other = if other = state then pids else q.get other := by
  cases state <;> cases other <;> rfl

end Queues

/-- All processes, under their numbers, and the queues they stand in. A state is thus kept in
two places, in the process and as its queue, and every operation that changes it writes both. -/
structure ProcessTable where
  /-- The processes, each under its number. -/
  processes : OrderedMap Process := ∅
  /-- The queues. -/
  queues : Queues := {}
  /-- How the queue of runnable processes is lined up. -/
  order : QueueOrder := .arrival
  deriving DecidableEq

namespace ProcessTable

/-- The number of processes. -/
def size (t : ProcessTable) : Nat := t.processes.size

/-- The process with a number, if there is one. -/
def get? (t : ProcessTable) (pid : Pid) : Option Process := t.processes.get? pid

/-- The process with a number; there must be one. The callers that ask for it have the number
from a queue, so that a process that is missing is a broken contract and no answer. -/
def process (t : ProcessTable) (pid : Pid) : Except Fault Process :=
  Fault.demand (t.get? pid) (.unknownProcess pid)

/-- Puts a process in the place of the one with its number. The queues stay as they are: this is
for changes that leave the state alone. -/
def put (t : ProcessTable) (p : Process) : ProcessTable :=
  { t with processes := t.processes.insert p.pid p }

/-! ### Queues -/

/-- The processes in a state, in the order of their queue. -/
def queue (t : ProcessTable) (state : ProcessState) : List Pid := t.queues.get state

/-- The first process in a state. -/
def head? (t : ProcessTable) (state : ProcessState) : Option Pid := (t.queue state).head?

/-- The offset of the next record of a process, by which the runnable queue may be lined up. An
unknown process counts as standing at the start. -/
def positionOf (t : ProcessTable) (pid : Pid) : Nat := (t.get? pid).elim 0 (·.position)

/-- Puts a process into a queue: at the back, or by position. Only the runnable queue of a table
with that order is lined up by position, and there the process goes behind all that stand no
further on than it does, so that equal positions keep their order. -/
def enqueue (t : ProcessTable) (pid : Pid) (state : ProcessState) : ProcessTable :=
  let pids := t.queue state
  let ahead :=
    if state = .runnable ∧ t.order = .tracePosition then
      pids.takeWhile (t.positionOf · ≤ t.positionOf pid)
    else pids
  { t with queues := t.queues.set state (ahead ++ pid :: pids.drop ahead.length) }

/-- Puts a process that is in no queue into a state. It is written first and lined up then, so
that its place is found by the cursor that it has now. -/
def enter (t : ProcessTable) (p : Process) (state : ProcessState) : ProcessTable :=
  (t.put { p with state }).enqueue p.pid state

/-- Adds a process, ready to run. There must be none of its number, whatever state that one is
in. -/
def insert (t : ProcessTable) (p : Process) : Except Fault ProcessTable := do
  Fault.require (t.get? p.pid).isNone (.duplicateProcess p.pid)
  return t.enter p .runnable

/-- Moves the first process in one state into another, and tells which it is. Source and target
may be the same state, as they are when the head is lined up anew. -/
def switchHead (t : ProcessTable) (source target : ProcessState) :
    Except Fault (Pid × ProcessTable) := do
  match t.queue source with
  | [] => throw (.breach (.emptyQueue source))
  | pid :: rest =>
    let p ← t.process pid
    return (pid, { t with queues := t.queues.set source rest }.enter p target)

/-- Moves a process, wherever it is queued, into a state. That it is missing from the queue of
its own state would be a table at odds with itself, and is a fault before anything is changed.
-/
def setState (t : ProcessTable) (pid : Pid) (target : ProcessState) : Except Fault ProcessTable := do
  let p ← t.process pid
  let pids := t.queue p.state
  Fault.require (pids.contains pid) (.missingFromQueue pid p.state)
  return { t with queues := t.queues.set p.state (pids.erase pid) }.enter p target

/-- Lines up the first runnable process anew after its cursor moved. Without an order by
position, or without such a process, nothing changes: a process that goes on running keeps its
place at the head. -/
def requeueHead (t : ProcessTable) : Except Fault ProcessTable := do
  if t.order = .tracePosition ∧ t.queue .runnable ≠ [] then
    return (← t.switchHead .runnable .runnable).2
  return t

/-! ### Pages -/

/-- A page of a process, if the process has it. Nothing is told apart here: the process may be
unknown or may not have met the page. -/
def page? (t : ProcessTable) (ref : PageRef) : Option Page := do
  (← t.get? ref.pid).pages.get? ref.vpn

/-- Every page of every process, in the order of their names. Pages that are not in memory are
among them, as long as their process has not ended. -/
def pages (t : ProcessTable) : List Page := t.processes.values.flatMap (·.pages.values)

/-- Changes the record of a page, if there is such a process. It is filed under its own name, so
that a frame or a mark changes and nothing else does. -/
def putPage (t : ProcessTable) (page : Page) : ProcessTable :=
  { t with
    processes := t.processes.modify page.ref.pid fun p =>
      { p with pages := p.pages.insert page.ref.vpn page } }

/-- Adds a page that its process does not have, not in memory and marked by the policy. This
happens once in the life of a page, when its process first names it. -/
def addPage (t : ProcessTable) (ref : PageRef) (policy : Policy) :
    Except Fault (Page × Policy × ProcessTable) := do
  let p ← t.process ref.pid
  Fault.require (p.pages.get? ref.vpn).isNone (.duplicatePage ref.pid ref.vpn)
  let (overhead, policy) := policy.track ref
  let page := { ref, overhead }
  return (page, policy, t.putPage page)

/-- Takes all pages away from a process, and hands them over for their frames to be given back.
The process is there after that, without pages. -/
def releasePages (t : ProcessTable) (pid : Pid) : Except Fault (List Page × ProcessTable) := do
  let p ← t.process pid
  return (p.pages.values, t.put { p with pages := ∅ })

/-! ### Waiting -/

/-- Lets time pass for all processes that wait for the disk. Several may wait at once, each for
its own page. -/
def passTime (t : ProcessTable) (elapsed : Nat) : ProcessTable :=
  { t with
    processes := t.processes.map fun p =>
      if p.state = .blocked then p.passTime elapsed else p }

/-- The time left to each process that waits for the disk, in the order of their numbers. The
queue of blocked processes has another order; `completed` goes by that one. -/
def waits (t : ProcessTable) : List (Pid × Nat) :=
  (t.processes.entries.filter (·.2.state = .blocked)).map fun (pid, p) => (pid, p.wait)

theorem mem_waits_iff {t : ProcessTable} {pid : Pid} {wait : Nat} :
    (pid, wait) ∈ t.waits ↔ ∃ p, t.get? pid = some p ∧ p.state = .blocked ∧ p.wait = wait := by
  simp only [waits, get?, ← OrderedMap.mem_entries_iff, List.mem_map, List.mem_filter]
  constructor
  · rintro ⟨⟨_, p⟩, ⟨hmem, hstate⟩, heq⟩
    cases heq
    exact ⟨p, hmem, of_decide_eq_true hstate, rfl⟩
  · rintro ⟨p, hmem, hstate, rfl⟩
    exact ⟨(pid, p), ⟨hmem, decide_eq_true hstate⟩, rfl⟩

/-- The time until the next disk read is complete, if there is one. When nothing can run, it is
how far the clock may be moved at once. -/
def nextCompletion? (t : ProcessTable) : Option Nat := (t.waits.map (·.2)).min?

/-- The processes whose disk read is complete, in the order of their queue. They come back in
the order in which they began to wait, however the numbers lie. -/
def completed (t : ProcessTable) : List Pid :=
  let due := t.waits.filter (·.2 = 0)
  t.queues.blocked.filter fun pid => due.any (·.1 = pid)

end ProcessTable

end DemandPaging
