import DemandPaging.Policy.PagedMemory
import DemandPaging.Simulator.Event
import DemandPaging.Stats.Basic
import DemandPaging.Survey

/-!
# The machine

A `Machine` is all that changes in a simulation but the time: the memory, the processes, the policy,
the place in the trace, the totals, and the journal of events. What it does at a time, `now`, is here
in three parts: a disk read is completed (`completeRead`), a process executes its next reference
(`runReference`), and a process ends (`retire`).
-/

namespace DemandPaging

/-- What a simulation works on. Frames, processes and policy each keep a record of which pages
are in memory, and the operations below change all that are concerned. -/
structure Machine where
  /-- The memory. -/
  frames : FrameTable
  /-- The processes with their pages. -/
  processes : ProcessTable
  /-- The policy. -/
  policy : Policy
  /-- The lines of each process. -/
  index : IntervalIndex
  /-- The trace. -/
  reader : TraceReader
  /-- The totals. -/
  stats : Stats
  /-- The process that had its turn last. -/
  lastRunning? : Option Pid := none
  /-- What happened, the latest first. -/
  journal : List Event := []

namespace Machine

/-- Enters an event into the journal. -/
def note (m : Machine) (event : Event) : Machine := { m with journal := event :: m.journal }

/-- The machine with a change to the medium that its trace is on. Nothing else knows the bytes,
so this is how a trace goes bad under a simulation. -/
def mapMedium (m : Machine) (f : Medium → Medium) : Machine :=
  { m with reader := { m.reader with medium := f m.reader.medium } }

/-- Whether a process can run. -/
def canRun (m : Machine) : Bool := !(m.processes.queue .runnable).isEmpty

/-! ### The end of a process -/

/-- Drops a page of a process that ended. The policy hears of it first, while the page still
names its frame; then the frame is given back. -/
def dropPage (m : Machine) (page : Page) : Except Fault Machine := do
  let m := { m with policy := ← m.policy.forget page }
  match page.frame? with
  | some frame => return { m with frames := (← m.frames.evict frame page).1 }
  | none => return m

/-- Ends a process and drops its pages. Pages that are not in memory are dropped as well, since
the policy may keep a slot for them. -/
def retire (m : Machine) (now : Nat) (pid : Pid) : Except Fault Machine := do
  let m := { m with processes := ← m.processes.setState pid .finished }
  -- How many pages were in memory is counted before they are taken away.
  let resident := (← m.processes.process pid).residentCount
  let (pages, processes) ← m.processes.releasePages pid
  let m ← pages.foldlM dropPage { m with processes }
  return m.note (.exited now pid pages.length resident)

/-! ### Completing a disk read -/

/-- Takes a page out of its frame for another one. The policy named the frame and has stopped
tracking it; what is left is to write it down in the frames, the page and the totals. -/
def evict (m : Machine) (now : Nat) (frame : FrameId) (owner : PageRef) : Except Fault Machine := do
  let page ← Fault.demand (m.processes.page? owner) (.holderUnknown frame owner)
  let (frames, page) ← m.frames.evict frame page
  let stats ← m.stats.noteEviction
  return { m with frames, processes := m.processes.putPage page, stats }.note
    (.evicted now owner frame)

/-- Makes room for a page, at the cost of another page if no frame is free. -/
def makeRoom (m : Machine) (now : Nat) : Except Fault (FrameId × Machine) := do
  let (frame, owner?, policy) ← m.policy.claim m.frames
  let m := { m with policy }
  match owner? with
  | some owner => return (frame, ← m.evict now frame owner)
  | none => return (frame, m)

/-- Puts a page that its process has into a frame, and tells the policy, which reads the frame
off the page as it is then. -/
def loadPage (m : Machine) (now : Nat) (frame : FrameId) (ref : PageRef) : Except Fault Machine := do
  let page ← Fault.demand (m.processes.page? ref) (.pendingUnknown ref)
  let (frames, page) ← m.frames.load frame page
  let policy ← m.policy.noteLoad page
  return { m with frames, processes := m.processes.putPage page, policy }.note
    (.pagedIn now ref frame)

/-- Completes the disk read of a process: the page that it waits for comes into memory, and the process
moves past the reference that it waited on. -/
def completeRead (now : Nat) (m : Machine) (pid : Pid) : Except Fault Machine := do
  let p ← m.processes.process pid
  let ref ← Fault.demand p.pending? (.nothingPending pid)
  let m := { m with processes := m.processes.put { p with pending? := none } }
  let (frame, m) ← m.makeRoom now
  let m ← m.loadPage now frame ref
  -- Loading changed the pages of this process, so it is looked up anew.
  let p ← m.processes.process pid
  let (step, p) ← p.advance m.index p.position
  let m := { m with processes := m.processes.put p }
  match step with
  | .exhausted => m.retire now pid
  | .nextLine | .nextInterval =>
    return { m with processes := ← m.processes.setState pid .runnable }

/-! ### Executing a reference -/

/-- Notes which process has its turn. The first turn of all and a turn of the same process again
are not worth an event. -/
def switchTo (m : Machine) (now : Nat) (pid : Pid) : Machine :=
  let m' := { m with lastRunning? := some pid }
  match m.lastRunning? with
  | some previous => if previous = pid then m else m'.note (.switched now previous pid)
  | none => m'

/-- Reads the next record of a process. The record that stands there must be one of that
process. Whatever goes wrong is an error of the trace, and the reader is kept as it is after
that. -/
def fetch (m : Machine) (p : Process) : Except SimulationError TraceRecord × Machine :=
  match m.index.find? p.pid p.line with
  | none => (.error (.lineOutside p.pid p.line), m)
  | some _ =>
    match m.reader.seek p.position with
    | (.error e, reader) => (.error e, { m with reader })
    | (.ok (), reader) =>
      match reader.next with
      | (.error e, reader) => (.error e, { m with reader })
      | (.ok none, reader) => (.error (.unexpectedEnd p.pid p.position), { m with reader })
      | (.ok (some record), reader) =>
        if record.pid = p.pid then (.ok record, { m with reader })
        else (.error (.pidMismatch p.pid record.pid record.offset), { m with reader })

/-- Executes a reference to a page that is in memory. The process moves on at once, and stays at
the head of its queue unless the queue is lined up by position. -/
def hit (m : Machine) (now : Nat) (page : Page) (nextOffset : Nat) : Except Fault Machine := do
  let pid := page.ref.pid
  let m := { m with policy := ← m.policy.noteAccess page, stats := ← m.stats.noteHit }
  let (step, p) ← (← m.processes.process pid).advance m.index nextOffset
  let m := { m with processes := m.processes.put p }
  match step with
  | .exhausted => m.retire now pid
  | .nextLine | .nextInterval => return { m with processes := ← m.processes.requeueHead }

/-- Executes a reference to a page that is not in memory: its process waits for the disk. The cursor
stays on the reference until the page is there. -/
def miss (m : Machine) (now diskPenalty : Nat) (page : Page) (nextOffset : Nat) :
    Except Fault Machine := do
  let stats ← m.stats.noteMiss
  let p ← m.processes.process page.ref.pid
  let p := { p with pending? := some page.ref, wait := diskPenalty, position := nextOffset }
  let (_, processes) ← (m.processes.put p).switchHead .runnable .blocked
  return { m with stats, processes }.note (.blocked now page.ref)

/-- The page that a record names, added to its process if it is new there. A new page is in no
frame, so that a first reference is always a miss. -/
def meetPage (m : Machine) (ref : PageRef) : Except Fault (Page × Machine) := do
  match m.processes.page? ref with
  | some page => return (page, m)
  | none =>
    let (page, policy, processes) ← m.processes.addPage ref m.policy
    return (page, { m with policy, processes })

/-- Executes a record that stands on a line. Whether it is a hit or a miss is decided by the
page alone, before anything else changes. -/
def execute (m : Machine) (now diskPenalty line : Nat) (record : TraceRecord) :
    Except Fault Machine := do
  let (page, m) ← m.meetPage record.page
  let m := m.note (.referenced now record.page line page.isResident)
  if page.isResident then m.hit now page record.nextOffset
  else m.miss now diskPenalty page record.nextOffset

/-- Lets a process execute its next reference. An error in the trace is found before anything is
counted, but the switch to the process is in the journal by then. -/
def runReference (m : Machine) (now diskPenalty : Nat) (pid : Pid) :
    Except Fault (Except SimulationError Unit × Machine) := do
  let m := m.switchTo now pid
  let p ← m.processes.process pid
  match m.fetch p with
  | (.error e, m) => return (.error e, m)
  | (.ok record, m) => return (.ok (), ← m.execute now diskPenalty p.line record)

end Machine

end DemandPaging
