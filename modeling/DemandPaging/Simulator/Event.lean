import DemandPaging.Policy.Kind
import DemandPaging.Page

/-!
# Events

What a simulation does that is worth telling, each with the time at which it happens. A simulation
keeps its events in a journal. Each event has a level, by which a reader chooses how much to be told,
and a wording.
-/

namespace DemandPaging

/-- How much is told. Each level tells all that the one before it tells. -/
inductive LogLevel where
  /-- Nothing. -/
  | off
  /-- The start and the end of the simulation and of its processes. -/
  | info
  /-- Faults, page-ins, evictions and switches between processes as well. -/
  | debug
  /-- Every reference as well. -/
  | trace
  deriving DecidableEq, Repr

namespace LogLevel

/-- The place of a level in the order from nothing to everything. -/
def rank : LogLevel → Nat
  | off => 0
  | info => 1
  | debug => 2
  | trace => 3

instance : ToString LogLevel where
  toString
    | off => "OFF"
    | info => "INFO"
    | debug => "DEBUG"
    | trace => "TRACE"

end LogLevel

/-- What a simulation did. Events are entered as they happen and are never read by the
simulation itself; the results of the library read from them which references were executed, and
when. -/
inductive Event where
  /-- The trace was surveyed. -/
  | surveyed (records processes : Nat)
  /-- The simulation is ready to run. -/
  | started (policy : PolicyKind) (frames pageSize processes references : Nat)
  /-- Another process than before has its turn. -/
  | switched (time : Nat) (source target : Pid)
  /-- A process executed the reference on a line. -/
  | referenced (time : Nat) (page : PageRef) (line : Nat) (hit : Bool)
  /-- A process began to wait for a page. -/
  | blocked (time : Nat) (page : PageRef)
  /-- A page was taken out of a frame for another one. -/
  | evicted (time : Nat) (page : PageRef) (frame : FrameId)
  /-- A page was read from disk into a frame. -/
  | pagedIn (time : Nat) (page : PageRef) (frame : FrameId)
  /-- A process ended and gave up its pages. -/
  | exited (time : Nat) (pid : Pid) (pages resident : Nat)
  /-- The simulation ended. -/
  | completed (policy : PolicyKind) (runtime hits misses evictions : Nat)
  deriving DecidableEq, Repr

namespace Event

/-- The least level at which an event is told. -/
def level : Event → LogLevel
  | surveyed .. => .debug
  | started .. => .info
  | switched .. => .debug
  | referenced .. => .trace
  | blocked .. => .debug
  | evicted .. => .debug
  | pagedIn .. => .debug
  | exited .. => .info
  | completed .. => .info

/-- Whether an event is told at a level. Nothing is told when the log is off, since no event has
that level. -/
def isToldAt (e : Event) (level : LogLevel) : Bool := e.level.rank ≤ level.rank

/-- The wording of each event. -/
def text : Event → String
  | surveyed records processes => s!"first pass: {records} records, {processes} processes"
  | started policy frames pageSize processes references =>
    s!"{policy} policy, {frames} frames of {pageSize} B, {processes} processes, " ++
      s!"{references} references"
  | switched time source target => s!"t={time} switch pid {source} -> pid {target}"
  | referenced time page line hit =>
    let outcome := if hit then "hit" else "miss"
    s!"t={time} pid {page.pid} line {line} vpn {page.vpn} {outcome}"
  | blocked time page => s!"t={time} pid {page.pid} blocked on vpn {page.vpn}"
  | evicted time page frame => s!"t={time} evict {page} from frame {frame}"
  | pagedIn time page frame => s!"t={time} page-in {page} -> frame {frame}"
  | exited time pid pages resident =>
    s!"t={time} pid {pid} finished, released {pages} pages ({resident} resident)"
  | completed policy runtime hits misses evictions =>
    s!"{policy} finished after {runtime} ticks: {hits} hits, {misses} misses, " ++
      s!"{evictions} evictions"

end Event

end DemandPaging
