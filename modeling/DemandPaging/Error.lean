import DemandPaging.Config
import DemandPaging.Page
import DemandPaging.Text.Basic
import DemandPaging.Trace.Medium

/-!
# Errors of a simulation

What can be wrong with the input of a simulation: its parameters, the medium of its trace, a record
of the trace, or the agreement between the trace and what the survey found in it. Such an error is an
answer, unlike a `Fault`: the simulation says what is wrong and stays where it was.
-/

namespace DemandPaging

/-- What is wrong with the input of a simulation. Those that concern a place in the trace name
it by its offset, and the process where one is concerned. -/
inductive SimulationError where
  /-- The parameters are refused. -/
  | config (cause : ConfigError)
  /-- The trace cannot be read. -/
  | medium (cause : MediumError)
  /-- A line of the trace is not a record. -/
  | malformedRecord (offset : Nat) (text : String)
  /-- A record names process zero. -/
  | zeroPid (offset : Nat)
  /-- A record belongs to another process than the one that should execute it. -/
  | pidMismatch (expected found : Pid) (offset : Nat)
  /-- The trace ends where a process should have a record. -/
  | unexpectedEnd (pid : Pid) (offset : Nat)
  /-- A process stands on a line that none of its intervals holds. -/
  | lineOutside (pid : Pid) (line : Nat)
  /-- The trace has no records. -/
  | emptyTrace
  deriving DecidableEq, Repr

namespace SimulationError

/-- The wording of each error. -/
def message : SimulationError → String
  | config cause => s!"invalid configuration: {cause.message}"
  | medium cause => s!"trace I/O error: {cause.message}"
  | malformedRecord offset text =>
    s!"malformed trace record at byte {offset}: {Text.quote text}"
  | zeroPid offset => s!"invalid pid 0 at byte {offset}"
  | pidMismatch expected found offset =>
    s!"expected a record for pid {expected} at byte {offset}, found pid {found}"
  | unexpectedEnd pid offset =>
    s!"trace ended at byte {offset} while pid {pid} still had references"
  | lineOutside pid line => s!"pid {pid} reached line {line} outside its intervals"
  | emptyTrace => "trace file contains no references"

/-- The wording of the cause that an error passes on, if it does. The message of the error has
it as well; a chain of causes shows it once more. -/
def source? : SimulationError → Option String
  | config cause => some cause.message
  | medium cause => some cause.message
  | _ => none

end SimulationError

end DemandPaging
