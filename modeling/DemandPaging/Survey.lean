import DemandPaging.Process.Table
import DemandPaging.Trace.Reader

/-!
# The survey of a trace

Before a trace is replayed it is read once from start to end. The survey finds the maximal stretches
of records of one process, its runs, enters each into the interval index, and has one process ready
for each process number, in the order in which the numbers first appear. The reader ends where it
started, at the first byte.
-/

namespace DemandPaging

/-- What is known of a trace before it is replayed. The index has the lines of each process, and
the table says where each of them begins. -/
structure Survey where
  /-- The lines of each process. -/
  index : IntervalIndex
  /-- One process for each number, at its first line. -/
  processes : ProcessTable
  /-- The number of records. -/
  records : Nat
  deriving DecidableEq

namespace Survey

/-- The runs of a trace that goes on with one more record, the latest run first. The record
makes the latest run longer, or begins another one on the line after it. -/
def addRecord (runs : List Interval) (record : TraceRecord) : List Interval :=
  match runs with
  | [] => [{ pid := record.pid, low := 1, high := 1, offset := record.offset }]
  | run :: earlier =>
    if run.pid = record.pid then
      { run with
        high := run.high + 1
        low_le_high := Nat.le_succ_of_le run.low_le_high } :: earlier
    else
      { pid := record.pid, low := run.high + 1, high := run.high + 1, offset := record.offset } ::
        run :: earlier

/-- The runs of a trace. -/
def runs (records : List TraceRecord) : List Interval :=
  (records.foldl addRecord []).reverse

/-- Enters a run into the index. Runs do not meet, so the index has no reason to refuse one. -/
def addRun (index : IntervalIndex) (run : Interval) : Except Fault IntervalIndex := do
  return (← index.insert run.pid run.low run.high run.offset).2

/-- Adds the process of a run, unless an earlier run had the same one. Since the runs come in
order, the first of a process holds its first line. -/
def addProcess (index : IntervalIndex) (table : ProcessTable) (run : Interval) :
    Except Fault ProcessTable :=
  if (table.get? run.pid).isSome then .ok table
  else table.insert (.start run ((index.lastLine? run.pid).getD run.high))

/-- What is known of a trace with the given records. The index is complete before the first
process is added, since each process is told its last line. -/
def ofRecords (records : List TraceRecord) (order : QueueOrder) : Except Fault Survey := do
  let runs := runs records
  let index ← runs.foldlM addRun ∅
  let processes ← runs.foldlM (addProcess index) { order }
  return { index, processes, records := records.length }

end Survey

/-- Surveys the trace of a reader, from its first byte whatever the reader had read of it. After
an error the reader stays where the error left it; otherwise it is at the start again. -/
def TraceReader.survey (reader : TraceReader) (order : QueueOrder) :
    Except Fault (Except SimulationError Survey × TraceReader) :=
  match reader.rewind with
  | (.error e, reader) => .ok (.error e, reader)
  | (.ok (), reader) =>
    match reader.records with
    | (.error e, reader) => .ok (.error e, reader)
    | (.ok [], reader) => .ok (.error .emptyTrace, reader)
    | (.ok records, reader) => do
      let survey ← Survey.ofRecords records order
      match reader.rewind with
      | (.error e, reader) => return (.error e, reader)
      | (.ok (), reader) => return (.ok survey, reader)

end DemandPaging
