import DemandPaging.CommandLine.Options
import DemandPaging.Simulator.Basic

/-!
# What the command does

The command prints its parameters, simulates the trace under each policy that was asked for, and prints
a report after each. The first failure ends it, with an account of the chain of causes: the context
first, then the error, then what the error passes on.

All this is a function of the options and of what the trace file turned out to be; `Outcome` is what is
left to print.
-/

namespace DemandPaging.CommandLine

/-- What the command leaves behind. -/
structure Outcome where
  /-- Its exit code. -/
  exitCode : UInt8 := 0
  /-- What it prints. -/
  output : String := ""
  /-- What it prints about failures. -/
  errors : String := ""
  /-- What happened in the simulations. -/
  events : List Event := []

/-! ### Failures -/

/-- A failure, and the causes that lie behind it, each behind the one before. -/
structure Failure where
  /-- What failed. -/
  context : String
  /-- Why. -/
  causes : List String

namespace Failure

/-- A failure that an error in the input caused. -/
def ofError (context : String) (outer : List String) (e : SimulationError) : Failure where
  context := context
  causes := outer ++ e.message :: e.source?.toList

/-- A cause on lines of its own: the first with a label, the others set in by as much or more. -/
def labelled (label margin cause : String) : String :=
  label ++ s!"\n{margin}".intercalate (cause.splitOn "\n") ++ "\n"

/-- The cause with a number. -/
def numbered (number : Nat) (cause : String) : String :=
  let digits := toString number
  let blanks := String.ofList (.replicate (5 - digits.length) ' ')
  labelled s!"{blanks}{digits}: " "       " cause

/-- The account of a failure. Several causes are numbered, from zero. -/
def text (f : Failure) : String :=
  let causes := match f.causes with
    | [] => ""
    | [cause] => "\nCaused by:\n" ++ labelled "    " "    " cause
    | causes => "\nCaused by:\n" ++ "".intercalate (causes.mapIdx numbered)
  s!"Error: {f.context}\n{causes}"

end Failure

/-! ### Simulations -/

/-- The parameters that options ask for, under the first of their policies. -/
def Options.config (o : Options) : Except Failure ValidConfig :=
  match Config.ofMegabytes o.memory o.pageSize with
  | .error e => .error ⟨"invalid memory size", [e.message]⟩
  | .ok config =>
    match Config.validate { config with seed := o.seed, queueOrder := o.queueOrder } with
    | .error e => .error ⟨"invalid simulation parameters", [e.message]⟩
    | .ok config => .ok config

/-- The same parameters with another policy. -/
def withPolicy (config : ValidConfig) (policy : PolicyKind) : ValidConfig :=
  { config with policy, valid := config.valid }

/-- The size of a memory, in megabytes if it is a whole number of them. -/
def memoryText (memoryBytes : Nat) : String :=
  if memoryBytes % Config.bytesPerMegabyte = 0 then
    s!"{memoryBytes / Config.bytesPerMegabyte} MB"
  else s!"{memoryBytes} B"

/-- The parameters as they are printed. -/
def parametersText (file : String) (config : ValidConfig) : String :=
  "".intercalate [
    " PARAMETERS \n",
    s!"  {file}\n",
    s!"  page size: {config.pageSize} B\n",
    s!"  memory size: {memoryText config.memoryBytes}\n",
    s!"  = {config.totalFrames} pages\n"]

/-- A report under the name of its policy. -/
def reportText (policy : PolicyKind) (report : Report) : String :=
  s!"\n {policy.name.toUpper} \n{report.text}\n"

/-- Simulates a trace under one policy, and adds to what the command left so far. -/
def simulate (config : ValidConfig) (file : String) (trace : Except MediumError Medium)
    (before : Outcome) (policy : PolicyKind) : Except Outcome Outcome :=
  let context := s!"{policy} simulation of {file} failed"
  let config := withPolicy config policy
  let fail (outer : List String) (e : SimulationError) (events : List Event) : Outcome :=
    { before with
      exitCode := 1
      errors := (Failure.ofError context outer e).text
      events := before.events ++ events }
  let broken : Outcome := { before with exitCode := 101, errors := s!"{context}\n" }
  match trace with
  | .error e => .error (fail [s!"could not open trace file {file}"] (.medium e) [])
  | .ok medium =>
    match Simulator.start config { medium } { totalFrames := config.totalFrames } with
    | .error _ => .error broken
    | .ok (.error e) => .error (fail [] e [])
    | .ok (.ok simulator) =>
      match simulator.run with
      | .error _ => .error broken
      | .ok (.error e, simulator) => .error (fail [] e simulator.machine.journal.reverse)
      | .ok (.ok report, simulator) =>
        .ok { before with
          output := before.output ++ reportText policy report
          events := before.events ++ simulator.machine.journal.reverse }

/-- Runs the simulations that options ask for, one after the other. -/
def runSimulations (o : Options) (trace : Except MediumError Medium) : Outcome :=
  match o.config with
  | .error failure => { exitCode := 1, errors := failure.text }
  | .ok config =>
    let start : Outcome := { output := parametersText o.file config }
    match o.policies.foldlM (simulate config o.file trace) start with
    | .ok outcome => outcome
    | .error outcome => outcome

/-! ### The command -/

/-- The name and version of the command. -/
def versionText : String := "pfsim 0.1.0\n"

/-- How the command is used. -/
def helpText : String :=
  "\n".intercalate [
    "Replay a page reference trace against a demand-paged memory",
    "",
    "Usage: pfsim [OPTIONS] <TRACE_FILE>",
    "",
    "Options:",
    "  -m, --memory <MEMORY_MB>   physical memory size in MB",
    "  -p, --page-size <BYTES>    page size in bytes, a power of two",
    "      --policy <POLICY>      lru, fifo, clock or random",
    "      --seed <SEED>          seed for the random policy",
    "      --queue-order <ORDER>  arrival or position",
    "      --all                  run every policy over the trace",
    "  -v, --verbose              log faults, page-ins and evictions",
    "  -h, --help                 print this text",
    "  -V, --version              print the version",
    ""]

/-- What the command leaves behind for what it was asked; `trace` opens a trace file. -/
def respond (trace : String → Except MediumError Medium) :
    Except UsageError Request → Outcome
  | .error e => { exitCode := 2, errors := s!"error: {e.message}\n" }
  | .ok .version => { output := versionText }
  | .ok .help => { output := helpText }
  | .ok (.simulate options) => runSimulations options (trace options.file)

end DemandPaging.CommandLine
