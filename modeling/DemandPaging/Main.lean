import DemandPaging.CommandLine.Directory
import DemandPaging.CommandLine.Run

/-!
# The command

Reads the arguments and the trace file, and prints what `CommandLine.respond` makes of them.
-/

namespace DemandPaging.CommandLine

/-- Why a file could not be opened or read. -/
def mediumErrorOf : IO.Error → MediumError
  | .noFileOrDirectory .. => .notFound
  | .inappropriateType _ code _ => if code = 20 then .notDirectory else .isDirectory
  | e => .other (toString e)

/-- Opens a file. A directory is opened as well, since only reading it fails. -/
def openFile (path : String) : IO (Except MediumError Medium) := do
  match ← (IO.FS.readBinFile path).toBaseIO with
  | .ok bytes => return .ok (.ofFile bytes)
  | .error e =>
    match mediumErrorOf e with
    | .isDirectory => return .ok .ofDirectory
    | other => return .error other

end DemandPaging.CommandLine

open DemandPaging.CommandLine

/-- The command. -/
def main (args : List String) : IO UInt32 := do
  let request := Request.ofArguments args
  let (trace, verbose) ← match request with
    | .ok (.simulate options) => pure (← openFile options.file, options.verbose)
    | _ => pure (.error .notFound, false)
  let outcome := respond (fun _ => trace) request
  if verbose then
    for event in outcome.events do
      if event.isToldAt .debug then IO.eprintln s!"[{event.level}] {event.text}"
  IO.print outcome.output
  IO.eprint outcome.errors
  return outcome.exitCode.toUInt32
