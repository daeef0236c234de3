import DemandPaging.Error

/-!
# Trace records

A record is a line that holds two numerals, the number of a process and that of one of its pages, with
blanks around and between them. Process numbers are positive. `TraceRecord.parse` refuses what does
not have that form before it looks for process zero.
-/

namespace DemandPaging

/-- A reference to a page, and where it stands in the trace. The two offsets are those of the
whole line, with the blanks around the numerals and the line feed. -/
structure TraceRecord where
  /-- The page that is used. -/
  page : PageRef
  /-- The offset of the line that the record stands on. -/
  offset : Nat
  /-- The offset just past that line. -/
  nextOffset : Nat
  deriving DecidableEq, Repr

namespace TraceRecord

/-- The process that uses the page. -/
def pid (record : TraceRecord) : Pid := record.page.pid

/-- The two numbers of a text that consists of two numerals. More words or fewer, or a word that
is no numeral, and there are none. -/
def numbers? (text : List Char) : Option (Nat × Nat) :=
  match Text.words text with
  | [first, second] => do return (← Text.Numeral.read? first, ← Text.Numeral.read? second)
  | _ => none

/-- Reads the text of a record. The offset is that of the record, for the error. Whether the
process is zero is asked last, of a text that has the form of a record. -/
def parse (text : String) (offset : Nat) : Except SimulationError PageRef :=
  match numbers? text.toList with
  | none => .error (.malformedRecord offset text)
  | some (0, _) => .error (.zeroPid offset)
  | some (pid, vpn) => .ok { pid, vpn }

end TraceRecord

end DemandPaging
