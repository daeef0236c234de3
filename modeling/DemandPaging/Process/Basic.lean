import DemandPaging.Interval.Index
import DemandPaging.Page

/-!
# Processes

A process has a cursor that walks the lines of its intervals, from the first to the last: the line,
the interval that holds it, and the offset of the record that comes next. It has the pages that it met
so far, and while it waits for the disk, the page that is read and the time left.
-/

namespace DemandPaging

/-- What became of a cursor that moved past a record. The caller goes by it: an exhausted cursor
means that the process ends, the other two that its next record is ready to be read. -/
inductive CursorStep where
  /-- It is on the next line of the same interval. -/
  | nextLine
  /-- It is on the first line of the next interval. -/
  | nextInterval
  /-- It was on the last line of the last interval, and is still there. -/
  | exhausted
  deriving DecidableEq, Repr

/-- A process: a cursor over the lines of its intervals, the pages that it met, and its wait for
the disk. `interval` is a copy of the one that the line is in, so that moving on inside it needs
no search. The pending page is there just as long as the process is blocked. -/
structure Process where
  /-- Its number. -/
  pid : Pid
  /-- What it is doing. -/
  state : ProcessState := .runnable
  /-- Its first line. -/
  firstLine : Nat
  /-- The line of its next record. -/
  line : Nat := firstLine
  /-- Its last line. -/
  lastLine : Nat
  /-- The offset of its next record. -/
  position : Nat
  /-- The interval that its line is in. -/
  interval : Interval
  /-- The time until its disk read is complete. -/
  wait : Nat := 0
  /-- The page that it waits for. -/
  pending? : Option PageRef := none
  /-- Its pages, each under its number. -/
  pages : OrderedMap Page := ∅
  deriving DecidableEq

namespace Process

/-- A process at the start of its first interval. Its last line is given apart from it, since it
lies in the last interval. -/
def start (first : Interval) (lastLine : Nat) : Process where
  pid := first.pid
  firstLine := first.low
  lastLine := lastLine
  position := first.offset
  interval := first

/-! ### The cursor -/

/-- Whether a later line is left anywhere. The last line is that of the last interval, so the
answer does not depend on the index. -/
def hasLinesInFile (p : Process) : Bool := p.line < p.lastLine

/-- Whether a later line is left in the interval. -/
def hasLinesInInterval (p : Process) : Bool := p.line < p.interval.high

/-- The number of later lines in the interval; the cursor must not be past it. A cursor beyond
the end of its interval would make the difference negative, and is a fault. -/
def linesLeft (p : Process) : Except Fault Nat :=
  if p.line ≤ p.interval.high then .ok (p.interval.high - p.line) else .error .overflow

/-- Whether the line is the last one of the interval. -/
def onLastLine (p : Process) : Bool := p.line == p.interval.high

/-- Whether another interval follows. -/
def hasIntervals (p : Process) (index : IntervalIndex) : Bool := (index.next? p.interval).isSome

/-- The process at the start of the interval that follows, if one does. Its line must be the
last one of its interval, since a jump from an earlier line would lose the lines between; the
fault says how many. -/
def jump? (p : Process) (index : IntervalIndex) : Except Fault (Option Process) := do
  if !p.onLastLine then throw (.breach (.earlyJump p.pid (← p.linesLeft)))
  return (index.next? p.interval).map fun interval =>
    { p with interval, line := interval.low, position := interval.offset }

/-- Moves the cursor past a record. The offset just past it is that of the next record if this
one is in the same interval. Otherwise the next interval says where its first record stands, and
without a next one the cursor stays. -/
def advance (p : Process) (index : IntervalIndex) (nextOffset : Nat) :
    Except Fault (CursorStep × Process) := do
  if p.hasLinesInInterval then
    return (.nextLine, { p with line := p.line + 1, position := nextOffset })
  match ← p.jump? index with
  | some p => return (.nextInterval, p)
  | none => return (.exhausted, p)

section

variable {p : Process} {index : IntervalIndex} {nextOffset : Nat}

theorem advance_of_lt (h : p.line < p.interval.high) :
    p.advance index nextOffset =
      .ok (.nextLine, { p with line := p.line + 1, position := nextOffset }) := by
  rw [advance, hasLinesInInterval, if_pos (decide_eq_true h)]
  rfl

theorem advance_of_eq (h : p.line = p.interval.high) :
    p.advance index nextOffset =
      match index.next? p.interval with
      | some interval => .ok (.nextInterval,
          { p with interval, line := interval.low, position := interval.offset })
      | none => .ok (.exhausted, p) := by
  have hinside : ¬decide (p.line < p.interval.high) = true :=
    fun hlt => Nat.ne_of_lt (of_decide_eq_true hlt) h
  have honLast : p.onLastLine = true := beq_iff_eq.2 h
  rw [advance, hasLinesInInterval, if_neg hinside, jump?, honLast]
  cases index.next? p.interval <;> rfl

end

/-! ### Pages -/

/-- The number of pages that are in memory, for the message at the end of the process. It is
counted and not kept, since it is asked for once. -/
def residentCount (p : Process) : Nat := p.pages.values.countP (·.isResident)

/-! ### Waiting -/

/-- Lets time pass for the disk. The wait stops at zero, also when more time passes than was
left of it. -/
def passTime (p : Process) (elapsed : Nat) : Process := { p with wait := p.wait - elapsed }

end Process

end DemandPaging
