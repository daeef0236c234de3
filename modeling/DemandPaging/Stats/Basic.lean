import DemandPaging.Stats.Report
import DemandPaging.Stats.Totals

/-!
# Statistics

`Stats` are the totals of a simulation over a memory of a known size. How several equal ticks in a row
enter the totals is a choice, `TickCounting`, that shows in nothing but the work it takes. At any time
the totals and a number of ticks make a `Report`.
-/

namespace DemandPaging

/-- How several equal ticks are counted. Both ways come to the same totals and overflow on the
same ticks; they differ in the time that the counting takes. -/
inductive TickCounting where
  /-- By one product. -/
  | atOnce
  /-- One after the other. -/
  | oneByOne
  deriving DecidableEq, Repr

/-- The totals of a simulation, with what is needed to report on them: the size of the memory,
and how ticks are counted. -/
structure Stats where
  /-- The number of frames of the memory. -/
  totalFrames : Nat
  /-- How several equal ticks are counted. -/
  counting : TickCounting := .atOnce
  /-- What has been counted. -/
  totals : Totals := {}
  deriving DecidableEq, Repr

namespace Stats

/-- Counts a hit. -/
def noteHit (s : Stats) : Except Fault Stats := do
  return { s with totals := ← s.totals.addHit }

/-- Counts a miss. -/
def noteMiss (s : Stats) : Except Fault Stats := do
  return { s with totals := ← s.totals.addMiss }

/-- Counts an eviction. -/
def noteEviction (s : Stats) : Except Fault Stats := do
  return { s with totals := ← s.totals.addEviction }

/-- Counts a tick at which `frames` frames were in use. -/
def noteTick (s : Stats) (frames : Nat) (runnable : Bool) : Except Fault Stats := do
  return { s with totals := ← s.totals.addTick frames runnable }

/-- Counts several such ticks in a row, in the way that was chosen. -/
def noteTicks (s : Stats) (frames : Nat) (runnable : Bool) (count : Nat) : Except Fault Stats := do
  let totals ← match s.counting with
    | .atOnce => s.totals.addTicks frames runnable count
    | .oneByOne => s.totals.addTickRepeatedly frames runnable count
  return { s with totals }

/-- The report after a number of ticks. Without ticks or frames the fractions are zero. The sum
of hits and misses has 64 bits like each of them, and is a fault when it does not fit. -/
def report (s : Stats) (ticks : Nat) : Except Fault Report := do
  let time := Decimal.nearest ticks
  let (memoryUse, runnableShare) :=
    if ticks = 0 ∨ s.totalFrames = 0 then (0, 0)
    else (Decimal.nearest s.totals.memoryTicks / time / Decimal.nearest s.totalFrames,
      Decimal.nearest s.totals.runnableTicks / time)
  let references ← Fault.fit 64 (s.totals.hits + s.totals.misses)
  return {
    totalFrames := s.totalFrames, memoryUse, runnableShare, references
    pageIns := s.totals.misses
    hits := s.totals.hits
    misses := s.totals.misses
    evictions := s.totals.evictions
    runtime := ticks }

end Stats

end DemandPaging
