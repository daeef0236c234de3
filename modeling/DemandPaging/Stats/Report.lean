import DemandPaging.Number

/-!
# Reports

The figures of a simulation as they are shown: memory use and the share of time in which some process
could run, as fractions with six decimal places, and the counts.
-/

namespace DemandPaging

/-- The figures of a simulation. The fractions are floating-point numbers, since that is how
they are shown; everything else is exact. -/
structure Report where
  /-- The number of frames. -/
  totalFrames : Nat := 0
  /-- The part of the frames that were in use, on average over time. -/
  memoryUse : Float
  /-- The part of the time in which some process could run. -/
  runnableShare : Float
  /-- The number of references. -/
  references : Nat
  /-- The number of pages read from disk, or still to be read. -/
  pageIns : Nat
  /-- The references to pages in memory. -/
  hits : Nat
  /-- The references to other pages. -/
  misses : Nat
  /-- The pages taken out of memory for another one. -/
  evictions : Nat
  /-- The time that the simulation took, in ticks. -/
  runtime : Nat

namespace Report

/-- The number of decimal places of a fraction. -/
def decimalPlaces : Nat := 6

/-- The report as text, without a line feed at the end. Fractions are written with six decimal
places, also when they are whole. -/
def text (r : Report) : String :=
  "\n".intercalate [
    " PERFORMANCE ",
    s!"  AMU:   {Decimal.fixed decimalPlaces r.memoryUse}",
    s!"  ARP:   {Decimal.fixed decimalPlaces r.runnableShare}",
    s!"  TMR:   {r.references}",
    s!"  TPI:   {r.pageIns}",
    s!"  RTime: {r.runtime}",
    s!"  hits {r.hits} / misses {r.misses} / evictions {r.evictions}"]

end Report

end DemandPaging
