import DemandPaging.Proofs.Queues
import DemandPaging.Proofs.Reading
import DemandPaging.Proofs.Runs

/-!
# The cursor of a process

A `Chart` is a trace with what the survey knows of it: a medium that holds some records, and an
ordered index whose intervals have just the lines of their processes. On a chart the cursor of a
process has a meaning. It is `Placed` when its line lies in its interval, and moving it past the record
on its line leads to the next record of the process, with none of the process in between
(`Process.Follows`), or shows that there is none (`Process.AtEnd`); `advance_eq_ok`.

`Process.Stands` adds what the state of the process says of its place: a runnable process can read the
record on its line, a blocked one waits for the page of that record, a finished one is at its end.
-/

namespace DemandPaging

/-- A trace and what the survey knows of it. The last three clauses tie the index to the records
in both directions: an interval has lines of its process only, and each line of the trace is in
one. -/
structure Chart where
  /-- Where the bytes of the trace are. -/
  medium : Medium
  /-- The records of the trace. -/
  records : List TraceRecord
  /-- The lines of each process. -/
  index : IntervalIndex
  /-- Each place in the trace can be returned to. -/
  steady : medium.Steady
  /-- The records are those of the medium. -/
  holds : medium.Holds 0 records
  /-- The intervals of a process are disjoint. -/
  ordered : index.Ordered
  /-- The lines of an interval are lines of its process. -/
  owned : ∀ {i line}, i ∈ index → line ∈ i →
    ∃ record, Survey.record? records line = some record ∧ record.pid = i.pid
  /-- An interval starts where its first record stands. -/
  starts : ∀ {i record}, i ∈ index → Survey.record? records i.low = some record →
    i.offset = record.offset
  /-- Each line is in an interval of its process. -/
  covered : ∀ {line record}, Survey.record? records line = some record →
    ∃ i ∈ index, i.pid = record.pid ∧ line ∈ i

namespace Chart

variable (chart : Chart) {i : Interval} {line : Nat} {record follower : TraceRecord}

/-- The record on a line. Lines are numbered from one, so there is none on line zero, and none
past the end. -/
def record? (line : Nat) : Option TraceRecord := Survey.record? chart.records line

variable {chart}

theorem reads_offset (h : chart.record? line = some record) :
    chart.medium.Reads record.offset record := by
  cases line with
  | zero => cases h
  | succ line => exact chart.holds.reads_offset h

theorem reads_nextOffset (h : chart.record? line = some record)
    (hfollower : chart.record? (line + 1) = some follower) :
    chart.medium.Reads record.nextOffset follower := by
  cases line with
  | zero => cases h
  | succ line => exact chart.holds.reads_nextOffset h hfollower

/-- The first record of an interval is read from where the interval starts. -/
theorem reads_low (hi : i ∈ chart.index) :
    ∃ record, chart.record? i.low = some record ∧ record.pid = i.pid ∧
      chart.medium.Reads i.offset record := by
  obtain ⟨record, hrecord, hpid⟩ := chart.owned hi i.low_mem
  refine ⟨record, hrecord, hpid, ?_⟩
  rw [chart.starts hi hrecord]
  exact reads_offset hrecord

end Chart

namespace Process

variable {chart : Chart} {p p' : Process} {record : TraceRecord}

/-- The line of a process lies in its interval. The process has a copy of the interval, so it
must be said that the index has the same one. -/
structure Placed (chart : Chart) (p : Process) : Prop where
  /-- The interval is one of the index. -/
  interval_mem : p.interval ∈ chart.index
  /-- It belongs to the process. -/
  owner : p.interval.pid = p.pid
  /-- It holds the line. -/
  line_mem : p.line ∈ p.interval

/-- A process with the cursor on its next line. Nothing about intervals is left in it but where
the position comes from: what is said of the lines is said of the records. -/
structure Follows (chart : Chart) (p p' : Process) : Prop where
  /-- Only the cursor moved. -/
  cursor : p' = { p with line := p'.line, interval := p'.interval, position := p'.position }
  /-- It is placed again. -/
  placed : p'.Placed chart
  /-- It went on. -/
  later : p.line < p'.line
  /-- It stands behind the record on its line, or where the next interval starts. -/
  position_eq : ∀ {record}, chart.record? p.line = some record →
    p'.position = if p.line < p.interval.high then record.nextOffset else p'.interval.offset
  /-- The record there can be read. -/
  reads : ∃ record, chart.record? p'.line = some record ∧ chart.medium.Reads p'.position record
  /-- No line of the process was passed over. -/
  nearest : ∀ {line record}, chart.record? line = some record → record.pid = p.pid →
    p.line < line → p'.line ≤ line

/-- The process has no later line. The cursor finds this out from the index; the last clause
says that it is so in the trace. -/
structure AtEnd (chart : Chart) (p : Process) : Prop where
  /-- No interval follows. -/
  next_eq : chart.index.next? p.interval = none
  /-- The line is the last one of the interval. -/
  line_eq : p.line = p.interval.high
  /-- It is the last one of the process. -/
  last : ∀ {line record}, chart.record? line = some record → record.pid = p.pid → line ≤ p.line

theorem Placed.exists_record (h : p.Placed chart) :
    ∃ record, chart.record? p.line = some record ∧ record.pid = p.pid := by
  obtain ⟨record, hrecord, hpid⟩ := chart.owned h.interval_mem h.line_mem
  exact ⟨record, hrecord, hpid.trans h.owner⟩

theorem Placed.pid_of_record (h : p.Placed chart) (hrecord : chart.record? p.line = some record) :
    record.pid = p.pid := by
  obtain ⟨found, hfound, hpid⟩ := h.exists_record
  cases hrecord.symm.trans hfound
  exact hpid

/-- A later line of a process is in an interval that starts later, unless it is in the same one.
Intervals of one process do not meet, so one that reaches past the end of another starts past
it. -/
theorem Placed.interval_of_later (h : p.Placed chart) {line : Nat}
    (hrecord : chart.record? line = some record) (hpid : record.pid = p.pid)
    (hlater : p.interval.high < line) :
    ∃ i ∈ chart.index, i.pid = p.interval.pid ∧ p.interval.low < i.low ∧ i.low ≤ line := by
  -- the interval of that line is another one, since the line is too high for this one
  obtain ⟨i, hi, hipid, hline⟩ := chart.covered hrecord
  have hpid : i.pid = p.interval.pid := by rw [hipid, hpid, h.owner]
  refine ⟨i, hi, hpid, Nat.lt_of_not_le fun hle => ?_, hline.1⟩
  -- it would meet the interval of the process
  have hlow := p.interval.low_le_high
  have hmeets : i.meets p.interval = true :=
    Interval.meets_iff.2 ⟨p.interval.low, ⟨hle, by have := hline.2; omega⟩, p.interval.low_mem⟩
  obtain rfl := chart.ordered.apart hi h.interval_mem hpid hmeets
  exact absurd hline.2 (Nat.not_le_of_lt hlater)

/-- **Moving on.** Past the record on its line, a process comes to its next record, or stays where it is
because there is none. -/
theorem advance_eq_ok (h : p.Placed chart) (hrecord : chart.record? p.line = some record) :
    (∃ step p', p.advance chart.index record.nextOffset = .ok (step, p') ∧ step ≠ .exhausted ∧
      p.Follows chart p') ∨
      (p.advance chart.index record.nextOffset = .ok (.exhausted, p) ∧ p.AtEnd chart) := by
  obtain ⟨hlow, hhigh⟩ := h.line_mem
  have hpid := h.pid_of_record hrecord
  by_cases hinside : p.line < p.interval.high
  -- the next line is in the same interval, so it is one of the process
  · have hnext : p.line + 1 ∈ p.interval := ⟨Nat.le_succ_of_le hlow, hinside⟩
    obtain ⟨follower, hfollower, -⟩ := chart.owned h.interval_mem hnext
    refine .inl ⟨.nextLine, { p with line := p.line + 1, position := record.nextOffset },
      advance_of_lt hinside, ?_, ?_⟩
    · intro heq
      cases heq
    · refine ⟨rfl, ⟨h.interval_mem, h.owner, hnext⟩, Nat.lt_succ_self _, fun {found} hfound => ?_, ?_,
        fun _ _ hlt => hlt⟩
      · cases hrecord.symm.trans hfound
        exact (if_pos hinside).symm
      · exact ⟨follower, hfollower, Chart.reads_nextOffset hrecord hfollower⟩
  -- the interval ends here, and the process jumps to the next one if there is one
  · have hlast : p.line = p.interval.high := Nat.le_antisymm hhigh (Nat.le_of_not_lt hinside)
    rw [advance_of_eq hlast]
    cases hnext : chart.index.next? p.interval with
    | some j =>
      obtain ⟨hj, hjpid, hlt, hmin⟩ := IntervalIndex.next?_eq_some chart.ordered h.interval_mem hnext
      refine .inl ⟨.nextInterval, { p with interval := j, line := j.low, position := j.offset }, rfl,
        ?_, rfl, ⟨hj, hjpid.trans h.owner, j.low_mem⟩, hlast ▸ hlt, fun _ => (if_neg hinside).symm, ?_, ?_⟩
      · intro heq
        cases heq
      -- the offset of the interval is where its first record is read
      · obtain ⟨first, hfirst, -, hreads⟩ := Chart.reads_low hj
        exact ⟨first, hfirst, hreads⟩
      -- a later line would lie in an interval in between
      · intro line found hfound howner hlater
        obtain ⟨i, hi, hipid, hilow, hile⟩ := h.interval_of_later hfound howner (hlast ▸ hlater)
        exact Nat.le_trans (hmin i hi hipid hilow) hile
    | none =>
      -- and there is no later interval that it could lie in
      refine .inr ⟨rfl, hnext, hlast, fun {line found} hfound howner => ?_⟩
      refine Nat.le_of_not_lt fun hlater => ?_
      obtain ⟨i, hi, hipid, hilow, -⟩ := h.interval_of_later hfound howner (hlast ▸ hlater)
      have := IntervalIndex.next?_eq_none hnext hi hipid
      omega

/-! ### The state of a process and its place -/

/-- A process stands where its state says. A blocked process has read its record and stands
behind it, while its line is still that of the record. -/
structure Stands (chart : Chart) (p : Process) : Prop extends p.Placed chart where
  /-- A runnable process can read the record on its line. -/
  runnable : p.state = .runnable → p.pending? = none ∧
    ∃ record, chart.record? p.line = some record ∧ chart.medium.Reads p.position record
  /-- A blocked process waits for the page of that record. -/
  blocked : p.state = .blocked →
    ∃ record, chart.record? p.line = some record ∧ p.pending? = some record.page ∧
      p.position = record.nextOffset
  /-- A finished process is at its end. -/
  finished : p.state = .finished → p.pending? = none ∧ p.AtEnd chart

/-- A process that goes on with its next record. The record can be read from where the cursor
came to, which is all that is asked of a runnable process. -/
theorem Follows.stands (h : p.Follows chart p') {q : Process}
    (hq : q = { p' with state := .runnable, pending? := none, pages := q.pages }) :
    q.Stands chart where
  interval_mem := hq ▸ h.placed.interval_mem
  owner := hq ▸ h.placed.owner
  line_mem := hq ▸ h.placed.line_mem
  runnable _ := by
    rw [hq]
    exact ⟨rfl, h.reads⟩
  blocked hstate := by
    rw [hq] at hstate
    cases hstate
  finished hstate := by
    rw [hq] at hstate
    cases hstate

theorem AtEnd.stands (h : p.AtEnd chart) (hplaced : p.Placed chart) {q : Process}
    (hq : q = { p with state := .finished, pending? := none, pages := q.pages }) :
    q.Stands chart where
  interval_mem := hq ▸ hplaced.interval_mem
  owner := hq ▸ hplaced.owner
  line_mem := hq ▸ hplaced.line_mem
  runnable hstate := by
    rw [hq] at hstate
    cases hstate
  blocked hstate := by
    rw [hq] at hstate
    cases hstate
  finished _ := by
    rw [hq]
    exact ⟨rfl, h.next_eq, h.line_eq, h.last⟩

/-- A process that begins to wait for the record on its line. Its position is that of the next
line already, and nothing is read from there as long as it waits. -/
theorem Placed.stands_blocked (h : p.Placed chart) (hrecord : chart.record? p.line = some record)
    {q : Process} (hq : q = { p with
      state := .blocked, pending? := some record.page, position := record.nextOffset
      wait := q.wait, pages := q.pages }) :
    q.Stands chart where
  interval_mem := hq ▸ h.interval_mem
  owner := hq ▸ h.owner
  line_mem := hq ▸ h.line_mem
  runnable hstate := by
    rw [hq] at hstate
    cases hstate
  blocked _ := by
    rw [hq]
    exact ⟨record, hrecord, rfl, rfl⟩
  finished hstate := by
    rw [hq] at hstate
    cases hstate

end Process

end DemandPaging
