import DemandPaging.Proofs.Completion
import DemandPaging.Proofs.Recency
import DemandPaging.Proofs.Tallies

/-!
# A process that is alone

How long a process runs that has the machine to itself can be told from its hits and misses
(`lone_run`). Each miss takes a disk read. A tick passes before the first reference, and before one that
comes after a hit; but a reference that comes after a miss is executed in the step in which the disk read
is complete, and takes no tick of its own. So the references take a tick for each hit, and one more while
the last of them is a miss. These are also the ticks at which the process could run.

`Machine.turns` says this for each state of the process, and `Paced` that the clock and the totals are
as it says. In the middle of a step, after time has passed, a process that can run is ahead by the tick
of the reference that it will execute (`Paced.wait`). One that waited has that tick from before it began
to wait, so a completed disk read changes nothing (`Paced.read`), and the reference settles it
(`Paced.refer`).
-/

namespace DemandPaging

namespace Machine

variable {chart : Chart} {m : Machine} {pid other own : Pid} {q : Process} {state : ProcessState}

/-- Whether the last reference was a hit, as a number. It is zero before the first reference,
when no tick has been passed over yet. -/
def lastHit (m : Machine) : Nat := m.references.getLast?.elim 0 (·.hit.toNat)

/-- The ticks that the references of a process take, when `owed` of them have passed for one to come.
Each hit is one. A process that waits has its next tick already, and one that is done has one more than
hits if its last reference was a miss, as that tick was never made use of. -/
def turns (owed : Nat) (m : Machine) (q : Process) : Nat :=
  match q.state with
  | .runnable => m.stats.totals.hits + owed
  | .blocked => m.stats.totals.hits + 1
  | .finished => m.stats.totals.hits + 1 - m.lastHit

/-- All that is queued is a process that is alone. -/
theorem Sound.state_of_mem_queue (h : m.Sound chart)
    (hsingle : ∀ record ∈ chart.records, record.pid = own) (hq : m.processes.bare? pid = some q)
    (hmem : other ∈ m.processes.queue state) : q.state = state := by
  obtain ⟨r, hr, hstate⟩ := h.lined.queued.1 hmem
  rw [← h.eq_of_single hsingle hq hr]
  exact hstate

/-- Whether anything can run is whether this process can. In a machine with other processes that would
take a look at the queue. -/
theorem Sound.canRun_of_single (h : m.Sound chart)
    (hsingle : ∀ record ∈ chart.records, record.pid = own) (hq : m.processes.bare? pid = some q) :
    m.canRun = decide (q.state = .runnable) := by
  rw [canRun]
  by_cases hstate : q.state = .runnable
  · have hmem := h.lined.queued.2 ⟨q, hq, hstate⟩
    rw [decide_eq_true hstate, Bool.not_eq_true', List.isEmpty_eq_false_iff_exists_mem]
    exact ⟨pid, hmem⟩
  · rw [decide_eq_false hstate, Bool.not_eq_false', List.isEmpty_iff]
    -- what can run would be a process in that state, and there is only this one
    apply List.eq_nil_iff_forall_not_mem.2
    intro other hmem
    exact hstate (h.state_of_mem_queue hsingle hq hmem)

end Machine

namespace Simulator

variable {chart : Chart} {s t : Simulator} {m : Machine} {pid own : Pid} {q q' : Process}
  {record : TraceRecord} {hit : Bool} {n owed : Nat}

/-- What a process takes that is alone. Between two steps nothing is owed to it; in the middle of a step,
when time has passed, one tick is. -/
structure Paced (owed : Nat) (s : Simulator) : Prop where
  /-- The clock shows the ticks of its references and its disk reads, but for what is left of one. -/
  clock_eq : ∀ {pid q}, s.machine.processes.bare? pid = some q → s.clock + q.wait =
    s.machine.turns owed q * s.config.clockTick + s.machine.stats.totals.misses * s.config.diskPenalty
  /-- The ticks of its references are those at which it could run. -/
  runnable_eq : ∀ {pid q}, s.machine.processes.bare? pid = some q →
    s.machine.stats.totals.runnableTicks = s.machine.turns owed q
  /-- If it waits its last reference was a miss. -/
  awaited : ∀ {pid q}, s.machine.processes.bare? pid = some q → q.state = .blocked →
    s.machine.lastHit = 0

/-- Time that passes is a tick of the next reference if the process can run, and is taken from what is
left of its disk read if it waits. -/
theorem Sound.spent_of_single (h : s.Sound chart)
    (hsingle : ∀ record ∈ chart.records, record.pid = own) (hrun : s.isFinished = false)
    (hq' : (s.waited s.elapsed).machine.processes.bare? pid = some q') :
    ∃ q, s.machine.processes.bare? pid = some q ∧ q'.state = q.state ∧
      s.elapsed + q'.wait = q.wait + s.machine.canRun.toNat * s.config.clockTick ∧
      (s.waited s.elapsed).machine.turns 1 q' = s.machine.turns 0 q + s.machine.canRun.toNat := by
  -- the process is the same as before the time passed, but for how long it waits
  obtain ⟨q, hq, heq, hwait⟩ := ProcessTable.exists_of_bare?_passTime hq'
  have hsame : q'.state = q.state := (congrArg Process.state heq :)
  have hturns : (s.waited s.elapsed).machine.turns 1 q' = s.machine.turns 1 q := by
    rw [Machine.turns, Machine.turns, hsame]
    rfl
  have hcan := h.machine.canRun_of_single hsingle hq
  refine ⟨q, hq, hsame, ?_⟩
  rw [hturns, Machine.turns, Machine.turns]
  cases hstate : q.state with
  -- a tick passes, and it is owed to the process
  | runnable =>
    have hruns : s.machine.canRun = true := by rw [hcan, hstate]; rfl
    have hpassed : (s.machine.processes.passTime s.elapsed).bare? pid = some q' := hq'
    rw [ProcessTable.bare?_passTime, hq, Option.map_some, hstate, if_neg ProcessState.noConfusion] at hpassed
    cases hpassed
    rw [elapsed_of_canRun hruns, hruns, Bool.toNat_true, Nat.one_mul, Nat.add_comm]
    exact ⟨rfl, rfl⟩
  -- the time that passes is part of the disk read, which is not over before
  | blocked =>
    have hidle : s.machine.canRun = false := by rw [hcan, hstate]; rfl
    have hle := (h.elapsed_spec hrun).2.2 hq hstate
    rw [hwait hstate, hidle, Bool.toNat_false, Nat.zero_mul]
    exact ⟨Nat.add_sub_cancel' hle, rfl⟩
  | finished =>
    -- there would be no step to make
    have hidle : s.machine.canRun = false := by rw [hcan, hstate]; rfl
    rw [isFinished_eq, hidle, Bool.and_eq_false_iff] at hrun
    obtain ⟨other, hmem⟩ := List.isEmpty_eq_false_iff_exists_mem.1 (hrun.resolve_left (by decide))
    cases hstate.symm.trans (h.machine.state_of_mem_queue hsingle hq hmem)

/-- **Time passes.** If the process can run, it is ahead by a tick. If it waits, what has passed is taken
from what is left of its disk read, so the clock and the rest of the wait add up to the same. -/
theorem Paced.wait (h : s.Paced 0) (hs : s.Sound chart)
    (hsingle : ∀ record ∈ chart.records, record.pid = own) (hrun : s.isFinished = false) :
    (s.waited s.elapsed).Paced 1 := by
  constructor
  · -- the clock and what is left of the disk read
    intro pid q' hq'
    obtain ⟨q, hq, -, hwait, hturns⟩ := hs.spent_of_single hsingle hrun hq'
    calc s.clock + s.elapsed + q'.wait
        = s.clock + q.wait + s.machine.canRun.toNat * s.config.clockTick := by
          rw [Nat.add_assoc, hwait, Nat.add_assoc]
      _ = (s.machine.turns 0 q + s.machine.canRun.toNat) * s.config.clockTick +
          s.machine.stats.totals.misses * s.config.diskPenalty := by
          rw [h.clock_eq hq, Nat.add_mul, Nat.add_right_comm]
      _ = _ := by rw [← hturns]; rfl
  · -- the totals count a tick for the process if it could run
    intro pid q' hq'
    obtain ⟨q, hq, -, -, hturns⟩ := hs.spent_of_single hsingle hrun hq'
    calc s.machine.stats.totals.runnableTicks +
          s.machine.canRun.toNat * (s.elapsed / s.config.clockTick)
        = s.machine.turns 0 q + s.machine.canRun.toNat := by
          rw [toNat_mul_ticks, h.runnable_eq hq]
      _ = _ := hturns.symm
  · -- whether it waits does not depend on the time
    intro pid q' hq' hblocked
    obtain ⟨q, hq, hstate, -, -⟩ := hs.spent_of_single hsingle hrun hq'
    exact h.awaited hq (hstate.symm.trans hblocked)

/-- **A disk read.** The process had its tick already when it began to wait. So whether it goes on or
ends now, it has taken as many ticks as before: in either case the last reference was a miss. -/
theorem Paced.read (h : s.Paced 1) (hgoing : m.Going chart s.config)
    (hsingle : ∀ record ∈ chart.records, record.pid = own)
    (hresumed : Machine.Resumed chart s.clock s.machine m pid q q') : Paced 1 { s with machine := m } := by
  have honly : ∀ {other p}, m.processes.bare? other = some p → p = q' :=
    hgoing.sound.eq_of_single hsingle hresumed.self
  -- it waited for the page of its last reference
  have hlast : m.lastHit = 0 := by
    rw [Machine.lastHit, hresumed.references_eq]
    exact h.awaited hresumed.found hresumed.blocked
  have hturns : m.turns 1 q' = s.machine.turns 1 q := by
    have hbefore : s.machine.turns 1 q = s.machine.stats.totals.hits + 1 := by
      rw [Machine.turns, hresumed.blocked]
    have hhits : m.stats.totals.hits = s.machine.stats.totals.hits := by rw [hresumed.stats_eq]
    rw [hbefore, Machine.turns, hlast, hhits]
    -- one that goes on is owed the tick, one that ends never used it
    cases hresumed.passes with
    | on => rfl
    | off => rfl
  have hmisses : m.stats.totals.misses = s.machine.stats.totals.misses := by rw [hresumed.stats_eq]
  have hrunnable : m.stats.totals.runnableTicks = s.machine.stats.totals.runnableTicks := by
    rw [hresumed.stats_eq]
  constructor
  · intro other p hp
    -- it waits no longer, and it did not before this turn, as the read was complete
    obtain rfl := honly hp
    show s.clock + p.wait = m.turns 1 p * s.config.clockTick + m.stats.totals.misses * s.config.diskPenalty
    rw [hresumed.passes.wait_eq, hturns, hmisses]
    exact h.clock_eq hresumed.found
  · intro other p hp
    obtain rfl := honly hp
    show m.stats.totals.runnableTicks = m.turns 1 p
    rw [hturns, hrunnable]
    exact h.runnable_eq hresumed.found
  · intro other p hp hblocked
    -- a process that was resumed does not wait
    obtain rfl := honly hp
    exact absurd hblocked hresumed.passes.idle.1

/-- **A reference.** It has had its tick. If it is a hit the tick is counted as its own; if it misses, a
disk read begins, and the tick is left for the reference after it. -/
theorem Paced.refer (h : s.Paced 1) (hgoing : m.Going chart s.config)
    (hpatient : s.machine.Patient s.config.diskPenalty s.clock)
    (hsingle : ∀ record ∈ chart.records, record.pid = own)
    (hreferred : Machine.Referred chart s.clock s.config.diskPenalty s.machine m pid q q' record hit) :
    Paced 0 { s with machine := m } := by
  have honly : ∀ {other p}, m.processes.bare? other = some p → p = q' :=
    hgoing.sound.eq_of_single hsingle hreferred.self
  -- the last reference is the one that was just executed
  have hlast : m.lastHit = hit.toNat := by
    rw [Machine.lastHit, hreferred.references_eq, List.getLast?_concat]
    rfl
  have hidle : q.wait = 0 := hpatient.idle hreferred.found hreferred.awake
  have hclock := h.clock_eq hreferred.found
  have hrunnable := h.runnable_eq hreferred.found
  have hbefore : s.machine.turns 1 q = s.machine.stats.totals.hits + 1 := by
    rw [Machine.turns, hreferred.runnable]
  rw [hbefore, hidle, Nat.add_zero] at hclock
  rw [hbefore] at hrunnable
  -- what the process has taken, as the reference is a hit or a miss
  have hafter : m.turns 0 q' = s.machine.stats.totals.hits + 1 ∧
      s.clock + q'.wait = (s.machine.stats.totals.hits + 1) * s.config.clockTick +
        m.stats.totals.misses * s.config.diskPenalty := by
    rcases hreferred.outcome.eq_or with ⟨rfl, hpasses, htotals⟩ | ⟨rfl, rfl, htotals⟩
    · -- one hit more, which used the tick, whether it was the last reference or not
      rw [hpasses.wait_eq, hidle, Machine.turns, hlast, htotals]
      refine ⟨?_, hclock⟩
      cases hpasses with
      | on => rfl
      | off => rfl
    · -- one miss more, and the whole of its disk read is still ahead
      rw [Machine.turns, htotals]
      refine ⟨rfl, ?_⟩
      show s.clock + s.config.diskPenalty =
        _ + (s.machine.stats.totals.misses + 1) * s.config.diskPenalty
      rw [hclock, Nat.add_one_mul s.machine.stats.totals.misses, Nat.add_assoc]
  constructor
  · intro other p hp
    obtain rfl := honly hp
    show s.clock + p.wait = m.turns 0 p * s.config.clockTick + m.stats.totals.misses * s.config.diskPenalty
    rw [hafter.1, hafter.2]
  · intro other p hp
    obtain rfl := honly hp
    show m.stats.totals.runnableTicks = m.turns 0 p
    rw [hafter.1, ← hrunnable]
    exact hreferred.outcome.counts.2.2.2.1
  · intro other p hp hblocked
    obtain rfl := honly hp
    -- only a miss makes it wait
    rcases hreferred.outcome.eq_or with ⟨rfl, hpasses, -⟩ | ⟨rfl, -, -⟩
    · exact absurd hblocked hpasses.idle.1
    · exact hlast

/-- If the process cannot run, no tick has passed for a reference to come, so it makes no difference
whether one is said to be owed. -/
theorem Paced.idle (h : s.Paced 1) (hs : s.machine.Sound chart)
    (hnone : s.machine.processes.head? .runnable = none) : s.Paced 0 := by
  have hturns : ∀ {pid q}, s.machine.processes.bare? pid = some q →
      s.machine.turns 1 q = s.machine.turns 0 q := by
    intro pid q hq
    rw [Machine.turns, Machine.turns]
    cases hstate : q.state with
    -- the head of the queue would be this process
    | runnable =>
      have hmem := hs.lined.queued.2 ⟨q, hq, hstate⟩
      rw [ProcessTable.head?, List.head?_eq_none_iff] at hnone
      rw [hnone] at hmem
      cases hmem
    | blocked => rfl
    | finished => rfl
  constructor
  · intro pid q hq
    rw [← hturns hq]
    exact h.clock_eq hq
  · intro pid q hq
    rw [← hturns hq]
    exact h.runnable_eq hq
  · exact h.awaited

/-- **The rest of a step.** A disk read that is due and a reference, each if there is one. The tick that
was owed when the time had passed is settled by the reference, or was never owed. -/
theorem Settled.paced (h : Settled chart s t m) (hs : s.Underway chart)
    (hpatient : s.machine.Patient s.config.diskPenalty s.clock)
    (hsingle : ∀ record ∈ chart.records, record.pid = own) (hpaced : s.Paced 1) : t.Paced 0 := by
  obtain ⟨hm, hwaits⟩ : Paced 1 { s with machine := m } ∧ m.Patient s.config.diskPenalty s.clock := by
    -- no read was due, or that of the process was
    rcases h.read with rfl | ⟨pid, rest, q, q', hqueue, hzero, hresumed⟩
    · exact ⟨hpaced, hpatient⟩
    · obtain ⟨ref, -, -, hpatient'⟩ := hpatient.resume hs.machine.lined hqueue hzero hresumed
      exact ⟨hpaced.read h.going hsingle hresumed, hpatient'⟩
  -- nothing can run after that, or the process can
  rcases h.turn with ⟨hnone, rfl⟩ | ⟨pid, m', q, q', record, hit, -, hreferred, hgoing, rfl⟩
  · exact hm.idle h.going.sound hnone
  · exact hm.refer hgoing hwaits hsingle hreferred

/-- **A step.** Time passes first, which leaves a tick owed, and then the rest of the step settles it. -/
theorem Sound.paced_step (h : s.Sound chart)
    (hs : s.machine.Patient s.config.diskPenalty s.clock)
    (hsingle : ∀ record ∈ chart.records, record.pid = own) (hpaced : s.Paced 0)
    (hstep : s.step = .ok (.ok true, t)) : t.Paced 0 := by
  obtain ⟨hrun, -, hunder, hpatient, m, hsettled⟩ := h.settled_of_step hs hstep
  exact hsettled.paced hunder hpatient hsingle (hpaced.wait h hsingle hrun)

/-- All that a simulation reaches with a process that is alone is as `Paced` says. The induction is on
the steps; that waits are kept in line is carried along, since the step lemma asks for it. -/
theorem Sound.paced_of_reaches (h : s.Sound chart)
    (hs : s.machine.Patient s.config.diskPenalty s.clock)
    (hsingle : ∀ record ∈ chart.records, record.pid = own) (hpaced : s.Paced 0)
    (hreaches : s.Reaches n t) : t.Paced 0 := by
  refine h.kept hs (fun ht hpatient hpaced hstep => ?_) hpaced hreaches
  exact ht.paced_step hpatient hsingle hpaced hstep

/-- At the start nothing has been spent. -/
theorem paced_of_start {config : ValidConfig} {reader after : TraceReader} {stats : Stats}
    {survey : Survey} (hreach : reader.medium.bytes.size ≤ reader.medium.maxOffset)
    (hfresh : stats.totals = {})
    (hsurvey : reader.survey config.queueOrder = .ok (.ok survey, after))
    (hstart : start config reader stats = .ok (.ok s)) : s.Paced 0 := by
  have hnew := fresh_of_start hreach hfresh hsurvey hstart
  have hpatient := patient_of_start hfresh hsurvey hstart
  have hclock := clock_of_start hsurvey hstart
  have hturns : ∀ {pid q}, s.machine.processes.bare? pid = some q → s.machine.turns 0 q = 0 := by
    intro pid q hq
    rw [Machine.turns, hnew.ready hq, hnew.totals_eq]
  constructor
  · intro pid q hq
    have hidle : q.wait = 0 := hpatient.idle hq (by rw [hnew.ready hq]; exact ProcessState.noConfusion)
    rw [hclock, hidle, hturns hq, hnew.totals_eq]
    simp only [Nat.zero_mul, Nat.add_zero]
  · intro pid q hq
    rw [hturns hq, hnew.totals_eq]
  · intro pid q hq hblocked
    cases (hnew.ready hq).symm.trans hblocked

/-- **When the process is done**, its turns and its disk reads are all the time that there was.
Nothing waits any more, so the time left is zero, and the clock is divided by the tick. -/
theorem Paced.closed {last : Reference} (h : s.Paced 0)
    (hs : s.machine.Patient s.config.diskPenalty s.clock)
    (hq : s.machine.processes.bare? pid = some q) (hfinished : q.state = .finished)
    (hlast : s.machine.references.getLast? = some last) :
    s.ticks = 1 + s.machine.stats.totals.misses * (s.config.diskPenalty / s.config.clockTick) +
        s.machine.stats.totals.hits - last.hit.toNat ∧
      s.machine.stats.totals.runnableTicks = 1 + s.machine.stats.totals.hits - last.hit.toNat := by
  have hle := Bool.toNat_le last.hit
  have hturns : s.machine.turns 0 q = s.machine.stats.totals.hits + 1 - last.hit.toNat := by
    rw [Machine.turns, hfinished, Machine.lastHit, hlast]
    rfl
  have hticks : s.ticks = s.machine.turns 0 q +
      s.machine.stats.totals.misses * (s.config.diskPenalty / s.config.clockTick) := by
    have hidle : q.wait = 0 := hs.idle hq (by rw [hfinished]; exact ProcessState.noConfusion)
    have hclock := h.clock_eq hq
    obtain ⟨ratio, hratio⟩ := s.config.clockTick_dvd_diskPenalty
    rw [hidle, Nat.add_zero, hratio, Nat.mul_left_comm, Nat.mul_comm (s.machine.turns 0 q),
      ← Nat.mul_add] at hclock
    rw [ticks, hclock, hratio, Nat.mul_div_cancel_left _ s.config.clockTick_pos,
      Nat.mul_div_cancel_left _ s.config.clockTick_pos]
  have hrunnable := h.runnable_eq hq
  rw [hturns] at hticks hrunnable
  exact ⟨by omega, by omega⟩

/-! ### The end -/

/-- When everything is done all records were executed, one after the other. -/
theorem Sound.executed_of_single (h : s.Sound chart)
    (hsingle : ∀ record ∈ chart.records, record.pid = own) (hfinished : s.isFinished = true) :
    s.machine.executed = Survey.references chart.records := by
  apply (h.replays.executed_prefix_of_single hsingle).eq_of_length
  rw [Survey.length_references]
  exact h.replays.length_eq h.machine.lined h.machine.stands (h.finished hfinished)

/-- If there are records there was a last reference then, and a process that is done. All
records have been executed, and the process is that of any of them. -/
theorem Sound.exists_last (h : s.Sound chart)
    (hsingle : ∀ record ∈ chart.records, record.pid = own) (hne : chart.records ≠ [])
    (hfinished : s.isFinished = true) :
    ∃ last pid q, s.machine.references.getLast? = some last ∧
      s.machine.processes.bare? pid = some q ∧ q.state = .finished := by
  have hpos : 0 < chart.records.length := List.length_pos_iff.2 hne
  have hreferred : s.machine.references ≠ [] := by
    intro hnil
    have hlength := congrArg List.length (h.executed_of_single hsingle hfinished)
    rw [Machine.executed, hnil, Survey.length_references] at hlength
    exact absurd hlength.symm (Nat.ne_of_gt hpos)
  have hfirst : chart.record? 1 = some chart.records[0] := List.getElem?_eq_getElem hpos
  obtain ⟨q, hq⟩ := h.replays.present hfirst
  exact ⟨_, _, q, List.getLast?_eq_some_getLast hreferred, hq, h.finished hfinished hq⟩

/-- **A process that is alone.** On a trace of one process a run that the clock can count executes all
records, one after the other. It takes a disk read for each miss, a tick for each hit, and one tick more
if the last record is a miss; but for the disk reads this is the time in which the process could run. -/
theorem lone_run {config : ValidConfig} {reader after : TraceReader} {stats : Stats} {survey : Survey}
    {records : List TraceRecord} (hreach : reader.medium.bytes.size ≤ reader.medium.maxOffset)
    (hfresh : stats.totals = {})
    (hsurvey : reader.survey config.queueOrder = .ok (.ok survey, after))
    (hrecords : reader.rewind.2.records.1 = .ok records)
    (hsingle : ∀ record ∈ records, record.pid = own) :
    ∃ s, start config reader stats = .ok (.ok s) ∧
      (s.run ≠ .error .overflow → ∃ report t last, s.run = .ok (.ok report, t) ∧
        t.machine.executed = Survey.references records ∧
        t.machine.references.getLast? = some last ∧
        report.hits = t.machine.references.countP (·.hit) ∧
        report.misses = t.machine.references.countP (!·.hit) ∧
        report.runtime = 1 + report.misses * (config.diskPenalty / config.clockTick) + report.hits -
          last.hit.toNat ∧
        t.machine.stats.totals.runnableTicks = 1 + report.hits - last.hit.toNat) := by
  obtain ⟨s, chart, hstart, rfl, hsound, hrecords', -⟩ := start_eq_ok hreach hfresh hsurvey
  cases hrecords.symm.trans hrecords'
  have hpatient := patient_of_start hfresh hsurvey hstart
  have hpaced := paced_of_start hreach hfresh hsurvey hstart
  refine ⟨s, hstart, fun hclock => ?_⟩
  obtain ⟨n, t, report, hreaches, hfinished, hreport, hrun⟩ := hsound.exists_run hclock
  obtain ⟨hsound', hconfig⟩ := hsound.of_reaches hreaches
  have hpatient' := hsound.patient_of_reaches hpatient hreaches
  have hpaced' := hsound.paced_of_reaches hpatient hsingle hpaced hreaches
  obtain ⟨chart', -, hne, hrecords', -⟩ := TraceReader.survey_eq_ok hreach hsurvey
  rw [Except.ok.inj (hrecords'.symm.trans hrecords)] at hne
  obtain ⟨last, pid, q, hlast, hq, hdone⟩ := hsound'.exists_last hsingle hne hfinished
  obtain ⟨hticks, hrunnable⟩ := hpaced'.closed hpatient' hq hdone hlast
  obtain ⟨hhits, hmisses⟩ := report_counts hreport
  refine ⟨report, _, last, hrun, ?_⟩
  rw [Machine.executed, references_completed, report_runtime hreport, hhits, hmisses, hticks, ← hconfig]
  exact ⟨hsound'.executed_of_single hsingle hfinished, hlast, hsound'.replays.hits_eq,
    hsound'.replays.misses_eq, rfl, hrunnable⟩

theorem lone_run_of_returns : ∃ survey after records,
    returns.survey paired.queueOrder = .ok (.ok survey, after) ∧
      returns.rewind.2.records.1 = .ok records ∧ (∀ record ∈ records, record.pid = 1) ∧
      ∃ s, start paired returns { totalFrames := 2 } = .ok (.ok s) ∧ s.run ≠ .error .overflow ∧
        ∃ report t last, s.run = .ok (.ok report, t) ∧
          t.machine.executed = Survey.references records ∧
          t.machine.references.getLast? = some last ∧
          report.hits = t.machine.references.countP (·.hit) ∧
          report.misses = t.machine.references.countP (!·.hit) ∧
          report.runtime = 1 + report.misses * (paired.diskPenalty / paired.clockTick) + report.hits -
            last.hit.toNat ∧
          t.machine.stats.totals.runnableTicks = 1 + report.hits - last.hit.toNat := by
  obtain ⟨survey, after, hsurvey, hbudget⟩ := exists_survey returns paired.queueOrder
    (fun survey => survey.records * (paired.clockTick + paired.diskPenalty) < 2 ^ 64) (by decide +kernel)
  obtain ⟨records, hrecords, hsingle⟩ := exists_single_records returns 1 (by decide +kernel)
  obtain ⟨s, hstart, hrun⟩ := @lone_run 1 paired returns after { totalFrames := 2 } survey records
    (by decide) rfl hsurvey hrecords hsingle
  have hclock := run_ne_overflow (by decide) rfl hsurvey (of_decide_eq_true hbudget) hstart
  exact ⟨survey, after, records, hsurvey, hrecords, hsingle, s, hstart, hclock, hrun hclock⟩

end Simulator

end DemandPaging
