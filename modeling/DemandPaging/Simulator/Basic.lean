import DemandPaging.Simulator.Machine

/-!
# The simulator

A `Simulator` is a machine with valid parameters and a clock. Each `step` lets time pass by one tick,
or, when nothing can run and that is asked for, until the next disk read is complete; then disk reads
that are due are completed, and the first process that can run executes one reference. `run` steps
until every process is done. It comes to an end because every step moves the clock, which has 64 bits.

A step that meets an error in the trace answers with it, and keeps what was counted before.
-/

namespace DemandPaging

/-- A simulation at some point of its run. The parameters do not change; all that a step changes
is the clock and the machine. -/
structure Simulator where
  /-- The parameters. -/
  config : ValidConfig
  /-- The time that has passed. -/
  clock : Nat := 0
  /-- What the simulation works on. -/
  machine : Machine

namespace Simulator

/-- A simulation of the trace of a reader, ready to run, that counts in `stats`. The trace is
surveyed first, so that whatever is wrong with a record is found here and not in the middle of
the run. -/
def start (config : ValidConfig) (reader : TraceReader) (stats : Stats) :
    Except Fault (Except SimulationError Simulator) := do
  match ← reader.survey config.queueOrder with
  | (.error e, _) => return .error e
  | (.ok { index, processes, records }, reader) =>
    let frames ← FrameTable.ofSize config.totalFrames
    let policy ← Policy.build config.policy config.totalFrames config.seed
    let machine : Machine := { frames, processes, policy, index, reader, stats }
    let machine := machine.note (.surveyed records processes.size)
    let machine := machine.note
      (.started config.policy config.totalFrames config.pageSize processes.size records)
    return .ok { config, machine }

/-- A simulation with the given parameters, once they are found valid. Unless they are given,
the statistics are empty ones over the frames of the memory. Parameters are looked at before the
trace. -/
def ofConfig (config : Config) (reader : TraceReader) (stats? : Option Stats) :
    Except Fault (Except SimulationError Simulator) :=
  match config.validate with
  | .error e => .ok (.error (.config e))
  | .ok config => start config reader (stats?.getD { totalFrames := config.totalFrames })

/-- The number of ticks that have passed. The clock counts in units of time, of which a tick
takes several; it always stands at the end of a tick. -/
def ticks (s : Simulator) : Nat := s.clock / s.config.clockTick

/-- Whether every process is done. Since each process is in one queue, it is enough that the
other two are empty. -/
def isFinished (s : Simulator) : Bool :=
  (s.machine.processes.queue .runnable).isEmpty && (s.machine.processes.queue .blocked).isEmpty

/-- The report on the time that has passed. -/
def report (s : Simulator) : Except Fault Report := s.machine.stats.report s.ticks

/-- How much time the next step takes: one tick, or with nothing to run and a fast pace the time
until a disk read is complete. It is never less than a tick, so that no step stands still. -/
def elapsed (s : Simulator) : Nat :=
  let tick := s.config.clockTick
  match s.machine.processes.nextCompletion? with
  | some wait => if !s.machine.canRun && s.config.fastForward then max wait tick else tick
  | none => tick

/-- The statistics with the ticks that have elapsed. While time is passed over no frame changes
hands and nothing can run, so that one sample stands for all of its ticks. -/
def sample (s : Simulator) (elapsed : Nat) : Except Fault Stats :=
  let m := s.machine
  if elapsed = s.config.clockTick then m.stats.noteTick m.frames.allocated m.canRun
  else m.stats.noteTicks m.frames.allocated m.canRun (elapsed / s.config.clockTick)

/-- Lets time pass, for the clock, the statistics and the processes that wait. The sample is
taken of the machine as it is at the start of the tick. -/
def passTime (s : Simulator) : Except Fault Simulator := do
  let elapsed := s.elapsed
  let clock ← Fault.fit 64 (s.clock + elapsed)
  let stats ← s.sample elapsed
  let processes := s.machine.processes.passTime elapsed
  return { s with clock, machine := { s.machine with stats, processes } }

/-- Completes the disk reads that are due, one process after the other. Each takes a frame and
may evict a page for it, so the order shows in the memory. -/
def completeReads (s : Simulator) : Except Fault Simulator := do
  let machine ← s.machine.processes.completed.foldlM (Machine.completeRead s.clock) s.machine
  return { s with machine }

/-- Makes one step, and tells whether there was one to make. A finished simulation is left as it
is; an error in the trace is answered with what the step did up to there. -/
def step (s : Simulator) : Except Fault (Except SimulationError Bool × Simulator) := do
  if s.isFinished then return (.ok false, s)
  -- The tick is counted with the frames and the queues as they stand before any read is completed.
  let s ← s.passTime
  let s ← s.completeReads
  match s.machine.processes.head? .runnable with
  | none => return (.ok true, s)
  | some pid =>
    let (outcome, machine) ← s.machine.runReference s.clock s.config.diskPenalty pid
    return (outcome.map fun () => true, { s with machine })

/-! ### Running to the end -/

theorem elapsed_pos (s : Simulator) : 0 < s.elapsed := by
  have := s.config.clockTick_pos
  unfold elapsed
  grind

theorem clock_of_passTime {s t : Simulator} (h : s.passTime = .ok t) :
    t.clock = s.clock + s.elapsed ∧ t.clock < 2 ^ 64 := by
  simp only [passTime, Fault.bind_eq_ok_iff, Fault.fit_eq_ok_iff, Fault.pure_eq_ok_iff] at h
  obtain ⟨_, ⟨hlt, rfl⟩, _, _, rfl⟩ := h
  exact ⟨rfl, hlt⟩

theorem clock_of_completeReads {s t : Simulator} (h : s.completeReads = .ok t) :
    t.clock = s.clock := by
  simp only [completeReads, Fault.bind_eq_ok_iff, Fault.pure_eq_ok_iff] at h
  obtain ⟨_, _, rfl⟩ := h
  rfl

/-- **Time moves on.** A step that was made moved the clock, within 64 bits. -/
theorem clock_lt_of_step {s t : Simulator} (h : s.step = .ok (.ok true, t)) :
    s.clock < t.clock ∧ t.clock < 2 ^ 64 := by
  unfold step at h
  split at h
  · simp at h
  · simp only [Fault.bind_eq_ok_iff] at h
    obtain ⟨s₁, h₁, s₂, h₂, h⟩ := h
    obtain ⟨hclock, hlt⟩ := clock_of_passTime h₁
    have hsame := clock_of_completeReads h₂
    have hpos := s.elapsed_pos
    have hstep : t.clock = s₂.clock := by
      split at h
      -- no process can run
      · simp only [Fault.pure_eq_ok_iff, Prod.mk.injEq] at h
        exact h.2 ▸ rfl
      -- a reference is executed, which leaves the clock alone
      · simp only [Fault.bind_eq_ok_iff, Fault.pure_eq_ok_iff, Prod.mk.injEq] at h
        obtain ⟨_, _, _, rfl⟩ := h
        rfl
    omega

/-- Runs the simulation until every process is done, and reports on it. Every step moves a clock
of 64 bits, and that is why it ends; how many steps there are is a matter of the trace. -/
def run (s : Simulator) : Except Fault (Except SimulationError Report × Simulator) :=
  match _h : s.step with
  | .error fault => .error fault
  | .ok (.error e, s) => .ok (.error e, s)
  | .ok (.ok true, s) => run s
  | .ok (.ok false, s) => do
    let report ← s.report
    let event :=
      .completed s.config.policy report.runtime report.hits report.misses report.evictions
    return (.ok report, { s with machine := s.machine.note event })
termination_by 2 ^ 64 - s.clock
decreasing_by have := clock_lt_of_step _h; omega

end Simulator

end DemandPaging
