import DemandPaging.Proofs.Waiting
import Mathlib.Algebra.Order.Field.Rat
import Mathlib.Tactic.Positivity

/-!
# The clock and the totals

The clock shows as many ticks as were reported to the statistics (`Tallied.clock_eq`), since each step
takes a number of whole ticks: one, or as many as are left to a disk read, and these are whole as well.

The totals are bounded by what has happened. A tick at which some process could run is one at which a
reference was executed, so there are no more of them than there were references. All other time was
spent on disk reads, though several may have been waited for at once: a process that waits has a disk
read that began with a miss, and the time until it is complete is covered by the ticks at which some
process could run until it began and by a disk read for each miss since. `Accounts` has this for the
clock and for each disk read under way. It is kept when time passes, when a disk read is complete and
when a reference is executed; in the middle of a step one reference is owed if a process can run.

At no tick more frames are in use than there are, so the shares of memory and of time that a report is
made from are fractions of one (`clock_and_totals_agree`).
-/

namespace DemandPaging

/-- The share of the frames that were in use, on average over some ticks. It is the exact value
of the figure that a report shows rounded. -/
def Stats.memoryShare (stats : Stats) (ticks : Nat) : ℚ :=
  stats.totals.memoryTicks / ticks / stats.totalFrames

/-- The share of the ticks at which some process could run. It is exact as well. -/
def Stats.runnableShare (stats : Stats) (ticks : Nat) : ℚ :=
  stats.totals.runnableTicks / ticks

namespace Simulator

variable {chart : Chart} {s t u : Simulator} {m m' : Machine} {pid : Pid} {q q' : Process}
  {record : TraceRecord} {hit : Bool} {n count owed : Nat}

/-! ### Reported ticks -/

/-- The number of ticks that a step reports to the statistics: a single one, or several in a row. Between
the two there is no difference in what is added up. -/
def reported (s : Simulator) : Nat :=
  if s.elapsed = s.config.clockTick then 1 else s.elapsed / s.config.clockTick

/-- A single tick is reported as such, and several in a row with their number. -/
theorem sample_eq_reported : s.sample s.elapsed =
    if s.elapsed = s.config.clockTick then
      s.machine.stats.noteTick s.machine.frames.allocated s.machine.canRun
    else s.machine.stats.noteTicks s.machine.frames.allocated s.machine.canRun s.reported := by
  rw [sample, reported]
  split
  · rfl
  · rfl

theorem reported_eq : s.reported = s.elapsed / s.config.clockTick := by
  rw [reported]
  split
  · next heq => rw [heq, Nat.div_self s.config.clockTick_pos]
  · rfl

/-- A run of steps, with the number of ticks that were reported. A step that passes over time reports
many at once, so that this is not the number of steps. -/
inductive Tallied (s : Simulator) : Nat → Simulator → Prop where
  /-- No step was made. -/
  | start : Tallied s 0 s
  /-- One step more was made. -/
  | step {count : Nat} {t u : Simulator} (h : Tallied s count t)
    (hstep : t.step = .ok (.ok true, u)) : Tallied s (count + t.reported) u

theorem Tallied.exists_reaches (h : s.Tallied count t) : ∃ n, s.Reaches n t := by
  induction h with
  | start => exact ⟨0, .start⟩
  | step h hstep ih =>
    obtain ⟨n, hreaches⟩ := ih
    exact ⟨n + 1, .step hreaches hstep⟩

theorem Reaches.exists_tallied (h : s.Reaches n t) : ∃ count, s.Tallied count t := by
  induction h with
  | start => exact ⟨0, .start⟩
  | step h hstep ih =>
    obtain ⟨count, htallied⟩ := ih
    exact ⟨_, .step htallied hstep⟩

/-- Disk reads and references take no ticks. What is counted of them are hits, misses and
evictions. -/
theorem Settled.ticks_eq (h : Settled chart s t m) :
    t.machine.stats.totals.memoryTicks = s.machine.stats.totals.memoryTicks ∧
      t.machine.stats.totals.runnableTicks = s.machine.stats.totals.runnableTicks := by
  -- after the disk reads
  have hm : m.stats.totals.memoryTicks = s.machine.stats.totals.memoryTicks ∧
      m.stats.totals.runnableTicks = s.machine.stats.totals.runnableTicks := by
    rcases h.read with rfl | ⟨pid, rest, q, q', -, -, hresumed⟩
    · exact ⟨rfl, rfl⟩
    · rw [hresumed.stats_eq]
      exact ⟨rfl, rfl⟩
  rcases h.turn with ⟨-, rfl⟩ | ⟨pid, m', q, q', record, hit, -, hreferred, -, rfl⟩
  · exact hm
  · obtain ⟨-, -, hmemory, hrunnable, -⟩ := hreferred.outcome.counts
    exact ⟨hmemory.trans hm.1, hrunnable.trans hm.2⟩

/-- **What a step adds** to the clock and to the sums over ticks is what it reports: as many ticks, with
what was in use and could run at its beginning. -/
theorem Sound.step_adds (h : s.Sound chart)
    (hs : s.machine.Patient s.config.diskPenalty s.clock) (hstep : s.step = .ok (.ok true, t)) :
    t.clock = s.clock + s.config.clockTick * s.reported ∧
      t.machine.stats.totals.memoryTicks =
        s.machine.stats.totals.memoryTicks + s.machine.frames.allocated * s.reported ∧
      t.machine.stats.totals.runnableTicks =
        s.machine.stats.totals.runnableTicks + s.machine.canRun.toNat * s.reported := by
  obtain ⟨hrun, -, -, -, m, hsettled⟩ := h.settled_of_step hs hstep
  obtain ⟨hmemory, hrunnable⟩ := hsettled.ticks_eq
  have hwhole : s.config.clockTick * s.reported = s.elapsed := by
    rw [reported_eq, Nat.mul_div_cancel' (h.elapsed_spec hrun).1]
  rw [hwhole, reported_eq]
  exact ⟨hsettled.clock_eq.1, hmemory, hrunnable⟩

/-! ### Accounts -/

/-- The time for which the totals account: the ticks at which some process could run, and a disk read for
each miss. Disk reads that were waited for at once are all counted here. -/
def covered (s : Simulator) : Nat :=
  s.machine.stats.totals.runnableTicks * s.config.clockTick +
    s.machine.stats.totals.misses * s.config.diskPenalty

/-- What holds of the totals, while a number of references is owed for ticks that were counted. Between
two steps none is owed. -/
structure Accounts (owed : Nat) (s : Simulator) : Prop where
  /-- The frames are those of the memory. -/
  frames_eq : s.machine.stats.totalFrames = s.config.totalFrames
  /-- At no tick more frames were in use than there are. -/
  memory_le : s.machine.stats.totals.memoryTicks ≤ s.config.totalFrames * s.ticks
  /-- At each tick at which some process could run, a reference was executed. -/
  runnable_le : s.machine.stats.totals.runnableTicks ≤
    s.machine.stats.totals.hits + s.machine.stats.totals.misses + owed
  /-- All time is accounted for. -/
  clock_le : s.clock ≤ s.covered
  /-- So is the time left to each disk read. -/
  wait_le : ∀ {pid p}, s.machine.processes.bare? pid = some p → p.state = .blocked →
    s.clock + p.wait ≤ s.covered

/-- A step at the beginning of which some process can run takes one tick. -/
theorem toNat_mul_ticks : s.machine.canRun.toNat * (s.elapsed / s.config.clockTick) =
    s.machine.canRun.toNat := by
  -- when time is passed over, nobody can run, and there is nothing to multiply
  cases hcan : s.machine.canRun with
  | true => rw [elapsed_of_canRun hcan, Nat.div_self s.config.clockTick_pos, Nat.mul_one]
  | false => rw [Bool.toNat_false, Nat.zero_mul]

/-- **Time passes.** At a tick at which some process can run, one reference is owed. The clock goes on by
what was covered then, or by no more than is left to a disk read. -/
theorem Accounts.wait (h : s.Accounts 0) (hs : s.Sound chart) (hrun : s.isFinished = false) :
    (s.waited s.elapsed).Accounts s.machine.canRun.toNat := by
  obtain ⟨hwhole, -, hleast⟩ := hs.elapsed_spec hrun
  -- the tick is covered if some process can run, and only then
  have hcovered : (s.waited s.elapsed).covered =
      s.covered + s.machine.canRun.toNat * s.config.clockTick := by
    show (s.machine.stats.totals.runnableTicks +
        s.machine.canRun.toNat * (s.elapsed / s.config.clockTick)) * s.config.clockTick + _ = _
    rw [covered, toNat_mul_ticks, Nat.add_mul]
    exact Nat.add_right_comm ..
  -- who waits now has waited before, for as much longer as has passed
  have hpassed : ∀ {pid p}, (s.waited s.elapsed).machine.processes.bare? pid = some p →
      p.state = .blocked → ∃ q, s.machine.processes.bare? pid = some q ∧ q.state = .blocked ∧
        s.elapsed + p.wait = q.wait := by
    intro pid p hp hblocked
    obtain ⟨q, hq, hblocked, hwait⟩ := ProcessTable.exists_of_blocked_passTime hp hblocked
    have hle := hleast hq hblocked
    exact ⟨q, hq, hblocked, by omega⟩
  refine ⟨h.frames_eq, ?_, ?_, ?_, fun {pid p} hp hblocked => ?_⟩
  · -- memory: no more frames are in use than there are, at each of the ticks
    have hticks : (s.waited s.elapsed).ticks = s.ticks + s.elapsed / s.config.clockTick :=
      Nat.add_div_of_dvd_right hs.whole
    have hframes : s.machine.frames.allocated ≤ s.config.totalFrames :=
      hs.size_eq ▸ FrameTable.allocated_le_size hs.machine.coherent.residency.marked
    show s.machine.stats.totals.memoryTicks +
      s.machine.frames.allocated * (s.elapsed / s.config.clockTick) ≤ _
    rw [hticks, Nat.mul_add]
    exact Nat.add_le_add h.memory_le (Nat.mul_le_mul_right _ hframes)
  · -- runnable ticks: one more if a process can run, and that one is owed
    show s.machine.stats.totals.runnableTicks +
      s.machine.canRun.toNat * (s.elapsed / s.config.clockTick) ≤
        s.machine.stats.totals.hits + s.machine.stats.totals.misses + s.machine.canRun.toNat
    exact Nat.add_le_add h.runnable_le (Nat.le_of_eq toNat_mul_ticks)
  · show s.clock + s.elapsed ≤ _
    rw [hcovered]
    cases hcan : s.machine.canRun with
    | true =>
      rw [elapsed_of_canRun hcan, Bool.toNat_true, Nat.one_mul]
      exact Nat.add_le_add_right h.clock_le _
    -- no more time passes than is left to a disk read
    | false =>
      obtain ⟨wait, hwait⟩ := hs.exists_wait hrun hcan
      obtain ⟨⟨pid, p, hp, hblocked, -⟩, -⟩ := ProcessTable.nextCompletion?_eq_some hwait
      have hle := h.wait_le hp hblocked
      have hpassed := hleast hp hblocked
      omega
  · -- a disk read has as much less left as has passed
    obtain ⟨q, hq, hblocked, hwait⟩ := hpassed hp hblocked
    have hle := h.wait_le hq hblocked
    show s.clock + s.elapsed + p.wait ≤ _
    rw [hcovered]
    omega

/-- **A disk read.** It changes no totals that matter here, and its process does not wait any
more. So there is less to be accounted for than before. -/
theorem Accounts.read (h : s.Accounts owed)
    (hresumed : Machine.Resumed chart s.clock s.machine m pid q q') :
    Accounts owed { s with machine := m } := by
  have hstats := hresumed.stats_eq
  refine ⟨?_, ?_, ?_, ?_, fun {other p} hp hblocked => ?_⟩
  · rw [hstats]
    exact h.frames_eq
  · rw [hstats]
    exact h.memory_le
  · rw [hstats]
    exact h.runnable_le
  · rw [covered, hstats]
    exact h.clock_le
  · -- the process that has waited is left out; the others wait as before
    rw [covered, hstats]
    have hp : m.processes.bare? other = some p := hp
    rw [hresumed.bare_eq, Function.update_apply] at hp
    split at hp
    · cases hp
      exact absurd hblocked hresumed.passes.idle.1
    · exact h.wait_le hp hblocked

/-- **A reference.** It is owed no longer. If it misses, its disk read begins now, and is covered by the
miss. -/
theorem Accounts.refer (h : s.Accounts owed)
    (hreferred : Machine.Referred chart s.clock s.config.diskPenalty s.machine m pid q q' record hit) :
    Accounts (owed - 1) { s with machine := m } := by
  obtain ⟨hcount, hmore, hmemory, hrunnable, hbegins⟩ := hreferred.outcome.counts
  have hframes := congrArg Stats.totalFrames hreferred.stats_eq
  -- misses only get more, so what was covered still is
  have hcovered : s.covered ≤ covered { s with machine := m } := by
    rw [covered, covered, hrunnable]
    exact Nat.add_le_add_left (Nat.mul_le_mul_right _ hmore) _
  refine ⟨hframes.trans h.frames_eq, ?_, ?_, Nat.le_trans h.clock_le hcovered,
    fun {other p} hp hblocked => ?_⟩
  · rw [hmemory]
    exact h.memory_le
  · have hle := h.runnable_le
    rw [hrunnable]
    show _ ≤ m.stats.totals.hits + m.stats.totals.misses + _
    omega
  · have hp : m.processes.bare? other = some p := hp
    rw [hreferred.bare_eq, Function.update_apply] at hp
    split at hp
    -- the new disk read is covered by the miss that it began with
    · cases hp
      obtain ⟨hwait, hmisses⟩ := hbegins hblocked
      have hmiss : covered { s with machine := m } = s.covered + s.config.diskPenalty := by
        rw [covered, covered, hrunnable, hmisses, Nat.add_mul, Nat.one_mul]
        exact (Nat.add_assoc ..).symm
      rw [hmiss, hwait]
      exact Nat.add_le_add_right h.clock_le _
    · exact Nat.le_trans (h.wait_le hp hblocked) hcovered

/-- A process that can run can still do so when the disk reads are complete. These may bring
others into the queue, and take none out of it. -/
theorem Settled.exists_head (h : Settled chart s t m) (hs : s.Underway chart)
    (hcan : s.machine.canRun = true) : ∃ pid, m.processes.head? .runnable = some pid := by
  rw [Machine.canRun, Bool.not_eq_true', List.isEmpty_eq_false_iff_exists_mem] at hcan
  obtain ⟨pid, hpid⟩ := hcan
  obtain ⟨p, hp, hrunnable⟩ := hs.machine.lined.queued.1 hpid
  -- the process whose disk read was completed was blocked, so it is not this one
  have hp' : m.processes.bare? pid = some p := by
    rcases h.read with rfl | ⟨other, rest, q, q', -, -, hresumed⟩
    · exact hp
    · rw [hresumed.bare_eq, Function.update_of_ne, hp]
      rintro rfl
      cases hp.symm.trans hresumed.found
      cases hrunnable.symm.trans hresumed.blocked
  -- it is queued, so the queue has a head
  have hmem := h.going.sound.lined.queued.2 ⟨p, hp', hrunnable⟩
  rw [ProcessTable.head?]
  cases hqueue : m.processes.queue .runnable with
  | nil =>
    rw [hqueue] at hmem
    cases hmem
  | cons first rest => exact ⟨first, rfl⟩

/-- So none could run at the beginning if none can then. -/
theorem Settled.idle (h : Settled chart s t m) (hs : s.Underway chart)
    (hnone : m.processes.head? .runnable = none) : s.machine.canRun = false := by
  by_contra hcan
  obtain ⟨pid, hhead⟩ := h.exists_head hs (Bool.not_eq_false _ ▸ hcan)
  cases hnone.symm.trans hhead

/-- **The rest of a step.** The reference that is owed is executed: if a process could run at the
beginning, there is still one at the head of the queue. -/
theorem Settled.accounts (h : Settled chart s t m) (hs : s.Underway chart)
    (haccounts : s.Accounts s.machine.canRun.toNat) : t.Accounts 0 := by
  have hm : Accounts s.machine.canRun.toNat { s with machine := m } := by
    rcases h.read with rfl | ⟨pid, rest, q, q', -, -, hresumed⟩
    · exact haccounts
    · exact haccounts.read hresumed
  rcases h.turn with ⟨hnone, rfl⟩ | ⟨pid, m', q, q', record, hit, -, hreferred, -, rfl⟩
  · -- nobody runs, so none was owed
    rw [h.idle hs hnone] at hm
    exact hm
  · -- at most one was owed, and it is executed
    have hnone : s.machine.canRun.toNat - 1 = 0 := Nat.sub_eq_zero_of_le (Bool.toNat_le _)
    have hdone := hm.refer hreferred
    rw [hnone] at hdone
    exact hdone

/-- **A step** keeps the accounts. -/
theorem Sound.accounts_step (h : s.Sound chart)
    (hs : s.machine.Patient s.config.diskPenalty s.clock) (haccounts : s.Accounts 0)
    (hstep : s.step = .ok (.ok true, t)) : t.Accounts 0 := by
  obtain ⟨hrun, -, hunder, -, m, hsettled⟩ := h.settled_of_step hs hstep
  exact hsettled.accounts hunder (haccounts.wait h hrun)

/-- All that a simulation reaches keeps the accounts. -/
theorem Sound.accounts_of_reaches (h : s.Sound chart)
    (hs : s.machine.Patient s.config.diskPenalty s.clock) (haccounts : s.Accounts 0)
    (hreaches : s.Reaches n t) : t.Accounts 0 := by
  refine h.kept hs (fun ht hpatient haccounts hstep => ?_) haccounts hreaches
  exact ht.accounts_step hpatient haccounts hstep

/-- The clock shows the ticks that were reported, by induction on the steps. -/
theorem Sound.clock_of_tallied (h : s.Sound chart)
    (hs : s.machine.Patient s.config.diskPenalty s.clock) (htallied : s.Tallied count t) :
    t.clock = s.clock + s.config.clockTick * count := by
  induction htallied with
  | start => rw [Nat.mul_zero, Nat.add_zero]
  | step htallied hstep ih =>
    obtain ⟨n, hreaches⟩ := htallied.exists_reaches
    obtain ⟨hsound, hconfig⟩ := h.of_reaches hreaches
    obtain ⟨hclock, -⟩ := hsound.step_adds (h.patient_of_reaches hs hreaches) hstep
    rw [hclock, ih, hconfig, Nat.mul_add, Nat.add_assoc]

/-- At the start there is nothing to account for. -/
theorem accounts_of_start {config : ValidConfig} {reader after : TraceReader} {survey : Survey}
    (hsurvey : reader.survey config.queueOrder = .ok (.ok survey, after))
    (hstart : start config reader { totalFrames := config.totalFrames } = .ok (.ok s)) :
    s.clock = 0 ∧ s.Accounts 0 := by
  obtain ⟨records, -, hfinds⟩ := TraceReader.finds_of_survey hsurvey
  obtain ⟨frames, policy, -, -, rfl⟩ := start_cases hsurvey hstart
  -- no process of the survey is blocked
  refine ⟨rfl, rfl, Nat.zero_le _, Nat.zero_le _, Nat.zero_le _, fun {pid p} hp hblocked => ?_⟩
  obtain ⟨q, hq, rfl⟩ := ProcessTable.bare?_eq_some_iff.1 hp
  have hready : q.state = .runnable := (hfinds.begins hq).state_eq
  cases hready.symm.trans hblocked

/-! ### Agreement of the clock and the totals -/

/-- The clock and the totals of a simulation agree, after a number of ticks was reported. It is
said of one state, of the ticks reported up to it, and of the step from there. -/
structure Agrees (count : Nat) (t : Simulator) : Prop where
  /-- The clock shows these ticks. -/
  clock_eq : t.clock = t.config.clockTick * count
  /-- There are no others. -/
  ticks_eq : t.ticks = count
  /-- A step takes a number of whole ticks. -/
  whole : t.isFinished = false → t.config.clockTick ∣ t.elapsed
  /-- It reports them: a single one as such, and several in a row with their number. -/
  reports : t.sample t.elapsed =
    if t.elapsed = t.config.clockTick then
      t.machine.stats.noteTick t.machine.frames.allocated t.machine.canRun
    else t.machine.stats.noteTicks t.machine.frames.allocated t.machine.canRun t.reported
  /-- They are added up, with the frames in use and with whether some process can run. -/
  adds : ∀ {u}, t.step = .ok (.ok true, u) →
    u.clock = t.clock + t.config.clockTick * t.reported ∧
      u.machine.stats.totals.memoryTicks =
        t.machine.stats.totals.memoryTicks + t.machine.frames.allocated * t.reported ∧
      u.machine.stats.totals.runnableTicks =
        t.machine.stats.totals.runnableTicks + t.machine.canRun.toNat * t.reported
  /-- A reference was executed at each tick at which some process could run. -/
  runnable_le : t.machine.stats.totals.runnableTicks ≤
    t.machine.stats.totals.hits + t.machine.stats.totals.misses
  /-- At the others a disk read was waited for. -/
  waiting_le : t.machine.stats.totals.runnableTicks ≤ t.ticks ∧
    t.ticks - t.machine.stats.totals.runnableTicks ≤
      t.machine.stats.totals.misses * (t.config.diskPenalty / t.config.clockTick)
  /-- At no tick more frames were in use than there are. -/
  memory_le : t.machine.stats.totals.memoryTicks ≤ t.config.totalFrames * t.ticks
  /-- The sums over ticks have 128 bits, also after a step that the clock can count. -/
  fits : t.machine.stats.totals.Fits ∧ (t.isFinished = false → t.clock + t.elapsed < 2 ^ 64 →
    ∃ u, t.passTime = .ok u ∧ u.machine.stats.totals.Fits)
  /-- The frames in use are a fraction of all. -/
  memoryShare_mem : 0 ≤ t.machine.stats.memoryShare t.ticks ∧
    t.machine.stats.memoryShare t.ticks ≤ 1
  /-- The ticks at which some process could run are one of all ticks. -/
  runnableShare_mem : 0 ≤ t.machine.stats.runnableShare t.ticks ∧
    t.machine.stats.runnableShare t.ticks ≤ 1

theorem Sound.agrees_with_tallied (h : s.Sound chart)
    (hs : s.machine.Patient s.config.diskPenalty s.clock) (haccounts : s.Accounts 0)
    (hclock : s.clock = s.config.clockTick * count) : s.Agrees count := by
  have hticks : s.ticks = count := by
    rw [ticks, hclock, Nat.mul_div_cancel_left _ s.config.clockTick_pos]
  -- the clock is covered, and what covers it is a number of whole ticks
  have hwaiting : s.ticks ≤ s.machine.stats.totals.runnableTicks +
      s.machine.stats.totals.misses * (s.config.diskPenalty / s.config.clockTick) := by
    refine Nat.le_of_mul_le_mul_left ?_ s.config.clockTick_pos
    calc
      s.config.clockTick * s.ticks = s.clock := by rw [hticks, hclock]
      _ ≤ s.machine.stats.totals.runnableTicks * s.config.clockTick +
          s.machine.stats.totals.misses * s.config.diskPenalty := haccounts.clock_le
      _ = _ := by
        rw [Nat.mul_add, Nat.mul_comm s.config.clockTick, Nat.mul_left_comm,
          Nat.mul_div_cancel' s.config.clockTick_dvd_diskPenalty]
  refine ⟨hclock, hticks, fun hrun => (h.elapsed_spec hrun).1, sample_eq_reported,
    fun hstep => h.step_adds hs hstep, haccounts.runnable_le, ⟨h.runnable_le, by omega⟩,
    haccounts.memory_le, ⟨h.fits, fun hrun hfit => ?_⟩, ⟨by rw [Stats.memoryShare]; positivity, ?_⟩,
    ⟨by rw [Stats.runnableShare]; positivity, ?_⟩⟩
  · exact ⟨_, h.passTime_eq_ok hrun hfit, (h.waited hrun hfit).fits⟩
  · -- as fractions: the sums over ticks are no more than the ticks, times the frames
    rw [Stats.memoryShare, div_div, haccounts.frames_eq]
    refine div_le_one_of_le₀ ?_ (by positivity)
    have hle := haccounts.memory_le
    rw [Nat.mul_comm] at hle
    exact_mod_cast hle
  · rw [Stats.runnableShare]
    exact div_le_one_of_le₀ (Nat.cast_le.2 h.runnable_le) (Nat.cast_nonneg _)

/-- **The clock and the totals.** On a trace that the survey accepts, with all its bytes within reach, a
simulation with statistics of its own begins. In all that it reaches the clock and the totals agree. -/
theorem clock_and_totals_agree {config : Config} {valid : ValidConfig} {reader after : TraceReader}
    {survey : Survey} (hvalid : config.validate = .ok valid)
    (hreach : reader.medium.bytes.size ≤ reader.medium.maxOffset)
    (hsurvey : reader.survey valid.queueOrder = .ok (.ok survey, after)) :
    ∃ s, ofConfig config reader none = .ok (.ok s) ∧
      (∀ {n t}, s.Reaches n t → ∃ count, s.Tallied count t) ∧
      ∀ {count t}, s.Tallied count t → t.config = valid ∧ t.Agrees count := by
  obtain ⟨s, chart, hstart, hconfig, hsound, -, -⟩ :=
    @start_eq_ok valid reader after { totalFrames := valid.totalFrames } survey hreach rfl hsurvey
  have hpatient := patient_of_start rfl hsurvey hstart
  obtain ⟨hzero, haccounts⟩ := accounts_of_start hsurvey hstart
  refine ⟨s, ?_, fun hreaches => hreaches.exists_tallied, fun {count t} htallied => ?_⟩
  · rw [ofConfig, hvalid]
    exact hstart
  -- the number of ticks comes from the run itself, as the reports of its steps
  obtain ⟨n, hreaches⟩ := htallied.exists_reaches
  obtain ⟨hsound', hconfig'⟩ := hsound.of_reaches hreaches
  refine ⟨hconfig'.trans hconfig, hsound'.agrees_with_tallied
    (hsound.patient_of_reaches hpatient hreaches)
    (hsound.accounts_of_reaches hpatient haccounts hreaches) ?_⟩
  rw [hsound.clock_of_tallied hpatient htallied, hzero, Nat.zero_add, hconfig']

/-- Two processes over one frame. -/
theorem clock_and_totals_agree_on_turns : ∃ survey after,
    cramped.toConfig.validate = .ok cramped ∧
      turns.survey cramped.queueOrder = .ok (.ok survey, after) ∧
      ∃ s, ofConfig cramped.toConfig turns none = .ok (.ok s) ∧
        (∀ {n t}, s.Reaches n t → ∃ count, s.Tallied count t) ∧
        ∀ {count t}, s.Tallied count t → t.config = cramped ∧ t.Agrees count := by
  obtain ⟨survey, after, hsurvey, -⟩ :=
    exists_survey turns cramped.queueOrder (fun _ => true) (by decide +kernel)
  exact ⟨survey, after, rfl, hsurvey, clock_and_totals_agree rfl (by decide) hsurvey⟩

end Simulator

end DemandPaging
