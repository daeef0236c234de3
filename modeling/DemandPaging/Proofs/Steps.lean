import DemandPaging.Proofs.Ledger
import DemandPaging.Proofs.Ticks

/-!
# Steps of a simulation

What holds of a simulation between its steps is `Simulator.Sound`: its machine is sound and replays the
trace, the times that are left to the disk are positive multiples of the tick, and the clock shows no
less than the references executed so far take, and no more than they take one after the other.

A step lets time pass, completes the disk reads that are due, and has one reference executed if a
process can run. The facts that hold all the way are `Simulator.Consistent`; in the middle of a step,
after time has passed, `Simulator.Underway` says how far the clock may be ahead. From there the step
succeeds and ends in a sound simulation (`Underway.settle_eq_ok`), so that the only step that fails is
one that the clock cannot count (`Sound.step_eq_ok`, `step_eq_overflow`).

`Simulator.Reaches` is a run of steps, and by induction all that it reaches is sound
(`Sound.of_reaches`).

A simulation begins with a trace whose medium can be moved to each of its bytes, as bytes in memory and
files can be, and with totals in which nothing has been counted (`start_eq_ok`).
-/

namespace DemandPaging

/-! ### Time and the machine -/

/-- Where a process stands does not depend on how long it waits. So time that passes moves no
process. -/
theorem Process.Stands.of_wait {chart : Chart} {p q : Process} (h : p.Stands chart)
    (hq : q = { p with wait := q.wait }) : q.Stands chart where
  interval_mem := hq ▸ h.interval_mem
  owner := hq ▸ h.owner
  line_mem := hq ▸ h.line_mem
  runnable hstate := by
    rw [hq] at hstate ⊢
    exact h.runnable hstate
  blocked hstate := by
    rw [hq] at hstate ⊢
    exact h.blocked hstate
  finished hstate := by
    rw [hq] at hstate ⊢
    obtain ⟨hpending, hend⟩ := h.finished hstate
    exact ⟨hpending, hend.next_eq, hend.line_eq, hend.last⟩

namespace Machine

variable {chart : Chart} {m m' : Machine} {stats : Stats} {pid : Pid} {p : Process} {elapsed : Nat}

/-- Time may pass, and ticks may be counted. The machine is sound as before, as no part of that looks at
waits or at sums over ticks. -/
theorem Sound.passTime (h : m.Sound chart)
    (hmisses : stats.totals.misses = m.stats.totals.misses)
    (hevictions : stats.totals.evictions = m.stats.totals.evictions) :
    Sound chart { m with stats, processes := m.processes.passTime elapsed } where
  lined := h.lined.passTime
  index_eq := h.index_eq
  reader_eq := h.reader_eq
  -- where a process stands has nothing to do with how long it waits
  stands hq := by
    obtain ⟨p, hp, heq, -⟩ := ProcessTable.exists_of_bare?_passTime hq
    exact (h.stands hp).of_wait heq
  coherent := by
    show Coherent m.frames m.policy (m.processes.passTime elapsed).page?
    rw [ProcessTable.page?_passTime]
    exact h.coherent
  alive {ref page q} hpage hq := by
    obtain ⟨p, hp, heq, -⟩ := ProcessTable.exists_of_bare?_passTime hq
    have hpage : (m.processes.passTime elapsed).page? ref = some page := hpage
    rw [ProcessTable.page?_passTime] at hpage
    have hstate : q.state = p.state := by rw [heq]
    rw [hstate]
    exact h.alive hpage hp
  awaited {pid q ref} hq hpending := by
    obtain ⟨p, hp, heq, -⟩ := ProcessTable.exists_of_bare?_passTime hq
    rw [heq] at hpending
    show ∃ page, (m.processes.passTime elapsed).page? ref = some page ∧ page.frame? = none
    rw [ProcessTable.page?_passTime]
    exact h.awaited hp hpending
  -- misses, evictions and the queue of blocked processes are as they were
  accounted := by
    show stats.totals.misses = stats.totals.evictions + m.frames.allocated + m.released +
      (m.processes.queue .blocked).length
    rw [hmisses, hevictions]
    exact h.accounted

theorem Replays.passTime (h : m.Replays chart) (hhits : stats.totals.hits = m.stats.totals.hits)
    (hmisses : stats.totals.misses = m.stats.totals.misses) :
    Replays chart { m with stats, processes := m.processes.passTime elapsed } := by
  refine h.congr rfl (fun pid => ?_) (fun {line record} _ => ?_) hhits hmisses
  · show ((m.processes.passTime elapsed).bare? pid).isSome = _
    rw [ProcessTable.bare?_passTime, Option.isSome_map]
  -- the line that a process has reached does not depend on how long it waits
  · suffices hsame : reached { m with stats, processes := m.processes.passTime elapsed } record.pid =
        m.reached record.pid by
      rw [hsame]
    show ((m.processes.passTime elapsed).bare? record.pid).elim 0 Process.reached = _
    cases hq : (m.processes.passTime elapsed).bare? record.pid with
    | some q =>
      obtain ⟨p, hp, heq, -⟩ := ProcessTable.exists_of_bare?_passTime hq
      rw [reached_of_bare hp, heq]
      rfl
    | none =>
      rw [ProcessTable.bare?_passTime, Option.map_eq_none_iff] at hq
      rw [reached, hq]

/-- A reference is one more in the totals, and a miss if its process is blocked afterwards. It is what
the clock has to pay for: a tick, and a disk read if it is a miss. -/
theorem Outcome.counts {diskPenalty : Nat} {record : TraceRecord} {q q' : Process}
    {totals totals' : Totals} {hit : Bool}
    (h : Outcome chart diskPenalty record q totals hit q' totals') :
    totals'.hits + totals'.misses = totals.hits + totals.misses + 1 ∧
      totals.misses ≤ totals'.misses ∧ totals'.memoryTicks = totals.memoryTicks ∧
      totals'.runnableTicks = totals.runnableTicks ∧
      (q'.state = .blocked → q'.wait = diskPenalty ∧ totals'.misses = totals.misses + 1) := by
  cases h with
  | hit hpasses =>
    -- a process that goes on is not blocked
    refine ⟨Nat.add_right_comm _ _ _, Nat.le_refl _, rfl, rfl, fun hblocked => ?_⟩
    cases hpasses <;> cases hblocked
  | miss => exact ⟨rfl, Nat.le_succ _, rfl, rfl, fun _ => ⟨rfl, rfl⟩⟩

/-- **Several disk reads.** Each of the processes comes to its next record or to its end. By induction on
the processes that are due. -/
theorem foldlM_completeRead (due : List Pid) (h : m.Sound chart) (hnodup : due.Nodup)
    (hdue : ∀ pid ∈ due, ∃ q, m.processes.bare? pid = some q ∧ q.state = .blocked)
    (hfit : m.stats.totals.misses < 2 ^ 64) (now : Nat) :
    ∃ m', due.foldlM (completeRead now) m = .ok m' ∧ m'.Sound chart ∧
      (∀ pid, pid ∉ due → m'.processes.bare? pid = m.processes.bare? pid) ∧
      (∀ pid ∈ due, ∃ q q', m.processes.bare? pid = some q ∧ q.Passes chart q' ∧
        m'.processes.bare? pid = some q') ∧
      m'.stats = { m.stats with
        totals := { m.stats.totals with evictions := m'.stats.totals.evictions } } ∧
      m'.frames.size = m.frames.size ∧ m'.policy.kind = m.policy.kind ∧
      m'.references = m.references := by
  induction due generalizing m with
  | nil =>
    exact ⟨m, rfl, h, fun _ _ => rfl, fun _ hmem => absurd hmem List.not_mem_nil, rfl, rfl, rfl, rfl⟩
  | cons pid rest ih =>
    obtain ⟨hnew, hrest⟩ := List.nodup_cons.1 hnodup
    obtain ⟨q, hq, hblocked⟩ := hdue pid List.mem_cons_self
    obtain ⟨m₁, q', hcomplete, h₁, hpasses, hbare, hstats₁, hsize₁, hkind₁, hreferences₁⟩ :=
      completeRead_eq_ok h hq hblocked hfit now
    -- the first disk read leaves the other processes alone, so they still wait for theirs
    have hother : ∀ other, other ≠ pid → m₁.processes.bare? other = m.processes.bare? other :=
      fun other hne => by rw [hbare, Function.update_of_ne hne]
    have hleft : ∀ other ∈ rest, ∃ q, m₁.processes.bare? other = some q ∧ q.state = .blocked := by
      intro other hmem
      rw [hother other fun heq => hnew (heq ▸ hmem)]
      exact hdue other (List.mem_cons_of_mem _ hmem)
    have hfit₁ : m₁.stats.totals.misses < 2 ^ 64 := by
      rw [hstats₁]
      exact hfit
    obtain ⟨m', hfold, h', hkept, hmoved, hstats, hsize, hkind, hreferences⟩ :=
      ih h₁ hrest hleft hfit₁
    refine ⟨m', ?_, h', ?_, ?_, ?_, hsize.trans hsize₁, hkind.trans hkind₁,
      hreferences.trans hreferences₁⟩
    · rw [List.foldlM_cons, hcomplete]
      exact hfold
    -- a process that was not due is passed over by all of them
    · intro other hout
      rw [List.mem_cons, not_or] at hout
      rw [hkept other hout.2, hother other hout.1]
    · intro other hmem
      rcases List.mem_cons.1 hmem with rfl | hmem
      -- the first one moved at once, and stays there while the others move
      · refine ⟨q, q', hq, hpasses, ?_⟩
        rw [hkept other hnew, hbare, Function.update_self]
      · obtain ⟨r, r', hr, hpasses, hr'⟩ := hmoved other hmem
        rw [hother other fun heq => hnew (heq ▸ hmem)] at hr
        exact ⟨r, r', hr, hpasses, hr'⟩
    · rw [hstats, hstats₁]

end Machine

namespace Simulator

variable {chart : Chart} {s t : Simulator} {m : Machine} {pid : Pid} {p : Process} {n : Nat}

/-! ### Between steps, and in the middle of one -/

/-- What the references executed so far take when they come one after the other: a tick for
each, and a disk read for each miss. In a simulation disk reads of several processes overlap, so
it is a bound from above. -/
def cost (s : Simulator) : Nat :=
  (s.machine.stats.totals.hits + s.machine.stats.totals.misses) * s.config.clockTick +
    s.machine.stats.totals.misses * s.config.diskPenalty

/-- What holds of a simulation all the time. It is what `Sound` and `Underway` have in common;
they differ in how the clock stands to the references. -/
structure Consistent (chart : Chart) (s : Simulator) : Prop where
  /-- The machine is sound. -/
  machine : s.machine.Sound chart
  /-- It replays the trace. -/
  replays : s.machine.Replays chart
  /-- The memory has the size that was asked for. -/
  size_eq : s.machine.frames.size = s.config.totalFrames
  /-- The policy is of the kind that was asked for. -/
  kind_eq : s.machine.policy.kind = s.config.policy
  /-- Time passes by ticks. -/
  whole : s.config.clockTick ∣ s.clock
  /-- The clock has 64 bits. -/
  clock_lt : s.clock < 2 ^ 64
  /-- The time left to a disk read is a number of ticks. -/
  wait_whole : ∀ {pid p}, s.machine.processes.bare? pid = some p → p.state = .blocked →
    s.config.clockTick ∣ p.wait
  /-- A disk read is complete when it was to be complete at the latest. -/
  wait_paid : ∀ {pid p}, s.machine.processes.bare? pid = some p → p.state = .blocked →
    s.clock + p.wait ≤ s.cost
  /-- At no tick were more frames in use than there have been misses. -/
  memory_le : s.machine.stats.totals.memoryTicks ≤ s.ticks * s.machine.stats.totals.misses
  /-- At no tick was more than one tick counted. -/
  runnable_le : s.machine.stats.totals.runnableTicks ≤ s.ticks

/-- What holds of a simulation between its steps. Below and above the clock stands what the references so
far take: a tick for each of them at least, and at most that and a disk read for each miss. -/
structure Sound (chart : Chart) (s : Simulator) : Prop extends s.Consistent chart where
  /-- No disk read is due. -/
  pending : ∀ {pid p}, s.machine.processes.bare? pid = some p → p.state = .blocked → 0 < p.wait
  /-- Each reference took a tick. -/
  spent : (s.machine.stats.totals.hits + s.machine.stats.totals.misses) * s.config.clockTick ≤ s.clock
  /-- No time passed but for references and disk reads. -/
  paid : s.clock ≤ s.cost

/-- What holds of a simulation in the middle of a step, after time has passed for one reference more. If
no reference follows, no more time has passed than some miss has paid for. -/
structure Underway (chart : Chart) (s : Simulator) : Prop extends s.Consistent chart where
  /-- Each reference took a tick, and so will the next one. -/
  spent :
    (s.machine.stats.totals.hits + s.machine.stats.totals.misses + 1) * s.config.clockTick ≤ s.clock
  /-- The clock may be ahead by the tick of the next one. -/
  paid : s.clock ≤ s.cost + s.config.clockTick
  /-- It is not ahead if nothing can run. -/
  idle : s.machine.canRun = false → s.clock ≤ s.cost

/-- The machine may change in the middle of a step, if its disk reads are the same or begin now. A disk
read that begins has to be paid for already, by the miss that it is for. -/
theorem Consistent.update (h : s.Consistent chart) (hmachine : m.Sound chart)
    (hreplays : m.Replays chart) (hsize : m.frames.size = s.machine.frames.size)
    (hkind : m.policy.kind = s.machine.policy.kind) (hcost : s.cost ≤ cost { s with machine := m })
    (hmisses : s.machine.stats.totals.misses ≤ m.stats.totals.misses)
    (hmemory : m.stats.totals.memoryTicks = s.machine.stats.totals.memoryTicks)
    (hrunnable : m.stats.totals.runnableTicks = s.machine.stats.totals.runnableTicks)
    (hwaits : ∀ {pid p}, m.processes.bare? pid = some p → p.state = .blocked →
      s.machine.processes.bare? pid = some p ∨
        (p.wait = s.config.diskPenalty ∧
          s.clock + s.config.diskPenalty ≤ cost { s with machine := m })) :
    Consistent chart { s with machine := m } where
  machine := hmachine
  replays := hreplays
  size_eq := hsize.trans h.size_eq
  kind_eq := hkind.trans h.kind_eq
  whole := h.whole
  clock_lt := h.clock_lt
  wait_whole hp hblocked := by
    -- a disk read that was there before, and one that begins now
    rcases hwaits hp hblocked with hold | ⟨hwait, -⟩
    · exact h.wait_whole hold hblocked
    · rw [hwait]
      exact s.config.clockTick_dvd_diskPenalty
  wait_paid hp hblocked := by
    rcases hwaits hp hblocked with hold | ⟨hwait, hpaid⟩
    · exact Nat.le_trans (h.wait_paid hold hblocked) hcost
    · rw [hwait]
      exact hpaid
  memory_le := by
    show m.stats.totals.memoryTicks ≤ s.ticks * m.stats.totals.misses
    rw [hmemory]
    exact Nat.le_trans h.memory_le (Nat.mul_le_mul_left _ hmisses)
  runnable_le := by
    show m.stats.totals.runnableTicks ≤ s.ticks
    rw [hrunnable]
    exact h.runnable_le

/-! ### Time passes -/

theorem isFinished_eq :
    s.isFinished = (!s.machine.canRun && (s.machine.processes.queue .blocked).isEmpty) := by
  rw [isFinished, Machine.canRun, Bool.not_not]

/-- While nothing can run and not everything is done, some process waits for the disk. -/
theorem Consistent.exists_wait (h : s.Consistent chart) (hrun : s.isFinished = false)
    (hidle : s.machine.canRun = false) :
    ∃ wait, s.machine.processes.nextCompletion? = some wait := by
  rw [isFinished_eq, hidle, Bool.not_false, Bool.true_and, List.isEmpty_eq_false_iff_exists_mem] at hrun
  obtain ⟨pid, hpid⟩ := hrun
  obtain ⟨p, hp, hblocked⟩ := h.machine.lined.queued.1 hpid
  exact ProcessTable.exists_nextCompletion hp hblocked

/-- **How long a step takes.** A positive number of ticks, and no longer than any disk read; a single
tick if some process can run. -/
theorem Sound.elapsed_spec (h : s.Sound chart) (hrun : s.isFinished = false) :
    s.config.clockTick ∣ s.elapsed ∧ s.config.clockTick ≤ s.elapsed ∧
      ∀ {pid p}, s.machine.processes.bare? pid = some p → p.state = .blocked → s.elapsed ≤ p.wait := by
  have htick : ∀ {pid p}, s.machine.processes.bare? pid = some p → p.state = .blocked →
      s.config.clockTick ≤ p.wait := fun hp hblocked =>
    Nat.le_of_dvd (h.pending hp hblocked) (h.wait_whole hp hblocked)
  -- a single tick is no longer than any disk read
  have hone : s.elapsed = s.config.clockTick → s.config.clockTick ∣ s.elapsed ∧
      s.config.clockTick ≤ s.elapsed ∧ ∀ {pid p}, s.machine.processes.bare? pid = some p →
        p.state = .blocked → s.elapsed ≤ p.wait := by
    intro heq
    rw [heq]
    exact ⟨Nat.dvd_refl _, Nat.le_refl _, htick⟩
  cases hcan : s.machine.canRun with
  | true => exact hone (elapsed_of_canRun hcan)
  | false =>
    cases hfast : s.config.fastForward with
    | false => exact hone (elapsed_of_slow hfast)
    | true =>
      -- otherwise it is the least of all times left
      obtain ⟨wait, hnext⟩ := h.exists_wait hrun hcan
      obtain ⟨⟨pid, p, hp, hblocked, rfl⟩, hleast⟩ := ProcessTable.nextCompletion?_eq_some hnext
      rw [elapsed_of_fast hfast hcan hnext (htick hp hblocked)]
      exact ⟨h.wait_whole hp hblocked, htick hp hblocked, hleast⟩

/-- A step in which nothing can run is no longer than a disk read that a miss has paid for. The least
wait is that of some process, and each wait ends when it was to end at the latest. -/
theorem Sound.clock_le_cost (h : s.Sound chart) (hrun : s.isFinished = false)
    (hidle : s.machine.canRun = false) : s.clock + s.elapsed ≤ s.cost := by
  obtain ⟨wait, hnext⟩ := h.exists_wait hrun hidle
  obtain ⟨⟨pid, p, hp, hblocked, -⟩, -⟩ := ProcessTable.nextCompletion?_eq_some hnext
  obtain ⟨-, -, hleast⟩ := h.elapsed_spec hrun
  exact Nat.le_trans (Nat.add_le_add_left (hleast hp hblocked) _) (h.wait_paid hp hblocked)

theorem Consistent.allocated_le (h : s.Consistent chart) :
    s.machine.frames.allocated ≤ s.machine.stats.totals.misses := by
  have := h.machine.accounted
  rw [Machine.balance] at this
  omega

/-- One reference more can be counted, since each has taken a tick of a clock with 64 bits. -/
theorem Underway.references_lt (h : s.Underway chart) :
    s.machine.stats.totals.hits + s.machine.stats.totals.misses + 1 < 2 ^ 64 :=
  Nat.lt_of_le_of_lt (Nat.le_mul_of_pos_right _ s.config.clockTick_pos)
    (Nat.lt_of_le_of_lt h.spent h.clock_lt)

/-- The sums over the ticks stay within 128 bits. -/
theorem Consistent.fits (h : s.Consistent chart) (hmisses : s.machine.stats.totals.misses < 2 ^ 64) :
    s.machine.stats.totals.Fits := by
  -- both factors of a sum over ticks fit into the clock
  have hticks : s.ticks < 2 ^ 64 := Nat.lt_of_le_of_lt (Nat.div_le_self _ _) h.clock_lt
  refine ⟨Nat.lt_of_le_of_lt h.memory_le (Totals.product_lt hticks hmisses), ?_⟩
  have := h.runnable_le
  omega

theorem Underway.fits (h : s.Underway chart) : s.machine.stats.totals.Fits := by
  have := h.references_lt
  exact h.toConsistent.fits (by omega)

theorem Sound.fits (h : s.Sound chart) : s.machine.stats.totals.Fits := by
  refine h.toConsistent.fits (Nat.lt_of_le_of_lt ?_ h.clock_lt)
  calc
    s.machine.stats.totals.misses
    _ ≤ s.machine.stats.totals.hits + s.machine.stats.totals.misses := Nat.le_add_left _ _
    _ ≤ (s.machine.stats.totals.hits + s.machine.stats.totals.misses) * s.config.clockTick :=
      Nat.le_mul_of_pos_right _ s.config.clockTick_pos
    _ ≤ s.clock := h.spent

/-- **Time passes.** A step begins with time that passes for the clock, for the disk and for the totals.
It is here that the clock gets ahead, by the tick of a reference that is still to come. -/
theorem Sound.waited (h : s.Sound chart) (hrun : s.isFinished = false)
    (hclock : s.clock + s.elapsed < 2 ^ 64) : (s.waited s.elapsed).Underway chart := by
  obtain ⟨hwhole, htick, hleast⟩ := h.elapsed_spec hrun
  -- the ticks add up, since no part of one passes
  have hticks : (s.waited s.elapsed).ticks = s.ticks + s.elapsed / s.config.clockTick :=
    Nat.add_div_of_dvd_right h.whole
  refine {
    machine := h.machine.passTime rfl rfl
    replays := h.replays.passTime rfl rfl
    size_eq := h.size_eq
    kind_eq := h.kind_eq
    whole := Nat.dvd_add h.whole hwhole
    clock_lt := hclock
    wait_whole := fun {pid q} hq hblocked => ?_
    wait_paid := fun {pid q} hq hblocked => ?_
    memory_le := ?_
    runnable_le := ?_
    spent := ?_
    paid := ?_
    idle := fun hidle => ?_ }
  · -- the time left is a difference of whole ticks
    obtain ⟨p, hp, hblocked, hwait⟩ := ProcessTable.exists_of_blocked_passTime hq hblocked
    rw [hwait]
    exact Nat.dvd_sub (h.wait_whole hp hblocked) hwhole
  -- what is added to the clock is taken from the time left
  · obtain ⟨p, hp, hblocked, hwait⟩ := ProcessTable.exists_of_blocked_passTime hq hblocked
    have hpaid := h.wait_paid hp hblocked
    have hle := hleast hp hblocked
    show s.clock + s.elapsed + q.wait ≤ s.cost
    rw [hwait]
    omega
  · -- each tick has added no more frames than there have been misses
    rw [hticks]
    show s.machine.stats.totals.memoryTicks +
      s.machine.frames.allocated * (s.elapsed / s.config.clockTick) ≤ _
    calc
      s.machine.stats.totals.memoryTicks +
          s.machine.frames.allocated * (s.elapsed / s.config.clockTick)
      _ ≤ s.ticks * s.machine.stats.totals.misses +
          s.machine.stats.totals.misses * (s.elapsed / s.config.clockTick) :=
        Nat.add_le_add h.memory_le (Nat.mul_le_mul_right _ h.allocated_le)
      _ = (s.ticks + s.elapsed / s.config.clockTick) * s.machine.stats.totals.misses := by
        rw [Nat.add_mul, Nat.mul_comm s.machine.stats.totals.misses]
  · -- each tick has added one at most
    rw [hticks]
    have hone : s.machine.canRun.toNat * (s.elapsed / s.config.clockTick) ≤
        1 * (s.elapsed / s.config.clockTick) := Nat.mul_le_mul_right _ (Bool.toNat_le _)
    have := h.runnable_le
    show s.machine.stats.totals.runnableTicks +
      s.machine.canRun.toNat * (s.elapsed / s.config.clockTick) ≤ _
    omega
  · show (s.machine.stats.totals.hits + s.machine.stats.totals.misses + 1) * s.config.clockTick ≤
      s.clock + s.elapsed
    rw [Nat.add_mul, Nat.one_mul]
    exact Nat.add_le_add h.spent htick
  · show s.clock + s.elapsed ≤ s.cost + s.config.clockTick
    -- the tick belongs to a reference, or else a miss has paid for the time
    cases hcan : s.machine.canRun with
    | true =>
      rw [elapsed_of_canRun hcan]
      exact Nat.add_le_add_right h.paid _
    | false => exact Nat.le_add_right_of_le (h.clock_le_cost hrun hcan)
  · exact h.clock_le_cost hrun hidle

/-! ### The rest of a step -/

/-- **Disk reads.** Those that are due are completed, and none is due afterwards. Nothing is paid or
spent by that. -/
theorem Underway.completeReads_eq_ok (h : s.Underway chart) :
    ∃ m, s.completeReads = .ok { s with machine := m } ∧ Underway chart { s with machine := m } ∧
      ∀ {pid p}, m.processes.bare? pid = some p → p.state = .blocked → 0 < p.wait := by
  have hlined := h.machine.lined
  have hfit : s.machine.stats.totals.misses < 2 ^ 64 := by
    have := h.references_lt
    omega
  have hdue : ∀ pid ∈ s.machine.processes.completed,
      ∃ q, s.machine.processes.bare? pid = some q ∧ q.state = .blocked := by
    intro pid hmem
    obtain ⟨q, hq, hblocked, -⟩ := (ProcessTable.mem_completed_iff hlined).1 hmem
    exact ⟨q, hq, hblocked⟩
  obtain ⟨m, hfold, hmachine, hkept, hmoved, hstats, hsize, hkind, hreferences⟩ :=
    Machine.foldlM_completeRead _ h.machine (ProcessTable.nodup_completed hlined) hdue hfit s.clock
  have hreplays : m.Replays chart := by
    refine h.replays.resume hlined hreferences (fun pid => ?_) (by rw [hstats]) (by rw [hstats])
    -- a process that was due goes on from its line; the others stay
    by_cases hmem : pid ∈ s.machine.processes.completed
    · obtain ⟨q, hq, hblocked⟩ := hdue pid hmem
      obtain ⟨r, r', hr, hpasses, hr'⟩ := hmoved pid hmem
      cases hq.symm.trans hr
      exact .inr ⟨q, r', hq, hblocked, hpasses, hr'⟩
    · exact .inl (hkept pid hmem)
  -- a process that is blocked afterwards was so before, with time left
  have hblocked : ∀ {pid p}, m.processes.bare? pid = some p → p.state = .blocked →
      s.machine.processes.bare? pid = some p ∧ 0 < p.wait := by
    intro pid p hp hstate
    by_cases hmem : pid ∈ s.machine.processes.completed
    · obtain ⟨r, r', -, hpasses, hr'⟩ := hmoved pid hmem
      cases hp.symm.trans hr'
      cases hpasses <;> cases hstate
    · rw [hkept pid hmem] at hp
      refine ⟨hp, Nat.pos_of_ne_zero fun hzero => hmem ?_⟩
      exact (ProcessTable.mem_completed_iff hlined).2 ⟨p, hp, hstate, hzero⟩
  have hcost : cost { s with machine := m } = s.cost := by
    rw [cost, hstats]
    rfl
  refine ⟨m, ?_, ⟨h.update hmachine hreplays hsize hkind (Nat.le_of_eq hcost.symm) ?_ ?_ ?_
    fun hp hstate => .inl (hblocked hp hstate).1, ?_, ?_, fun hidle => ?_⟩,
    fun hp hstate => (hblocked hp hstate).2⟩
  · rw [completeReads, hfold]
    rfl
  · rw [hstats]
  · rw [hstats]
  · rw [hstats]
  · show (m.stats.totals.hits + m.stats.totals.misses + 1) * s.config.clockTick ≤ s.clock
    rw [hstats]
    exact h.spent
  · rw [hcost]
    exact h.paid
  · rw [hcost]
    refine h.idle ?_
    -- a process that could run still can
    rw [Machine.canRun, Bool.not_eq_false', List.isEmpty_iff, List.eq_nil_iff_forall_not_mem] at hidle ⊢
    intro pid hmem
    obtain ⟨p, hp, hrunnable⟩ := hlined.queued.1 hmem
    refine hidle pid (hmachine.lined.queued.2 ⟨p, ?_, hrunnable⟩)
    refine (hkept pid fun hin => ?_).trans hp
    obtain ⟨q, hq, hwaiting⟩ := hdue pid hin
    cases hp.symm.trans hq
    cases hrunnable.symm.trans hwaiting

/-- **A reference.** The first runnable process executes a reference, and the step is complete. The tick
that the clock was ahead is spent on it, and if it is a miss the disk read begins that it pays for. -/
theorem Underway.runReference_eq_ok (h : s.Underway chart)
    (hpending : ∀ {pid p}, s.machine.processes.bare? pid = some p → p.state = .blocked → 0 < p.wait)
    (hhead : s.machine.processes.head? .runnable = some pid) :
    ∃ m, s.machine.runReference s.clock s.config.diskPenalty pid = .ok (.ok (), m) ∧
      Sound chart { s with machine := m } := by
  have hfit := h.references_lt
  obtain ⟨m, q, q', record, hit, hrun, hmachine, hq, hrunnable, hrecord, hbare, houtcome, hstats,
    hsize, hkind, hreferences⟩ := Machine.runReference_eq_ok h.machine hhead (by omega) (by omega)
      s.clock s.config.diskPenalty
  have hrecordPid : record.pid = pid :=
    ((h.machine.stands hq).pid_of_record hrecord).trans (h.machine.lined.keyed hq)
  have hreplays : m.Replays chart :=
    h.replays.refer h.machine.lined hq hrunnable hrecord hrecordPid rfl houtcome hbare hreferences
  obtain ⟨hcount, hmisses, hmemory, hrunnableTicks, hnew⟩ := houtcome.counts
  -- one reference more costs a tick, and a disk read if it missed
  have hcost : s.cost + s.config.clockTick + (m.stats.totals.misses - s.machine.stats.totals.misses) *
      s.config.diskPenalty = cost { s with machine := m } := by
    have hle := Nat.mul_le_mul_right s.config.diskPenalty hmisses
    have hafter : cost { s with machine := m } =
        (m.stats.totals.hits + m.stats.totals.misses) * s.config.clockTick +
          m.stats.totals.misses * s.config.diskPenalty := rfl
    rw [hafter, hcount, cost, Nat.add_one_mul, Nat.sub_mul]
    omega
  have hpaid : s.clock ≤ cost { s with machine := m } := by
    have := h.paid
    omega
  have hblocked : ∀ {other p}, m.processes.bare? other = some p → p.state = .blocked →
      s.machine.processes.bare? other = some p ∨
        (p.wait = s.config.diskPenalty ∧
          s.clock + s.config.diskPenalty ≤ cost { s with machine := m }) := by
    intro other p hp hstate
    -- only the process that missed begins to wait
    rw [hbare, Function.update_apply] at hp
    split at hp
    · cases hp
      obtain ⟨hwait, hmiss⟩ := hnew hstate
      refine .inr ⟨hwait, ?_⟩
      have := h.paid
      rw [hmiss, Nat.add_sub_cancel_left, Nat.one_mul] at hcost
      omega
    · exact .inl hp
  have hconsistent : Consistent chart { s with machine := m } :=
    h.update hmachine hreplays hsize hkind (by omega) hmisses hmemory hrunnableTicks hblocked
  refine ⟨m, hrun, hconsistent, fun {other p} hp hstate => ?_, ?_, hpaid⟩
  · -- a disk read that was not due is not, and one that begins takes a while
    rcases hblocked hp hstate with hold | ⟨hwait, -⟩
    · exact hpending hold hstate
    · rw [hwait]
      exact s.config.diskPenalty_pos
  · show (m.stats.totals.hits + m.stats.totals.misses) * s.config.clockTick ≤ s.clock
    rw [hcount]
    exact h.spent

/-- What a step does once time has passed, told apart so that the step can be cut in two. -/
def settle (s : Simulator) : Except Fault (Except SimulationError Bool × Simulator) := do
  let s ← s.completeReads
  match s.machine.processes.head? .runnable with
  | none => return (.ok true, s)
  | some pid =>
    let (outcome, machine) ← s.machine.runReference s.clock s.config.diskPenalty pid
    return (outcome.map fun () => true, { s with machine })

/-- **The second half of a step.** Once time has passed, the step succeeds. The disk reads that
are due are completed one after the other, and the head of the queue has its turn if there is
one. -/
theorem Underway.settle_eq_ok (h : s.Underway chart) :
    ∃ m, s.settle = .ok (.ok true, { s with machine := m }) ∧ Sound chart { s with machine := m } := by
  obtain ⟨m, hcomplete, hunder, hpending⟩ := h.completeReads_eq_ok
  unfold settle
  rw [hcomplete]
  cases hhead : m.processes.head? .runnable with
  | none =>
    -- nothing can run, so the clock is no further ahead than misses have paid for
    have hidle : m.canRun = false := by
      rw [ProcessTable.head?, List.head?_eq_none_iff] at hhead
      rw [Machine.canRun, hhead]
      rfl
    refine ⟨m, ?_, hunder.toConsistent, hpending, ?_, hunder.idle hidle⟩
    · simp only [bind, Except.bind, hhead]
      rfl
    · exact Nat.le_trans (Nat.mul_le_mul_right _ (Nat.le_succ _)) hunder.spent
  | some pid =>
    -- the reference uses up the tick that the clock is ahead
    obtain ⟨m', hrun, hsound⟩ := hunder.runReference_eq_ok hpending hhead
    refine ⟨m', ?_, hsound⟩
    simp only [bind, Except.bind, hhead]
    have hrun : m.runReference s.clock s.config.diskPenalty pid = .ok (.ok (), m') := hrun
    rw [hrun]
    rfl

/-! ### Whole steps -/

theorem step_of_isFinished (h : s.isFinished = true) : s.step = .ok (.ok false, s) := by
  rw [step, if_pos h]
  rfl

/-- A step lets time pass and then settles what is due. -/
theorem step_eq_settle (h : s.isFinished = false) (hpass : s.passTime = .ok t) :
    s.step = t.settle := by
  rw [step, if_neg (Bool.eq_false_iff.1 h), hpass]
  rfl

theorem step_eq_overflow (h : s.isFinished = false) (hclock : ¬s.clock + s.elapsed < 2 ^ 64) :
    s.step = .error .overflow := by
  rw [step, if_neg (Bool.eq_false_iff.1 h), passTime_eq_overflow hclock]
  rfl

/-- Time passes at the beginning of each step that the clock can count. -/
theorem Sound.passTime_eq_ok (h : s.Sound chart) (hrun : s.isFinished = false)
    (hclock : s.clock + s.elapsed < 2 ^ 64) : s.passTime = .ok (s.waited s.elapsed) :=
  Simulator.passTime_eq_ok hclock (h.waited hrun hclock).fits

/-- **A step.** While not everything is done, a step succeeds if the clock can count it. This is the only
way in which a step of a sound simulation can fail. -/
theorem Sound.step_eq_ok (h : s.Sound chart) (hrun : s.isFinished = false)
    (hclock : s.clock + s.elapsed < 2 ^ 64) :
    ∃ m, s.step = .ok (.ok true, { s with clock := s.clock + s.elapsed, machine := m }) ∧
      Sound chart { s with clock := s.clock + s.elapsed, machine := m } := by
  obtain ⟨m, hsettle, hsound⟩ := (h.waited hrun hclock).settle_eq_ok
  exact ⟨m, (step_eq_settle hrun (h.passTime_eq_ok hrun hclock)).trans hsettle, hsound⟩

/-- A step that was made lets time pass, and does the rest at the time that it is then. -/
theorem Sound.step_cases (h : s.Sound chart) (hstep : s.step = .ok (.ok true, t)) :
    s.isFinished = false ∧ s.clock + s.elapsed < 2 ^ 64 ∧ (s.waited s.elapsed).Underway chart ∧
      (s.waited s.elapsed).settle = .ok (.ok true, t) := by
  cases hrun : s.isFinished with
  | true => cases hstep.symm.trans (step_of_isFinished hrun)
  | false =>
    -- a step that was made was one that the clock could count
    by_cases hclock : s.clock + s.elapsed < 2 ^ 64
    · rw [step_eq_settle hrun (h.passTime_eq_ok hrun hclock)] at hstep
      exact ⟨rfl, hclock, h.waited hrun hclock, hstep⟩
    · cases hstep.symm.trans (step_eq_overflow hrun hclock)

/-- A step that was made from a sound simulation leads to another one. -/
theorem Sound.of_step (h : s.Sound chart) (hstep : s.step = .ok (.ok true, t)) :
    t.Sound chart ∧ t.config = s.config := by
  obtain ⟨hrun, hclock, -, -⟩ := h.step_cases hstep
  obtain ⟨m, hok, hsound⟩ := h.step_eq_ok hrun hclock
  cases hstep.symm.trans hok
  exact ⟨hsound, rfl⟩

/-- It took as much time as it was to take. -/
theorem Sound.clock_of_step (h : s.Sound chart) (hstep : s.step = .ok (.ok true, t)) :
    s.isFinished = false ∧ t.clock = s.clock + s.elapsed := by
  obtain ⟨hrun, hclock, -, -⟩ := h.step_cases hstep
  obtain ⟨m, hok, -⟩ := h.step_eq_ok hrun hclock
  cases hstep.symm.trans hok
  exact ⟨hrun, rfl⟩

/-! ### The start -/

/-- A simulation that began has surveyed its trace. -/
theorem exists_survey_of_start {config : ValidConfig} {reader : TraceReader} {stats : Stats}
    (h : start config reader stats = .ok (.ok s)) :
    ∃ survey after, reader.survey config.queueOrder = .ok (.ok survey, after) := by
  obtain ⟨⟨outcome, after⟩, hsurvey, h⟩ := Fault.bind_eq_ok_iff.1 h
  cases outcome with
  | error e => cases h
  | ok survey => exact ⟨survey, after, hsurvey⟩

/-- At its start the machine has the processes of the survey, in a memory and with a policy as they were
asked for. -/
theorem start_cases {config : ValidConfig} {reader after : TraceReader} {stats : Stats} {survey : Survey}
    (hsurvey : reader.survey config.queueOrder = .ok (.ok survey, after))
    (h : start config reader stats = .ok (.ok s)) :
    ∃ frames policy, FrameTable.ofSize config.totalFrames = .ok frames ∧
      Policy.build config.policy config.totalFrames config.seed = .ok policy ∧
      s = {
        config
        machine := {
          frames, policy, stats
          processes := survey.processes
          index := survey.index
          reader := after
          journal := [
            .started config.policy config.totalFrames config.pageSize survey.processes.size survey.records,
            .surveyed survey.records survey.processes.size] } } := by
  rw [start, hsurvey] at h
  obtain ⟨_, heq, h⟩ := Fault.bind_eq_ok_iff.1 h
  cases heq
  simp only [Fault.bind_eq_ok_iff, Fault.pure_eq_ok_iff] at h
  obtain ⟨frames, hframes, policy, hpolicy, hs⟩ := h
  cases hs
  exact ⟨frames, policy, hframes, hpolicy, rfl⟩

/-- No time has passed. -/
theorem clock_of_start {config : ValidConfig} {reader after : TraceReader} {stats : Stats}
    {survey : Survey} (hsurvey : reader.survey config.queueOrder = .ok (.ok survey, after))
    (h : start config reader stats = .ok (.ok s)) : s.clock = 0 := by
  obtain ⟨frames, policy, -, -, rfl⟩ := start_cases hsurvey h
  rfl

theorem config_of_start {config : ValidConfig} {reader : TraceReader} {stats : Stats}
    (h : start config reader stats = .ok (.ok s)) : s.config = config := by
  obtain ⟨survey, after, hsurvey⟩ := exists_survey_of_start h
  obtain ⟨frames, policy, -, -, rfl⟩ := start_cases hsurvey h
  rfl

/-- Parameters that agree in these have the same start. How time passes is not looked at. -/
theorem start_of_alike {config other : ValidConfig} {reader : TraceReader} {stats : Stats}
    (h : start config reader stats = .ok (.ok s)) (horder : other.queueOrder = config.queueOrder)
    (hframes : other.totalFrames = config.totalFrames) (hsize : other.pageSize = config.pageSize)
    (hpolicy : other.policy = config.policy) (hseed : other.seed = config.seed) :
    start other reader stats = .ok (.ok { s with config := other }) := by
  obtain ⟨survey, after, hsurvey⟩ := exists_survey_of_start h
  obtain ⟨frames, policy, hmemory, hbuild, rfl⟩ := start_cases hsurvey h
  rw [start, horder, hsurvey]
  simp only [hframes, hsize, hpolicy, hseed, hmemory, hbuild, bind, Except.bind]
  rfl

/-- **The start.** On a trace that the survey accepts a simulation can begin, and is sound. That the
survey went well says nothing of moving the medium anywhere but to its start. -/
theorem start_eq_ok {config : ValidConfig} {reader after : TraceReader} {stats : Stats}
    {survey : Survey} (hreach : reader.medium.bytes.size ≤ reader.medium.maxOffset)
    (hfresh : stats.totals = {})
    (hsurvey : reader.survey config.queueOrder = .ok (.ok survey, after)) :
    ∃ s chart, start config reader stats = .ok (.ok s) ∧ s.config = config ∧ s.Sound chart ∧
      reader.rewind.2.records.1 = .ok chart.records ∧ chart.records.length = survey.records := by
  obtain ⟨chart, -, -, hrecords, hindex, hlength, hafter, -, hmanned⟩ :=
    TraceReader.survey_eq_ok hreach hsurvey
  obtain ⟨frames, hframes, hsize, hallocated, hresidency⟩ :=
    Residency.ofSize_eq_ok config.totalFrames_pos
  obtain ⟨policy, hpolicy, hkind, hfollows⟩ : ∃ policy,
      Policy.build config.policy config.totalFrames config.seed = .ok policy ∧
        policy.kind = config.policy ∧ policy.Follows config.totalFrames fun _ => none :=
    Policy.build_eq_ok config.totalFrames_pos
  let m₀ : Machine :=
    { frames, processes := survey.processes, policy, index := survey.index, reader := after, stats }
  let m : Machine := (m₀.note (.surveyed survey.records survey.processes.size)).note
    (.started config.policy config.totalFrames config.pageSize survey.processes.size survey.records)
  -- nothing waits for the disk
  have hready : ∀ {pid p}, m.processes.bare? pid = some p → p.state ≠ .blocked := by
    intro pid p hp hblocked
    cases (hmanned.ready hp).symm.trans hblocked
  have hmachine : m.Sound chart := {
    lined := hmanned.lined
    index_eq := hindex.symm
    reader_eq := ⟨0, hafter⟩
    stands := hmanned.stands
    coherent := by
      show Coherent frames policy survey.processes.page?
      rw [hmanned.empty]
      exact ⟨hresidency, hsize.symm ▸ hfollows, hsize.symm ▸ config.totalFrames_pos⟩
    alive := fun {ref page p} hpage _ => by
      have hpage : survey.processes.page? ref = some page := hpage
      rw [hmanned.empty] at hpage
      cases hpage
    awaited := fun {pid p ref} hp hpending => by
      have hnone := ((hmanned.stands hp).runnable (hmanned.ready hp)).1
      cases hpending.symm.trans hnone
    accounted := by
      have hempty : m.processes.queue .blocked = [] :=
        List.eq_nil_iff_forall_not_mem.2 fun pid hmem => by
          obtain ⟨p, hp, hblocked⟩ := hmanned.lined.queued.1 hmem
          exact hready hp hblocked
      have hbalance : m.balance = stats.totals.evictions + frames.allocated + 0 := rfl
      have hmisses : m.stats.totals.misses = stats.totals.misses := rfl
      rw [hempty, hbalance, hallocated, hmisses, hfresh]
      rfl }
  have hreplays : m.Replays chart := Machine.replays_of_manned hmanned rfl hfresh
  have htotals : m.stats.totals = {} := hfresh
  refine ⟨{ config, machine := m }, chart, ?_, rfl, {
    machine := hmachine
    replays := hreplays
    size_eq := hsize
    kind_eq := hkind
    whole := Nat.dvd_zero _
    clock_lt := Nat.two_pow_pos 64
    wait_whole := fun hp hblocked => absurd hblocked (hready hp)
    wait_paid := fun hp hblocked => absurd hblocked (hready hp)
    memory_le := ?_
    runnable_le := ?_
    pending := fun hp hblocked => absurd hblocked (hready hp)
    spent := ?_
    paid := Nat.zero_le _ }, hrecords, hlength⟩
  · rw [start, hsurvey]
    simp only [hframes, hpolicy, bind, Except.bind]
    rfl
  · show m.stats.totals.memoryTicks ≤ _
    rw [htotals]
    exact Nat.zero_le _
  · show m.stats.totals.runnableTicks ≤ _
    rw [htotals]
    exact Nat.zero_le _
  · show (m.stats.totals.hits + m.stats.totals.misses) * config.clockTick ≤ 0
    rw [htotals, Nat.add_zero, Nat.zero_mul]

/-- Whether a survey succeeds, and what it finds passes a test. It decides whether there is a
simulation of a given trace, so that results about simulations can be applied to it. -/
def surveyPasses (reader : TraceReader) (order : QueueOrder) (test : Survey → Bool) : Bool :=
  match reader.survey order with
  | .ok (.ok survey, _) => test survey
  | _ => false

theorem exists_survey (reader : TraceReader) (order : QueueOrder) (test : Survey → Bool)
    (h : surveyPasses reader order test = true) :
    ∃ survey after, reader.survey order = .ok (.ok survey, after) ∧ test survey = true := by
  rw [surveyPasses] at h
  split at h
  · next survey after hsurvey => exact ⟨survey, after, hsurvey, h⟩
  · cases h

/-- Whether the records of a reader can be read, and pass a test. It is for traces that are
given by their bytes. -/
def recordsPass (reader : TraceReader) (test : List TraceRecord → Bool) : Bool :=
  match reader.rewind.2.records.1 with
  | .ok records => test records
  | .error _ => false

theorem exists_records (reader : TraceReader) (test : List TraceRecord → Bool)
    (h : recordsPass reader test = true) :
    ∃ records, reader.rewind.2.records.1 = .ok records ∧ test records = true := by
  rw [recordsPass] at h
  split at h
  · next records hrecords => exact ⟨records, hrecords, h⟩
  · cases h

theorem exists_single_records (reader : TraceReader) (pid : Pid)
    (h : recordsPass reader (·.all fun record => record.pid = pid) = true) :
    ∃ records, reader.rewind.2.records.1 = .ok records ∧ ∀ record ∈ records, record.pid = pid := by
  obtain ⟨records, hrecords, htest⟩ := exists_records reader _ h
  refine ⟨records, hrecords, ?_⟩
  intro record hmem
  exact of_decide_eq_true (List.all_eq_true.1 htest record hmem)

/-- A trace in which two processes take turns: pages 7 and 8 of the first one, and twice page 3 of the
second one. -/
def turns : TraceReader :=
  .ofBytes ⟨#[49, 32, 55, 10, 50, 32, 51, 10, 49, 32, 56, 10, 50, 32, 51, 10]⟩

/-- A memory of one frame, with disk reads of three ticks. -/
def cramped : ValidConfig where
  memoryBytes := 1
  pageSize := 1
  policy := .clock
  clockTick := 2
  diskPenalty := 6
  valid := by decide

/-! ### Runs of steps -/

/-- What a simulation comes to after a number of steps, each of which was made. A finished
simulation makes no further step, so that it reaches only itself. -/
inductive Reaches (s : Simulator) : Nat → Simulator → Prop where
  /-- No step was made. -/
  | start : Reaches s 0 s
  /-- One step more was made. -/
  | step {n : Nat} {t u : Simulator} (h : Reaches s n t) (hstep : t.step = .ok (.ok true, u)) :
    Reaches s (n + 1) u

/-- **All that a sound simulation reaches is sound**, and has the parameters that it began with. -/
theorem Sound.of_reaches (h : s.Sound chart) (hreach : s.Reaches n t) :
    t.Sound chart ∧ t.config = s.config := by
  induction hreach with
  | start => exact ⟨h, rfl⟩
  | step _ hstep ih =>
    obtain ⟨hsound, hconfig⟩ := ih
    obtain ⟨hsound', hconfig'⟩ := hsound.of_step hstep
    exact ⟨hsound', hconfig'.trans hconfig⟩

/-- A run makes a step, and goes on from there unless the step failed or all was done. -/
theorem run_eq (s : Simulator) : s.run = match s.step with
    | .error fault => .error fault
    | .ok (.error e, s) => .ok (.error e, s)
    | .ok (.ok true, s) => run s
    | .ok (.ok false, s) => do
      let report ← s.report
      return (.ok report, { s with machine := s.machine.note (.completed s.config.policy
        report.runtime report.hits report.misses report.evictions) }) := by
  rw [run]
  split <;> simp_all

theorem run_of_step (h : s.step = .ok (.ok true, t)) : s.run = t.run := by
  rw [run_eq, h]

theorem run_of_fault {fault : Fault} (h : s.step = .error fault) : s.run = .error fault := by
  rw [run_eq, h]

theorem run_of_isFinished (h : s.isFinished = true) {report : Report} (hreport : s.report = .ok report) :
    s.run = .ok (.ok report, { s with machine := s.machine.note (.completed s.config.policy
      report.runtime report.hits report.misses report.evictions) }) := by
  rw [run_eq, step_of_isFinished h]
  simp only [hreport, bind, Except.bind]
  rfl

/-- A run goes the same way on from whatever it has reached. -/
theorem run_of_reaches (h : s.Reaches n t) : s.run = t.run := by
  induction h with
  | start => rfl
  | step _ hstep ih => rw [ih, run_of_step hstep]

theorem Reaches.trans {u : Simulator} {more : Nat} (h : s.Reaches n t) (h' : t.Reaches more u) :
    s.Reaches (n + more) u := by
  induction h' with
  | start => exact h
  | step _ hstep ih => exact .step ih hstep

theorem Reaches.head {u : Simulator} (hstep : s.step = .ok (.ok true, t)) (h : t.Reaches n u) :
    s.Reaches (n + 1) u := by
  rw [Nat.add_comm]
  exact Reaches.trans (.step .start hstep) h

end Simulator

end DemandPaging
