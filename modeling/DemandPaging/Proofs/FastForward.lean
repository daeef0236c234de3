import DemandPaging.Proofs.Steps

/-!
# Passing over time

Time in which nothing can run may be passed over at once or tick by tick, as the parameters say
(`ValidConfig.pace`). Both come to the same: while a simulation that goes tick by tick waits, each step
only lets a tick pass (`Sound.step_of_idle`), so a number of steps comes to where one longer one leads
(`Sound.reaches_waited`), and the disk reads that are due then are the same.

So a step that passes time over is one or more steps tick by tick (`Sound.reaches_of_step`), a run with
such steps ends as a run without them does (`Sound.run_pace`), and the simulations that it passes through
are among those that the other one passes through (`fastForward_agrees`).
-/

namespace DemandPaging

/-- The parameters with or without passing over time in which nothing can run. The pace is not
among the things that make parameters valid. -/
def ValidConfig.pace (config : ValidConfig) (fast : Bool) : ValidConfig :=
  { config with fastForward := fast, valid := config.valid }

namespace Simulator

variable {chart : Chart} {s t : Simulator} {fast : Bool} {n count elapsed wait : Nat}

/-- The simulation with or without passing over time in which nothing can run. It is at the same
point of its run, and everything but the pace is as before. -/
def pace (s : Simulator) (fast : Bool) : Simulator := { s with config := s.config.pace fast }

/-! ### What does not depend on it -/

theorem start_pace {config : ValidConfig} {reader : TraceReader} {stats : Stats}
    (h : start config reader stats = .ok (.ok s)) (fast : Bool) :
    start (config.pace fast) reader stats = .ok (.ok (s.pace fast)) := by
  have hconfig : s.config = config := config_of_start h
  rw [pace, hconfig]
  exact start_of_alike h rfl rfl rfl rfl rfl

theorem Sound.pace (h : s.Sound chart) (fast : Bool) : (s.pace fast).Sound chart where
  machine := h.machine
  replays := h.replays
  size_eq := h.size_eq
  kind_eq := h.kind_eq
  whole := h.whole
  clock_lt := h.clock_lt
  wait_whole := h.wait_whole
  wait_paid := h.wait_paid
  memory_le := h.memory_le
  runnable_le := h.runnable_le
  pending := h.pending
  spent := h.spent
  paid := h.paid

theorem completeReads_pace (h : s.completeReads = .ok t) (fast : Bool) :
    (s.pace fast).completeReads = .ok (t.pace fast) := by
  rw [completeReads, Fault.bind_eq_ok_iff] at h
  obtain ⟨m, hfold, heq⟩ := h
  cases Fault.pure_eq_ok_iff.1 heq
  have hfold : (s.pace fast).machine.processes.completed.foldlM
      (Machine.completeRead (s.pace fast).clock) (s.pace fast).machine = .ok m := hfold
  rw [completeReads, hfold]
  rfl

theorem settle_pace (h : s.settle = .ok (.ok true, t)) (fast : Bool) :
    (s.pace fast).settle = .ok (.ok true, t.pace fast) := by
  rw [settle, Fault.bind_eq_ok_iff] at h
  obtain ⟨u, hcomplete, h⟩ := h
  rw [settle, completeReads_pace hcomplete fast]
  simp only [bind, Except.bind]
  cases hhead : u.machine.processes.head? .runnable with
  | none =>
    have hhead' : (u.pace fast).machine.processes.head? .runnable = none := hhead
    simp only [hhead, Fault.pure_eq_ok_iff, Prod.mk.injEq, true_and] at h
    cases h
    rw [hhead']
    rfl
  | some pid =>
    have hhead' : (u.pace fast).machine.processes.head? .runnable = some pid := hhead
    simp only [hhead, Fault.bind_eq_ok_iff, Fault.pure_eq_ok_iff] at h
    obtain ⟨⟨outcome, m⟩, hrun, h⟩ := h
    obtain ⟨hmap, rfl⟩ := Prod.mk.inj h
    have hrun' : (u.pace fast).machine.runReference (u.pace fast).clock
      (u.pace fast).config.diskPenalty pid = .ok (outcome, m) := hrun
    simp only [hhead', hrun', hmap]
    rfl

/-! ### Waiting tick by tick -/

/-- **An idle step.** When nothing can run and no disk read becomes due, a step lets a tick
pass. Nothing is completed and nothing is executed, so what is left of the step is the time. -/
theorem Sound.step_of_idle (h : s.Sound chart) (hslow : s.config.fastForward = false)
    (hrun : s.isFinished = false) (hidle : s.machine.canRun = false)
    (hclock : s.clock + s.config.clockTick < 2 ^ 64)
    (hlater : ∀ {pid p}, s.machine.processes.bare? pid = some p → p.state = .blocked →
      s.config.clockTick < p.wait) :
    s.step = .ok (.ok true, s.waited s.config.clockTick) := by
  have helapsed := elapsed_of_slow hslow
  have hpass := h.passTime_eq_ok hrun (helapsed.symm ▸ hclock)
  rw [helapsed] at hpass
  -- each process that waits has time left after the tick
  have hnone : (s.waited s.config.clockTick).machine.processes.completed = [] := by
    refine List.eq_nil_iff_forall_not_mem.2 fun pid hmem => ?_
    obtain ⟨q, hq, hblocked, hzero⟩ :=
      (ProcessTable.mem_completed_iff h.machine.lined.passTime).1 hmem
    obtain ⟨p, hp, hblocked, hwait⟩ := ProcessTable.exists_of_blocked_passTime hq hblocked
    have := hlater hp hblocked
    rw [hwait] at hzero
    omega
  have hcomplete : (s.waited s.config.clockTick).completeReads =
      .ok (s.waited s.config.clockTick) := by
    rw [completeReads, hnone]
    rfl
  have hhead : (s.waited s.config.clockTick).machine.processes.head? .runnable = none := by
    rw [Machine.canRun, Bool.not_eq_false', List.isEmpty_iff] at hidle
    exact List.head?_eq_none_iff.2 hidle
  rw [step_eq_settle hrun hpass, settle, hcomplete]
  simp only [bind, Except.bind, hhead]
  rfl

/-- Before the next disk read is complete, a number of steps lets as many ticks pass. By
induction on that number: the state after some of them is the waiting state with that much time
passed, and idle as well. -/
theorem Sound.reaches_waited (h : s.Sound chart) (hslow : s.config.fastForward = false)
    (hrun : s.isFinished = false) (hidle : s.machine.canRun = false)
    (hnext : s.machine.processes.nextCompletion? = some wait)
    (hlater : count * s.config.clockTick < wait)
    (hclock : s.clock + count * s.config.clockTick < 2 ^ 64) :
    s.Reaches count (s.waited (count * s.config.clockTick)) := by
  induction count with
  | zero =>
    rw [Nat.zero_mul, waited_zero]
    exact .start
  | succ count ih =>
    rw [Nat.add_one_mul] at hlater hclock ⊢
    have hreaches := ih (by omega) (by omega)
    -- after the ticks so far no disk read is due, nor will one be after the next tick
    obtain ⟨hsound, -⟩ := h.of_reaches hreaches
    obtain ⟨-, hleast⟩ := ProcessTable.nextCompletion?_eq_some hnext
    have hstep := hsound.step_of_idle hslow hrun hidle (by
        show s.clock + count * s.config.clockTick + s.config.clockTick < 2 ^ 64
        omega) fun {pid q} hq hblocked => by
      obtain ⟨p, hp, hblocked, hwait⟩ := ProcessTable.exists_of_blocked_passTime hq hblocked
      have := hleast hp hblocked
      show s.config.clockTick < q.wait
      rw [hwait]
      omega
    -- ticks that pass one after the other are as good as one longer time
    rw [← waited_waited (Nat.dvd_mul_left _ _)]
    exact .step hreaches hstep

/-! ### One long step and several short ones -/

/-- A step takes a number of ticks, and all of them but the last one may pass tick by tick. The
last one is left out since the disk read is complete after it. -/
theorem Sound.exists_count (h : s.Sound chart) (hrun : s.isFinished = false) :
    ∃ count, s.elapsed = count * s.config.clockTick + s.config.clockTick ∧
      ∀ passed ≤ count, s.clock + passed * s.config.clockTick < 2 ^ 64 →
        (s.pace false).Reaches passed ((s.pace false).waited (passed * s.config.clockTick)) := by
  -- a single tick is the last one already
  have hone : s.elapsed = s.config.clockTick →
      ∃ count, s.elapsed = count * s.config.clockTick + s.config.clockTick ∧
        ∀ passed ≤ count, s.clock + passed * s.config.clockTick < 2 ^ 64 →
          (s.pace false).Reaches passed ((s.pace false).waited (passed * s.config.clockTick)) := by
    intro heq
    refine ⟨0, by rw [heq, Nat.zero_mul, Nat.zero_add], fun passed hpassed _ => ?_⟩
    rw [Nat.le_zero.1 hpassed, Nat.zero_mul, waited_zero]
    exact .start
  cases hcan : s.machine.canRun with
  | true => exact hone (elapsed_of_canRun hcan)
  | false =>
    cases hfast : s.config.fastForward with
    | false => exact hone (elapsed_of_slow hfast)
    -- the time until the next disk read is complete
    | true =>
      obtain ⟨wait, hnext⟩ := h.exists_wait hrun hcan
      obtain ⟨⟨pid, p, hp, hblocked, rfl⟩, -⟩ := ProcessTable.nextCompletion?_eq_some hnext
      obtain ⟨ticks, hticks⟩ := h.wait_whole hp hblocked
      have hpos := h.pending hp hblocked
      have htick := Nat.le_of_dvd hpos (h.wait_whole hp hblocked)
      obtain ⟨count, rfl⟩ : ∃ count, ticks = count + 1 := by
        refine Nat.exists_eq_succ_of_ne_zero fun hzero => ?_
        rw [hticks, hzero, Nat.mul_zero] at hpos
        exact Nat.lt_irrefl 0 hpos
      rw [Nat.mul_comm, Nat.add_one_mul] at hticks
      refine ⟨count, (elapsed_of_fast hfast hcan hnext htick).trans hticks, ?_⟩
      intro passed hpassed hclock
      refine (h.pace false).reaches_waited rfl hrun hcan hnext ?_ hclock
      have hle := Nat.mul_le_mul_right s.config.clockTick hpassed
      have hpos := s.config.clockTick_pos
      show passed * s.config.clockTick < p.wait
      omega

/-- **A step.** Tick by tick, some number of steps leads to where one step leads: first those in
which nothing happens, and then one that does what is left of it. -/
theorem Sound.reaches_of_step (h : s.Sound chart) (hstep : s.step = .ok (.ok true, t)) :
    ∃ n, (s.pace false).Reaches n (t.pace false) := by
  obtain ⟨hrun, hclock, -, hstep⟩ := h.step_cases hstep
  -- what is due after the long step is due after the last tick
  have hsettle := settle_pace hstep false
  obtain ⟨count, helapsed, hpass⟩ := h.exists_count hrun
  rw [helapsed] at hsettle hclock
  have hreaches := hpass count (Nat.le_refl _) (by omega)
  obtain ⟨hsound, -⟩ := (h.pace false).of_reaches hreaches
  -- the last tick ends the wait
  let u := (s.pace false).waited (count * s.config.clockTick)
  have hgoing : u.isFinished = false := hrun
  have htick : u.elapsed = s.config.clockTick := elapsed_of_slow rfl
  have hlast : u.clock + u.elapsed < 2 ^ 64 := by
    rw [htick]
    show s.clock + count * s.config.clockTick + s.config.clockTick < 2 ^ 64
    omega
  have hpassed : u.passTime = .ok (u.waited u.elapsed) := hsound.passTime_eq_ok hgoing hlast
  have hjoin : u.waited u.elapsed =
      (s.pace false).waited (count * s.config.clockTick + s.config.clockTick) := by
    rw [htick]
    exact waited_waited (Nat.dvd_mul_left _ _)
  refine ⟨count + 1, .step hreaches ?_⟩
  exact (step_eq_settle hgoing (hpassed.trans (congrArg _ hjoin))).trans hsettle

/-- Tick by tick, the clock is overrun if it is overrun by one step. The ticks are counted up to
the last that fits, and the next one does not. -/
theorem Sound.run_eq_overflow (h : s.Sound chart) (hrun : s.isFinished = false)
    (hclock : ¬s.clock + s.elapsed < 2 ^ 64) : (s.pace false).run = .error .overflow := by
  obtain ⟨count, helapsed, hpass⟩ := h.exists_count hrun
  have hlt := h.clock_lt
  -- as many ticks as the clock can still count
  let passed := (2 ^ 64 - 1 - s.clock) / s.config.clockTick
  have hle : passed * s.config.clockTick ≤ 2 ^ 64 - 1 - s.clock := Nat.div_mul_le_self _ _
  have hmore : 2 ^ 64 - 1 - s.clock < passed * s.config.clockTick + s.config.clockTick := by
    have := Nat.lt_div_mul_add (a := 2 ^ 64 - 1 - s.clock) s.config.clockTick_pos
    exact this
  have hpassed : passed ≤ count := by
    refine Nat.le_of_not_lt fun hgt => ?_
    have := Nat.mul_le_mul_right s.config.clockTick (Nat.succ_le_of_lt hgt)
    rw [Nat.succ_mul] at this
    omega
  have hreaches := hpass passed hpassed (by omega)
  have hover : ¬((s.pace false).waited (passed * s.config.clockTick)).clock +
      ((s.pace false).waited (passed * s.config.clockTick)).elapsed < 2 ^ 64 := by
    rw [elapsed_of_slow rfl]
    show ¬s.clock + passed * s.config.clockTick + s.config.clockTick < 2 ^ 64
    omega
  -- and the next tick overruns the clock
  rw [run_of_reaches hreaches]
  exact run_of_fault (step_eq_overflow hrun hover)

/-! ### Whole runs -/

/-- **Runs.** Tick by tick, a run comes to the same end. By induction on the time that is left
on the clock: one step is made by several others, and both runs go on from where it leads. -/
theorem Sound.run_pace (h : s.Sound chart) :
    (s.pace false).run = s.run.map fun r => (r.1, r.2.pace false) := by
  -- each step leaves less time on the clock
  induction hleft : 2 ^ 64 - s.clock using Nat.strong_induction_on generalizing s with
  | h left ih =>
    cases hrun : s.isFinished with
    | true =>
      -- both runs are at their end, and report the same totals
      have hdone : (s.pace false).isFinished = true := hrun
      cases hreport : s.report with
      | error fault =>
        have hreport' : (s.pace false).report = .error fault := hreport
        rw [run_eq, run_eq, step_of_isFinished hrun, step_of_isFinished hdone]
        simp only [hreport, hreport', bind, Except.bind]
        rfl
      | ok report =>
        have hreport' : (s.pace false).report = .ok report := hreport
        rw [run_of_isFinished hrun hreport, run_of_isFinished hdone hreport']
        rfl
    | false =>
      by_cases hclock : s.clock + s.elapsed < 2 ^ 64
      -- the step is made by several ones, and both runs go on from there
      · obtain ⟨m, hstep, hsound⟩ := h.step_eq_ok hrun hclock
        obtain ⟨n, hreaches⟩ := h.reaches_of_step hstep
        have hpos := s.elapsed_pos
        rw [run_of_reaches hreaches, run_of_step hstep]
        exact ih (2 ^ 64 - (s.clock + s.elapsed)) (by omega) hsound rfl
      -- neither run can go on
      · rw [h.run_eq_overflow hrun hclock, run_of_fault (step_eq_overflow hrun hclock)]
        rfl

/-- Tick by tick, a simulation passes through all that it reaches when it passes time over. -/
theorem Sound.reaches_pace (h : s.Sound chart) (hreaches : s.Reaches n t) :
    ∃ more, (s.pace false).Reaches more (t.pace false) := by
  induction hreaches with
  | start => exact ⟨0, .start⟩
  | step hreaches hstep ih =>
    obtain ⟨hsound, -⟩ := h.of_reaches hreaches
    obtain ⟨passed, hpassed⟩ := ih
    obtain ⟨more, hmore⟩ := hsound.reaches_of_step hstep
    exact ⟨passed + more, hpassed.trans hmore⟩

/-- **Passing over time changes nothing.** On a trace that the survey accepts, with all its bytes within
reach, a simulation that passes over time in which nothing can run and one that goes tick by tick both
begin. If a run of one of them is complete, so is that of the other, with the same report and the same
machine at the same time; and what the first one reaches the second one reaches too. -/
theorem fastForward_agrees {config : ValidConfig} {reader after : TraceReader} {stats : Stats}
    {survey : Survey} (hreach : reader.medium.bytes.size ≤ reader.medium.maxOffset)
    (hfresh : stats.totals = {})
    (hsurvey : reader.survey config.queueOrder = .ok (.ok survey, after)) :
    ∃ fast slow, start (config.pace true) reader stats = .ok (.ok fast) ∧
      start (config.pace false) reader stats = .ok (.ok slow) ∧
      (∀ report clock machine,
        (∃ t, fast.run = .ok (.ok report, t) ∧ t.clock = clock ∧ t.machine = machine) ↔
          ∃ t, slow.run = .ok (.ok report, t) ∧ t.clock = clock ∧ t.machine = machine) ∧
      ∀ {n t}, fast.Reaches n t →
        ∃ m u, slow.Reaches m u ∧ u.clock = t.clock ∧ u.machine = t.machine := by
  obtain ⟨s, chart, hstart, -, hsound, -, -⟩ := start_eq_ok hreach hfresh hsurvey
  have hfast := hsound.pace true
  have hruns : (s.pace false).run = (s.pace true).run.map fun r => (r.1, r.2.pace false) :=
    hfast.run_pace
  refine ⟨s.pace true, s.pace false, start_pace hstart true, start_pace hstart false, ?_, ?_⟩
  · intro report clock machine
    rw [hruns]
    constructor
    · rintro ⟨t, hrun, hclock, hmachine⟩
      exact ⟨t.pace false, by rw [hrun]; rfl, hclock, hmachine⟩
    · rintro ⟨t, hrun, hclock, hmachine⟩
      cases hend : (s.pace true).run with
      | error fault =>
        rw [hend] at hrun
        cases hrun
      | ok result =>
        rw [hend] at hrun
        obtain ⟨hreport, rfl⟩ := Prod.mk.inj (Except.ok.inj hrun)
        exact ⟨result.2, by rw [← hreport], hclock, hmachine⟩
  · intro n t hreaches
    obtain ⟨m, hpassed⟩ := hfast.reaches_pace hreaches
    exact ⟨m, t.pace false, hpassed, rfl, rfl⟩

/-- Two processes that take turns over one frame, and wait most of the time. -/
theorem fastForward_agrees_on_turns : ∃ survey after,
    turns.survey cramped.queueOrder = .ok (.ok survey, after) ∧
      ∃ fast slow, start (cramped.pace true) turns { totalFrames := 1 } = .ok (.ok fast) ∧
        start (cramped.pace false) turns { totalFrames := 1 } = .ok (.ok slow) ∧
        (∀ report clock machine,
          (∃ t, fast.run = .ok (.ok report, t) ∧ t.clock = clock ∧ t.machine = machine) ↔
            ∃ t, slow.run = .ok (.ok report, t) ∧ t.clock = clock ∧ t.machine = machine) ∧
        ∀ {n t}, fast.Reaches n t →
          ∃ m u, slow.Reaches m u ∧ u.clock = t.clock ∧ u.machine = t.machine := by
  obtain ⟨survey, after, hsurvey, -⟩ :=
    exists_survey turns cramped.queueOrder (fun _ => true) (by decide +kernel)
  exact ⟨survey, after, hsurvey, fastForward_agrees (by decide) rfl hsurvey⟩

end Simulator

end DemandPaging
