import DemandPaging.Proofs.Completion
import DemandPaging.Proofs.Retiming
import DemandPaging.Proofs.Waiting

/-!
# Time is counted in ticks

If a tick and a disk read both take a number of times as long, a simulation takes as many times as long,
and nothing else about it changes (`Simulator.stretch`). A machine does the same under any reckoning of
time; what is left is the time that passes. It is compared, taken away and divided by the tick, and all
of these agree with multiplication (`elapsed_stretch`, `passTime_stretch`). So a step of the stretched
simulation is the stretched step (`step_stretch`), as long as its clock can count it.

All parameters with the same ratio of disk read to tick are stretched from the same ones, those in which
a tick takes a unit of time (`ValidConfig.inTicks`). So what is reported depends on the ratio only
(`runs_in_ticks`), and a page-in takes as many ticks as the ratio says.
-/

namespace DemandPaging

namespace ValidConfig

variable {config : ValidConfig} {c tick penalty : Nat}

theorem problem?_of_timed (htick : 0 < tick) (hpenalty : 0 < penalty) (hwhole : tick ∣ penalty) :
    Config.problem? { config.toConfig with clockTick := tick, diskPenalty := penalty } = none := by
  have h := config.valid
  unfold Config.problem? at h ⊢
  grind [Nat.mod_eq_zero_of_dvd hwhole]

/-- The parameters with all times a number of times as long. They are valid again: times stay positive,
and a disk read stays a whole number of ticks. -/
def stretch (config : ValidConfig) (c : Nat) (hc : 0 < c) : ValidConfig where
  toConfig := { config.toConfig with
    clockTick := c * config.clockTick
    diskPenalty := c * config.diskPenalty }
  valid := problem?_of_timed (Nat.mul_pos hc config.clockTick_pos) (Nat.mul_pos hc config.diskPenalty_pos)
    (Nat.mul_dvd_mul_left c config.clockTick_dvd_diskPenalty)

/-- The parameters with all times in ticks. Two choices of parameters with the same ratio, and the same
in all else, have these in common. -/
def inTicks (config : ValidConfig) : ValidConfig where
  toConfig := { config.toConfig with
    clockTick := 1
    diskPenalty := config.diskPenalty / config.clockTick }
  valid := problem?_of_timed Nat.one_pos
    (Nat.div_pos (Nat.le_of_dvd config.diskPenalty_pos config.clockTick_dvd_diskPenalty)
      config.clockTick_pos) (Nat.one_dvd _)

/-- All parameters are stretched from those in ticks. -/
theorem stretch_inTicks : config.inTicks.stretch config.clockTick config.clockTick_pos = config := by
  have htick : config.clockTick * 1 = config.clockTick := Nat.mul_one _
  have hpenalty : config.clockTick * (config.diskPenalty / config.clockTick) = config.diskPenalty :=
    Nat.mul_div_cancel' config.clockTick_dvd_diskPenalty
  -- the parameters are compared without the proof that they are valid, which is then no matter
  have hsame : (config.inTicks.stretch config.clockTick config.clockTick_pos).toConfig =
      config.toConfig := by
    show ({ config.toConfig with
      clockTick := config.clockTick * 1
      diskPenalty := config.clockTick * (config.diskPenalty / config.clockTick) } : Config) = _
    rw [htick, hpenalty]
  cases config
  exact (ValidConfig.mk.injEq ..).mpr hsame

end ValidConfig

/-! ### Time that is left -/

namespace ProcessTable

variable {t : ProcessTable} {f : Nat → Nat} {c elapsed : Nat}

theorem waits_retime : (t.retime f).waits = t.waits.map (Prod.map id f) := by
  rw [waits, waits, retime, OrderedMap.map, List.filter_map, List.map_map, List.map_map]
  rfl

/-- The least time left is stretched with all others, since multiplication keeps their order. -/
theorem nextCompletion?_stretch :
    (t.retime (c * ·)).nextCompletion? = t.nextCompletion?.map (c * ·) := by
  rw [nextCompletion?, nextCompletion?, waits_retime, List.map_map]
  have hmap : (Prod.snd ∘ Prod.map id (c * ·) : Pid × Nat → Nat) = (c * ·) ∘ Prod.snd := rfl
  rw [hmap, ← List.map_map]
  cases t.waits.map Prod.snd with
  | nil => rfl
  | cons first rest =>
    rw [List.map_cons, List.min?_cons', List.min?_cons', List.foldl_map, Option.map_some]
    congr 1
    -- the minimum is a fold, and each step of it commutes with the factor
    exact List.foldl_hom (c * ·) fun least wait => Nat.mul_min_mul_left c least wait

/-- No time is left when none was left before. Here the factor has to be positive, as any time
is nothing when it is taken zero times. -/
theorem completed_stretch (hc : 0 < c) : (t.retime (c * ·)).completed = t.completed := by
  have hdue : ((t.retime (c * ·)).waits.filter (·.2 = 0)) =
      (t.waits.filter (·.2 = 0)).map (Prod.map id (c * ·)) := by
    rw [waits_retime, List.filter_map]
    congr 1
    apply List.filter_congr
    intro entry _
    have hzero : c * entry.2 = 0 ↔ entry.2 = 0 := Nat.mul_eq_zero.trans (or_iff_right hc.ne')
    exact decide_eq_decide.2 hzero
  rw [completed, completed, hdue]
  apply List.filter_congr
  intro pid _
  rw [List.any_map]
  rfl

/-- What is left is stretched after a stretched time. A difference that is cut off at zero is cut off at
the same time. -/
theorem passTime_stretch :
    (t.retime (c * ·)).passTime (c * elapsed) = (t.passTime elapsed).retime (c * ·) := by
  refine congrArg (ProcessTable.mk · t.queues t.order) (OrderedMap.map_map fun p => ?_).symm
  show Process.retime (c * ·) (if p.state = .blocked then p.passTime elapsed else p) =
    if p.state = .blocked then (p.retime (c * ·)).passTime (c * elapsed) else p.retime (c * ·)
  -- only blocked processes wait
  split
  · rw [Process.retime, Process.passTime, Process.retime, Process.passTime, Nat.mul_sub]
  · rfl

end ProcessTable

namespace Simulator

variable {chart : Chart} {s t t' : Simulator} {c n elapsed : Nat} {hc : 0 < c}

/-- The simulation with all times a number of times as long: the clock, the times that processes have
left and those in the journal, besides the parameters. -/
def stretch (s : Simulator) (c : Nat) (hc : 0 < c) : Simulator where
  config := s.config.stretch c hc
  clock := c * s.clock
  machine := s.machine.retime (c * ·)

/-- A simulation in ticks, stretched to the tick of some parameters. Every simulation is one of these, so
that two of them with the same ratio can be compared with a third. -/
def stretchTo (s : Simulator) (config : ValidConfig) : Simulator :=
  s.stretch config.clockTick config.clockTick_pos

/-! ### Steps -/

/-- It shows the same number of ticks. -/
theorem ticks_stretch : (s.stretch c hc).ticks = s.ticks :=
  Nat.mul_div_mul_left s.clock s.config.clockTick hc

theorem report_stretch : (s.stretch c hc).report = s.report := by
  rw [report, report, ticks_stretch]
  rfl

/-- A step takes a stretched time: a tick, or what is left of a disk read but no less than a
tick. The greater of two times is stretched with them. -/
theorem elapsed_stretch : (s.stretch c hc).elapsed = c * s.elapsed := by
  have hnext : (s.stretch c hc).machine.processes.nextCompletion? =
      s.machine.processes.nextCompletion?.map (c * ·) := ProcessTable.nextCompletion?_stretch
  have hcan : (s.stretch c hc).machine.canRun = s.machine.canRun := rfl
  have hfast : (s.stretch c hc).config.fastForward = s.config.fastForward := rfl
  have htick : (s.stretch c hc).config.clockTick = c * s.config.clockTick := rfl
  rw [Simulator.elapsed, Simulator.elapsed, hnext, hcan, hfast, htick]
  -- time is passed over if nothing can run and somebody waits
  cases s.machine.processes.nextCompletion? with
  | none => rfl
  | some wait =>
    dsimp only [Option.map_some]
    split
    · exact Nat.mul_max_mul_left c wait s.config.clockTick
    · rfl

/-- As many ticks are counted. -/
theorem sample_stretch : (s.stretch c hc).sample (c * elapsed) = s.sample elapsed := by
  -- whether it was one tick, and how many ticks it was, both cancel the factor
  have hone : c * elapsed = (s.stretch c hc).config.clockTick ↔ elapsed = s.config.clockTick :=
    Nat.mul_right_inj hc.ne'
  have hticks : c * elapsed / (s.stretch c hc).config.clockTick = elapsed / s.config.clockTick :=
    Nat.mul_div_mul_left elapsed s.config.clockTick hc
  rw [sample, sample, hticks]
  simp only [hone]
  rfl

/-- **Time passes** in the same way, if the clock can count it. -/
theorem passTime_stretch (hclock : c * (s.clock + s.elapsed) < 2 ^ 64) :
    (s.stretch c hc).passTime = (stretch · c hc) <$> s.passTime := by
  -- the longer time fits, so the shorter one does
  have hfit : Fault.fit 64 ((s.stretch c hc).clock + c * s.elapsed) =
      (c * ·) <$> Fault.fit 64 (s.clock + s.elapsed) := by
    have hsum : (s.stretch c hc).clock + c * s.elapsed = c * (s.clock + s.elapsed) :=
      (Nat.mul_add c s.clock s.elapsed).symm
    have hless : s.clock + s.elapsed < 2 ^ 64 :=
      Nat.lt_of_le_of_lt (Nat.le_mul_of_pos_left _ hc) hclock
    rw [hsum, Fault.fit, if_pos hclock, Fault.fit, if_pos hless]
    rfl
  have hprocesses : (s.stretch c hc).machine.processes.passTime (c * s.elapsed) =
      (s.machine.processes.passTime s.elapsed).retime (c * ·) := ProcessTable.passTime_stretch
  rw [passTime, passTime, elapsed_stretch, sample_stretch, hprocesses]
  apply Fault.bind_of_map hfit
  intro clock
  apply Fault.bind_of_same
  intro stats
  rfl

theorem completeReads_stretch :
    (s.stretch c hc).completeReads = (stretch · c hc) <$> s.completeReads := by
  have hdue : (s.stretch c hc).machine.processes.completed = s.machine.processes.completed :=
    ProcessTable.completed_stretch hc
  rw [completeReads, completeReads, hdue]
  apply Fault.bind_of_map Machine.foldlM_completeRead_retime
  intro m
  rfl

/-- **A step** of the stretched simulation is the stretched step. The hypothesis is about the
stretched clock, which may be at its end when the other is not. -/
theorem step_stretch (hclock : s.isFinished = false → c * (s.clock + s.elapsed) < 2 ^ 64) :
    (s.stretch c hc).step = Prod.map id (stretch · c hc) <$> s.step := by
  have hrun : (s.stretch c hc).isFinished = s.isFinished := rfl
  cases hfinished : s.isFinished with
  -- a step of a simulation that is finished does nothing, and does not look at the clock
  | true =>
    rw [step_of_isFinished hfinished, step_of_isFinished (hrun.trans hfinished)]
    rfl
  | false =>
    rw [step, step, hrun, hfinished, if_neg Bool.false_ne_true, if_neg Bool.false_ne_true]
    -- time passes, disk reads are completed, and the head of the queue runs if there is one
    apply Fault.bind_of_map (passTime_stretch (hclock hfinished))
    intro u
    apply Fault.bind_of_map completeReads_stretch
    intro v
    have hhead : (v.stretch c hc).machine.processes.head? .runnable =
      v.machine.processes.head? .runnable := rfl
    rw [hhead]
    cases v.machine.processes.head? .runnable with
    | none => rfl
    | some pid =>
      apply Fault.bind_of_map Machine.runReference_retime
      intro answer
      rfl

/-- **The start.** No time has passed, and no process waits, so that there is nothing to stretch but the
parameters. -/
theorem start_stretch {config : ValidConfig} {reader after : TraceReader} {stats : Stats}
    {survey : Survey} (hsurvey : reader.survey config.queueOrder = .ok (.ok survey, after))
    (hstart : start config reader stats = .ok (.ok s)) :
    start (config.stretch c hc) reader stats = .ok (.ok (s.stretch c hc)) := by
  obtain ⟨records, -, hfinds⟩ := TraceReader.finds_of_survey hsurvey
  have hstart' : start (config.stretch c hc) reader stats =
    -- the start looks at other parameters than the times
    .ok (.ok { s with config := config.stretch c hc }) := start_of_alike hstart rfl rfl rfl rfl rfl
  obtain ⟨frames, policy, -, -, rfl⟩ := start_cases hsurvey hstart
  -- the processes of the survey have not waited for anything
  have hidle : survey.processes.retime (c * ·) = survey.processes := by
    refine congrArg (ProcessTable.mk · _ _) (OrderedMap.ext_get? fun pid => ?_)
    rw [OrderedMap.get?_map]
    cases hp : survey.processes.processes.get? pid with
    | none => rfl
    | some p =>
      have hwait : p.wait = 0 := (hfinds.begins hp).idle.1
      rw [Option.map_some, Process.retime, hwait, Nat.mul_zero, ← hwait]
  rw [hstart', stretch, Machine.retime, Nat.mul_zero, hidle]
  rfl

/-! ### Runs -/

/-- **What is reached** by the stretched simulation is what is reached, stretched, as far as its clock
can count. -/
theorem Sound.reaches_stretch (h : s.Sound chart) (hclock : c * s.clock < 2 ^ 64) :
    (s.stretch c hc).Reaches n t' ↔
      ∃ t, s.Reaches n t ∧ c * t.clock < 2 ^ 64 ∧ t' = t.stretch c hc := by
  constructor
  · -- by induction on the steps of the stretched simulation, each of which is the stretched step
    intro hreaches
    induction hreaches with
    | start => exact ⟨s, .start, hclock, rfl⟩
    | step _ hstep ih =>
      obtain ⟨t, hreaches, -, rfl⟩ := ih
      -- if it did not fit, the step would have overflowed
      have hlt : t.isFinished = false → c * (t.clock + t.elapsed) < 2 ^ 64 := by
        intro hrun
        by_contra hge
        have hsum : (t.stretch c hc).clock + (t.stretch c hc).elapsed = c * (t.clock + t.elapsed) := by
          rw [elapsed_stretch]
          exact (Nat.mul_add c t.clock t.elapsed).symm
        rw [← hsum] at hge
        cases hstep.symm.trans (step_eq_overflow hrun hge)
      rw [step_stretch hlt] at hstep
      obtain ⟨⟨answer, u⟩, hstep', heq⟩ := Fault.map_eq_ok_iff.1 hstep
      cases heq
      obtain ⟨hrun, hmoved⟩ := (h.of_reaches hreaches).1.clock_of_step hstep'
      exact ⟨u, .step hreaches hstep', hmoved ▸ hlt hrun, rfl⟩
  · -- the other way, the bound on the clock at the end bounds it on the way, as it never goes back
    rintro ⟨t, hreaches, hlt, rfl⟩
    induction hreaches with
    | start => exact .start
    | step hreaches hstep ih =>
      obtain ⟨hrun, hmoved⟩ := (h.of_reaches hreaches).1.clock_of_step hstep
      have hbefore := Nat.mul_le_mul_left c (Nat.le_of_lt (clock_lt_of_step hstep).1)
      refine .step (ih (Nat.lt_of_le_of_lt hbefore hlt)) ?_
      rw [step_stretch fun _ => hmoved ▸ hlt, hstep]
      rfl

/-- **A run** of the stretched simulation that its clock can count is the stretched run, and reports the
same. -/
theorem Sound.run_stretch {chart' : Chart} (h : s.Sound chart) (hclock : c * s.clock < 2 ^ 64)
    (hsound : (s.stretch c hc).Sound chart') (hrun : (s.stretch c hc).run ≠ .error .overflow) :
    ∃ report t, s.run = .ok (.ok report, t) ∧
      (s.stretch c hc).run = .ok (.ok report, t.stretch c hc) := by
  -- its last state is a stretched one, and being finished is not a matter of time
  obtain ⟨n, t', report, hreaches', hfinished, hreport, hrun'⟩ := hsound.exists_run hrun
  obtain ⟨t, hreaches, -, rfl⟩ := (h.reaches_stretch hclock).1 hreaches'
  rw [report_stretch] at hreport
  have hfinished : t.isFinished = true := hfinished
  have hok := (run_of_reaches hreaches).trans (run_of_isFinished hfinished hreport)
  exact ⟨report, _, hok, hrun'⟩

/-- A simulation that runs as another one does when that is stretched. Its states are known in both
directions, up to where its clock ends. -/
structure Stretched (c : Nat) (hc : 0 < c) (s s' : Simulator) : Prop where
  /-- It is that one, stretched. -/
  eq : s' = s.stretch c hc
  /-- It reaches the same, stretched, as far as its clock can count. -/
  reaches_iff : ∀ {n t'}, s'.Reaches n t' ↔
    ∃ t, s.Reaches n t ∧ c * t.clock < 2 ^ 64 ∧ t' = t.stretch c hc
  /-- If its clock can count its run, it ends as the other one does, and reports the same. -/
  run_eq : s'.run ≠ .error .overflow →
    ∃ report t, s.run = .ok (.ok report, t) ∧ s'.run = .ok (.ok report, t.stretch c hc)

/-- From the start on, a simulation with stretched parameters is stretched. -/
theorem stretched_of_start {config : ValidConfig} {reader after : TraceReader} {stats : Stats}
    {survey : Survey} (hreach : reader.medium.bytes.size ≤ reader.medium.maxOffset)
    (hfresh : stats.totals = {})
    (hsurvey : reader.survey config.queueOrder = .ok (.ok survey, after))
    (hstart : start config reader stats = .ok (.ok s)) (c : Nat) (hc : 0 < c) :
    ∃ s', start (config.stretch c hc) reader stats = .ok (.ok s') ∧ s.Stretched c hc s' := by
  have hstart' : start (config.stretch c hc) reader stats = .ok (.ok (s.stretch c hc)) :=
    start_stretch hsurvey hstart
  -- both begin on the same trace, and from the same survey
  obtain ⟨_, chart, hstarted, -, hsound, -, -⟩ := start_eq_ok hreach hfresh hsurvey
  cases hstart.symm.trans hstarted
  have hsurvey' : reader.survey (config.stretch c hc).queueOrder = .ok (.ok survey, after) := hsurvey
  obtain ⟨_, chart', hstarted', -, hsound', -, -⟩ := start_eq_ok hreach hfresh hsurvey'
  cases hstart'.symm.trans hstarted'
  have hclock : c * s.clock < 2 ^ 64 := by
    rw [clock_of_start hsurvey hstart, Nat.mul_zero]
    exact Nat.two_pow_pos 64
  exact ⟨_, hstart', rfl, hsound.reaches_stretch hclock, hsound.run_stretch hclock hsound'⟩

/-- **Page-ins in ticks.** Each fault so far brought its page into memory as many ticks later as a disk
read takes, or the page is due then. -/
def PagesInTicks (s : Simulator) : Prop :=
  s.machine.faults.map
      (fun fault => (fault.1 / s.config.clockTick + s.config.diskPenalty / s.config.clockTick, fault.2)) =
    (s.machine.arrivals ++ s.machine.due s.clock).map fun entry => (entry.1 / s.config.clockTick, entry.2)

theorem pagesInTicks (hs : s.machine.Patient s.config.diskPenalty s.clock) : s.PagesInTicks := by
  rw [PagesInTicks, ← hs.balanced, List.map_map]
  -- fault by fault; each is one penalty before its arrival, and that is a whole number of ticks
  apply List.map_congr_left
  intro fault _
  have hticks : (fault.1 + s.config.diskPenalty) / s.config.clockTick =
      fault.1 / s.config.clockTick + s.config.diskPenalty / s.config.clockTick :=
    Nat.add_div_of_dvd_left s.config.clockTick_dvd_diskPenalty
  exact congrArg (·, fault.2) hticks.symm

/-- **Time is counted in ticks.** On a trace that the survey accepts, with all its bytes within reach, a
simulation begins. With a tick and a disk read that both take a number of times as long, it is stretched,
step by step. A page comes in as many ticks after its fault as a disk read has. All other parameters that
are the same in ticks lead to runs that are stretched from one, with the same report. -/
theorem runs_in_ticks {config : ValidConfig} {reader after : TraceReader} {stats : Stats}
    {survey : Survey} (hreach : reader.medium.bytes.size ≤ reader.medium.maxOffset)
    (hfresh : stats.totals = {})
    (hsurvey : reader.survey config.queueOrder = .ok (.ok survey, after)) (hc : 0 < c) :
    ∃ s s', start config reader stats = .ok (.ok s) ∧
      start (config.stretch c hc) reader stats = .ok (.ok s') ∧ s.Stretched c hc s' ∧
      (∀ {n t}, s.Reaches n t → t.config = config ∧ t.PagesInTicks) ∧
      ∀ {other : ValidConfig}, other.inTicks = config.inTicks →
        ∃ u, start other reader stats = .ok (.ok u) ∧
          (s.run ≠ .error .overflow → u.run ≠ .error .overflow → ∃ (report : Report) (v : Simulator),
            s.run = .ok (.ok report, v.stretchTo config) ∧
            u.run = .ok (.ok report, v.stretchTo other)) := by
  obtain ⟨s, chart, hstart, rfl, hsound, -, -⟩ := start_eq_ok hreach hfresh hsurvey
  obtain ⟨s', hstart', hstretched⟩ := stretched_of_start hreach hfresh hsurvey hstart c hc
  refine ⟨s, s', hstart, hstart', hstretched, fun {n t} hreaches => ?_, fun {other} hsame => ?_⟩
  · -- what is reached has paid for each fault in full
    have hpatient := hsound.patient_of_reaches (patient_of_start hfresh hsurvey hstart) hreaches
    exact ⟨(hsound.of_reaches hreaches).2, pagesInTicks hpatient⟩
  -- both are stretched from the simulation in ticks
  have hsurvey' : reader.survey s.config.inTicks.queueOrder = .ok (.ok survey, after) := hsurvey
  obtain ⟨v, _, hbase, -, -, -, -⟩ := start_eq_ok hreach hfresh hsurvey'
  obtain ⟨u, hu, hstretchedOther⟩ :=
    stretched_of_start hreach hfresh hsurvey' hbase other.clockTick other.clockTick_pos
  obtain ⟨_, hs, hstretchedSelf⟩ :=
    stretched_of_start hreach hfresh hsurvey' hbase s.config.clockTick s.config.clockTick_pos
  -- the parameters in ticks are the same, so the one in ticks is the same simulation
  rw [← hsame, ValidConfig.stretch_inTicks] at hu
  rw [ValidConfig.stretch_inTicks] at hs
  cases hstart.symm.trans hs
  refine ⟨u, hu, fun hrun hrun' => ?_⟩
  -- both runs come from its run, and it has only one
  obtain ⟨report, w, hw, hrun⟩ := hstretchedSelf.run_eq hrun
  obtain ⟨_, _, hw', hrun'⟩ := hstretchedOther.run_eq hrun'
  cases hw.symm.trans hw'
  exact ⟨report, w, hrun, hrun'⟩

theorem runs_in_ticks_of_turns : ∃ survey after,
    turns.survey cramped.queueOrder = .ok (.ok survey, after) ∧
      ∃ s s', start cramped turns { totalFrames := 1 } = .ok (.ok s) ∧
        start (cramped.stretch 3 (by decide)) turns { totalFrames := 1 } = .ok (.ok s') ∧
        s.Stretched 3 (by decide) s' ∧ s'.run ≠ .error .overflow ∧
        (∀ {n t}, s.Reaches n t → t.config = cramped ∧ t.PagesInTicks) ∧
        ∃ u, start cramped.inTicks turns { totalFrames := 1 } = .ok (.ok u) ∧
          ∃ (report : Report) (v : Simulator), s.run = .ok (.ok report, v.stretchTo cramped) ∧
            u.run = .ok (.ok report, v.stretchTo cramped.inTicks) := by
  obtain ⟨survey, after, hsurvey, hrecords⟩ :=
    exists_survey turns cramped.queueOrder (·.records = 4) (by decide +kernel)
  have hbudget : ∀ config ∈ [cramped, cramped.stretch 3 (by decide), cramped.inTicks],
      survey.records * (config.clockTick + config.diskPenalty) < 2 ^ 64 := by
    rw [of_decide_eq_true hrecords]
    decide
  obtain ⟨s, s', hs, hs', hstretched, hreached, hother⟩ :=
    @runs_in_ticks 3 cramped turns after { totalFrames := 1 } survey (by decide) rfl hsurvey
      (by decide)
  obtain ⟨u, hu, hruns⟩ := @hother cramped.inTicks (by decide)
  have hrun := run_ne_overflow (by decide) rfl hsurvey (hbudget _ (by decide)) hs
  have hsurvey' : turns.survey (cramped.stretch 3 (by decide)).queueOrder = .ok (.ok survey, after) :=
    hsurvey
  have hrun' := run_ne_overflow (by decide) rfl hsurvey' (hbudget _ (by decide)) hs'
  have hsurvey' : turns.survey cramped.inTicks.queueOrder = .ok (.ok survey, after) := hsurvey
  have hrunTicks := run_ne_overflow (by decide) rfl hsurvey' (hbudget _ (by decide)) hu
  exact ⟨survey, after, hsurvey, s, s', hs, hs', hstretched, hrun', hreached, u, hu,
    hruns hrun hrunTicks⟩

end Simulator

end DemandPaging
