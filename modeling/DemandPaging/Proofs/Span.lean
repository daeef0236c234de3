import DemandPaging.Proofs.Alone
import DemandPaging.Proofs.Ample

/-!
# What the clock has to hold

Valid parameters bound neither how long a disk read takes nor how long a trace is, so a run may need
more time than the clock can hold (`exists_overflow`). The time that it needs is at most its `span`: one
tick, and a disk read for each record. If the clock can hold the span, every step succeeds
(`clock_holds_span`), and nothing less would do: a process that is alone and never refers to a page twice
needs all of it.

Between two steps the clock is no further than the references so far have paid for, a hit with a tick and
a miss with a disk read (`outlay`), and each disk read under way is complete one tick later than that at
the latest (`Timely`). The tick that is in excess is that of the first reference. After it a reference
that is executed has either its own tick, which the hit before it has paid for, or follows a disk read in
the same step, and takes no tick.
-/

namespace DemandPaging

namespace Simulator

variable {chart : Chart} {s t : Simulator} {m : Machine} {n : Nat}

/-! ### What references pay for -/

/-- What the references executed so far pay for: a hit for a tick, and a miss for a disk read. A disk
read that is still under way is paid for, too. -/
def outlay (s : Simulator) : Nat :=
  s.machine.stats.totals.hits * s.config.clockTick +
    s.machine.stats.totals.misses * s.config.diskPenalty

/-- One tick, and a disk read for each record: what the clock has to hold for a trace of so many records.
-/
def span (config : ValidConfig) (records : Nat) : Nat :=
  config.clockTick + records * config.diskPenalty

theorem tick_le_penalty (config : ValidConfig) : config.clockTick ≤ config.diskPenalty :=
  Nat.le_of_dvd config.diskPenalty_pos config.clockTick_dvd_diskPenalty

/-- No record takes more than a disk read, and none is executed more than once. -/
theorem Consistent.outlay_le (h : s.Consistent chart) :
    s.outlay ≤ chart.records.length * s.config.diskPenalty := by
  have hcount : s.machine.stats.totals.hits + s.machine.stats.totals.misses ≤ chart.records.length :=
    h.replays.hits_add_misses ▸ h.replays.length_le
  calc s.outlay
      ≤ s.machine.stats.totals.hits * s.config.diskPenalty +
          s.machine.stats.totals.misses * s.config.diskPenalty :=
        Nat.add_le_add_right (Nat.mul_le_mul_left _ (tick_le_penalty s.config)) _
    _ = (s.machine.stats.totals.hits + s.machine.stats.totals.misses) * s.config.diskPenalty :=
        (Nat.add_mul ..).symm
    _ ≤ chart.records.length * s.config.diskPenalty := Nat.mul_le_mul_right _ hcount

/-- Between two steps: no time has passed that was not paid for, but for one tick. Who can run has that
tick still to come, and who waits is at its end one tick late at most. -/
structure Timely (s : Simulator) : Prop where
  /-- Not even that tick has passed while a process can run. -/
  ready : s.machine.canRun = true → s.clock ≤ s.outlay
  /-- Nor will more have passed when a disk read is complete. -/
  waiting : ∀ {pid p}, s.machine.processes.bare? pid = some p → p.state = .blocked →
    s.clock + p.wait ≤ s.outlay + s.config.clockTick

/-- In the middle of a step, after time has passed, the tick may have passed in any case. It is what the
reference of the step pays for, if there is one. -/
structure Prompt (s : Simulator) : Prop where
  /-- No more has passed. -/
  clock_le : s.clock ≤ s.outlay + s.config.clockTick
  /-- Nor will it have when a disk read is complete. -/
  waiting : ∀ {pid p}, s.machine.processes.bare? pid = some p → p.state = .blocked →
    s.clock + p.wait ≤ s.outlay + s.config.clockTick

/-! ### Steps -/

/-- The next step ends one tick after what was paid for, at the latest. -/
theorem Timely.clock_le (h : s.Timely) (hs : s.Sound chart) (hrun : s.isFinished = false) :
    s.clock + s.elapsed ≤ s.outlay + s.config.clockTick := by
  cases hcan : s.machine.canRun with
  | true =>
    rw [elapsed_of_canRun hcan]
    exact Nat.add_le_add_right (h.ready hcan) _
  | false =>
    -- it is no longer than the time left to a disk read
    obtain ⟨wait, hnext⟩ := hs.exists_wait hrun hcan
    obtain ⟨⟨pid, p, hp, hblocked, -⟩, -⟩ := ProcessTable.nextCompletion?_eq_some hnext
    obtain ⟨-, -, hleast⟩ := hs.elapsed_spec hrun
    exact Nat.le_trans (Nat.add_le_add_left (hleast hp hblocked) _) (h.waiting hp hblocked)

/-- **Time passes.** A disk read under way has as much less left, so that it is complete when it was to
be. -/
theorem Timely.wait (h : s.Timely) (hs : s.Sound chart) (hrun : s.isFinished = false) :
    (s.waited s.elapsed).Prompt where
  clock_le := h.clock_le hs hrun
  -- whoever is blocked now was blocked before, and the step is no longer than its wait
  waiting {pid q} hq hblocked := by
    obtain ⟨p, hp, hblocked', hwait⟩ := ProcessTable.exists_of_blocked_passTime hq hblocked
    have hle := (hs.elapsed_spec hrun).2.2 hp hblocked'
    have hbound := h.waiting hp hblocked'
    show s.clock + s.elapsed + q.wait ≤ s.outlay + s.config.clockTick
    rw [hwait]
    omega

/-- **A disk read.** It has been paid for when it began, so that its end pays nothing and owes nothing.
-/
theorem Prompt.read {pid : Pid} {q q' : Process} (h : s.Prompt)
    (hresumed : Machine.Resumed chart s.clock s.machine m pid q q') : Prompt { s with machine := m } := by
  have houtlay : outlay { s with machine := m } = s.outlay := by
    rw [outlay, outlay, hresumed.stats_eq]
  constructor
  · rw [houtlay]
    exact h.clock_le
  · intro other p hp hblocked
    -- the process whose disk read this was goes on or ends; it does not wait any more
    have hp : m.processes.bare? other = some p := hp
    rw [hresumed.bare_eq, Function.update_apply] at hp
    rw [houtlay]
    split at hp
    · cases hp
      exact absurd hblocked hresumed.passes.idle.1
    · exact h.waiting hp hblocked

/-- A reference pays for a tick or for a disk read. Which of them it is depends on whether it
was a hit, and the counter of that is the one that grows. -/
theorem outlay_of_referred {pid : Pid} {q q' : Process} {record : TraceRecord} {hit : Bool}
    (h : Machine.Referred chart s.clock s.config.diskPenalty s.machine m pid q q' record hit) :
    outlay { s with machine := m } =
      s.outlay + if hit then s.config.clockTick else s.config.diskPenalty := by
  show m.stats.totals.hits * s.config.clockTick + m.stats.totals.misses * s.config.diskPenalty = _
  rw [outlay]
  -- one hit more, or one miss more
  rcases h.outcome.eq_or with ⟨rfl, -, htotals⟩ | ⟨rfl, -, htotals⟩
  · rw [htotals, if_pos rfl]
    show (s.machine.stats.totals.hits + 1) * _ + s.machine.stats.totals.misses * _ = _
    rw [Nat.add_one_mul, Nat.add_right_comm]
  · rw [htotals, if_neg Bool.false_ne_true]
    show s.machine.stats.totals.hits * _ + (s.machine.stats.totals.misses + 1) * _ = _
    rw [Nat.add_one_mul, Nat.add_assoc]

/-- **A reference.** The tick that has passed is paid for, and a disk read that begins. It is here that
the clock gets back to what was paid for. -/
theorem Prompt.refer {pid : Pid} {q q' : Process} {record : TraceRecord} {hit : Bool} (h : s.Prompt)
    (hreferred : Machine.Referred chart s.clock s.config.diskPenalty s.machine m pid q q' record hit) :
    Timely { s with machine := m } := by
  have hclock := h.clock_le
  have houtlay := outlay_of_referred hreferred
  -- a miss pays for a disk read, which is a tick at least
  have hpaid : s.outlay + s.config.clockTick ≤ outlay { s with machine := m } := by
    rw [houtlay]
    refine Nat.add_le_add_left ?_ _
    split
    · exact Nat.le_refl _
    · exact tick_le_penalty s.config
  constructor
  · intro _
    exact Nat.le_trans hclock hpaid
  · intro other p hp hblocked
    have hp : m.processes.bare? other = some p := hp
    rw [hreferred.bare_eq, Function.update_apply] at hp
    split at hp
    · -- the process itself: it only waits after a miss, and then for all that the miss has paid
      cases hp
      rcases hreferred.outcome.eq_or with ⟨-, hpasses, -⟩ | ⟨rfl, rfl, -⟩
      · exact absurd hblocked hpasses.idle.1
      · rw [houtlay, if_neg Bool.false_ne_true, Nat.add_right_comm]
        exact Nat.add_le_add_right hclock _
    · -- the others have more paid for than before
      exact Nat.le_trans (h.waiting hp hblocked) (Nat.le_trans hpaid (Nat.le_add_right _ _))

/-- If no process can run, the tick is left to the disk reads. -/
theorem Prompt.idle (h : s.Prompt) (hnone : s.machine.processes.head? .runnable = none) :
    s.Timely where
  ready hcan := by
    rw [ProcessTable.head?, List.head?_eq_none_iff] at hnone
    rw [Machine.canRun, hnone] at hcan
    cases hcan
  waiting := h.waiting

/-- **A step.** Time passes, a disk read may be completed, and then a reference is executed or nobody can
run. -/
theorem Sound.timely_step (h : s.Sound chart)
    (hs : s.machine.Patient s.config.diskPenalty s.clock) (htimely : s.Timely)
    (hstep : s.step = .ok (.ok true, t)) : t.Timely := by
  obtain ⟨hrun, -, -, -, m, hsettled⟩ := h.settled_of_step hs hstep
  have hm : Prompt { s.waited s.elapsed with machine := m } := by
    rcases hsettled.read with rfl | ⟨pid, rest, q, q', -, -, hresumed⟩
    · exact htimely.wait h hrun
    · exact (htimely.wait h hrun).read hresumed
  rcases hsettled.turn with ⟨hnone, rfl⟩ | ⟨pid, m', q, q', record, hit, -, hreferred, -, rfl⟩
  · exact hm.idle hnone
  · exact hm.refer hreferred

/-- At the start no time has passed. -/
theorem timely_of_start {config : ValidConfig} {reader after : TraceReader} {stats : Stats}
    {survey : Survey} (hreach : reader.medium.bytes.size ≤ reader.medium.maxOffset)
    (hfresh : stats.totals = {})
    (hsurvey : reader.survey config.queueOrder = .ok (.ok survey, after))
    (hstart : start config reader stats = .ok (.ok s)) : s.Timely where
  ready _ := by
    rw [clock_of_start hsurvey hstart]
    exact Nat.zero_le _
  waiting hp hblocked := by
    cases ((fresh_of_start hreach hfresh hsurvey hstart).ready hp).symm.trans hblocked

/-- **The span.** No step ends later. -/
theorem Sound.clock_le_span (h : s.Sound chart) (htimely : s.Timely) (hrun : s.isFinished = false) :
    s.clock + s.elapsed ≤ span s.config chart.records.length := by
  calc s.clock + s.elapsed
      ≤ s.outlay + s.config.clockTick := htimely.clock_le h hrun
    _ ≤ chart.records.length * s.config.diskPenalty + s.config.clockTick :=
        Nat.add_le_add_right h.outlay_le _
    _ = span s.config chart.records.length := Nat.add_comm ..

end Simulator

/-! ### A trace that never names a page twice -/

/-- Records on different lines have different pages. -/
theorem Survey.line_eq_of_page {records : List TraceRecord} {line other : Nat}
    {record record' : TraceRecord} (hnodup : (records.map (·.page)).Nodup)
    (h : record? records line = some record) (h' : record? records other = some record')
    (hpage : record.page = record'.page) : line = other := by
  cases line with
  | zero => cases h
  | succ line =>
    cases other with
    | zero => cases h'
    | succ other =>
      -- as pages at two places of a list without duplicates, the lines are the same
      have hleft : (records.map (·.page))[line]? = some record.page := by
        rw [List.getElem?_map, show records[line]? = some record from h, Option.map_some]
      have hright : (records.map (·.page))[other]? = some record.page := by
        rw [List.getElem?_map, show records[other]? = some record' from h', Option.map_some, hpage]
      have hlt := (List.getElem?_eq_some_iff.1 hleft).1
      exact congrArg (· + 1) ((List.getElem?_inj hlt hnodup).1 (hleft.trans hright.symm))

namespace Machine

variable {chart : Chart} {config : ValidConfig} {m m' : Machine} {pid : Pid} {q q' : Process}

/-- No page was referred to twice. A reference that hits would be the second one to its page, so that all
of them miss. -/
structure Novel (m : Machine) : Prop where
  /-- The pages of a process are those that it has referred to. -/
  known : m.Known
  /-- No reference was a hit. -/
  missed : ∀ r ∈ m.references, r.hit = false

/-- **A reference.** If it was a hit there would be an earlier one to its page. The page is
known just if it was referred to before, and no record before this one names it. -/
theorem Novel.refer {record : TraceRecord} {hit : Bool} (h : m.Novel) (hsound : m.Sound chart)
    (hsound' : m'.Sound chart) (hreplays : m.Replays chart)
    (hnodup : (chart.records.map (·.page)).Nodup)
    (hexecuted : Executed chart m m' pid q q' record hit) : m'.Novel := by
  obtain ⟨_, hhalfway⟩ := hexecuted.halfway hsound
  refine ⟨hhalfway.known hsound' h.known, fun r hr => ?_⟩
  rw [hexecuted.references_eq, List.mem_append, List.mem_singleton] at hr
  -- the earlier references are as they were; the new one is judged by the page that it met
  rcases hr with hr | rfl
  · exact h.missed r hr
  have hstands := hsound.stands hexecuted.found
  have hpid : record.page.pid = pid :=
    (hstands.pid_of_record hexecuted.record_eq).trans (hsound.lined.keyed hexecuted.found)
  have hown : m.processes.bare? record.page.pid = some q := hpid ▸ hexecuted.found
  obtain ⟨page, policy, policy', pages, hmeeting, rfl, -⟩ := hexecuted.meeting
  cases hmeeting with
  | new => rfl
  -- the page was known, so an earlier line of the process has referred to it
  | known hpage =>
    have hsome : (m.processes.page? record.page).isSome = true := by rw [hpage, Option.isSome_some]
    obtain ⟨line, hearlier⟩ := (h.known hown hexecuted.alive).1 hsome
    -- that line lies before this one, and so is another one with the same page
    have hline : q.reached = q.line := if_pos hexecuted.runnable
    rw [hreplays.mem_executed_iff hown, hline] at hearlier
    obtain ⟨other, hother, hsame⟩ := Survey.mem_references_iff.1 hearlier.1
    have heq := Survey.line_eq_of_page hnodup hother hexecuted.record_eq hsame
    exact absurd heq (Nat.ne_of_lt hearlier.2)

theorem preserved_novel (hnodup : (chart.records.map (·.page)).Nodup) :
    Preserved chart config Novel := by
  intro m m' hgoing hgoing' hmoved h
  cases hmoved with
  | wait => exact ⟨h.known.wait, h.missed⟩
  | read hcompleted =>
    obtain ⟨_, hhalfway⟩ := hcompleted.halfway hgoing.sound
    refine ⟨hhalfway.known hgoing'.sound h.known, ?_⟩
    rw [hcompleted.references_eq]
    exact h.missed
  | refer hexecuted => exact h.refer hgoing.sound hgoing'.sound hgoing.replays hnodup hexecuted

end Machine

namespace Simulator

variable {chart : Chart} {s : Simulator} {own : Pid}

/-- **The whole span.** If a process is alone and never refers to a page twice, it needs all of it. Its
closed form of the clock would be past what the clock can hold if it came to its end. -/
theorem Sound.exists_step_overflow (h : s.Sound chart)
    (hs : s.machine.Patient s.config.diskPenalty s.clock) (hpaced : s.Paced 0)
    (hnovel : s.machine.Novel) (hsingle : ∀ record ∈ chart.records, record.pid = own)
    (hne : chart.records ≠ []) (hnodup : (chart.records.map (·.page)).Nodup)
    (hspan : 2 ^ 64 ≤ span s.config chart.records.length) :
    ∃ n t, s.Reaches n t ∧ t.isFinished = false ∧ 2 ^ 64 ≤ t.clock + t.elapsed ∧
      t.step = .error .overflow := by
  obtain ⟨n, t, hreaches, ⟨hfinished, -⟩ | ⟨hrun, hclock, -⟩⟩ := h.run_cases
  · -- suppose the run came to its end
    exfalso
    obtain ⟨hsound, hconfig⟩ := h.of_reaches hreaches
    have hpatient := h.patient_of_reaches hs hreaches
    have hmissed := (h.preserves (Machine.preserved_novel hnodup) hnovel hreaches).missed
    obtain ⟨last, pid, q, hlast, hq, hdone⟩ := hsound.exists_last hsingle hne hfinished
    -- all references were misses, and one tick is all that passed besides their disk reads
    have hhits : t.machine.stats.totals.hits = 0 := by
      rw [hsound.replays.hits_eq, List.countP_eq_zero]
      intro r hr
      rw [hmissed r hr]
      exact Bool.false_ne_true
    have hmisses : t.machine.stats.totals.misses = chart.records.length := by
      have hcount := hsound.references_of_isFinished hfinished
      rwa [hhits, Nat.zero_add] at hcount
    have hturns : t.machine.turns 0 q = 1 := by
      rw [Machine.turns, hdone, Machine.lastHit, hlast, hhits]
      show 0 + 1 - last.hit.toNat = 1
      rw [hmissed last (List.mem_of_getLast? hlast)]
      rfl
    -- the clock is then what was paid for and the one tick, which is the span
    have hidle : q.wait = 0 := hpatient.idle hq (by rw [hdone]; exact ProcessState.noConfusion)
    have hclock := (h.paced_of_reaches hs hsingle hpaced hreaches).clock_eq hq
    rw [hidle, hturns, hmisses, Nat.add_zero, Nat.one_mul, hconfig] at hclock
    have hlt := hsound.clock_lt
    rw [hclock] at hlt
    exact absurd hlt (Nat.not_lt.2 hspan)
  · exact ⟨n, t, hreaches, hrun, Nat.not_lt.1 hclock, step_eq_overflow hrun hclock⟩

/-- A simulation that begins on a trace of one process with different pages overflows its clock unless
the clock can hold the span. At the start nothing was referred to. -/
theorem exists_overflow_of_start {config : ValidConfig} {reader after : TraceReader} {stats : Stats}
    {survey : Survey} {records : List TraceRecord}
    (hreach : reader.medium.bytes.size ≤ reader.medium.maxOffset) (hfresh : stats.totals = {})
    (hsurvey : reader.survey config.queueOrder = .ok (.ok survey, after))
    (hstart : start config reader stats = .ok (.ok s))
    (hrecords : reader.rewind.2.records.1 = .ok records)
    (hsingle : ∀ record ∈ records, record.pid = own) (hnodup : (records.map (·.page)).Nodup)
    (hspan : 2 ^ 64 ≤ span config survey.records) :
    ∃ n t, s.Reaches n t ∧ t.isFinished = false ∧ 2 ^ 64 ≤ t.clock + t.elapsed ∧
      t.step = .error .overflow := by
  obtain ⟨s', chart, hstart', rfl, hsound, hrecords', hlength⟩ := start_eq_ok hreach hfresh hsurvey
  cases hstart.symm.trans hstart'
  cases hrecords.symm.trans hrecords'
  obtain ⟨chart', -, hne, hrecords'', -⟩ := TraceReader.survey_eq_ok hreach hsurvey
  rw [Except.ok.inj (hrecords''.symm.trans hrecords)] at hne
  have hnew := fresh_of_start hreach hfresh hsurvey hstart
  have hnovel : s.machine.Novel := by
    refine ⟨hnew.known, ?_⟩
    rw [hnew.references_eq]
    exact fun _ hr => absurd hr List.not_mem_nil
  rw [← hlength] at hspan
  exact hsound.exists_step_overflow (patient_of_start hfresh hsurvey hstart)
    (paced_of_start hreach hfresh hsurvey hstart) hnovel hsingle hne hnodup hspan

/-- **What the clock has to hold.** On a trace that the survey accepts, with all its bytes within reach,
no step of a simulation takes the clock past one tick and a disk read for each record, and a step fails
only if it takes the clock past what it can hold. So if the clock can hold the span all steps succeed; and
if it cannot, some step fails on each such trace that has a single process and never names a page
twice. -/
theorem clock_holds_span {config : ValidConfig} {reader after : TraceReader} {stats : Stats}
    {survey : Survey} (hreach : reader.medium.bytes.size ≤ reader.medium.maxOffset)
    (hfresh : stats.totals = {})
    (hsurvey : reader.survey config.queueOrder = .ok (.ok survey, after)) :
    ∃ s, start config reader stats = .ok (.ok s) ∧
      (∀ {n t}, s.Reaches n t → t.isFinished = false →
        t.clock + t.elapsed ≤ config.clockTick + survey.records * config.diskPenalty ∧
        (t.clock + t.elapsed < 2 ^ 64 → ∃ u, t.step = .ok (.ok true, u)) ∧
        (2 ^ 64 ≤ t.clock + t.elapsed → t.step = .error .overflow)) ∧
      (config.clockTick + survey.records * config.diskPenalty < 2 ^ 64 →
        ∀ {n t}, s.Reaches n t → ∃ u, t.step = .ok (.ok (!t.isFinished), u)) ∧
      ∀ {records own}, reader.rewind.2.records.1 = .ok records →
        (∀ record ∈ records, record.pid = own) → (records.map (·.page)).Nodup →
        2 ^ 64 ≤ config.clockTick + survey.records * config.diskPenalty →
        ∃ n t, s.Reaches n t ∧ t.step = .error .overflow := by
  obtain ⟨s, chart, hstart, rfl, hsound, -, hlength⟩ := start_eq_ok hreach hfresh hsurvey
  have hpatient := patient_of_start hfresh hsurvey hstart
  have htimely := timely_of_start hreach hfresh hsurvey hstart
  -- being timely is kept by each step, so it holds at all states on the way
  have hbound : ∀ {n t}, s.Reaches n t → t.isFinished = false →
      t.clock + t.elapsed ≤ span s.config survey.records := by
    intro n t hreaches hrun
    obtain ⟨hsound', hconfig⟩ := hsound.of_reaches hreaches
    have htimely' : t.Timely := hsound.kept hpatient
      (fun ht hpatient htimely hstep => ht.timely_step hpatient htimely hstep) htimely hreaches
    rw [← hconfig, ← hlength]
    exact hsound'.clock_le_span htimely' hrun
  have hstep : ∀ {n t}, s.Reaches n t → t.isFinished = false → t.clock + t.elapsed < 2 ^ 64 →
      ∃ u, t.step = .ok (.ok true, u) := by
    intro n t hreaches hrun hclock
    obtain ⟨m, hok, -⟩ := (hsound.of_reaches hreaches).1.step_eq_ok hrun hclock
    exact ⟨_, hok⟩
  refine ⟨s, hstart, fun hreaches hrun => ⟨hbound hreaches hrun, hstep hreaches hrun, fun hover => ?_⟩,
    fun hspan {n t} hreaches => ?_, fun hrecords hsingle hnodup hspan => ?_⟩
  · -- a step that takes the clock too far
    exact step_eq_overflow hrun (Nat.not_lt.2 hover)
  · -- enough room for the span is enough for each step
    cases hrun : t.isFinished with
    | true => exact ⟨t, step_of_isFinished hrun⟩
    | false => exact hstep hreaches hrun (Nat.lt_of_le_of_lt (hbound hreaches hrun) hspan)
  · -- on a trace of a single process with different pages the span is needed
    obtain ⟨n, t, hreaches, -, -, hfault⟩ := exists_overflow_of_start hreach hfresh hsurvey hstart
      hrecords hsingle hnodup hspan
    exact ⟨n, t, hreaches, hfault⟩

/-- Two processes that take turns over one frame: four disk reads and a tick are no more than the clock
can hold. -/
theorem clock_holds_span_of_turns : ∃ survey after,
    turns.survey cramped.queueOrder = .ok (.ok survey, after) ∧ survey.records = 4 ∧
      ∃ s, start cramped turns { totalFrames := 1 } = .ok (.ok s) ∧
        (∀ {n t}, s.Reaches n t → t.isFinished = false → t.clock + t.elapsed ≤ 26) ∧
        ∀ {n t}, s.Reaches n t → ∃ u, t.step = .ok (.ok (!t.isFinished), u) := by
  obtain ⟨survey, after, hsurvey, htest⟩ :=
    exists_survey turns cramped.queueOrder (·.records = 4) (by decide +kernel)
  have hrecords : survey.records = 4 := of_decide_eq_true htest
  obtain ⟨s, hstart, hbound, hsteps, -⟩ :=
    @clock_holds_span cramped turns after { totalFrames := 1 } survey (by decide) rfl hsurvey
  rw [hrecords] at hsteps
  refine ⟨survey, after, hsurvey, hrecords, s, hstart, fun hreaches hrun => ?_, hsteps (by decide)⟩
  have hle := (hbound hreaches hrun).1
  rw [hrecords] at hle
  exact hle

/-- A trace of one record: page 1 of process 1. -/
def single : TraceReader :=
  .ofBytes ⟨#[49, 32, 49, 10]⟩

/-- A memory of one frame, with disk reads of all the time that the clock can show. -/
def longest : ValidConfig where
  memoryBytes := 1
  pageSize := 1
  clockTick := 1
  diskPenalty := 2 ^ 64 - 1
  valid := by decide

/-- The parameters are valid, and the survey accepts the trace; but after the tick of the one reference
the clock has not enough left for its disk read. -/
theorem exists_overflow : ∃ survey after s n t,
    longest.toConfig.validate = .ok longest ∧
      single.survey longest.queueOrder = .ok (.ok survey, after) ∧
      start longest single { totalFrames := 1 } = .ok (.ok s) ∧ s.Reaches n t ∧
      t.isFinished = false ∧ 2 ^ 64 ≤ t.clock + t.elapsed ∧ t.step = .error .overflow := by
  obtain ⟨survey, after, hsurvey, htest⟩ :=
    exists_survey single longest.queueOrder (·.records = 1) (by decide +kernel)
  obtain ⟨records, hrecords, htest'⟩ := exists_records single
    (fun records => records.map (·.page) = [⟨1, 1⟩]) (by decide +kernel)
  have hpages : records.map (·.page) = [⟨1, 1⟩] := of_decide_eq_true htest'
  have hsingle : ∀ record ∈ records, record.pid = 1 := by
    intro record hmem
    have hpage : record.page ∈ records.map (·.page) := List.mem_map_of_mem hmem
    rw [hpages, List.mem_singleton] at hpage
    exact congrArg PageRef.pid hpage
  have hspan : 2 ^ 64 ≤ span longest survey.records := by
    rw [of_decide_eq_true htest]
    decide
  obtain ⟨s, -, hstart, -⟩ := @start_eq_ok longest single after { totalFrames := 1 } survey (by decide)
    rfl hsurvey
  obtain ⟨n, t, hreaches, hrun, hclock, hfault⟩ := exists_overflow_of_start (by decide) rfl hsurvey
    hstart hrecords hsingle (by rw [hpages]; exact List.nodup_singleton _) hspan
  exact ⟨survey, after, s, n, t, rfl, hsurvey, hstart, hreaches, hrun, hclock, hfault⟩

end Simulator

end DemandPaging
