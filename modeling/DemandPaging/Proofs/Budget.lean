import DemandPaging.Proofs.Steps

/-!
# Runs come to their end

Nothing but the clock can keep a run from its end. A step fails only if the clock cannot count it, and each
step that is made leaves less time on the clock, so a run comes to where everything is done and reports, or
to where the clock is at its end (`Sound.run_cases`). What the results on completed runs rest on is
therefore one hypothesis, that the run does not overrun the clock (`Sound.exists_run`).

The time that a simulation can take is bounded by its `budget`: for each record of the trace, one tick
and one disk read. As long as that fits into the clock no step can fail, since while something is left
to be done the clock has not reached the budget (`Sound.clock_le_budget`). A step in which a process can
run takes the tick of a record that is still to be executed; any other step is no longer than a disk read
that a miss has paid for. So such a run is never overrun (`run_ne_overflow`).
-/

namespace DemandPaging

namespace Simulator

variable {chart : Chart} {s t : Simulator} {pid : Pid}

/-! ### The budget -/

/-- A tick and a disk read for each record. It is an upper bound that every run keeps to,
whatever the policy; how much of it is used depends on the misses. -/
def budget (config : ValidConfig) (records : Nat) : Nat :=
  records * (config.clockTick + config.diskPenalty)

/-- The references executed so far have cost no more than their part of the budget. -/
theorem Consistent.cost_le_budget (h : s.Consistent chart) :
    s.cost ≤ budget s.config s.machine.executed.length := by
  have hcount := h.replays.hits_add_misses
  -- no more of them were misses than there were at all
  have hmisses : s.machine.stats.totals.misses ≤ s.machine.executed.length := by omega
  rw [cost, hcount, budget, Nat.mul_add]
  exact Nat.add_le_add_left (Nat.mul_le_mul_right _ hmisses) _

theorem budget_mono {config : ValidConfig} {records more : Nat} (h : records ≤ more) :
    budget config records ≤ budget config more :=
  Nat.mul_le_mul_right _ h

theorem Consistent.executed_lt (h : s.Consistent chart) (hcan : s.machine.canRun = true) :
    s.machine.executed.length < chart.records.length := by
  rw [Machine.canRun, Bool.not_eq_true', List.isEmpty_eq_false_iff_exists_mem] at hcan
  obtain ⟨pid, hpid⟩ := hcan
  -- the record on the line of a runnable process is still to come
  obtain ⟨q, hq, hrunnable⟩ := h.machine.lined.queued.1 hpid
  have hstands := h.machine.stands hq
  obtain ⟨-, record, hrecord, -⟩ := hstands.runnable hrunnable
  refine h.replays.length_lt hq hrunnable hrecord ?_
  rw [hstands.pid_of_record hrecord, h.machine.lined.keyed hq]

/-- **Time is left.** While not everything is done, a step stays within the budget. If a process
can run, a record is left whose tick it takes; if none can, some disk read is under way, and its
end was paid for when the miss was. -/
theorem Sound.clock_le_budget (h : s.Sound chart) (hrun : s.isFinished = false) :
    s.clock + s.elapsed ≤ budget s.config chart.records.length := by
  have hcost := h.cost_le_budget
  cases hcan : s.machine.canRun with
  | true =>
    -- the step takes the tick of a record that has not been executed
    have hpaid := h.paid
    have hnext : budget s.config (s.machine.executed.length + 1) ≤
        budget s.config chart.records.length := budget_mono (h.executed_lt hcan)
    rw [elapsed_of_canRun hcan]
    rw [budget, Nat.add_one_mul] at hnext
    rw [budget] at hcost
    omega
  | false =>
    -- the step is no longer than a disk read that has been counted
    calc
      s.clock + s.elapsed ≤ s.cost := h.clock_le_cost hrun hcan
      _ ≤ budget s.config s.machine.executed.length := hcost
      _ ≤ budget s.config chart.records.length := budget_mono h.replays.length_le

/-! ### Runs -/

theorem Sound.exists_report (h : s.Sound chart) : ∃ report, s.report = .ok report := by
  have hfit : s.machine.stats.totals.hits + s.machine.stats.totals.misses < 2 ^ 64 :=
    Nat.lt_of_le_of_lt (Nat.le_mul_of_pos_right _ s.config.clockTick_pos)
      (Nat.lt_of_le_of_lt h.spent h.clock_lt)
  rw [Simulator.report, Stats.report, Fault.fit, if_pos hfit]
  exact ⟨_, rfl⟩

/-- **Steps succeed.** If the clock can hold the budget, a step is made while not everything is done. -/
theorem Sound.step_within_budget (h : s.Sound chart)
    (hbudget : budget s.config chart.records.length < 2 ^ 64) :
    ∃ t, s.step = .ok (.ok (!s.isFinished), t) := by
  cases hrun : s.isFinished with
  | true => exact ⟨s, step_of_isFinished hrun⟩
  | false =>
    have hclock := Nat.lt_of_le_of_lt (h.clock_le_budget hrun) hbudget
    obtain ⟨m, hstep, -⟩ := h.step_eq_ok hrun hclock
    exact ⟨_, hstep⟩

/-- **How a run ends.** It comes to where everything is done and reports, or to where the clock cannot
count the next step. -/
theorem Sound.run_cases (h : s.Sound chart) :
    ∃ n t, s.Reaches n t ∧
      ((t.isFinished = true ∧ ∃ report, t.report = .ok report ∧
          s.run = .ok (.ok report, { t with machine := t.machine.note (.completed t.config.policy
            report.runtime report.hits report.misses report.evictions) })) ∨
        (t.isFinished = false ∧ ¬t.clock + t.elapsed < 2 ^ 64 ∧ s.run = .error .overflow)) := by
  -- each step leaves less time on the clock
  induction hleft : 2 ^ 64 - s.clock using Nat.strong_induction_on generalizing s with
  | h left ih =>
    cases hrun : s.isFinished with
    | true =>
      -- the report succeeds, as the references have taken their time
      obtain ⟨report, hreport⟩ := h.exists_report
      exact ⟨0, s, .start, .inl ⟨hrun, report, hreport, run_of_isFinished hrun hreport⟩⟩
    | false =>
      by_cases hclock : s.clock + s.elapsed < 2 ^ 64
      · obtain ⟨m, hstep, -⟩ := h.step_eq_ok hrun hclock
        have hmoved := clock_lt_of_step hstep
        obtain ⟨n, t, hreaches, hend⟩ := ih _ (by omega) (h.of_step hstep).1 rfl
        rw [← run_of_step hstep] at hend
        exact ⟨n + 1, t, .head hstep hreaches, hend⟩
      · exact ⟨0, s, .start, .inr ⟨hrun, hclock, run_of_fault (step_eq_overflow hrun hclock)⟩⟩

/-- Nothing but the clock can keep a run from its report. -/
theorem Sound.exists_run (h : s.Sound chart) (hclock : s.run ≠ .error .overflow) :
    ∃ n t report, s.Reaches n t ∧ t.isFinished = true ∧ t.report = .ok report ∧
      s.run = .ok (.ok report, { t with machine := t.machine.note (.completed t.config.policy
        report.runtime report.hits report.misses report.evictions) }) := by
  obtain ⟨n, t, hreaches, ⟨hfinished, report, hreport, hrun⟩ | ⟨-, -, hrun⟩⟩ := h.run_cases
  · exact ⟨n, t, report, hreaches, hfinished, hreport, hrun⟩
  · exact absurd hrun hclock

/-- **Runs end.** If the clock can hold the budget, the simulation comes to where everything is done. -/
theorem Sound.run_eq_ok (h : s.Sound chart)
    (hbudget : budget s.config chart.records.length < 2 ^ 64) :
    ∃ n t report, s.Reaches n t ∧ t.isFinished = true ∧
      s.run = .ok (.ok report, { t with machine := t.machine.note (.completed t.config.policy
        report.runtime report.hits report.misses report.evictions) }) := by
  obtain ⟨n, t, hreaches, ⟨hfinished, report, -, hrun⟩ | ⟨hrun, hclock, -⟩⟩ := h.run_cases
  · exact ⟨n, t, report, hreaches, hfinished, hrun⟩
  · obtain ⟨hsound, hconfig⟩ := h.of_reaches hreaches
    rw [← hconfig] at hbudget
    exact absurd (Nat.lt_of_le_of_lt (hsound.clock_le_budget hrun) hbudget) hclock

/-- If the clock can hold the budget it can count the run. -/
theorem run_ne_overflow {config : ValidConfig} {reader after : TraceReader} {stats : Stats}
    {survey : Survey} (hreach : reader.medium.bytes.size ≤ reader.medium.maxOffset)
    (hfresh : stats.totals = {})
    (hsurvey : reader.survey config.queueOrder = .ok (.ok survey, after))
    (hbudget : survey.records * (config.clockTick + config.diskPenalty) < 2 ^ 64)
    (hstart : start config reader stats = .ok (.ok s)) : s.run ≠ .error .overflow := by
  obtain ⟨s', chart, hstart', rfl, hsound, -, hlength⟩ := start_eq_ok hreach hfresh hsurvey
  cases hstart.symm.trans hstart'
  rw [← hlength] at hbudget
  obtain ⟨n, t, report, -, -, hrun⟩ := hsound.run_eq_ok hbudget
  rw [hrun]
  intro hfault
  cases hfault

end Simulator

end DemandPaging
