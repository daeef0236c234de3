import DemandPaging.Proofs.Budget

/-!
# Each record once, in order

A simulation is a replay of its trace: at any time each process has executed a first part of its own
records, in their order, up to the line that its cursor and its state tell, and each of these references
was counted once, as a hit or as a miss (`Machine.InOrder`).

A run that the clock can count leaves nothing out. Where it ends every process is done, and a process that
is done has executed all its records (`Sound.ofProcess_executed`); its report has the counts of these
references (`Sound.report_references`). So whatever the parameters are, such a run returns, and the
report counts as many hits and misses as there are records (`replay_of_reaches`).
-/

namespace DemandPaging

namespace Machine

variable {chart : Chart} {m : Machine}

/-- What has been executed is, process by process, the first part of what the trace asks for.
How far it goes is told by the line and the state of the process, in the three clauses at the
end. -/
structure InOrder (records : List TraceRecord) (m : Machine) : Prop where
  /-- The references to pages in memory are the hits. -/
  hits_eq : m.stats.totals.hits = m.references.countP (·.hit)
  /-- The other references are the misses. -/
  misses_eq : m.stats.totals.misses = m.references.countP (!·.hit)
  /-- Each record has a process. -/
  present : ∀ entry ∈ Survey.references records, ∃ p, m.processes.get? entry.2.pid = some p
  /-- What a process has executed are the first ones of its records. -/
  executed_prefix : ∀ pid, ofProcess pid m.executed <+: ofProcess pid (Survey.references records)
  /-- If it can run, they are those before its line. -/
  executed_of_runnable : ∀ {pid p}, m.processes.get? pid = some p → p.state = .runnable →
    ofProcess pid m.executed = (ofProcess pid (Survey.references records)).filter (·.1 < p.line)
  /-- If it waits for the disk or is done, they are those up to its line. -/
  executed_of_not_runnable : ∀ {pid p}, m.processes.get? pid = some p → p.state ≠ .runnable →
    ofProcess pid m.executed = (ofProcess pid (Survey.references records)).filter (·.1 ≤ p.line)
  /-- If it is done, they are all its records. -/
  executed_of_finished : ∀ {pid p}, m.processes.get? pid = some p → p.state = .finished →
    ofProcess pid m.executed = ofProcess pid (Survey.references records)

theorem Replays.inOrder (h : m.Replays chart) (hsound : m.Sound chart) :
    m.InOrder chart.records := by
  refine ⟨h.hits_eq, h.misses_eq, ?_, h.executed_prefix, ?_, ?_, ?_⟩
  · -- the references that the trace asks for are those of its records
    rintro ⟨line, page⟩ hmem
    obtain ⟨record, hrecord, rfl⟩ := Survey.mem_references_iff.1 hmem
    obtain ⟨q, hq⟩ := h.present hrecord
    obtain ⟨p, hp, -⟩ := ProcessTable.bare?_eq_some_iff.1 hq
    exact ⟨p, hp⟩
  · intro pid p hp hstate
    have hstate : p.unpaged.state = .runnable := hstate
    -- what has been executed is what has been reached, and a process that can run has reached its line
    rw [h.executed_eq, reached_of_bare (ProcessTable.bare?_of_get? hp), Process.reached, if_pos hstate]
    rfl
  · intro pid p hp hstate
    have hstate : p.unpaged.state ≠ .runnable := hstate
    rw [h.executed_eq, reached_of_bare (ProcessTable.bare?_of_get? hp), Process.reached, if_neg hstate]
    -- it has reached the line after the one that it stands on
    exact List.filter_congr fun entry _ => decide_eq_decide.2 Nat.lt_succ_iff
  · intro pid p hp hstate
    have hq := ProcessTable.bare?_of_get? hp
    exact h.executed_of_finished hq hsound.lined (hsound.stands hq) hstate

end Machine

namespace Simulator

variable {chart : Chart} {s t : Simulator}

/-- When everything is done every process is: neither of the two queues that are looked at has
one, and a process that is in neither is in the third. -/
theorem Sound.finished (h : s.Sound chart) (hfinished : s.isFinished = true) {pid : Pid} {p : Process}
    (hp : s.machine.processes.bare? pid = some p) : p.state = .finished := by
  rw [isFinished, Bool.and_eq_true, List.isEmpty_iff, List.isEmpty_iff] at hfinished
  obtain ⟨hrunnable, hblocked⟩ := hfinished
  -- each process is in the queue of its state, and two of the queues are empty
  have hmem : pid ∈ s.machine.processes.queue p.state := h.machine.lined.queued.2 ⟨p, hp, rfl⟩
  cases hstate : p.state with
  | finished => rfl
  | runnable =>
    rw [hstate, hrunnable] at hmem
    cases hmem
  | blocked =>
    rw [hstate, hblocked] at hmem
    cases hmem

/-- When everything is done there have been as many references as there are records. -/
theorem Sound.references_of_isFinished (h : s.Sound chart) (hfinished : s.isFinished = true) :
    s.machine.stats.totals.hits + s.machine.stats.totals.misses = chart.records.length := by
  rw [h.replays.hits_add_misses]
  exact h.replays.length_eq h.machine.lined h.machine.stands (h.finished hfinished)

/-- The journal has then a reference for each record. -/
theorem Sound.length_references (h : s.Sound chart) (hfinished : s.isFinished = true) :
    s.machine.references.length = chart.records.length := by
  rw [← h.references_of_isFinished hfinished, h.replays.hits_add_misses, Machine.executed,
    List.length_map]

/-- Each process has then executed all its records, in their order. -/
theorem Sound.ofProcess_executed (h : s.Sound chart) (hfinished : s.isFinished = true) (pid : Pid) :
    ofProcess pid s.machine.executed = ofProcess pid (Survey.references chart.records) :=
  h.replays.ofProcess_executed h.machine.lined h.machine.stands (h.finished hfinished) pid

/-- The report gives the counts as they are. -/
theorem report_counts {report : Report} (h : s.report = .ok report) :
    report.hits = s.machine.stats.totals.hits ∧ report.misses = s.machine.stats.totals.misses := by
  simp only [Simulator.report, Stats.report, Fault.bind_eq_ok_iff, Fault.pure_eq_ok_iff] at h
  obtain ⟨references, -, rfl⟩ := h
  exact ⟨rfl, rfl⟩

/-- The report tells how many of the references so far were hits, and how many were not. -/
theorem Sound.report_references {report : Report} (h : s.Sound chart) (hreport : s.report = .ok report) :
    report.hits = s.machine.references.countP (·.hit) ∧
      report.misses = s.machine.references.countP (!·.hit) := by
  obtain ⟨hhits, hmisses⟩ := report_counts hreport
  exact ⟨hhits.trans h.replays.hits_eq, hmisses.trans h.replays.misses_eq⟩

theorem report_runtime {report : Report} (h : s.report = .ok report) : report.runtime = s.ticks := by
  simp only [Simulator.report, Stats.report, Fault.bind_eq_ok_iff, Fault.pure_eq_ok_iff] at h
  obtain ⟨references, -, rfl⟩ := h
  rfl

/-- The note that a run is complete tells of no reference, so what holds of the references where a run
ends holds of what it returns. -/
theorem references_completed {m : Machine} {kind : PolicyKind} {runtime hits misses evictions : Nat} :
    (m.note (.completed kind runtime hits misses evictions)).references = m.references := by
  rw [Machine.references_note]
  exact List.append_nil _

/-- **A completed run.** A run that the clock can count returns. It has come to a simulation in which
everything is done and leaves its references as they are: one for each record, as the report counts
them. -/
theorem Sound.exists_completed (h : s.Sound chart) (hclock : s.run ≠ .error .overflow) :
    ∃ n t report u, s.Reaches n t ∧ s.run = .ok (.ok report, u) ∧
      u.machine.references = t.machine.references ∧
      t.machine.references.length = chart.records.length ∧
      report.hits = t.machine.references.countP (·.hit) ∧
      report.misses = t.machine.references.countP (!·.hit) := by
  obtain ⟨n, t, report, hreaches, hfinished, hreport, hrun⟩ := h.exists_run hclock
  obtain ⟨hsound, -⟩ := h.of_reaches hreaches
  exact ⟨n, t, report, _, hreaches, hrun, references_completed, hsound.length_references hfinished,
    hsound.report_references hreport⟩

/-- **Each record once, in order.** On a trace that the survey accepts, with all its bytes within reach,
a simulation begins, and whatever it reaches, each process has executed the first ones of its records,
each counted once. A run that the clock can count returns; each process has then executed all its
records, and there have been as many references as there are records. -/
theorem replay_of_reaches {config : ValidConfig} {reader after : TraceReader} {stats : Stats}
    {survey : Survey} (hreach : reader.medium.bytes.size ≤ reader.medium.maxOffset)
    (hfresh : stats.totals = {})
    (hsurvey : reader.survey config.queueOrder = .ok (.ok survey, after)) :
    ∃ s records, start config reader stats = .ok (.ok s) ∧
      reader.rewind.2.records.1 = .ok records ∧
      (∀ {n t}, s.Reaches n t → t.machine.InOrder records) ∧
      (s.run ≠ .error .overflow → ∃ report t, s.run = .ok (.ok report, t) ∧
        (∀ pid, ofProcess pid t.machine.executed = ofProcess pid (Survey.references records)) ∧
        report.hits + report.misses = records.length ∧
        t.machine.stats.totals.hits + t.machine.stats.totals.misses = records.length) := by
  obtain ⟨s, chart, hstart, -, hsound, hrecords, -⟩ := start_eq_ok hreach hfresh hsurvey
  refine ⟨s, chart.records, hstart, hrecords, fun {n t} hreaches => ?_, fun hclock => ?_⟩
  · obtain ⟨hsound', -⟩ := hsound.of_reaches hreaches
    exact hsound'.replays.inOrder hsound'.machine
  -- the report is that of a simulation in which everything is done
  · obtain ⟨n, t, report, hreaches, hfinished, hreport, hrun⟩ := hsound.exists_run hclock
    obtain ⟨hsound', -⟩ := hsound.of_reaches hreaches
    obtain ⟨hhits, hmisses⟩ := report_counts hreport
    have hcount := hsound'.references_of_isFinished hfinished
    refine ⟨report, _, hrun, fun pid => ?_, by rw [hhits, hmisses, hcount], hcount⟩
    rw [Machine.executed, references_completed]
    exact hsound'.ofProcess_executed hfinished pid

/-- Two processes that take turns over one frame. -/
theorem replay_of_turns : ∃ survey after,
    turns.survey cramped.queueOrder = .ok (.ok survey, after) ∧
      ∃ s records, start cramped turns { totalFrames := 1 } = .ok (.ok s) ∧
        turns.rewind.2.records.1 = .ok records ∧
        (∀ {n t}, s.Reaches n t → t.machine.InOrder records) ∧
        ∃ report t, s.run = .ok (.ok report, t) ∧
          (∀ pid, ofProcess pid t.machine.executed = ofProcess pid (Survey.references records)) ∧
          report.hits + report.misses = records.length ∧
          t.machine.stats.totals.hits + t.machine.stats.totals.misses = records.length := by
  obtain ⟨survey, after, hsurvey, hbudget⟩ := exists_survey turns cramped.queueOrder
    (fun survey => survey.records * (cramped.clockTick + cramped.diskPenalty) < 2 ^ 64) (by decide +kernel)
  obtain ⟨s, records, hstart, hrecords, hreaches, hrun⟩ :=
    @replay_of_reaches cramped turns after { totalFrames := 1 } survey (by decide) rfl hsurvey
  exact ⟨survey, after, hsurvey, s, records, hstart, hrecords, hreaches,
    hrun (run_ne_overflow (by decide) rfl hsurvey (of_decide_eq_true hbudget) hstart)⟩

end Simulator

end DemandPaging
