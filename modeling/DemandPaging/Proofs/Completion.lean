import DemandPaging.Proofs.Agreement
import DemandPaging.Proofs.Replay

/-!
# What a run leaves behind

If the clock can hold the budget of a trace, every step of a simulation succeeds and its run comes to the
end (`Sound.run_eq_ok`). What is left then is an empty memory: no process has a page, no frame is in use,
and no policy tracks one (`Simulator.Complete`).

All of it follows from one fact. A process that is done has given up its pages (`Sound.page?_eq_none`), and
at the end all of them are done: those are the processes of the trace, each of which is still there
(`run_completes`).
-/

namespace DemandPaging

namespace Machine.Sound

variable {chart : Chart} {m : Machine} {pid : Pid} {p : Process}

/-- A page is known to a process, and one that is done has none. -/
theorem page?_eq_none (h : m.Sound chart)
    (hfinished : ∀ {pid p}, m.processes.bare? pid = some p → p.state = .finished) (ref : PageRef) :
    m.processes.page? ref = none := by
  cases hpage : m.processes.page? ref with
  | none => rfl
  | some page =>
    obtain ⟨p, hp, -⟩ := ProcessTable.page?_eq_some_iff.1 hpage
    have hq := ProcessTable.bare?_of_get? hp
    exact absurd (hfinished hq) (h.alive hpage hq)

theorem pages_eq_empty (h : m.Sound chart)
    (hfinished : ∀ {pid p}, m.processes.bare? pid = some p → p.state = .finished)
    (hp : m.processes.get? pid = some p) : p.pages = ∅ := by
  refine OrderedMap.ext_get? fun vpn => ?_
  have hnone := h.page?_eq_none hfinished ⟨pid, vpn⟩
  rw [ProcessTable.page?_of_get? hp] at hnone
  rw [hnone, OrderedMap.get?_empty]

theorem allocated_eq_zero (h : m.Sound chart)
    (hfinished : ∀ {pid p}, m.processes.bare? pid = some p → p.state = .finished) :
    m.frames.allocated = 0 := by
  -- a frame in use would hold a page
  have hnone : m.residentFrames = [] := List.eq_nil_iff_forall_not_mem.2 fun frame hmem => by
    obtain ⟨ref, hframe⟩ := h.mem_residentFrames_iff.1 hmem
    rw [PageMap.frame?, h.page?_eq_none hfinished] at hframe
    cases hframe
  rw [h.allocated_eq, hnone]
  rfl

/-- A frame that is tracked is that of a page. -/
theorem tracked_eq_nil (h : m.Sound chart)
    (hfinished : ∀ {pid p}, m.processes.bare? pid = some p → p.state = .finished)
    {tracked : List FrameId} (htracked : m.policy.tracked? = some tracked) : tracked = [] := by
  refine List.eq_nil_iff_forall_not_mem.2 fun frame hmem => ?_
  obtain ⟨ref, hframe⟩ := (Policy.mem_tracked_iff h.coherent.follows htracked).1 hmem
  rw [PageMap.frame?, h.page?_eq_none hfinished] at hframe
  cases hframe

end Machine.Sound

namespace Simulator

variable {chart : Chart} {s t : Simulator} {pid : Pid}

/-- A simulation that has come to the end of the trace with these records, with nothing left in
memory. The first clause says whose end it is: without it an empty table would do. -/
structure Complete (records : List TraceRecord) (t : Simulator) : Prop where
  /-- The process of each record is there. -/
  present : ∀ record ∈ records, ∃ p, t.machine.processes.get? record.pid = some p
  /-- Every process is done. -/
  finished : ∀ {pid p}, t.machine.processes.get? pid = some p → p.state = .finished
  /-- No process has a page. -/
  empty : ∀ {pid p}, t.machine.processes.get? pid = some p → p.pages = ∅
  /-- No process waits for its turn. -/
  runnable_eq : t.machine.processes.queue .runnable = []
  /-- No process waits for the disk. -/
  blocked_eq : t.machine.processes.queue .blocked = []
  /-- No frame is in use. -/
  allocated_eq : t.machine.frames.allocated = 0
  /-- Random choice is the only policy that tracks no frames. -/
  tracks : t.machine.policy.tracked?.isSome = true ↔ t.config.policy ≠ .random
  /-- The others have none left to track. -/
  tracked_eq : ∀ {tracked}, t.machine.policy.tracked? = some tracked → tracked = []

theorem Sound.complete (h : s.Sound chart) (hfinished : s.isFinished = true) :
    s.Complete chart.records where
  present record hmem := by
    obtain ⟨i, hrecord⟩ := List.mem_iff_getElem?.1 hmem
    -- lines are counted from one
    obtain ⟨q, hq⟩ := h.replays.present (show chart.record? (i + 1) = some record from hrecord)
    obtain ⟨p, hp, -⟩ := ProcessTable.bare?_eq_some_iff.1 hq
    exact ⟨p, hp⟩
  finished hp := by
    -- the state of a process does not depend on its pages
    have hstate := h.finished hfinished (ProcessTable.bare?_of_get? hp)
    exact hstate
  empty hp := h.machine.pages_eq_empty (h.finished hfinished) hp
  runnable_eq := by
    rw [isFinished, Bool.and_eq_true, List.isEmpty_iff] at hfinished
    exact hfinished.1
  blocked_eq := by
    rw [isFinished, Bool.and_eq_true, List.isEmpty_iff, List.isEmpty_iff] at hfinished
    exact hfinished.2
  allocated_eq := h.machine.allocated_eq_zero (h.finished hfinished)
  tracks := by rw [Policy.isSome_tracked?_iff, h.kind_eq]
  tracked_eq := h.machine.tracked_eq_nil (h.finished hfinished)

/-- **Runs complete.** On a trace that the survey accepts, with all its bytes within reach, and whose
records take no more time than the clock can hold when each of them takes a tick and a disk read, a
simulation begins, every step on its way succeeds, and its run comes to an end with a report, with every
process of the trace done and with nothing left in memory. -/
theorem run_completes {config : ValidConfig} {reader after : TraceReader} {stats : Stats}
    {survey : Survey} (hreach : reader.medium.bytes.size ≤ reader.medium.maxOffset)
    (hfresh : stats.totals = {})
    (hsurvey : reader.survey config.queueOrder = .ok (.ok survey, after))
    (hbudget : survey.records * (config.clockTick + config.diskPenalty) < 2 ^ 64) :
    ∃ s records report t, start config reader stats = .ok (.ok s) ∧
      reader.rewind.2.records.1 = .ok records ∧ s.run = .ok (.ok report, t) ∧
      (∀ {n u}, s.Reaches n u → ∃ v, u.step = .ok (.ok (!u.isFinished), v)) ∧
      t.config = config ∧ t.Complete records := by
  obtain ⟨s, chart, hstart, hconfig, hsound, hrecords, hlength⟩ := start_eq_ok hreach hfresh hsurvey
  have hbudget : budget config chart.records.length < 2 ^ 64 := by
    rw [hlength]
    exact hbudget
  obtain ⟨n, u, report, hreaches, hfinished, hrun⟩ := hsound.run_eq_ok (hconfig.symm ▸ hbudget)
  obtain ⟨hsound', hconfig'⟩ := hsound.of_reaches hreaches
  have hcomplete := hsound'.complete hfinished
  refine ⟨s, chart.records, report, _, hstart, hrecords, hrun, fun {n v} hreaches => ?_,
    hconfig'.trans hconfig, ?_⟩
  · -- the budget is that of the whole trace, so every step on the way is within it
    obtain ⟨hsound', hconfig'⟩ := hsound.of_reaches hreaches
    refine hsound'.step_within_budget ?_
    rw [hconfig', hconfig]
    exact hbudget
  -- the report is noted in the journal, which changes nothing else
  · exact ⟨hcomplete.present, hcomplete.finished, hcomplete.empty, hcomplete.runnable_eq,
      hcomplete.blocked_eq, hcomplete.allocated_eq, hcomplete.tracks, hcomplete.tracked_eq⟩

/-- Two processes that take turns over one frame. -/
theorem run_completes_of_turns : ∃ survey after,
    turns.survey cramped.queueOrder = .ok (.ok survey, after) ∧
      survey.records * (cramped.clockTick + cramped.diskPenalty) < 2 ^ 64 ∧
      ∃ s records report t, start cramped turns { totalFrames := 1 } = .ok (.ok s) ∧
        turns.rewind.2.records.1 = .ok records ∧ s.run = .ok (.ok report, t) ∧
        (∀ {n u}, s.Reaches n u → ∃ v, u.step = .ok (.ok (!u.isFinished), v)) ∧
        t.config = cramped ∧ t.Complete records := by
  obtain ⟨survey, after, hsurvey, hrecords⟩ :=
    exists_survey turns cramped.queueOrder (·.records = 4) (by decide +kernel)
  have hbudget : survey.records * (cramped.clockTick + cramped.diskPenalty) < 2 ^ 64 := by
    rw [of_decide_eq_true hrecords]
    decide
  exact ⟨survey, after, hsurvey, hbudget, run_completes (by decide) rfl hsurvey hbudget⟩

end Simulator

end DemandPaging
