import DemandPaging.Proofs.Completion
import DemandPaging.Proofs.Precedence
import DemandPaging.Proofs.Tallies

/-!
# No step is wasted

When time in which nothing can run is passed over at once, each step gets something done (`Progress`). It
executes a reference, or no reference is left to the process whose disk read it completes, and no other
process can run. For when nothing can run a step takes the time to the next completed disk read, and not
less, so that one is complete at its end (`Sound.exists_resumed`). Its process goes on in the same step,
unless it ends.

So what has been done grows with each step (`Machine.progress`), but is never more than the records and
the processes of the trace: as many steps may be made, however long a tick or a disk read takes
(`no_step_wasted`). Tick by tick there are as many steps as ticks.
-/

namespace DemandPaging

namespace ProcessTable

variable {t t' : ProcessTable} {pid other : Pid} {q q' : Process} {source target : ProcessState}
  {order : QueueOrder} {line : Pid → Nat} {queue : ProcessState → List Pid} {elapsed : Nat}

/-- What a process is doing, if there is such a process. A step is described by it as a whole:
`Function.update` says which process changed, and that no other did. -/
def stateOf? (t : ProcessTable) (pid : Pid) : Option ProcessState := (t.get? pid).map (·.state)

theorem stateOf?_eq : t.stateOf? pid = (t.bare? pid).map (·.state) := by
  rw [stateOf?, bare?, Option.map_map]
  rfl

theorem stateOf?_passTime : (t.passTime elapsed).stateOf? = t.stateOf? := by
  funext pid
  rw [stateOf?, stateOf?, get?_passTime, Option.map_map]
  congr 1
  funext p
  -- a process that waits is blocked before and after
  show (if p.state = .blocked then p.passTime elapsed else p).state = p.state
  split <;> rfl

theorem stateOf?_update (h : t'.bare? = Function.update t.bare? pid (some q)) :
    t'.stateOf? = Function.update t.stateOf? pid (some q.state) := by
  funext other
  rw [stateOf?_eq, h]
  by_cases hother : other = pid
  · rw [hother, Function.update_self, Function.update_self]
    rfl
  · rw [Function.update_of_ne hother, Function.update_of_ne hother, stateOf?_eq]

/-- A process is done once it has joined those that are done. It was not among them, and nobody leaves
them. -/
theorem requeue_finished (h : source ≠ .finished) :
    requeue order line pid source target queue .finished =
      queue .finished ++ if target = .finished then [pid] else [] := by
  -- the queue of those that are done has no order but that of arrival
  by_cases htarget : target = .finished
  · subst htarget
    rw [requeue, if_neg fun hand => h hand.1, if_neg h.symm, if_pos rfl, if_pos rfl,
      joined_of_ne ProcessState.noConfusion]
  · rw [requeue_of_ne h.symm (Ne.symm htarget), if_neg htarget, List.append_nil]

/-- How many are done then. -/
theorem Requeued.length_finished (h : t.Requeued t' pid source target) (hsource : source ≠ .finished) :
    (t'.queue .finished).length =
      (t.queue .finished).length + if target = .finished then 1 else 0 := by
  rw [h.queue_eq, requeue_finished hsource, List.length_append]
  split <;> rfl

end ProcessTable

namespace Machine

variable {chart : Chart} {m m' : Machine} {pid : Pid} {q q' : Process} {record : TraceRecord} {hit : Bool}
  {now penalty : Nat}

/-- What has been done: the references that were executed, and the processes that are done. Each step
adds to it, and the trace bounds it. -/
def progress (m : Machine) : Nat :=
  m.references.length + (m.processes.queue .finished).length

/-- It is no more than the records and the processes of the trace. -/
theorem Sound.progress_le (h : m.Sound chart) (hreplays : m.Replays chart) :
    m.progress ≤ chart.records.length + (chart.records.map (·.pid)).dedup.length := by
  have hexecuted : m.references.length ≤ chart.records.length := by
    have hle := hreplays.length_le
    rwa [Machine.executed, List.length_map] at hle
  -- each process that is done has a record, and is queued once
  have hsubset : m.processes.queue .finished ⊆ (chart.records.map (·.pid)).dedup := by
    intro pid hpid
    obtain ⟨q, hq, -⟩ := h.lined.queued.1 hpid
    obtain ⟨record, hrecord, howner⟩ := (h.stands hq).exists_record
    rw [List.mem_dedup, ← h.lined.keyed hq, ← howner]
    exact List.mem_map_of_mem (Survey.mem_of_record? hrecord)
  have hfinished := ((h.lined.nodup .finished).subperm hsubset).length_le
  exact Nat.add_le_add hexecuted hfinished

/-- A completed disk read gets something done if its process ends. -/
theorem Resumed.progress_eq (h : Resumed chart now m m' pid q q') :
    m'.progress = m.progress + if q'.state = .finished then 1 else 0 := by
  have hsource : ProcessState.blocked ≠ .finished := ProcessState.noConfusion
  rw [progress, h.references_eq, h.requeued.length_finished hsource, ← Nat.add_assoc]
  rfl

/-- It ends if no process can run afterwards, for otherwise it would run itself. -/
theorem Resumed.finished_of_idle (h : Resumed chart now m m' pid q q') (h' : m'.Sound chart)
    (hempty : m'.processes.queue .runnable = []) : q'.state = .finished := by
  cases hstate : q'.state with
  | runnable =>
    have hmem := h'.lined.queued.2 ⟨q', h.self, hstate⟩
    rw [hempty] at hmem
    cases hmem
  | blocked => exact absurd hstate h.passes.idle.1
  | finished => rfl

/-- Then it was blocked and is done, and all others do what they did. -/
theorem Resumed.stateOf?_eq (h : Resumed chart now m m' pid q q') (hfinished : q'.state = .finished) :
    m.processes.stateOf? pid = some .blocked ∧
      m'.processes.stateOf? = Function.update m.processes.stateOf? pid (some .finished) := by
  rw [ProcessTable.stateOf?_update h.bare_eq, hfinished, ProcessTable.stateOf?_eq, h.found,
    Option.map_some, h.blocked]
  exact ⟨rfl, rfl⟩

/-- An executed reference does in any case, and more so if its process ends with it. -/
theorem Referred.progress_lt (h : Referred chart now penalty m m' pid q q' record hit) :
    m.progress < m'.progress := by
  have hsource : ProcessState.runnable ≠ .finished := ProcessState.noConfusion
  rw [progress, progress, h.references_eq, h.requeued.length_finished hsource, List.length_append,
    List.length_singleton]
  omega

end Machine

namespace Simulator

variable {chart : Chart} {s t : Simulator} {m : Machine} {n : Nat} {records : List TraceRecord}

/-- What a step gets done. The second case is that of a process whose last record was a fault: it is over
with its disk read, without a further step of its own. -/
inductive Progress (records : List TraceRecord) (s t : Simulator) : Prop where
  /-- It executes one record. -/
  | executes (r : Reference) (record : TraceRecord)
      (references_eq : t.machine.references = s.machine.references ++ [r])
      (record_eq : Survey.record? records r.line = some record) (page_eq : record.page = r.page)
  /-- It executes none. One process that was blocked is done, and none can run. -/
  | ends (pid : Pid) (references_eq : t.machine.references = s.machine.references)
      (blocked : s.machine.processes.stateOf? pid = some .blocked)
      (finished : t.machine.processes.stateOf? =
        Function.update s.machine.processes.stateOf? pid (some .finished))
      (runnable_eq : t.machine.processes.queue .runnable = [])

/-- **A jump.** When nothing can run, and time is passed over at once, a disk read is complete at the end
of the step. The step takes the least time that is left, and some process has no more than that. -/
theorem Sound.exists_resumed (h : s.Sound chart) (hfast : s.config.fastForward = true)
    (hrun : s.isFinished = false) (hidle : s.machine.canRun = false) (ht : t.Sound chart)
    (hsettled : Settled chart (s.waited s.elapsed) t m) :
    ∃ pid q q', Machine.Resumed chart (s.clock + s.elapsed) (s.waited s.elapsed).machine m pid q q' := by
  rcases hsettled.read with rfl | ⟨pid, rest, q, q', -, -, hresumed⟩
  · -- otherwise the process with the least time left would still wait
    obtain ⟨wait, hnext⟩ := h.exists_wait hrun hidle
    obtain ⟨⟨pid, p, hp, hblocked, rfl⟩, -⟩ := ProcessTable.nextCompletion?_eq_some hnext
    have htick := Nat.le_of_dvd (h.pending hp hblocked) (h.wait_whole hp hblocked)
    have helapsed := elapsed_of_fast hfast hidle hnext htick
    have hp' : (s.waited s.elapsed).machine.processes.bare? pid = some (p.passTime s.elapsed) := by
      show (s.machine.processes.passTime s.elapsed).bare? pid = _
      rw [ProcessTable.bare?_passTime, hp, Option.map_some, if_pos hblocked]
    have hhead : (s.waited s.elapsed).machine.processes.head? .runnable = none := by
      rw [Machine.canRun, Bool.not_eq_false', List.isEmpty_iff] at hidle
      exact List.head?_eq_none_iff.2 hidle
    -- as none runs, the state after the step is the one in which that process has no time left
    rcases hsettled.turn with ⟨-, rfl⟩ | ⟨_, _, _, _, _, _, hsome, -⟩
    · have hpos := ht.pending hp' hblocked
      rw [helapsed] at hpos
      exact absurd hpos (Nat.not_lt.2 (Nat.le_of_eq (Nat.sub_self _)))
    · cases hhead.symm.trans hsome
  · exact ⟨pid, q, q', hresumed⟩

/-- Disk reads undo nothing that was done. -/
theorem Settled.progress_le (h : Settled chart s t m) : s.machine.progress ≤ m.progress := by
  rcases h.read with rfl | ⟨pid, rest, q, q', -, -, hresumed⟩
  · exact Nat.le_refl _
  · rw [hresumed.progress_eq]
    exact Nat.le_add_right _ _

/-- **A step** gets something done: whoever is at the head of the queue executes a record, and if nobody
is then time was passed over, and the process whose disk read that completed has ended. -/
theorem Sound.progress_step (h : s.Sound chart)
    (hs : s.machine.Patient s.config.diskPenalty s.clock) (hfast : s.config.fastForward = true)
    (hstep : s.step = .ok (.ok true, t)) :
    s.Progress chart.records t ∧ s.machine.progress < t.machine.progress := by
  obtain ⟨hrun, -, hunder, -, m, hsettled⟩ := h.settled_of_step hs hstep
  obtain ⟨ht, -⟩ := h.of_step hstep
  rcases hsettled.turn with ⟨hnone, rfl⟩ | ⟨pid, m', q, q', record, hit, -, hreferred, -, rfl⟩
  · -- nobody runs at the end of the step, so nobody could run at its beginning
    obtain ⟨pid, q, q', hresumed⟩ :=
      h.exists_resumed hfast hrun (hsettled.idle hunder hnone) ht hsettled
    have hempty := List.head?_eq_none_iff.1 hnone
    have hfinished := hresumed.finished_of_idle hsettled.going.sound hempty
    obtain ⟨hblocked, hstates⟩ := hresumed.stateOf?_eq hfinished
    -- what a process is doing does not change while it waits
    have hwaited : (s.waited s.elapsed).machine.processes.stateOf? = s.machine.processes.stateOf? :=
      ProcessTable.stateOf?_passTime
    rw [hwaited] at hblocked hstates
    refine ⟨.ends pid hresumed.references_eq hblocked hstates hempty, ?_⟩
    have hprogress := hresumed.progress_eq
    rw [if_pos hfinished] at hprogress
    exact Nat.lt_of_succ_le (Nat.le_of_eq hprogress.symm)
  · refine ⟨.executes { line := q.line, page := record.page, hit } record ?_ hreferred.record_eq rfl, ?_⟩
    · -- the disk reads of the step add no references
      exact hreferred.references_eq.trans (congrArg (· ++ _) hsettled.references_eq)
    · exact Nat.lt_of_le_of_lt hsettled.progress_le hreferred.progress_lt

/-- As many steps as were made, so much has been done at least. By induction on the steps. -/
theorem Sound.le_progress (h : s.Sound chart)
    (hs : s.machine.Patient s.config.diskPenalty s.clock) (hfast : s.config.fastForward = true)
    (hreaches : s.Reaches n t) : n ≤ t.machine.progress := by
  induction hreaches with
  | start => exact Nat.zero_le _
  | step hreaches hstep ih =>
    obtain ⟨hsound, hconfig⟩ := h.of_reaches hreaches
    -- pace and penalties are those of the beginning at each state on the way
    have hpatient := h.patient_of_reaches hs hreaches
    obtain ⟨-, hlt⟩ := hsound.progress_step hpatient (hconfig ▸ hfast) hstep
    exact Nat.succ_le_of_lt (Nat.lt_of_le_of_lt ih hlt)

/-- Tick by tick, the clock shows as many ticks as steps were made. -/
theorem Sound.clock_of_slow (h : s.Sound chart) (hslow : s.config.fastForward = false)
    (hreaches : s.Reaches n t) : t.clock = s.clock + n * s.config.clockTick := by
  induction hreaches with
  | start => rw [Nat.zero_mul, Nat.add_zero]
  | step hreaches hstep ih =>
    obtain ⟨hsound, hconfig⟩ := h.of_reaches hreaches
    obtain ⟨-, hclock⟩ := hsound.clock_of_step hstep
    rw [hclock, elapsed_of_slow (hconfig ▸ hslow), hconfig, ih, Nat.add_one_mul, Nat.add_assoc]

/-- **No step is wasted.** On a trace that the survey accepts, with all its bytes within reach, a
simulation begins. If it passes over time, each of its steps executes a record, or a process ends in it
with none left that can run; so it makes at most as many steps as the trace has records and processes. If
it goes tick by tick, it makes as many steps as the clock shows ticks. A run that the clock can count
makes its steps until there is none to make. -/
theorem no_step_wasted {config : ValidConfig} {reader after : TraceReader} {stats : Stats}
    {survey : Survey} (hreach : reader.medium.bytes.size ≤ reader.medium.maxOffset)
    (hfresh : stats.totals = {})
    (hsurvey : reader.survey config.queueOrder = .ok (.ok survey, after))
    (hrecords : reader.rewind.2.records.1 = .ok records) :
    ∃ s, start config reader stats = .ok (.ok s) ∧
      (config.fastForward = true → ∀ {n t}, s.Reaches n t →
        n ≤ records.length + (records.map (·.pid)).dedup.length ∧
          ∀ {u}, t.step = .ok (.ok true, u) → t.Progress records u) ∧
      (config.fastForward = false → ∀ {n t}, s.Reaches n t → n = t.clock / config.clockTick) ∧
      (s.run ≠ .error .overflow → ∃ n t report, s.Reaches n t ∧ t.step = .ok (.ok false, t) ∧
        s.run = .ok (.ok report, { t with machine := t.machine.note (.completed t.config.policy
          report.runtime report.hits report.misses report.evictions) })) := by
  obtain ⟨s, chart, hstart, rfl, hsound, hrecords', -⟩ := start_eq_ok hreach hfresh hsurvey
  cases hrecords.symm.trans hrecords'
  have hpatient := patient_of_start hfresh hsurvey hstart
  have hzero := clock_of_start hsurvey hstart
  refine ⟨s, hstart, fun hfast {n t} hreaches => ?_, fun hslow {n t} hreaches => ?_, fun hclock => ?_⟩
  · -- passing over time: each step adds to what is done, and that is bounded
    obtain ⟨hsound', hconfig⟩ := hsound.of_reaches hreaches
    constructor
    · calc n
        _ ≤ t.machine.progress := hsound.le_progress hpatient hfast hreaches
        _ ≤ _ := hsound'.machine.progress_le hsound'.replays
    · intro u hstep
      have hpatient' := hsound.patient_of_reaches hpatient hreaches
      exact (hsound'.progress_step hpatient' (hconfig ▸ hfast) hstep).1
  · -- tick by tick: the clock shows nothing but the steps
    rw [hsound.clock_of_slow hslow hreaches, hzero, Nat.zero_add,
      Nat.mul_div_cancel _ s.config.clockTick_pos]
  · -- the run ends where no step is left
    obtain ⟨n, t, report, hreaches, hfinished, -, hrun⟩ := hsound.exists_run hclock
    exact ⟨n, t, report, hreaches, step_of_isFinished hfinished, hrun⟩

theorem no_step_wasted_of_turns : ∃ survey after records,
    turns.survey cramped.queueOrder = .ok (.ok survey, after) ∧
      turns.rewind.2.records.1 = .ok records ∧
      records.length + (records.map (·.pid)).dedup.length = 6 ∧
      ∃ s, start cramped turns { totalFrames := 1 } = .ok (.ok s) ∧
        (∀ {n t}, s.Reaches n t → n ≤ records.length + (records.map (·.pid)).dedup.length ∧
          ∀ {u}, t.step = .ok (.ok true, u) → t.Progress records u) ∧
        ∃ n t report, s.Reaches n t ∧ t.step = .ok (.ok false, t) ∧
          s.run = .ok (.ok report, { t with machine := t.machine.note (.completed t.config.policy
            report.runtime report.hits report.misses report.evictions) }) := by
  obtain ⟨survey, after, hsurvey, hbudget⟩ := exists_survey turns cramped.queueOrder
    (fun survey => survey.records * (cramped.clockTick + cramped.diskPenalty) < 2 ^ 64) (by decide +kernel)
  obtain ⟨records, hrecords, htest⟩ := exists_records turns
    (fun records => records.length + (records.map (·.pid)).dedup.length = 6) (by decide +kernel)
  obtain ⟨s, hstart, hfast, -, hrun⟩ := @no_step_wasted records cramped turns after { totalFrames := 1 }
    survey (by decide) rfl hsurvey hrecords
  have hclock := run_ne_overflow (by decide) rfl hsurvey (of_decide_eq_true hbudget) hstart
  exact ⟨survey, after, records, hsurvey, hrecords, of_decide_eq_true htest, s, hstart, hfast rfl,
    hrun hclock⟩

end Simulator

end DemandPaging
