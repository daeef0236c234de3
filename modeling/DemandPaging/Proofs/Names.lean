import DemandPaging.Proofs.Equivariance
import DemandPaging.Proofs.Findings
import DemandPaging.Proofs.Halfway
import DemandPaging.Proofs.Lockstep
import DemandPaging.Proofs.Spelling

/-!
# Names do not matter

Which numbers a trace has for its processes and pages makes no difference to anything but these numbers
(`Simulator.names_do_not_matter`): simulations of two traces that differ by them make the same steps,
and show the same under other names after each of them.

At the start the processes are queued in the order in which they appear in the trace, each on the first
line that is its own (`Finds.renamed`). From there on both do the same: their machines differ by a
renaming after each step (`Renamed.bisimulation`). The renaming tells apart all numbers there are. The
one that is asked for needs to do that only for those in the trace; no others are ever found in a queue
or in a frame, since each page that is known was asked for (`Machine.preserved_asked`).
-/

namespace DemandPaging

variable {ρ : Renaming} {c d : Chart} {n : Nat}

/-! ### Steps -/

namespace Simulator

variable {s t s' t' : Simulator}

/-- The second simulation is the first one under other names: what each of the machines holds is the
other's, renamed. That both are sound is part of it, since from the machine alone the frames and the next
completion cannot be compared. -/
structure Renamed (ρ : Renaming) (c d : Chart) (s t : Simulator) : Prop where
  /-- The first one is sound. -/
  left : s.Sound c
  /-- So is the second one. -/
  right : t.Sound d
  /-- The parameters are the same. -/
  config_eq : t.config = s.config
  /-- It is the same time. -/
  clock_eq : t.clock = s.clock
  /-- The machines differ by the names. -/
  machine : s.machine.Renamed ρ t.machine

/-- Both complete the disk reads that are due, and have a reference executed. The completions come in the
same order, and so do the turns; after each of them the machines differ by the renaming still. -/
theorem Underway.settle_renamed (hs : s.Underway c) (ht : t.Underway d)
    (htraces : Survey.Renamed ρ c.records d.records) (hconfig : t.config = s.config)
    (hclock : t.clock = s.clock) (h : s.machine.Renamed ρ t.machine)
    (hsettle : s.settle = .ok (.ok true, s')) (hsettle' : t.settle = .ok (.ok true, t')) :
    s'.machine.Renamed ρ t'.machine := by
  have hfit := hs.references_lt
  refine hs.settle_of_both (f := ρ.pid) ht (fun {m n} hfold hfold' => ?_) (fun {m n} h => ?_)
    (fun {m n m' n' pid} h hturn hturn' => ?_) hsettle hsettle'
  · -- the reads that are due are those of the same processes, since the queues and the waits are the
    -- same
    rw [h.processes.completed_eq hs.machine.lined ht.machine.lined, hclock] at hfold'
    exact h.foldlM_completeRead htraces hs.machine ht.machine (by omega)
      (ProcessTable.nodup_completed hs.machine.lined) hs.blocked_of_completed hfold hfold'
  · rw [ProcessTable.head?, ProcessTable.head?, h.processes.queue_eq, List.head?_map]
  · -- the turn of the first process that can run; the other one has its name, so the records they read
    -- differ by the names as well
    have hrun' := hturn'.run_eq
    rw [hclock, hconfig] at hrun'
    have hsound := hturn.before.sound
    have hsound' := hturn'.before.sound
    obtain ⟨p, p', record, hit, hrefer⟩ :=
      hsound.referred hturn.head_eq hturn.hits_lt hturn.misses_lt hturn.run_eq
    obtain ⟨q, q', record', hit', hrefer'⟩ :=
      hsound'.referred hturn'.head_eq hturn'.hits_lt hturn'.misses_lt hrun'
    exact h.refer htraces hsound hsound' hrefer hrefer'
      (hturn.after.size_eq.trans hturn.before.size_eq.symm)
      (hturn'.after.size_eq.trans hturn'.before.size_eq.symm)

namespace Renamed

theorem canRun_eq (h : s.machine.Renamed ρ t.machine) : t.machine.canRun = s.machine.canRun := by
  rw [Machine.canRun, Machine.canRun, h.processes.queue_eq, List.isEmpty_map]

theorem isFinished_eq (h : Renamed ρ c d s t) : t.isFinished = s.isFinished := by
  rw [isFinished, isFinished, h.machine.processes.queue_eq, h.machine.processes.queue_eq,
    List.isEmpty_map, List.isEmpty_map]

theorem elapsed_eq (h : Renamed ρ c d s t) : t.elapsed = s.elapsed := by
  rw [elapsed, elapsed, h.config_eq, canRun_eq h.machine,
    h.machine.processes.nextCompletion?_eq h.left.machine.lined h.right.machine.lined]

/-- Time passes alike: the waits fall by as much, and of the totals those of the tick read the lengths of
queues and the number of used frames only. -/
theorem waited (h : Renamed ρ c d s t) {elapsed : Nat} :
    (s.waited elapsed).machine.Renamed ρ (t.waited elapsed).machine where
  processes := h.machine.processes.passTime elapsed
  pages := by
    show PageMap.Renamed ρ (s.machine.processes.passTime elapsed).page?
      (t.machine.processes.passTime elapsed).page?
    rw [ProcessTable.page?_passTime, ProcessTable.page?_passTime]
    exact h.machine.pages
  policy := h.machine.policy
  stats_eq := by
    have hframes := h.machine.frames_eq h.left.machine h.right.machine
    rw [Simulator.waited, Simulator.waited, h.machine.stats_eq, hframes, canRun_eq h.machine,
      h.config_eq, FrameTable.allocated_rename]
  size_eq := h.machine.size_eq

/-- **Steps.** Simulations that differ by a renaming are in lockstep. That both can step is a matter of
the clock and of being finished, where they agree; what the step does is in `settle_renamed`. -/
theorem bisimulation (htraces : Survey.Renamed ρ c.records d.records) :
    Bisimulation (Renamed ρ c d) where
  isFinished_eq h := h.isFinished_eq.symm
  clock_eq h := h.clock_eq.symm
  elapsed_eq h := h.elapsed_eq.symm
  exists_report h := h.left.exists_report
  report_eq {s t} h := by
    have hticks : t.ticks = s.ticks := by rw [ticks, ticks, h.clock_eq, h.config_eq]
    rw [report, report, h.machine.stats_eq, hticks]
  step_eq_ok {s t} h hrun hclock := by
    have hrun' : t.isFinished = false := h.isFinished_eq.trans hrun
    have hclock' : t.clock + t.elapsed < 2 ^ 64 := by
      rw [h.clock_eq, h.elapsed_eq]
      exact hclock
    -- each of them has a next state, since it is sound; both wait as long before they settle
    obtain ⟨m, hstep, hsound⟩ := h.left.step_eq_ok hrun hclock
    obtain ⟨n, hstep', hsound'⟩ := h.right.step_eq_ok hrun' hclock'
    obtain ⟨-, -, hwaited, hsettle⟩ := h.left.step_cases hstep
    obtain ⟨-, -, hwaited', hsettle'⟩ := h.right.step_cases hstep'
    rw [h.elapsed_eq] at hstep' hsound' hwaited' hsettle'
    have htime : t.clock + s.elapsed = s.clock + s.elapsed := congrArg (· + s.elapsed) h.clock_eq
    exact ⟨_, _, hstep, hstep', hsound, hsound', h.config_eq, htime,
      hwaited.settle_renamed hwaited' htraces h.config_eq htime h.waited hsettle hsettle'⟩

end Renamed

end Simulator

/-! ### The start -/

theorem eraseDups_map {f : Pid → Pid} (hf : f.Injective) (pids : List Pid) :
    (pids.map f).eraseDups = pids.eraseDups.map f := by
  induction pids using List.reverseRecOn with
  | nil => rfl
  | append_singleton pids pid ih =>
    rw [List.map_append, List.map_singleton, Survey.eraseDups_concat, Survey.eraseDups_concat, ih]
    simp only [List.mem_map_of_injective hf]
    split
    · rfl
    · rw [List.map_append, List.map_singleton]

/-- The processes of the surveys differ by the names, as the traces do. A process is found if it has a
line in the trace, so the same are found under other names. -/
theorem Survey.Finds.renamed {records records' : List TraceRecord} {order : QueueOrder}
    {survey survey' : Survey} (h : survey.Finds records order) (h' : survey'.Finds records' order)
    (htraces : Survey.Renamed ρ records records') : survey.processes.Renamed ρ survey'.processes where
  order_eq := h'.order_eq.trans h.order_eq.symm
  queue_eq state := by
    rw [ProcessTable.queue, ProcessTable.queue, h.queues_eq, h'.queues_eq, htraces.map_pid_eq,
      eraseDups_map ρ.pid_injective]
    cases state <;> rfl
  process pid := by
    have hsome : (survey'.processes.get? (ρ.pid pid)).isSome = (survey.processes.get? pid).isSome := by
      rw [Bool.eq_iff_iff, h'.isSome_get?_iff, h.isSome_get?_iff, htraces.map_pid_eq,
        List.mem_map_of_injective ρ.pid_injective]
    rw [ProcessTable.bare?, ProcessTable.bare?]
    cases hp : survey.processes.get? pid with
    | none =>
      rw [hp] at hsome
      rw [Option.not_isSome_iff_eq_none.1 (Bool.eq_false_iff.1 hsome)]
      exact .none
    | some p =>
      rw [hp] at hsome
      obtain ⟨q, hq⟩ := Option.isSome_iff_exists.1 hsome
      rw [hq]
      have hbegins := h.begins hp
      have hbegins' := h'.begins hq
      -- the first line is the least one that is the process's own
      have hline : q.line = p.line := by
        obtain ⟨record, hrecord, hpid, -⟩ := hbegins.first
        obtain ⟨record', hrecord', hpid', -⟩ := hbegins'.first
        obtain ⟨found, hfound, howner⟩ := htraces.owned_iff.1 ⟨record', hrecord', hpid'⟩
        obtain ⟨found', hfound', howner'⟩ := htraces.owned_iff.2 ⟨record, hrecord, hpid⟩
        rw [hbegins.line_eq, hbegins'.line_eq]
        exact Nat.le_antisymm (hbegins'.firstLine_le hfound' howner')
          (hbegins.firstLine_le hfound howner)
      obtain ⟨hwait, hpending, -⟩ := hbegins.idle
      obtain ⟨hwait', hpending', -⟩ := hbegins'.idle
      refine .some ⟨?_, hbegins'.state_eq.trans hbegins.state_eq.symm, hline, hwait'.trans hwait.symm,
        ?_⟩
      · show q.pid = ρ.pid p.pid
        rw [hbegins.pid_eq, hbegins'.pid_eq]
      · show q.pending? = p.pending?.map ρ.page
        rw [hpending, hpending']
        rfl

namespace Simulator

variable {s t : Simulator} {config : ValidConfig} {reader reader' after after' : TraceReader}
  {stats : Stats} {survey survey' : Survey} {r : Pid → Pid} {v : Pid → Vpn → Vpn}

/-- Simulations of traces that differ by a renaming differ by it at the start. No page is known yet and
the policies are as built, so it comes down to the processes of the surveys. -/
theorem renamed_of_start (hreach : reader.medium.bytes.size ≤ reader.medium.maxOffset)
    (hreach' : reader'.medium.bytes.size ≤ reader'.medium.maxOffset) (hfresh : stats.totals = {})
    (hsurvey : reader.survey config.queueOrder = .ok (.ok survey, after))
    (hsurvey' : reader'.survey config.queueOrder = .ok (.ok survey', after'))
    (hstart : start config reader stats = .ok (.ok s))
    (hstart' : start config reader' stats = .ok (.ok t)) (hs : s.Sound c) (ht : t.Sound d)
    (hc : reader.rewind.2.records.1 = .ok c.records) (hd : reader'.rewind.2.records.1 = .ok d.records)
    (htraces : Survey.Renamed ρ c.records d.records) : Renamed ρ c d s t := by
  have hempty := (fresh_of_start hreach hfresh hsurvey hstart).pages_eq
  have hempty' := (fresh_of_start hreach' hfresh hsurvey' hstart').pages_eq
  obtain ⟨_, hrecords, hfinds⟩ := TraceReader.finds_of_survey hsurvey
  obtain ⟨_, hrecords', hfinds'⟩ := TraceReader.finds_of_survey hsurvey'
  cases hc.symm.trans hrecords
  cases hd.symm.trans hrecords'
  obtain ⟨frames, policy, hframes, hpolicy, rfl⟩ := start_cases hsurvey hstart
  obtain ⟨frames', policy', hframes', hpolicy', rfl⟩ := start_cases hsurvey' hstart'
  cases hframes.symm.trans hframes'
  refine ⟨hs, ht, rfl, rfl, hfinds.renamed hfinds' htraces, ?_, ?_, rfl, rfl⟩
  · rw [hempty, hempty']
    exact ⟨fun _ => rfl, fun hpage => (by cases hpage)⟩
  · exact Policy.renamed_of_build hpolicy hpolicy'

/-! ### The runs -/

/-- What two simulations show of themselves if the second one has other names for the processes and the
pages. Other than in `Renamed` the names are plain functions, which matter at the shown numbers only. -/
structure AlikeUnder (r : Pid → Pid) (v : Pid → Vpn → Vpn) (s t : Simulator) : Prop where
  /-- Both are done, or neither is. -/
  isFinished_eq : t.isFinished = s.isFinished
  /-- It is the same time. -/
  clock_eq : t.clock = s.clock
  /-- The same has been counted. -/
  stats_eq : t.machine.stats = s.machine.stats
  /-- The same processes are queued under other numbers, in the same order. -/
  queue_eq : ∀ state, t.machine.processes.queue state = (s.machine.processes.queue state).map r
  /-- The frames hold the same pages under other names. -/
  holders_eq : t.machine.frames.holders = s.machine.frames.holders.map fun holder? =>
    holder?.map fun ref => { pid := r ref.pid, vpn := v ref.pid ref.vpn }
  /-- The same frames are free. -/
  free_eq : t.machine.frames.free = s.machine.frames.free

/-- The processes and the pages that show themselves are those of the trace. A queued process stands on a
line of its own, and the page in a frame has been asked for; there the renaming is `r` and `v`. -/
theorem Renamed.alikeUnder (h : Renamed ρ c d s t) (hasked : s.machine.Asked (c.records.map (·.page)))
    (hnames : ∀ ref ∈ c.records.map (·.page), ρ.pid ref.pid = r ref.pid ∧
      ρ.page ref = { pid := r ref.pid, vpn := v ref.pid ref.vpn }) : s.AlikeUnder r v t := by
  have hframes := h.machine.frames_eq h.left.machine h.right.machine
  refine ⟨h.isFinished_eq, h.clock_eq, h.machine.stats_eq, fun state => ?_, ?_, ?_⟩
  · -- the queues
    rw [h.machine.processes.queue_eq]
    refine List.map_congr_left fun pid hpid => ?_
    obtain ⟨p, hp, -⟩ := h.left.machine.lined.queued.1 hpid
    obtain ⟨record, hrecord, howner⟩ := (h.left.machine.stands hp).exists_record
    rw [h.left.machine.lined.keyed hp] at howner
    rw [← howner]
    exact (hnames record.page (List.mem_map_of_mem (Survey.mem_of_record? hrecord))).1
  · -- the frames
    rw [hframes]
    refine Array.map_congr_left fun holder? hholder => Option.map_congr fun ref href => ?_
    obtain ⟨frame, hlt, hframe⟩ := Array.mem_iff_getElem.1 hholder
    have hheld : s.machine.frames.holders[frame]? = some (some ref) := by
      rw [Array.getElem?_eq_getElem hlt, hframe, href]
    obtain ⟨page, hpage, -⟩ :=
      PageMap.frame?_eq_some_iff.1 (h.left.machine.coherent.residency.held_iff.1 hheld)
    exact (hnames ref (hasked hpage)).2
  · rw [hframes]
    rfl

/-- **Names do not matter.** Let a trace be accepted, and another one have the same records but for the
numbers: `r` gives each process of the trace another number, and `v` each of its pages, so that no two
become the same. The other trace is accepted too. Simulations of both make the same number of steps, and
after each of them show the same time, the same totals, and the same queues and frames under the other
names; and their runs answer the same. -/
theorem names_do_not_matter {records records' : List TraceRecord}
    (hreach : reader.medium.bytes.size ≤ reader.medium.maxOffset)
    (hreach' : reader'.medium.bytes.size ≤ reader'.medium.maxOffset)
    (hseek' : reader'.medium.seekError? = none) (hfresh : stats.totals = {})
    (hsurvey : reader.survey config.queueOrder = .ok (.ok survey, after))
    (hrecords : reader.rewind.2.records.1 = .ok records)
    (hrecords' : reader'.rewind.2.records.1 = .ok records')
    (hr : {pid | ∃ ref ∈ records.map (·.page), ref.pid = pid}.InjOn r)
    (hv : ∀ pid, {vpn | ⟨pid, vpn⟩ ∈ records.map (·.page)}.InjOn (v pid))
    (hpages : records'.map (·.page) = (records.map (·.page)).map fun ref =>
      { pid := r ref.pid, vpn := v ref.pid ref.vpn }) :
    ∃ s t, start config reader stats = .ok (.ok s) ∧ start config reader' stats = .ok (.ok t) ∧
      (∀ n, (∀ s', s.Reaches n s' → ∃ t', t.Reaches n t' ∧ s'.AlikeUnder r v t') ∧
        ∀ t', t.Reaches n t' → ∃ s', s.Reaches n s' ∧ s'.AlikeUnder r v t') ∧
      s.run.map Prod.fst = t.run.map Prod.fst := by
  obtain ⟨s, c, hstart, -, hsound, hc, hlength⟩ := start_eq_ok hreach hfresh hsurvey
  cases hrecords.symm.trans hc
  -- there are records, so there are some under the other names
  have hne : records' ≠ [] := by
    rintro rfl
    obtain ⟨-, -, found, hfound, hsome, -⟩ := TraceReader.survey_eq_ok_iff.1 hsurvey
    cases hrecords.symm.trans hfound
    exact hsome (List.map_eq_nil_iff.1 (List.map_eq_nil_iff.1 hpages.symm))
  obtain ⟨survey', after', hsurvey'⟩ : ∃ survey' after',
      reader'.survey config.queueOrder = .ok (.ok survey', after') :=
    TraceReader.exists_survey_of_records hseek' hrecords' hne
  obtain ⟨t, d, hstart', -, hsound', hd, -⟩ := start_eq_ok hreach' hfresh hsurvey'
  cases hrecords'.symm.trans hd
  -- a renaming that tells apart all numbers there are, and is the one asked for on those of the trace
  obtain ⟨ρ, hnames⟩ := Renaming.exists_of_injOn hr hv
  have htraces : Survey.Renamed ρ c.records d.records := by
    rw [Survey.Renamed, hpages, List.map_map]
    exact List.map_congr_left fun record hrecord =>
      (hnames record.page (List.mem_map_of_mem hrecord)).2.symm
  have hrenamed := renamed_of_start hreach hreach' hfresh hsurvey hsurvey' hstart hstart' hsound hsound'
    hc hd htraces
  -- at the start no page is known, so none that is not in the trace
  have hasked : s.machine.Asked (c.records.map (·.page)) := by
    intro ref page hpage
    rw [(fresh_of_start hreach hfresh hsurvey hstart).pages_eq] at hpage
    cases hpage
  have hsame : ∀ {n s' t'}, s.Reaches n s' → Renamed ρ c d s' t' → s'.AlikeUnder r v t' :=
    fun hreaches h' => h'.alikeUnder (hsound.preserves Machine.preserved_asked hasked hreaches) hnames
  have hlockstep := Renamed.bisimulation (c := c) (d := d) htraces
  exact ⟨s, t, hstart, hstart', hlockstep.reaches hrenamed hsame, hlockstep.run_eq hrenamed⟩

/-- The records of `turns` under names that are in the other order. So the processes are looked
through in the other order when a disk read is due. -/
def turnsRenamed : TraceReader :=
  .ofBytes ⟨#[57, 32, 50, 10, 52, 32, 53, 10, 57, 32, 49, 10, 52, 32, 53, 10]⟩

/-- Other numbers for the processes of `turns`. -/
def otherPid (pid : Pid) : Pid := if pid = 1 then 9 else 4

/-- Other numbers for the pages of `turns`. -/
def otherVpn (_pid : Pid) (vpn : Vpn) : Vpn := if vpn = 7 then 2 else if vpn = 8 then 1 else 5

theorem names_do_not_matter_for_turns : ∃ survey after records records',
    turns.survey positional.queueOrder = .ok (.ok survey, after) ∧
      turns.rewind.2.records.1 = .ok records ∧ turnsRenamed.rewind.2.records.1 = .ok records' ∧
      ∃ s t, start positional turns { totalFrames := 1 } = .ok (.ok s) ∧
        start positional turnsRenamed { totalFrames := 1 } = .ok (.ok t) ∧
        (∀ n, (∀ s', s.Reaches n s' → ∃ t', t.Reaches n t' ∧ s'.AlikeUnder otherPid otherVpn t') ∧
          ∀ t', t.Reaches n t' → ∃ s', s.Reaches n s' ∧ s'.AlikeUnder otherPid otherVpn t') ∧
        s.run.map Prod.fst = t.run.map Prod.fst := by
  let pages : List PageRef := [⟨1, 7⟩, ⟨2, 3⟩, ⟨1, 8⟩, ⟨2, 3⟩]
  obtain ⟨survey, after, hsurvey, -⟩ :=
    exists_survey turns positional.queueOrder (fun _ => true) (by decide +kernel)
  obtain ⟨records, hrecords, htest⟩ :=
    exists_records turns (·.map (·.page) = pages) (by decide +kernel)
  obtain ⟨records', hrecords', htest'⟩ :=
    exists_records turnsRenamed (·.map (·.page) = [⟨9, 2⟩, ⟨4, 5⟩, ⟨9, 1⟩, ⟨4, 5⟩]) (by decide +kernel)
  have hpages : records.map (·.page) = pages := of_decide_eq_true htest
  have hpages' : records'.map (·.page) = (records.map (·.page)).map fun ref =>
      { pid := otherPid ref.pid, vpn := otherVpn ref.pid ref.vpn } := by
    rw [hpages]
    exact of_decide_eq_true htest'
  have hpids : ∀ ref ∈ pages, ∀ ref' ∈ pages, otherPid ref.pid = otherPid ref'.pid →
      ref.pid = ref'.pid := by decide
  have hvpns : ∀ ref ∈ pages, ∀ ref' ∈ pages, ref.pid = ref'.pid →
      otherVpn ref.pid ref.vpn = otherVpn ref'.pid ref'.vpn → ref.vpn = ref'.vpn := by decide
  refine ⟨survey, after, records, records', hsurvey, hrecords, hrecords',
    names_do_not_matter (by decide) (by decide) rfl rfl hsurvey hrecords hrecords' ?_ ?_ hpages'⟩
  · -- no two processes get the same number, and no two pages of one process do
    rw [hpages]
    rintro _ ⟨ref, href, rfl⟩ _ ⟨ref', href', rfl⟩ heq
    exact hpids ref href ref' href' heq
  · rw [hpages]
    exact fun pid vpn hvpn vpn' hvpn' heq => hvpns ⟨pid, vpn⟩ hvpn ⟨pid, vpn'⟩ hvpn' rfl heq

end Simulator

end DemandPaging
