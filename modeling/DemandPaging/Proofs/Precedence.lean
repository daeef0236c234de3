import DemandPaging.Proofs.Waiting

/-!
# The earliest reference

With the queue of runnable processes lined up by trace position, the process that stands first in the
trace runs first. The queue is `Ranked`: along it the lines of the processes increase, and so do their
positions in the trace, blank lines or not, since positions at which records are read are in the order of
their lines.

The cursor of a process moves while it is queued, so what is kept is not the queue by itself but what a
move makes of it: the process that moved leaves the queue it was in, and if it can run it is put in
before the first one on a later line (`pairwise_joined`). No two processes stand on one line, since the
record there belongs to one of them (`Sound.pid_of_line`), so the lines go on to increase
(`Sound.ranked_of_requeued`). At the start they do as well: the processes are queued as they appear in
the trace (`ranked_of_start`).

So the head of the queue stands on the earliest line of all that can run, and a step that executes a
reference executes that one (`earliest_reference_runs`).
-/

namespace DemandPaging

/-! ### Lines in order -/

/-- First occurrences come in the order of their places. That is how the survey queues the processes. -/
theorem pairwise_idxOf_eraseDups (pids : List Pid) :
    pids.eraseDups.Pairwise fun pid other => pids.idxOf pid < pids.idxOf other := by
  induction pids using List.reverseRecOn with
  | nil => exact .nil
  | append_singleton pids last ih =>
    -- one element more does not move the first place of another
    have hold : pids.eraseDups.Pairwise fun pid other =>
        (pids ++ [last]).idxOf pid < (pids ++ [last]).idxOf other :=
      ih.imp_of_mem fun {pid other} hpid hother hlt => by
        rwa [List.idxOf_append_of_mem (List.mem_eraseDups.1 hpid),
          List.idxOf_append_of_mem (List.mem_eraseDups.1 hother)]
    rw [Survey.eraseDups_concat]
    split
    · exact hold
    · -- a new number comes after all others
      next hnew =>
      refine List.pairwise_append.2 ⟨hold, List.pairwise_singleton _ _, fun pid hpid other hother => ?_⟩
      have hpid := List.mem_eraseDups.1 hpid
      have hlt := List.idxOf_lt_length_iff.2 hpid
      rw [List.mem_singleton.1 hother, List.idxOf_append_of_mem hpid, List.idxOf_append_of_notMem hnew]
      omega

/-- A process begins at the first place at which its number stands. Lines are counted from one, and
places from zero. -/
theorem Survey.Begins.line_eq_idxOf {records : List TraceRecord} {pid : Pid} {p : Process}
    (h : Begins records pid p) : p.line = (records.map (·.pid)).idxOf pid + 1 := by
  obtain ⟨record, hrecord, hpid, -⟩ := h.first
  rw [h.line_eq]
  cases hline : p.firstLine with
  | zero =>
    rw [hline] at hrecord
    cases hrecord
  | succ place =>
    rw [hline] at hrecord
    have hrecord : records[place]? = some record := hrecord
    have hplace : (records.map (·.pid))[place]? = some pid := by
      rw [List.getElem?_map, hrecord, Option.map_some, hpid]
    refine congrArg (· + 1) (Nat.le_antisymm ?_ (Nat.le_of_not_lt fun hlt => ?_))
    -- at the first place there is a record of the process, so it does not begin later
    · have hfirst := List.getElem?_idxOf (List.mem_of_getElem? hplace)
      rw [List.getElem?_map] at hfirst
      obtain ⟨found, hfound, hpid⟩ := Option.map_eq_some_iff.1 hfirst
      have hle := h.firstLine_le (show record? records (_ + 1) = some found from hfound) hpid
      omega
    · -- and not earlier, since its first line has a record of it
      obtain ⟨hbound, hat⟩ := List.getElem?_eq_some_iff.1 hplace
      have hother := List.not_of_lt_findIdx hlt
      rw [hat, beq_self_eq_true] at hother
      cases hother

namespace ProcessTable

variable {t : ProcessTable} {pid other : Pid} {line : Pid → Nat} {pids : List Pid}
  {state : ProcessState}

theorem lineOf_of_bare {p : Process} (h : t.bare? pid = some p) : t.lineOf pid = p.line := by
  rw [lineOf, h]
  rfl

/-- A process that joins a queue in order keeps it in order, as long as nobody in it is on the same line.
-/
theorem pairwise_joined (h : pids.Pairwise fun pid other => line pid < line other)
    (hapart : ∀ other ∈ pids, line other ≠ line pid) :
    (joined .tracePosition line pid .runnable pids).Pairwise fun pid other =>
      line pid < line other := by
  obtain ⟨ahead, behind, rfl, hjoined, hle, hafter⟩ := exists_joined_split pid (h.imp Nat.le_of_lt)
  obtain ⟨hahead, hbehind, hacross⟩ := List.pairwise_append.1 h
  -- nobody ahead is on the line itself, so all of them are before it
  have hbefore : ∀ other ∈ ahead, line other < line pid := fun other hother =>
    Nat.lt_of_le_of_ne (hle other hother) (hapart other (List.mem_append_left _ hother))
  rw [hjoined, List.pairwise_append, List.pairwise_cons]
  refine ⟨hahead, ⟨hafter, hbehind⟩, fun one hone other hother => ?_⟩
  rcases List.mem_cons.1 hother with rfl | hother
  · exact hbefore one hone
  · exact hacross one hone other hother

/-- The runnable processes are lined up by trace position, and along their queue the lines increase. The
lines are those of now, as cursors move while their processes are queued. -/
structure Ranked (t : ProcessTable) : Prop where
  /-- They are to be lined up like this. -/
  order_eq : t.order = .tracePosition
  /-- They are. -/
  ascending : (t.queue .runnable).Pairwise fun pid other => t.lineOf pid < t.lineOf other

theorem Ranked.passTime {elapsed : Nat} (h : t.Ranked) : (t.passTime elapsed).Ranked := by
  -- time that passes moves no cursor
  have hline : (t.passTime elapsed).lineOf = t.lineOf := by
    funext pid
    rw [lineOf, lineOf, bare?_passTime]
    cases t.bare? pid with
    | none => rfl
    | some p =>
      show Process.line (if p.state = .blocked then p.passTime elapsed else p) = p.line
      split <;> rfl
  refine ⟨h.order_eq, ?_⟩
  rw [hline]
  exact h.ascending

/-- The head of the queue is on the earliest line. -/
theorem Ranked.head_le (h : t.Ranked) (hhead : t.head? .runnable = some pid)
    (hother : other ∈ t.queue .runnable) : t.lineOf pid ≤ t.lineOf other := by
  obtain ⟨rest, hqueue⟩ := List.head?_eq_some_iff.1 hhead
  have hascending := h.ascending
  rw [hqueue, List.pairwise_cons] at hascending
  rw [hqueue] at hother
  rcases List.mem_cons.1 hother with rfl | hlater
  · exact Nat.le_refl _
  · exact Nat.le_of_lt (hascending.1 other hlater)

end ProcessTable

/-! ### Moves -/

namespace Machine

variable {chart : Chart} {m m' : Machine} {pid other : Pid} {p q q' : Process}

/-- On one line there is one process, the one that the record there belongs to. -/
theorem Sound.pid_of_line (h : m.Sound chart) (hp : m.processes.bare? pid = some p)
    (hq : m.processes.bare? other = some q) (hline : p.line = q.line) : pid = other := by
  obtain ⟨record, hrecord, howner⟩ := (h.stands hp).exists_record
  have howner' := (h.stands hq).pid_of_record (hline ▸ hrecord)
  rw [← h.lined.keyed hp, ← h.lined.keyed hq, ← howner, howner']

/-- **A move.** The process that moved is queued by its line, and the others are as they were. It may
have moved its cursor before it is put into the queue. -/
theorem Sound.ranked_of_requeued (h : m.Sound chart) (h' : m'.Sound chart)
    (hranked : m.processes.Ranked) (hq : m.processes.bare? pid = some q)
    (hbare : m'.processes.bare? = Function.update m.processes.bare? pid (some q'))
    (hrequeued : m.processes.Requeued m'.processes pid q.state q'.state) : m'.processes.Ranked := by
  -- the queue without it, whether it was in that queue or not
  let others :=
    if .runnable = q.state then (m.processes.queue .runnable).erase pid else m.processes.queue .runnable
  have hqueue : m'.processes.queue .runnable = if .runnable = q'.state then
      ProcessTable.joined .tracePosition m'.processes.lineOf pid .runnable others else others := by
    rw [hrequeued.queue_eq, ProcessTable.requeue, hranked.order_eq,
      if_neg fun hand => by cases hand.2]
  have hsublist : others.Sublist (m.processes.queue .runnable) := by
    show (if .runnable = q.state then (m.processes.queue .runnable).erase pid
      else m.processes.queue .runnable).Sublist _
    split
    · exact List.erase_sublist
    · exact .refl _
  -- it is not among the others, as nobody is queued twice or in two queues
  have hne : ∀ other ∈ others, other ≠ pid := by
    rintro other hother rfl
    have hmem : other ∈ if .runnable = q.state then (m.processes.queue .runnable).erase other
      else m.processes.queue .runnable := hother
    split at hmem
    · exact (h.lined.nodup .runnable).not_mem_erase hmem
    · next hidle =>
      obtain ⟨_, hq', hrunnable⟩ := h.lined.queued.1 hmem
      cases hq.symm.trans hq'
      exact hidle hrunnable.symm
  -- so the others have the lines that they had, in the same order
  have hsame : ∀ other ∈ others, m'.processes.bare? other = m.processes.bare? other := by
    intro other hother
    rw [hbare, Function.update_of_ne (hne other hother)]
  have hothers : others.Pairwise fun pid other =>
      m'.processes.lineOf pid < m'.processes.lineOf other :=
    (hranked.ascending.sublist hsublist).imp_of_mem fun {one other} hone hother hlt => by
      rwa [ProcessTable.lineOf, ProcessTable.lineOf, hsame one hone, hsame other hother]
  refine ⟨hrequeued.order_eq.trans hranked.order_eq, ?_⟩
  rw [hqueue]
  split
  · -- where it joins them, nobody is on its line
    refine ProcessTable.pairwise_joined hothers fun other hother hline => hne other hother ?_
    obtain ⟨r, hr, -⟩ := h.lined.queued.1 (hsublist.subset hother)
    have hr' := (hsame other hother).trans hr
    have hself : m'.processes.bare? pid = some q' := by rw [hbare, Function.update_self]
    rw [ProcessTable.lineOf_of_bare hr', ProcessTable.lineOf_of_bare hself] at hline
    exact h'.pid_of_line hr' hself hline
  · exact hothers

end Machine

namespace Simulator

variable {chart : Chart} {s t : Simulator} {m : Machine} {n : Nat}

/-! ### Steps -/

/-- The queue is in order after the disk reads of a step, and at its end. Each of the two is a
process that goes from one state to another, at a line that no other process is on. -/
theorem Settled.ranked (h : Settled chart s t m) (hs : s.Underway chart) (ht : t.Sound chart)
    (hranked : s.machine.processes.Ranked) :
    m.processes.Ranked ∧ t.machine.processes.Ranked := by
  -- after the disk reads
  have hm : m.processes.Ranked := by
    rcases h.read with rfl | ⟨pid, rest, q, q', -, -, hresumed⟩
    · exact hranked
    · exact hs.machine.ranked_of_requeued h.going.sound hranked hresumed.found hresumed.bare_eq
        (hresumed.blocked ▸ hresumed.requeued)
  refine ⟨hm, ?_⟩
  -- and after the reference, if there is one
  rcases h.turn with ⟨-, rfl⟩ | ⟨pid, m', q, q', record, hit, -, hreferred, hgoing, rfl⟩
  · exact hm
  · exact h.going.sound.ranked_of_requeued hgoing.sound hm hreferred.found hreferred.bare_eq
      (hreferred.runnable ▸ hreferred.requeued)

/-- No reference was executed until the disk reads of a step were complete. -/
theorem Settled.references_eq (h : Settled chart s t m) :
    m.references = s.machine.references := by
  rcases h.read with rfl | ⟨pid, rest, q, q', -, -, hresumed⟩
  · rfl
  · exact hresumed.references_eq

/-- A process is at the first of its records that was not executed: it has executed all that come before,
and none that comes later. -/
structure IsNext (records : List TraceRecord) (m : Machine) (pid : Pid) (line : Nat) : Prop where
  /-- There is a record of the process. -/
  record : ∃ record, Survey.record? records line = some record ∧ record.pid = pid
  /-- Just those of its records were executed that come before. -/
  executed_iff : ∀ {other record}, Survey.record? records other = some record → record.pid = pid →
    ((other, record.page) ∈ m.executed ↔ other < line)

/-- What a step executes: nothing if no process can run when its disk reads are complete, and otherwise
the earliest of the records that come next for those that can. -/
def ExecutesEarliest (records : List TraceRecord) (s t : Simulator) : Prop :=
  ∃ u, (s.passTime >>= completeReads) = .ok u ∧
    ((u.machine.processes.head? .runnable = none ∧
        t.machine.references = s.machine.references) ∨
      ∃ r record, t.machine.references = s.machine.references ++ [r] ∧
        Survey.record? records r.line = some record ∧ record.page = r.page ∧
        u.machine.processes.head? .runnable = some record.pid ∧
        u.machine.processes.lineOf record.pid = r.line ∧
        ∀ {pid p}, u.machine.processes.get? pid = some p → p.state = .runnable →
          IsNext records u.machine pid p.line ∧ r.line ≤ p.line)

theorem Settled.executesEarliest (h : Settled chart s t m) (hranked : m.processes.Ranked)
    {before : Simulator} (hreferences : before.machine.references = s.machine.references)
    (hpass : before.passTime = .ok s) : before.ExecutesEarliest chart.records t := by
  refine ⟨{ s with machine := m }, ?_, ?_⟩
  · rw [hpass]
    exact h.reads_eq
  -- nobody can run, and nothing is executed
  rcases h.turn with ⟨hnone, rfl⟩ | ⟨pid, m', q, q', record, hit, hhead, hreferred, -, rfl⟩
  · exact .inl ⟨hnone, h.references_eq.trans hreferences.symm⟩
  -- the record that is executed is that of the head, on its line
  have hsound := h.going.sound
  have hstands := hsound.stands hreferred.found
  have hpid : record.pid = pid :=
    (hstands.pid_of_record hreferred.record_eq).trans (hsound.lined.keyed hreferred.found)
  have hline : m.processes.lineOf pid = q.line := ProcessTable.lineOf_of_bare hreferred.found
  refine .inr ⟨{ line := q.line, page := record.page, hit }, record, ?_, hreferred.record_eq, rfl,
    hpid.symm ▸ hhead, hpid.symm ▸ hline, fun {other p} hp hrunnable => ?_⟩
  · rw [hreferences, ← h.references_eq]
    exact hreferred.references_eq
  have hp := ProcessTable.bare?_of_get? hp
  have hmem : other ∈ m.processes.queue .runnable := hsound.lined.queued.2 ⟨_, hp, hrunnable⟩
  refine ⟨⟨?_, fun {line found} hfound howner => ?_⟩, ?_⟩
  · -- the record that comes next for a runnable process is on the line where it stands
    obtain ⟨next, hnext, howner⟩ := (hsound.stands hp).exists_record
    exact ⟨next, hnext, howner.trans (hsound.lined.keyed hp)⟩
  -- a runnable process has executed its records before the line that it is on
  · subst howner
    have hreached : p.unpaged.reached = p.line := if_pos hrunnable
    rw [h.going.replays.mem_executed_iff hp, hreached]
    exact and_iff_right (Survey.mem_references_iff.2 ⟨found, hfound, rfl⟩)
  · -- the head is on the earliest of these lines
    have hle := hranked.head_le hhead hmem
    rw [hline, ProcessTable.lineOf_of_bare hp] at hle
    exact hle

/-- **A step** keeps the queue in order, and executes the earliest reference. -/
theorem Sound.ranked_step (h : s.Sound chart)
    (hs : s.machine.Patient s.config.diskPenalty s.clock) (hranked : s.machine.processes.Ranked)
    (hstep : s.step = .ok (.ok true, t)) :
    t.machine.processes.Ranked ∧ s.ExecutesEarliest chart.records t := by
  obtain ⟨-, hpass, hunder, -, m, hsettled⟩ := h.settled_of_step hs hstep
  have hwaited : (s.waited s.elapsed).machine.processes.Ranked := hranked.passTime
  obtain ⟨hm, ht⟩ := hsettled.ranked hunder (h.of_step hstep).1 hwaited
  exact ⟨ht, hsettled.executesEarliest hm rfl hpass⟩

/-- All that a simulation reaches has its queue in order. -/
theorem Sound.ranked_of_reaches (h : s.Sound chart)
    (hs : s.machine.Patient s.config.diskPenalty s.clock) (hranked : s.machine.processes.Ranked)
    (hreaches : s.Reaches n t) : t.machine.processes.Ranked := by
  refine h.kept (P := (·.machine.processes.Ranked)) hs (fun ht hpatient hranked hstep => ?_) hranked
    hreaches
  exact (ht.ranked_step hpatient hranked hstep).1

/-- **The start.** The processes are queued in the order of their first lines, which is that in which
their numbers appear. -/
theorem ranked_of_start {config : ValidConfig} {reader after : TraceReader} {stats : Stats}
    {survey : Survey} (horder : config.queueOrder = .tracePosition)
    (hsurvey : reader.survey config.queueOrder = .ok (.ok survey, after))
    (hstart : start config reader stats = .ok (.ok s)) : s.machine.processes.Ranked := by
  obtain ⟨records, -, hfinds⟩ := TraceReader.finds_of_survey hsurvey
  obtain ⟨frames, policy, -, -, rfl⟩ := start_cases hsurvey hstart
  refine ⟨hfinds.order_eq.trans horder, ?_⟩
  show (survey.processes.queue .runnable).Pairwise _
  rw [ProcessTable.queue, hfinds.queues_eq]
  have hline : ∀ {pid}, pid ∈ (records.map (·.pid)).eraseDups →
      survey.processes.lineOf pid = (records.map (·.pid)).idxOf pid + 1 := by
    intro pid hpid
    obtain ⟨p, hp⟩ := Option.isSome_iff_exists.1
      ((hfinds.isSome_get?_iff pid).2 (List.mem_eraseDups.1 hpid))
    rw [ProcessTable.lineOf_of_bare (ProcessTable.bare?_of_get? hp)]
    exact (hfinds.begins hp).line_eq_idxOf
  refine (pairwise_idxOf_eraseDups _).imp_of_mem fun {pid other} hpid hother hlt => ?_
  rw [hline hpid, hline hother]
  omega

/-- How the processes run that are lined up by trace position. The first three clauses are about
a queue at rest, and the last about what a step makes of it. -/
structure RunsEarliest (records : List TraceRecord) (s : Simulator) : Prop where
  /-- Along the queue of runnable processes their positions in the trace increase. -/
  by_position : (s.machine.processes.queue .runnable).Pairwise fun pid other =>
    s.machine.processes.positionOf pid < s.machine.processes.positionOf other
  /-- Along it their lines increase. -/
  by_line : (s.machine.processes.queue .runnable).Pairwise fun pid other =>
    s.machine.processes.lineOf pid < s.machine.processes.lineOf other
  /-- Both are the same order. -/
  position_lt_iff : ∀ {pid other}, pid ∈ s.machine.processes.queue .runnable →
    other ∈ s.machine.processes.queue .runnable →
    (s.machine.processes.positionOf pid < s.machine.processes.positionOf other ↔
      s.machine.processes.lineOf pid < s.machine.processes.lineOf other)
  /-- A step executes the earliest reference. -/
  earliest : ∀ {t}, s.step = .ok (.ok true, t) → s.ExecutesEarliest records t

theorem Sound.runsEarliest (h : s.Sound chart)
    (hs : s.machine.Patient s.config.diskPenalty s.clock) (hranked : s.machine.processes.Ranked) :
    s.RunsEarliest chart.records := by
  have hiff : ∀ {pid other}, pid ∈ s.machine.processes.queue .runnable →
      other ∈ s.machine.processes.queue .runnable →
      (s.machine.processes.positionOf pid < s.machine.processes.positionOf other ↔
        s.machine.processes.lineOf pid < s.machine.processes.lineOf other) := by
    -- positions are ordered as lines are, since each process stands where its line is
    intro pid other hpid hother
    have hle := (h.machine.lined.stationed h.machine.stands).lineOf_le_iff hpid hother
    rw [← Nat.not_le, ← Nat.not_le, hle]
  exact ⟨hranked.ascending.imp_of_mem fun hpid hother => (hiff hpid hother).2, hranked.ascending, hiff,
    fun hstep => (h.ranked_step hs hranked hstep).2⟩

/-- **The earliest reference.** On a trace that the survey accepts, with all its bytes within reach, a
simulation by trace position begins, and in all that it reaches the runnable processes are in the order
of their next records, of which each step executes the earliest one. -/
theorem earliest_reference_runs {config : ValidConfig} {reader after : TraceReader} {stats : Stats}
    {survey : Survey} (hreach : reader.medium.bytes.size ≤ reader.medium.maxOffset)
    (hfresh : stats.totals = {}) (horder : config.queueOrder = .tracePosition)
    (hsurvey : reader.survey config.queueOrder = .ok (.ok survey, after)) :
    ∃ s records, start config reader stats = .ok (.ok s) ∧ reader.rewind.2.records.1 = .ok records ∧
      ∀ {n t}, s.Reaches n t → t.RunsEarliest records := by
  obtain ⟨s, chart, hstart, -, hsound, hrecords, -⟩ := start_eq_ok hreach hfresh hsurvey
  have hpatient := patient_of_start hfresh hsurvey hstart
  have hranked := ranked_of_start horder hsurvey hstart
  refine ⟨s, chart.records, hstart, hrecords, fun {n t} hreaches => ?_⟩
  exact (hsound.of_reaches hreaches).1.runsEarliest (hsound.patient_of_reaches hpatient hreaches)
    (hsound.ranked_of_reaches hpatient hranked hreaches)

/-- A trace in which the second process has the record between two of the first one, after a blank line:
pages 7 and 8 of the first one, and page 3 of the second one. -/
def spaced : TraceReader :=
  .ofBytes ⟨#[49, 32, 55, 10, 10, 50, 32, 51, 10, 49, 32, 56, 10]⟩

/-- A memory of one frame, with processes lined up by trace position. -/
def byPosition : ValidConfig where
  memoryBytes := 1
  pageSize := 1
  policy := .clock
  queueOrder := .tracePosition
  clockTick := 2
  diskPenalty := 6
  valid := by decide

/-- Two processes that run in the order of the trace. -/
theorem earliest_reference_runs_on_spaced : ∃ survey after,
    spaced.survey byPosition.queueOrder = .ok (.ok survey, after) ∧
      ∃ s records, start byPosition spaced { totalFrames := 1 } = .ok (.ok s) ∧
        spaced.rewind.2.records.1 = .ok records ∧
        ∀ {n t}, s.Reaches n t → t.RunsEarliest records := by
  obtain ⟨survey, after, hsurvey, -⟩ :=
    exists_survey spaced byPosition.queueOrder (fun _ => true) (by decide +kernel)
  exact ⟨survey, after, hsurvey, earliest_reference_runs (by decide) rfl rfl hsurvey⟩

end Simulator

end DemandPaging
