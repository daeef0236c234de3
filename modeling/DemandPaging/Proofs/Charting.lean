import DemandPaging.Proofs.Cursor

/-!
# What the survey finds

A survey that succeeds has read all records of the trace, and what it says of them is a `Chart`
(`survey_eq_ok`). Its process table is `Manned`: it has one process for each process number of the
trace, at the first line of that number, ready to run and without pages. The reader is back at the
first byte.
-/

namespace DemandPaging

/-- A process for each process number of the trace, at its first line. This is the table that a
simulation starts with. -/
structure Manned (chart : Chart) (t : ProcessTable) : Prop where
  /-- The processes are lined up. -/
  lined : t.Lined
  /-- No process has a page. -/
  empty : t.page? = fun _ => none
  /-- Each process stands on a line of its own. -/
  stands : ∀ {pid p}, t.bare? pid = some p → p.Stands chart
  /-- Each process is ready to run. -/
  ready : ∀ {pid p}, t.bare? pid = some p → p.state = .runnable
  /-- No line of a process lies before its own. -/
  first : ∀ {pid p line record}, t.bare? pid = some p → chart.record? line = some record →
    record.pid = pid → p.line ≤ line
  /-- Each record has a process. -/
  present : ∀ {line record}, chart.record? line = some record →
    ∃ p, t.bare? record.pid = some p

namespace Survey

variable {m : Medium} {records : List TraceRecord} {chart : Chart}

/-- The records of a medium, the intervals and their order make a chart. The intervals are the
runs of the records, and recording all of them succeeds since they do not meet. -/
theorem exists_chart (hsteady : m.Steady) (hholds : m.Holds 0 records) :
    ∃ chart : Chart, chart.medium = m ∧ chart.records = records ∧
      (runs records).foldlM addRun ∅ = .ok chart.index ∧
      ∀ i, i ∈ chart.index ↔ i ∈ runs records := by
  obtain ⟨index, hfold, hordered, hmem⟩ := foldlM_addRun_runs records
  have hdivides := divides_runs records
  have hruns : ∀ {i}, i ∈ index ↔ i ∈ (runs records).reverse := by
    intro i
    rw [hmem, List.mem_reverse]
  refine ⟨⟨m, records, index, hsteady, hholds, hordered, ?_, ?_, ?_⟩, rfl, rfl, hfold, hmem⟩
  · intro i line hi hline
    exact hdivides.owned (hruns.1 hi) hline
  · intro i record hi hrecord
    exact hdivides.starts (hruns.1 hi) hrecord
  -- the run of a line belongs to the process of its record
  · intro line record hrecord
    obtain ⟨run, hrun, hline⟩ := hdivides.covered hrecord
    obtain ⟨found, hfound, hpid⟩ := hdivides.owned hrun hline
    cases hrecord.symm.trans hfound
    exact ⟨run, hruns.2 hrun, hpid.symm, hline⟩

/-! ### One process for each process number -/

/-- The processes of the first runs of a trace. It is the invariant of the loop that adds them,
and is `Manned` once all runs have been seen. -/
structure Enlisted (chart : Chart) (seen : List Interval) (t : ProcessTable) : Prop where
  /-- The processes are lined up. -/
  lined : t.Lined
  /-- No process has a page. -/
  empty : t.page? = fun _ => none
  /-- Each process stands at the start of a run. -/
  stands : ∀ {pid p}, t.bare? pid = some p → p.Stands chart ∧ p.state = .runnable
  /-- It is the first one of the process. -/
  first : ∀ {pid p run}, t.bare? pid = some p → run ∈ chart.index → run.pid = pid → p.line ≤ run.low
  /-- There is a process for each run so far. -/
  seen_iff : ∀ {pid}, (t.bare? pid).isSome = true ↔ ∃ run ∈ seen, run.pid = pid

/-- A process at the start of an interval stands there. -/
theorem stands_start {run : Interval} (hrun : run ∈ chart.index) (lastLine : Nat) :
    (Process.start run lastLine).Stands chart where
  interval_mem := hrun
  owner := rfl
  line_mem := run.low_mem
  runnable _ := by
    obtain ⟨record, hrecord, -, hreads⟩ := Chart.reads_low hrun
    exact ⟨rfl, record, hrecord, hreads⟩
  blocked hstate := by cases hstate
  finished hstate := by cases hstate

/-- One run more, of a process that is there or of a new one. A new one starts at the first line
of the run, which is its first line at all if the runs come in order. -/
theorem Enlisted.addProcess_eq_ok {seen : List Interval} {t : ProcessTable} {run : Interval}
    (h : Enlisted chart seen t) (hrun : run ∈ chart.index)
    (hnearest : ∀ other ∈ chart.index, other.pid = run.pid → other ∉ seen → run.low ≤ other.low) :
    ∃ t', addProcess chart.index t run = .ok t' ∧ t'.order = t.order ∧
      Enlisted chart (seen ++ [run]) t' := by
  unfold addProcess
  by_cases hpresent : (t.get? run.pid).isSome = true
  -- a later run of a process that is there
  · refine ⟨t, if_pos hpresent, rfl, h.lined, h.empty, h.stands, h.first, fun {pid} => ?_⟩
    obtain ⟨p, hp⟩ := Option.isSome_iff_exists.1 hpresent
    rw [h.seen_iff]
    constructor
    · rintro ⟨other, hother, hpid⟩
      exact ⟨other, List.mem_append_left _ hother, hpid⟩
    · rintro ⟨other, hother, rfl⟩
      rcases List.mem_append.1 hother with hother | hother
      · exact ⟨other, hother, rfl⟩
      -- the run has a process because an earlier one has
      · cases List.mem_singleton.1 hother
        refine h.seen_iff.1 ?_
        rw [ProcessTable.bare?_of_get? hp]
        rfl
  -- the first run of a process
  · have hnew : t.get? run.pid = none := Option.not_isSome_iff_eq_none.1 hpresent
    have hbare : t.bare? run.pid = none := by rw [ProcessTable.bare?, hnew, Option.map_none]
    let p := Process.start run ((chart.index.lastLine? run.pid).getD run.high)
    obtain ⟨hinsert, hlined, hpage⟩ := ProcessTable.insert_eq_ok h.lined (p := p) hnew rfl
    have hupdate : (t.enter p .runnable).bare? = Function.update t.bare? run.pid (some p) :=
      ProcessTable.bare?_enter
    refine ⟨_, (if_neg hpresent).trans hinsert, rfl, hlined, hpage.trans h.empty, ?_, ?_, ?_⟩
    · intro pid q hq
      rw [hupdate, Function.update_apply] at hq
      split at hq
      · cases hq
        exact ⟨stands_start hrun _, rfl⟩
      · exact h.stands hq
    · intro pid q other hq hother hpid
      rw [hupdate, Function.update_apply] at hq
      split at hq
      · next heq =>
        cases hq
        refine hnearest other hother (hpid.trans heq) fun hseen => ?_
        -- no earlier run has this process
        have hsome := h.seen_iff.2 ⟨other, hseen, hpid.trans heq⟩
        rw [hbare] at hsome
        cases hsome
      · exact h.first hq hother hpid
    · intro pid
      rw [hupdate, Function.update_apply]
      split
      · next heq =>
        exact iff_of_true rfl ⟨run, List.mem_append_right _ (List.mem_singleton.2 rfl), heq.symm⟩
      · next hne =>
        rw [h.seen_iff]
        constructor
        · rintro ⟨other, hother, hpid⟩
          exact ⟨other, List.mem_append_left _ hother, hpid⟩
        · rintro ⟨other, hother, hpid⟩
          rcases List.mem_append.1 hother with hother | hother
          · exact ⟨other, hother, hpid⟩
          · cases List.mem_singleton.1 hother
            exact absurd hpid.symm hne

/-- The next run of a trace, in order: those that are still to come begin later. -/
theorem Enlisted.next {seen rest : List Interval} {t : ProcessTable} {run : Interval}
    (h : Enlisted chart seen t) (hmem : ∀ i, i ∈ chart.index ↔ i ∈ seen ++ run :: rest)
    (hsorted : (run :: rest).Pairwise fun a b => a.low ≤ b.low) :
    ∃ t', addProcess chart.index t run = .ok t' ∧ t'.order = t.order ∧
      Enlisted chart (seen ++ [run]) t' := by
  have hrun : run ∈ chart.index := (hmem run).2 (List.mem_append_right _ List.mem_cons_self)
  refine h.addProcess_eq_ok hrun fun other hother _ hnew => ?_
  rcases List.mem_append.1 ((hmem other).1 hother) with hseen | hlater
  · exact absurd hseen hnew
  · rcases List.mem_cons.1 hlater with rfl | hlater
    · exact Nat.le_refl _
    · exact (List.pairwise_cons.1 hsorted).1 other hlater

/-- Going on over the runs of a trace, in order. By induction on the runs that are left, with
those seen so far growing by one at a time. -/
theorem Enlisted.foldlM_addProcess {seen rest : List Interval} {t : ProcessTable}
    (h : Enlisted chart seen t) (hmem : ∀ i, i ∈ chart.index ↔ i ∈ seen ++ rest)
    (hsorted : rest.Pairwise fun a b => a.low ≤ b.low) :
    ∃ t', rest.foldlM (addProcess chart.index) t = .ok t' ∧ t'.order = t.order ∧
      Enlisted chart (seen ++ rest) t' := by
  induction rest generalizing seen t with
  | nil => exact ⟨t, rfl, rfl, (List.append_nil seen).symm ▸ h⟩
  | cons run rest ih =>
    obtain ⟨t₁, hadd, horder₁, h₁⟩ := h.next hmem hsorted
    obtain ⟨t', hfold, horder, h'⟩ := ih h₁ (by simpa using hmem) hsorted.of_cons
    refine ⟨t', ?_, horder.trans horder₁, ?_⟩
    · rw [List.foldlM_cons, hadd]
      exact hfold
    · simpa using h'

/-- Before the first run there is no process. -/
theorem enlisted_nil (order : QueueOrder) : Enlisted chart [] { order } where
  lined := ProcessTable.lined_empty
  empty := rfl
  stands h := by cases h
  first h := by cases h
  seen_iff {pid} := iff_of_false Bool.false_ne_true (by rintro ⟨run, hrun, -⟩; cases hrun)

/-- The runs of a trace come in order. -/
theorem pairwise_runs (records : List TraceRecord) :
    (runs records).Pairwise fun a b => a.low ≤ b.low := by
  rw [← List.pairwise_reverse]
  refine (divides_runs records).descending.imp fun {later earlier} hlt => ?_
  exact Nat.le_trans earlier.low_le_high (Nat.le_of_lt hlt)

/-- **The processes of a trace.** Adding the process of each run leaves one process for each process
number, at its first line. -/
theorem manned_of_runs (order : QueueOrder) (hmem : ∀ i, i ∈ chart.index ↔ i ∈ runs chart.records) :
    ∃ t, (runs chart.records).foldlM (addProcess chart.index) { order } = .ok t ∧
      t.order = order ∧ Manned chart t := by
  obtain ⟨t, hfold, horder, h⟩ :=
    (enlisted_nil order).foldlM_addProcess hmem (pairwise_runs chart.records)
  refine ⟨t, hfold, horder, h.lined, h.empty, fun hp => (h.stands hp).1, fun hp => (h.stands hp).2,
    ?_, ?_⟩
  · intro pid p line record hp hrecord hpid
    -- the line is in some run of the process, and none begins before the first one
    obtain ⟨run, hrun, hrunpid, hline⟩ := chart.covered hrecord
    exact Nat.le_trans (h.first hp hrun (hrunpid.trans hpid)) hline.1
  · intro line record hrecord
    obtain ⟨run, hrun, hrunpid, -⟩ := chart.covered hrecord
    have hsome := h.seen_iff.2 ⟨run, (hmem run).1 hrun, hrunpid⟩
    exact Option.isSome_iff_exists.1 hsome

end Survey

/-- **What a survey finds.** The trace has records, they make a chart, and a process is ready for each
process number. -/
theorem TraceReader.survey_eq_ok {reader after : TraceReader} {order : QueueOrder} {survey : Survey}
    (hreach : reader.medium.bytes.size ≤ reader.medium.maxOffset)
    (h : reader.survey order = .ok (.ok survey, after)) :
    ∃ chart : Chart, chart.medium = reader.medium ∧ chart.records ≠ [] ∧
      reader.rewind.2.records.1 = .ok chart.records ∧ chart.index = survey.index ∧
      chart.records.length = survey.records ∧ after = chart.medium.readerAt 0 ∧
      survey.processes.order = order ∧ Manned chart survey.processes := by
  obtain ⟨hseek, rfl, records, hrecords, hne, hsurvey⟩ := TraceReader.survey_eq_ok_iff.1 h
  have hheld := hrecords
  rw [Medium.rewind_eq_ok hseek rfl] at hheld
  obtain ⟨chart, hmedium, rfl, hindex, hmem⟩ :=
    Survey.exists_chart ⟨hseek, hreach⟩ (Medium.holds_of_records hheld)
  obtain ⟨t, hfold, horder, hmanned⟩ := Survey.manned_of_runs order hmem
  simp only [Survey.ofRecords, hindex, hfold, bind, Except.bind] at hsurvey
  cases hsurvey
  exact ⟨chart, hmedium, hne, hrecords, rfl, rfl, congrArg (Medium.readerAt · 0) hmedium.symm, horder,
    hmanned⟩

end DemandPaging
