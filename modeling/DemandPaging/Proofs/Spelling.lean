import DemandPaging.Proofs.Lockstep

/-!
# How a trace is written

Blank lines, blanks around the numerals, their leading zeros and signs, and the ends of the lines do
not matter: two traces with the same records come to the same (`Simulator.records_suffice`). Their
surveys look the same but for the offsets of the runs (`Survey.veil_of_ofRecords`), so simulations of
them begin in lockstep.
-/

namespace DemandPaging

/-! ### What the surveys find -/

namespace IntervalIndex

variable {index index' other other' : IntervalIndex} {pid : Pid} {low high offset offset' : Nat}
  {i j : Interval}

theorem veil_of_insert (h : index.veil = other.veil)
    (hinsert : index.insert pid low high offset = .ok (i, index'))
    (hinsert' : other.insert pid low high offset' = .ok (j, other')) : index'.veil = other'.veil := by
  obtain ⟨⟨hle, rfl⟩, rfl⟩ := insert_cases hinsert
  obtain ⟨⟨hle', rfl⟩, rfl⟩ := insert_cases hinsert'
  -- the lines of the process look the same before, and the new interval does as well
  have hlines : (index.lines pid).veil = (other.lines pid).veil := by
    rw [← lines_veil, h, lines_veil]
  have hlast : (index.lines pid).lastLine = (other.lines pid).lastLine :=
    (congrArg LineSet.lastLine hlines :)
  have hbyLow : (index.lines pid).byLow.map Interval.veil = (other.lines pid).byLow.map Interval.veil :=
    (congrArg LineSet.byLow hlines :)
  have hown : LineSet.veil ⟨(index.lines pid).byLow.insert low ⟨pid, low, high, offset, hle⟩,
        max (index.lines pid).lastLine high⟩ =
      LineSet.veil ⟨(other.lines pid).byLow.insert low ⟨pid, low, high, offset', hle'⟩,
        max (other.lines pid).lastLine high⟩ := by
    rw [LineSet.veil, LineSet.veil, OrderedMap.map_insert, OrderedMap.map_insert, hbyLow, hlast]
    rfl
  have hprocesses : index.processes.map LineSet.veil = other.processes.map LineSet.veil :=
    (congrArg IntervalIndex.processes h :)
  -- the other processes keep their lines
  refine congrArg IntervalIndex.mk ?_
  rw [OrderedMap.map_insert, OrderedMap.map_insert, hprocesses, hown]

theorem lastLine?_veil : index.veil.lastLine? pid = index.lastLine? pid := by
  rw [lastLine?, lastLine?, veil, OrderedMap.get?_map, Option.map_map]
  rfl

end IntervalIndex

namespace Survey

variable {records others : List TraceRecord} {c d : Chart}

/-- One record more. It goes on with the latest run, or begins one of its own, and whether it does is a
matter of its process. -/
theorem map_veil_addRecord {before before' : List Interval} {record record' : TraceRecord}
    (h : before.map Interval.veil = before'.map Interval.veil) (hpid : record.pid = record'.pid) :
    (addRecord before record).map Interval.veil = (addRecord before' record').map Interval.veil := by
  cases before with
  | nil =>
    obtain rfl := List.map_eq_nil_iff.1 h.symm
    simp [addRecord, Interval.veil, hpid]
  | cons run earlier =>
    obtain ⟨run', earlier', rfl, hrun, hearlier⟩ := List.map_eq_cons_iff.1 h.symm
    obtain ⟨pid, low, high, offset, hle⟩ := run
    obtain ⟨pid', low', high', offset', hle'⟩ := run'
    simp only [Interval.veil, Interval.mk.injEq] at hrun
    obtain ⟨rfl, rfl, rfl, -⟩ := hrun
    -- the latest run goes on or another one begins, by the process of the record
    by_cases hsame : pid' = record'.pid
    · simp [addRecord, hpid, hsame, Interval.veil, hearlier]
    · simp [addRecord, hpid, hsame, Interval.veil, hearlier]

theorem map_veil_foldl_addRecord {before before' : List Interval}
    (h : records.map (·.page) = others.map (·.page))
    (hbefore : before.map Interval.veil = before'.map Interval.veil) :
    (records.foldl addRecord before).map Interval.veil =
      (others.foldl addRecord before').map Interval.veil := by
  -- by induction on the records of one side, which are as many as those of the other
  induction records generalizing others before before' with
  | nil =>
    obtain rfl := List.map_eq_nil_iff.1 h.symm
    exact hbefore
  | cons record rest ih =>
    obtain ⟨record', rest', rfl, hpage, hrest⟩ := List.map_eq_cons_iff.1 h.symm
    rw [List.foldl_cons, List.foldl_cons]
    exact ih hrest.symm (map_veil_addRecord hbefore (congrArg PageRef.pid hpage.symm))

/-- The runs of two traces look the same if the records have the same pages. -/
theorem map_veil_runs (h : records.map (·.page) = others.map (·.page)) :
    (runs records).map Interval.veil = (runs others).map Interval.veil := by
  rw [runs, runs, List.map_reverse, List.map_reverse, map_veil_foldl_addRecord h rfl]

theorem veil_of_foldlM_addRun {rest rest' : List Interval} {index index' other other' : IntervalIndex}
    (h : index.veil = other.veil) (hrest : rest.map Interval.veil = rest'.map Interval.veil)
    (hfold : rest.foldlM addRun index = .ok index') (hfold' : rest'.foldlM addRun other = .ok other') :
    index'.veil = other'.veil := by
  -- run by run, as a refused one would have ended the fold
  induction rest generalizing rest' index other with
  | nil =>
    obtain rfl := List.map_eq_nil_iff.1 hrest.symm
    cases hfold
    cases hfold'
    exact h
  | cons run rest ih =>
    obtain ⟨run', rest', rfl, hrun, hrest⟩ := List.map_eq_cons_iff.1 hrest.symm
    rw [List.foldlM_cons] at hfold hfold'
    obtain ⟨index₁, hadd, hfold⟩ := Fault.bind_eq_ok_iff.1 hfold
    obtain ⟨other₁, hadd', hfold'⟩ := Fault.bind_eq_ok_iff.1 hfold'
    refine ih ?_ hrest.symm hfold hfold'
    simp only [addRun, Fault.bind_eq_ok_iff, Fault.pure_eq_ok_iff] at hadd hadd'
    obtain ⟨⟨_, _⟩, hinsert, rfl⟩ := hadd
    obtain ⟨⟨_, _⟩, hinsert', rfl⟩ := hadd'
    have hpid : run'.pid = run.pid := (congrArg Interval.pid hrun :)
    have hlow : run'.low = run.low := (congrArg Interval.low hrun :)
    have hhigh : run'.high = run.high := (congrArg Interval.high hrun :)
    rw [hpid, hlow, hhigh] at hinsert'
    exact IntervalIndex.veil_of_insert h hinsert hinsert'

/-- One run more, on both sides. A process is added with its first run, and starts at its line.
Whether there is one already is the same on both sides, as the tables look the same. -/
theorem veil_of_addProcess {run run' : Interval} {t u t' u' : ProcessTable}
    (hindex : c.index.veil = d.index.veil) (hrun : run.veil = run'.veil) (h : t.veil = u.veil)
    (ht : addProcess c.index t run = .ok t') (hu : addProcess d.index u run' = .ok u')
    (ht' : t'.Stationed) (hu' : u'.Stationed) : t'.veil = u'.veil := by
  have hpid : run.pid = run'.pid := (congrArg Interval.pid hrun :)
  -- the process is there already for both, or is new for both
  have hpresent : (t.get? run.pid).isSome = (u.get? run'.pid).isSome := by
    rw [← hpid, ← Option.isSome_map (f := Process.veil), ← ProcessTable.get?_veil, h,
      ProcessTable.get?_veil, Option.isSome_map]
  have hlast : c.index.lastLine? run.pid = d.index.lastLine? run'.pid := by
    rw [← IntervalIndex.lastLine?_veil, hindex, IntervalIndex.lastLine?_veil, hpid]
  have hhigh : run.high = run'.high := (congrArg Interval.high hrun :)
  rw [addProcess, hpresent] at ht
  rw [addProcess] at hu
  split at ht
  · next hthere =>
    rw [if_pos hthere] at hu
    cases ht
    cases hu
    exact h
  · next hnew =>
    rw [if_neg hnew] at hu
    simp only [ProcessTable.insert, Fault.bind_eq_ok_iff, Fault.pure_eq_ok_iff] at ht hu
    obtain ⟨-, -, rfl⟩ := ht
    obtain ⟨-, -, rfl⟩ := hu
    refine ProcessTable.veil_enter h ?_ (fun _ => ht') fun _ => hu'
    -- hiding the offset of its first run hides all that its start may differ in
    have hstart : ∀ {i : Interval} {line : Nat}, (Process.start i line).veil = .start i.veil line := rfl
    rw [hlast, hhigh, hstart, hstart, hrun]

theorem veil_of_foldlM_addProcess {seen seen' rest rest' : List Interval} {t u t' u' : ProcessTable}
    (hc : Enlisted c seen t) (hd : Enlisted d seen' u)
    (hmem : ∀ i, i ∈ c.index ↔ i ∈ seen ++ rest) (hmem' : ∀ i, i ∈ d.index ↔ i ∈ seen' ++ rest')
    (hsorted : rest.Pairwise fun a b => a.low ≤ b.low)
    (hsorted' : rest'.Pairwise fun a b => a.low ≤ b.low) (hindex : c.index.veil = d.index.veil)
    (hrest : rest.map Interval.veil = rest'.map Interval.veil) (h : t.veil = u.veil)
    (hfold : rest.foldlM (addProcess c.index) t = .ok t')
    (hfold' : rest'.foldlM (addProcess d.index) u = .ok u') : t'.veil = u'.veil := by
  -- run by run again; that the processes are enlisted so far says that each run can be added
  induction rest generalizing rest' seen seen' t u with
  | nil =>
    obtain rfl := List.map_eq_nil_iff.1 hrest.symm
    cases hfold
    cases hfold'
    exact h
  | cons run rest ih =>
    obtain ⟨run', rest', rfl, hrun, hrest⟩ := List.map_eq_cons_iff.1 hrest.symm
    obtain ⟨t₁, hadd, -, hc₁⟩ := hc.next hmem hsorted
    obtain ⟨u₁, hadd', -, hd₁⟩ := hd.next hmem' hsorted'
    rw [List.foldlM_cons, hadd] at hfold
    rw [List.foldlM_cons, hadd'] at hfold'
    have h₁ : t₁.veil = u₁.veil := veil_of_addProcess hindex hrun.symm h hadd hadd'
      (hc₁.lined.stationed fun hp => (hc₁.stands hp).1) (hd₁.lined.stationed fun hp => (hd₁.stands hp).1)
    exact ih hc₁ hd₁ (by simpa using hmem) (by simpa using hmem') hsorted.of_cons hsorted'.of_cons
      hrest.symm h₁ hfold hfold'

/-- **Surveys look the same** if the records have the same pages: first their runs, then the intervals of
these, and then the processes. -/
theorem veil_of_ofRecords {order : QueueOrder} {survey survey' : Survey}
    (h : c.records.map (·.page) = d.records.map (·.page))
    (hsurvey : ofRecords c.records order = .ok survey) (hsurvey' : ofRecords d.records order = .ok survey')
    (hc : c.index = survey.index) (hd : d.index = survey'.index) :
    survey.index.veil = survey'.index.veil ∧ survey.processes.veil = survey'.processes.veil := by
  simp only [ofRecords, Fault.bind_eq_ok_iff, Fault.pure_eq_ok_iff] at hsurvey hsurvey'
  obtain ⟨index, hruns, t, hfold, rfl⟩ := hsurvey
  obtain ⟨index', hruns', u, hfold', rfl⟩ := hsurvey'
  have hsame := map_veil_runs h
  have hindex : index.veil = index'.veil := veil_of_foldlM_addRun rfl hsame hruns hruns'
  -- the index has the runs and nothing else
  have hmem : ∀ {e : Chart} {found}, (runs e.records).foldlM addRun ∅ = .ok found → e.index = found →
      ∀ i, i ∈ e.index ↔ i ∈ [] ++ runs e.records := by
    intro e found hfound he
    obtain ⟨_, hfound', -, hmem⟩ := foldlM_addRun_runs e.records
    cases hfound.symm.trans hfound'
    exact he ▸ hmem
  refine ⟨hindex, veil_of_foldlM_addProcess (enlisted_nil order) (enlisted_nil order) (hmem hruns hc)
    (hmem hruns' hd) (pairwise_runs _) (pairwise_runs _) ?_ hsame rfl (hc ▸ hfold) (hd ▸ hfold')⟩
  rw [hc, hd]
  exact hindex

end Survey

/-- What a survey says is what it says of the records. -/
theorem TraceReader.ofRecords_of_survey {reader after : TraceReader} {order : QueueOrder}
    {survey : Survey} {records : List TraceRecord} (h : reader.survey order = .ok (.ok survey, after))
    (hrecords : reader.rewind.2.records.1 = .ok records) : Survey.ofRecords records order = .ok survey := by
  obtain ⟨-, -, found, hfound, -, hsurvey⟩ := TraceReader.survey_eq_ok_iff.1 h
  cases hrecords.symm.trans hfound
  exact hsurvey

/-! ### The runs -/

/-- Policies are the same, and know the same pages with the same marks. With one policy and seed this is
what holds of two traces that differ in nothing but their spelling. -/
def Likeness.same : Likeness := fun a pages b pages' => a = b ∧ pages = pages'

/-- What the policies do is a function of what they are told, so that they stay the same. They
are told the same pages, with the same marks on them. -/
theorem Likeness.kept_same {asked : List PageRef} {total : Nat} : same.Kept asked total where
  track {a b P Q ref} h _ := by
    obtain ⟨rfl, rfl⟩ := h
    exact ⟨rfl, rfl⟩
  noteLoad {a b a' b' P Q ref page page' frame} h hpage hpage' ha hb := by
    obtain ⟨rfl, rfl⟩ := h
    cases hpage.symm.trans hpage'
    cases ha.symm.trans hb
    exact ⟨rfl, rfl⟩
  noteAccess {a b a' b' P Q ref page page'} h hpage hpage' ha hb := by
    obtain ⟨rfl, rfl⟩ := h
    cases hpage.symm.trans hpage'
    cases ha.symm.trans hb
    exact ⟨rfl, rfl⟩
  forget {a b a' b' P Q ref page page'} h hpage hpage' ha hb := by
    obtain ⟨rfl, rfl⟩ := h
    cases hpage.symm.trans hpage'
    cases ha.symm.trans hb
    exact ⟨rfl, rfl⟩
  victim {frames a b P Q ref page} h _ _ _ _ _ _ := by
    intro a' b' frame frame' ha hb
    obtain ⟨rfl, rfl⟩ := h
    cases ha.symm.trans hb
    refine ⟨rfl, fun {owner left left'} hleft hleft' => ?_⟩
    cases hleft.symm.trans hleft'
    exact ⟨rfl, rfl⟩

namespace Simulator

/-- **The records suffice.** Two traces that the surveys accept and that have the same pages in the same
order come to the same, however they are written: simulations of them make the same number of steps, and
after each of them show the same time, totals, queues, frames and pages; and their runs answer the same. -/
theorem records_suffice {config : ValidConfig} {reader reader' after after' : TraceReader}
    {stats : Stats} {survey survey' : Survey} {records records' : List TraceRecord}
    (hreach : reader.medium.bytes.size ≤ reader.medium.maxOffset)
    (hreach' : reader'.medium.bytes.size ≤ reader'.medium.maxOffset) (hfresh : stats.totals = {})
    (hsurvey : reader.survey config.queueOrder = .ok (.ok survey, after))
    (hsurvey' : reader'.survey config.queueOrder = .ok (.ok survey', after'))
    (hrecords : reader.rewind.2.records.1 = .ok records)
    (hrecords' : reader'.rewind.2.records.1 = .ok records')
    (hpages : records.map (·.page) = records'.map (·.page)) :
    ∃ s t, start config reader stats = .ok (.ok s) ∧ start config reader' stats = .ok (.ok t) ∧
      (∀ n, (∀ s', s.Reaches n s' → ∃ t', t.Reaches n t' ∧ s'.Alike t' ∧
          s'.machine.processes.page? = t'.machine.processes.page?) ∧
        ∀ t', t.Reaches n t' → ∃ s', s.Reaches n s' ∧ s'.Alike t' ∧
          s'.machine.processes.page? = t'.machine.processes.page?) ∧
      s.run.map Prod.fst = t.run.map Prod.fst := by
  obtain ⟨s, c, hstart, hconfig, hsound, hc, -⟩ := start_eq_ok hreach hfresh hsurvey
  obtain ⟨t, d, hstart', hconfig', hsound', hd, -⟩ := start_eq_ok hreach' hfresh hsurvey'
  cases hrecords.symm.trans hc
  cases hrecords'.symm.trans hd
  -- the surveys look the same
  obtain ⟨c₀, -, -, hc₀, hindex, -⟩ := TraceReader.survey_eq_ok hreach hsurvey
  obtain ⟨d₀, -, -, hd₀, hindex', -⟩ := TraceReader.survey_eq_ok hreach' hsurvey'
  have hsame : c₀.records.map (·.page) = d₀.records.map (·.page) := by
    rw [← Except.ok.inj (hrecords.symm.trans hc₀), ← Except.ok.inj (hrecords'.symm.trans hd₀)]
    exact hpages
  obtain ⟨hindexes, hprocesses⟩ := Survey.veil_of_ofRecords hsame
    (TraceReader.ofRecords_of_survey hsurvey hc₀) (TraceReader.ofRecords_of_survey hsurvey' hd₀) hindex
    hindex'
  -- so do the machines
  have hsfresh := fresh_of_start hreach hfresh hsurvey hstart
  have htfresh := fresh_of_start hreach' hfresh hsurvey' hstart'
  have halike : Likeness.same s.machine.policy s.machine.processes.page? t.machine.policy
      -- the policies are built from the same parameters, and know no pages
      t.machine.processes.page? := by
    have hpolicy := hsfresh.policy_eq
    rw [hconfig, ← hconfig', htfresh.policy_eq] at hpolicy
    exact ⟨(Except.ok.inj hpolicy).symm, hsfresh.pages_eq.trans htfresh.pages_eq.symm⟩
  have htwins : Twins c d Likeness.same s t := twins_of_start rfl rfl rfl rfl hsurvey hsurvey' hindexes
    hprocesses hstart hstart' hsound hsound' halike
  have hasked : ∀ record ∈ c.records, record.page ∈ c.records.map (·.page) :=
    fun record hrecord => List.mem_map_of_mem hrecord
  have hsame : ∀ {s' t'}, Twins c d Likeness.same s' t' →
      s'.Alike t' ∧ s'.machine.processes.page? = t'.machine.processes.page? :=
    fun h => ⟨h.alike, h.machine.alike.2⟩
  exact ⟨s, t, hstart, hstart', htwins.reaches Likeness.kept_same hpages hasked hsame,
    htwins.run_eq Likeness.kept_same hpages hasked⟩

/-- The records of `turns` written with blank lines, blanks, zeros and signs, and without an end of the
last line. -/
def turnsAdorned : TraceReader :=
  .ofBytes ⟨#[10, 32, 32, 49, 32, 48, 48, 55, 13, 10, 43, 50, 9, 51, 32, 10, 10, 49, 32, 56, 10, 32, 10,
    50, 32, 43, 48, 51]⟩

/-- A memory of one frame, with the processes lined up by position. -/
def positional : ValidConfig where
  memoryBytes := 1
  pageSize := 1
  policy := .random
  queueOrder := .tracePosition
  clockTick := 2
  diskPenalty := 6
  valid := by decide

theorem records_suffice_for_turns : ∃ survey after survey' after' records records',
    turns.survey positional.queueOrder = .ok (.ok survey, after) ∧
      turnsAdorned.survey positional.queueOrder = .ok (.ok survey', after') ∧
      turns.rewind.2.records.1 = .ok records ∧ turnsAdorned.rewind.2.records.1 = .ok records' ∧
      records.map (·.page) = records'.map (·.page) ∧
      ∃ s t, start positional turns { totalFrames := 1 } = .ok (.ok s) ∧
        start positional turnsAdorned { totalFrames := 1 } = .ok (.ok t) ∧
        (∀ n, (∀ s', s.Reaches n s' → ∃ t', t.Reaches n t' ∧ s'.Alike t' ∧
            s'.machine.processes.page? = t'.machine.processes.page?) ∧
          ∀ t', t.Reaches n t' → ∃ s', s.Reaches n s' ∧ s'.Alike t' ∧
            s'.machine.processes.page? = t'.machine.processes.page?) ∧
        s.run.map Prod.fst = t.run.map Prod.fst := by
  let pages : List PageRef := [⟨1, 7⟩, ⟨2, 3⟩, ⟨1, 8⟩, ⟨2, 3⟩]
  obtain ⟨survey, after, hsurvey, -⟩ :=
    exists_survey turns positional.queueOrder (fun _ => true) (by decide +kernel)
  obtain ⟨survey', after', hsurvey', -⟩ :=
    exists_survey turnsAdorned positional.queueOrder (fun _ => true) (by decide +kernel)
  obtain ⟨records, hrecords, htest⟩ :=
    exists_records turns (·.map (·.page) = pages) (by decide +kernel)
  obtain ⟨records', hrecords', htest'⟩ :=
    exists_records turnsAdorned (·.map (·.page) = pages) (by decide +kernel)
  have hpages : records.map (·.page) = records'.map (·.page) :=
    (of_decide_eq_true htest).trans (of_decide_eq_true htest').symm
  exact ⟨survey, after, survey', after', records, records', hsurvey, hsurvey', hrecords, hrecords',
    hpages, records_suffice (by decide) (by decide) rfl hsurvey hsurvey' hrecords hrecords' hpages⟩

end Simulator

end DemandPaging
