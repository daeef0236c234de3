import DemandPaging.Proofs.Lines
import DemandPaging.Proofs.Positions
import Mathlib.Algebra.BigOperators.Group.List.Basic
import Mathlib.Algebra.GroupWithZero.Nat

/-!
# What a survey finds in a text

A survey answers for every text. `survey_of_text` has the three answers: what is wrong with the first
line that is neither blank nor has a record on it; that there are no records; or a survey that
`Finds` the records of the lines. The last one says what is in the index and in the process table, in
terms of the records alone:

* the intervals of all processes are the maximal runs of the records (`mem_runs_iff`), so no two of
  them meet, each line is in one, and their lengths sum up to the number of records;
* the last line of a process in the index is that of its last record (`lastLine?_of_runs`);
* there is one process for each process number, at its first record and ready to run, and they are
  queued in the order of these records, however the queue is lined up (`Staffed`).

The two loops of the survey go over the runs in order. What they build is described by the runs that
they have seen, so each needs one lemma for a run more.
-/

namespace DemandPaging

namespace Survey

variable {records : List TraceRecord} {runs seen rest : List Interval} {run i j : Interval}
  {record : TraceRecord} {pid : Pid} {line : Nat}

/-! ### Maximal runs -/

/-- A stretch of lines of one process that goes on neither before nor after, with the offset of the line
of its first record. It is described by the records alone, without the loop that cuts them. -/
structure MaximalRun (records : List TraceRecord) (i : Interval) : Prop where
  /-- The lines have records of the process. -/
  owned : ∀ {line}, line ∈ i → ∃ record, record? records line = some record ∧ record.pid = i.pid
  /-- The record before it, if there is one, is of another process. -/
  before : ∀ {record}, record? records (i.low - 1) = some record → record.pid ≠ i.pid
  /-- So is the record after it. -/
  after : ∀ {record}, record? records (i.high + 1) = some record → record.pid ≠ i.pid
  /-- The offset is that of the first record. -/
  starts : ∀ {record}, record? records i.low = some record → i.offset = record.offset

theorem MaximalRun.pid_eq (hi : MaximalRun records i) (hj : MaximalRun records j) (hin : line ∈ i)
    (hin' : line ∈ j) : i.pid = j.pid := by
  obtain ⟨record, hrecord, hpid⟩ := hi.owned hin
  obtain ⟨found, hfound, hpid'⟩ := hj.owned hin'
  cases hrecord.symm.trans hfound
  exact hpid.symm.trans hpid'

/-- A maximal run does not begin before another one that has a line with it in common. -/
theorem MaximalRun.low_le (hi : MaximalRun records i) (hj : MaximalRun records j) (hin : line ∈ i)
    (hin' : line ∈ j) : j.low ≤ i.low := by
  refine Nat.le_of_not_lt fun hlt => ?_
  have hwithin : j.low - 1 ∈ i := by
    rw [Interval.mem_iff] at hin hin' ⊢
    omega
  -- otherwise the line before the other run is in this one, which is of the same process
  obtain ⟨record, hrecord, hpid⟩ := hi.owned hwithin
  exact hj.before hrecord (hpid.trans (hi.pid_eq hj hin hin'))

theorem MaximalRun.le_high (hi : MaximalRun records i) (hj : MaximalRun records j) (hin : line ∈ i)
    (hin' : line ∈ j) : i.high ≤ j.high := by
  refine Nat.le_of_not_lt fun hlt => ?_
  have hwithin : j.high + 1 ∈ i := by
    rw [Interval.mem_iff] at hin hin' ⊢
    omega
  obtain ⟨record, hrecord, hpid⟩ := hi.owned hwithin
  exact hj.after hrecord (hpid.trans (hi.pid_eq hj hin hin'))

/-- **A line is in one maximal run.** Of two of them neither begins before the other or ends after it. -/
theorem MaximalRun.eq_of_mem (hi : MaximalRun records i) (hj : MaximalRun records j) (hin : line ∈ i)
    (hin' : line ∈ j) : i = j := by
  have hlow : i.low = j.low :=
    Nat.le_antisymm (hj.low_le hi hin' hin) (hi.low_le hj hin hin')
  obtain ⟨record, hrecord, -⟩ := hi.owned i.low_mem
  refine Interval.ext (hi.pid_eq hj hin hin') hlow ?_ ?_
  · exact Nat.le_antisymm (hi.le_high hj hin hin') (hj.le_high hi hin' hin)
  · rw [hi.starts hrecord, hj.starts (hlow ▸ hrecord)]

/-! ### The runs that are cut are the maximal ones -/

namespace Divides

/-- The record before a run is the last one of the run before it, and that run is of another
process. -/
theorem before (h : Divides runs records) (hrun : run ∈ runs)
    (hrecord : record? records (run.low - 1) = some record) : record.pid ≠ run.pid := by
  obtain ⟨later, earlier, rfl⟩ := List.append_of_mem hrun
  obtain ⟨-, hchain, -⟩ := List.isChain_append.1 h.maximal
  -- there is a run before it, which ends just before it, or it is the earliest one
  cases earlier with
  | cons next earlier =>
    obtain ⟨⟨hnext, hpid⟩, -⟩ := List.isChain_cons_cons.1 hchain
    have hnextmem : next ∈ later ++ run :: next :: earlier :=
      List.mem_append_right _ (List.mem_cons_of_mem _ List.mem_cons_self)
    obtain ⟨found, hfound, howner⟩ := h.owned hnextmem ⟨next.low_le_high, Nat.le_refl _⟩
    have hline : run.low - 1 = next.high := by omega
    rw [hline, hfound] at hrecord
    cases hrecord
    exact fun heq => hpid (howner.symm.trans heq)
  | nil =>
    -- no run holds the line before the earliest one
    obtain ⟨other, hother, hline⟩ := h.covered hrecord
    have := (line_bounds hrecord).1
    have hdescending := (List.pairwise_append.1 h.descending).2.2
    rw [Interval.mem_iff] at hline
    rcases List.mem_append.1 hother with hlater | hsame
    · have := hdescending other hlater run List.mem_cons_self
      have := run.low_le_high
      omega
    · cases List.mem_singleton.1 hsame
      omega

/-- The record after a run is the first one of the run after it, or there is none, if the run is
the latest. -/
theorem after (h : Divides runs records) (hrun : run ∈ runs)
    (hrecord : record? records (run.high + 1) = some record) : record.pid ≠ run.pid := by
  obtain ⟨later, earlier, rfl⟩ := List.append_of_mem hrun
  rcases List.eq_nil_or_concat' later with rfl | ⟨later, next, rfl⟩
  -- no line follows the latest run
  · have hend := h.latest rfl
    have := (line_bounds hrecord).2
    omega
  · have hneighbours := (List.isChain_append.1 h.maximal).2.2 next (by simp) run rfl
    obtain ⟨hnext, hpid⟩ := hneighbours
    have hnextmem : next ∈ later ++ [next] ++ run :: earlier :=
      List.mem_append_left _ (List.mem_append_right _ (List.mem_singleton.2 rfl))
    obtain ⟨found, hfound, howner⟩ := h.owned hnextmem next.low_mem
    rw [hnext, hfound] at hrecord
    cases hrecord
    exact fun heq => hpid (heq.symm.trans howner)

theorem maximalRun (h : Divides runs records) (hrun : run ∈ runs) : MaximalRun records run where
  owned hline := h.owned hrun hline
  before hrecord := h.before hrun hrecord
  after hrecord := h.after hrun hrecord
  starts hrecord := h.starts hrun hrecord

end Divides

/-- **The runs of a trace are its maximal runs.** The runs that are cut are maximal, and each line of a
maximal run is in one of them, which has to be it. -/
theorem mem_runs_iff : i ∈ Survey.runs records ↔ MaximalRun records i := by
  have h := divides_runs records
  rw [← List.mem_reverse]
  refine ⟨fun hi => h.maximalRun hi, fun hi => ?_⟩
  obtain ⟨record, hrecord, -⟩ := hi.owned i.low_mem
  obtain ⟨run, hrun, hin⟩ := h.covered hrecord
  obtain rfl := hi.eq_of_mem (h.maximalRun hrun) i.low_mem hin
  exact hrun

/-- The number of lines between the bounds. Unlike the length that an interval tells of itself
it has no width that it must fit into. -/
def span (i : Interval) : Nat := i.high - i.low + 1

theorem sum_addRecord (runs : List Interval) (record : TraceRecord) :
    ((addRecord runs record).map span).sum = (runs.map span).sum + 1 := by
  cases runs with
  | nil => rfl
  | cons run earlier =>
    have := run.low_le_high
    rw [addRecord]
    -- the latest run is one line longer, or there is a new one of one line
    split
    · simp only [List.map_cons, List.sum_cons, span]
      omega
    · simp only [List.map_cons, List.sum_cons, span]
      omega

/-- The runs have as many lines as there are records, since each record adds a line. -/
theorem sum_runs (records : List TraceRecord) :
    ((Survey.runs records).map span).sum = records.length := by
  rw [Survey.runs, List.map_reverse, List.sum_reverse]
  -- from the last record back, as the runs are cut from the first one on
  induction records using List.reverseRecOn with
  | nil => rfl
  | append_singleton records record ih =>
    rw [List.foldl_append, List.foldl_cons, List.foldl_nil, sum_addRecord, ih, List.length_append,
      List.length_singleton]

theorem addRecord_pids (runs : List Interval) (record : TraceRecord) :
    ((addRecord runs record).map (·.pid)).head? = some record.pid ∧
      ((addRecord runs record).map (·.pid) = runs.map (·.pid) ∨
        (addRecord runs record).map (·.pid) = record.pid :: runs.map (·.pid)) := by
  cases runs with
  | nil => exact ⟨rfl, .inr rfl⟩
  | cons run earlier =>
    rw [addRecord]
    split
    · next heq => exact ⟨congrArg some heq, .inl rfl⟩
    · exact ⟨rfl, .inr rfl⟩

theorem eraseDups_concat (pids : List Pid) (pid : Pid) :
    (pids ++ [pid]).eraseDups = if pid ∈ pids then pids.eraseDups else pids.eraseDups ++ [pid] := by
  rw [List.eraseDups_append]
  split
  · next hmem => simp [List.removeAll, hmem]
  · next hnew => simp [List.removeAll, hnew, List.eraseDups_cons]

/-- The process numbers appear in the runs in the order in which they appear in the records. A record
adds a number to both, or to neither. -/
theorem eraseDups_runs (records : List TraceRecord) :
    ((Survey.runs records).map (·.pid)).eraseDups = (records.map (·.pid)).eraseDups := by
  rw [Survey.runs, List.map_reverse]
  induction records using List.reverseRecOn with
  | nil => rfl
  | append_singleton records record ih =>
    rw [List.foldl_append, List.foldl_cons, List.foldl_nil, List.map_append, List.map_singleton,
      eraseDups_concat, ← ih]
    obtain ⟨hlatest, hpids⟩ := addRecord_pids (records.foldl addRecord []) record
    have hsame : ∀ {pid}, pid ∈ ((records.foldl addRecord []).map (·.pid)).reverse ↔
        pid ∈ records.map (·.pid) := by
      intro pid
      rw [← List.mem_eraseDups, ih, List.mem_eraseDups]
    rcases hpids with heq | heq
    -- the latest run is of the same process, so there was a record of it
    · have hmem : record.pid ∈ ((records.foldl addRecord []).map (·.pid)).reverse := by
        rw [← heq, List.mem_reverse]
        exact List.mem_of_mem_head? (Option.mem_def.2 hlatest)
      rw [heq, if_pos (hsame.1 hmem)]
    · rw [heq, List.reverse_cons, eraseDups_concat]
      exact if_congr hsame rfl rfl

/-! ### The index -/

/-- The last line of a process: it has a record of it, and no later one has. -/
def IsLast (records : List TraceRecord) (pid : Pid) (line : Nat) : Prop :=
  (∃ record, record? records line = some record ∧ record.pid = pid) ∧
    ∀ {other record}, record? records other = some record → record.pid = pid → other ≤ line

/-- The last lines that an index knows are those of the runs that were recorded. The latest run of a
process is found by searching for it from the end. -/
def Lasts (seen : List Interval) (index : IntervalIndex) : Prop :=
  ∀ pid, index.lastLine? pid = (seen.reverse.find? (·.pid == pid)).map (·.high)

theorem Lasts.addRun {index index' : IntervalIndex} (h : Lasts seen index)
    (hadd : addRun index run = .ok index') (hlater : ∀ other ∈ seen, other.high ≤ run.high) :
    Lasts (seen ++ [run]) index' := by
  simp only [Survey.addRun, Fault.bind_eq_ok_iff, Fault.pure_eq_ok_iff] at hadd
  obtain ⟨⟨i, found⟩, hinsert, rfl⟩ := hadd
  obtain ⟨-, rfl⟩ := IntervalIndex.insert_cases hinsert
  intro pid
  rw [List.reverse_append, List.reverse_singleton, List.singleton_append, List.find?_cons,
    IntervalIndex.lastLine?, OrderedMap.get?_insert]
  -- the run is of the process, or of another one, whose last line it does not change
  by_cases hpid : pid = run.pid
  · subst hpid
    -- no last line so far is greater
    have hle : (index.lines run.pid).lastLine ≤ run.high := by
      have hlast := h run.pid
      rw [IntervalIndex.lastLine?] at hlast
      rw [IntervalIndex.lines]
      cases hget : index.processes.get? run.pid with
      | none => exact Nat.zero_le _
      | some lines =>
        rw [hget] at hlast
        obtain ⟨other, hfind, hhigh⟩ := Option.map_eq_some_iff.1 hlast.symm
        have hhigh : other.high = lines.lastLine := hhigh
        rw [Option.getD_some, ← hhigh]
        exact hlater other (List.mem_reverse.1 (List.mem_of_find?_eq_some hfind))
    simp [Nat.max_eq_right hle]
  · have hne : (run.pid == pid) = false := beq_false_of_ne (Ne.symm hpid)
    rw [if_neg hpid, hne]
    exact h pid

theorem Lasts.foldlM {index index' : IntervalIndex} (h : Lasts seen index)
    (hfold : rest.foldlM Survey.addRun index = .ok index')
    (hsorted : (seen ++ rest).Pairwise fun a b => a.high ≤ b.high) : Lasts (seen ++ rest) index' := by
  -- by induction on the runs that are still to be recorded
  induction rest generalizing seen index with
  | nil =>
    cases hfold
    rwa [List.append_nil]
  | cons run rest ih =>
    rw [List.foldlM_cons, Fault.bind_eq_ok_iff] at hfold
    obtain ⟨index₁, hadd, hrest⟩ := hfold
    have hlater : ∀ other ∈ seen, other.high ≤ run.high := fun other hother =>
      (List.pairwise_append.1 hsorted).2.2 other hother run List.mem_cons_self
    have hsplit : seen ++ run :: rest = seen ++ [run] ++ rest := by simp
    rw [hsplit] at hsorted ⊢
    exact ih (h.addRun hadd hlater) hrest hsorted

/-- Each run begins and ends past the one before it. -/
theorem pairwise_runs_lt (records : List TraceRecord) :
    (Survey.runs records).Pairwise fun a b => a.high < b.low := by
  rw [← List.pairwise_reverse]
  exact (divides_runs records).descending

/-- What a search finds in an ordered list is related to all else that passes the test. -/
theorem rel_of_find? {α : Type} {R : α → α → Prop} {test : α → Bool} {l : List α} {a b : α}
    (hl : l.Pairwise R) (h : l.find? test = some a) (hb : b ∈ l) (htest : test b = true) :
    b = a ∨ R a b := by
  -- what stands before the one that is found does not pass the test
  obtain ⟨-, before, after, rfl, hbefore⟩ := List.find?_eq_some_iff_append.1 h
  rcases List.mem_append.1 hb with hmem | hmem
  · have hnot := hbefore b hmem
    rw [htest] at hnot
    cases hnot
  · rcases List.mem_cons.1 hmem with rfl | hmem
    · exact .inl rfl
    · exact .inr ((List.pairwise_cons.1 (List.pairwise_append.1 hl).2.1).1 b hmem)

/-- A process that has a record has a run, namely the one that its line is in. -/
theorem exists_run (h : record? records line = some record) :
    ∃ run ∈ Survey.runs records, run.pid = record.pid ∧ line ∈ run := by
  have hdivides := divides_runs records
  obtain ⟨run, hrun, hline⟩ := hdivides.covered h
  obtain ⟨found, hfound, hpid⟩ := hdivides.owned hrun hline
  cases h.symm.trans hfound
  exact ⟨run, List.mem_reverse.1 hrun, hpid.symm, hline⟩

/-- The latest run of a process ends with its last record. Every record is in some run, and a
later record of the process would be in a run that is found before this one. -/
theorem isLast_of_find? (h : (Survey.runs records).reverse.find? (·.pid == pid) = some run) :
    IsLast records pid run.high := by
  -- the run that is found has a record of the process on its last line
  have hdivides := divides_runs records
  have htest : (run.pid == pid) = true := (List.find?_some h :)
  have hpid : run.pid = pid := beq_iff_eq.1 htest
  have hrun := List.mem_of_find?_eq_some h
  obtain ⟨record, hrecord, howner⟩ := hdivides.owned hrun ⟨run.low_le_high, Nat.le_refl _⟩
  refine ⟨⟨record, hrecord, howner.trans hpid⟩, fun {line found} hfound hfoundpid => ?_⟩
  obtain ⟨other, hother, hotherpid, hline⟩ := exists_run hfound
  rw [Interval.mem_iff] at hline
  have htest : (other.pid == pid) = true := beq_iff_eq.2 (hotherpid.trans hfoundpid)
  -- any later line of the process is in the same run, as there is no later run
  rcases rel_of_find? hdivides.descending h (List.mem_reverse.2 hother) htest with rfl | hlt
  · exact hline.2
  · have := run.low_le_high
    omega

theorem IsLast.unique {other : Nat} (h : IsLast records pid line) (h' : IsLast records pid other) :
    line = other := by
  obtain ⟨⟨record, hrecord, hpid⟩, hmax⟩ := h
  obtain ⟨⟨found, hfound, hpid'⟩, hmax'⟩ := h'
  exact Nat.le_antisymm (hmax' hrecord hpid) (hmax hfound hpid')

/-- **Last lines.** The index of the runs knows the last line of each process, and no other line. -/
theorem lastLine?_of_runs {index : IntervalIndex}
    (h : (Survey.runs records).foldlM addRun ∅ = .ok index) :
    index.lastLine? pid = some line ↔ IsLast records pid line := by
  -- the runs are in order, so no recorded run ends after the next one
  have hsorted : (Survey.runs records).Pairwise fun a b => a.high ≤ b.high :=
    (pairwise_runs_lt records).imp fun {a b} hlt => by
      have := b.low_le_high
      omega
  have hempty : Lasts [] ∅ := fun _ => rfl
  have hlasts : Lasts (Survey.runs records) index := hempty.foldlM h hsorted
  rw [hlasts]
  constructor
  · intro hlast
    obtain ⟨run, hfind, rfl⟩ := Option.map_eq_some_iff.1 hlast
    exact isLast_of_find? hfind
  · intro hlast
    obtain ⟨record, hrecord, hpid⟩ := hlast.1
    obtain ⟨run, hrun, hrunpid, -⟩ := exists_run hrecord
    -- so the search finds a run, and that one ends with the last record
    have hsome : ((Survey.runs records).reverse.find? (·.pid == pid)).isSome = true :=
      List.find?_isSome.2 ⟨run, List.mem_reverse.2 hrun, beq_iff_eq.2 (hrunpid.trans hpid)⟩
    obtain ⟨latest, hfind⟩ := Option.isSome_iff_exists.1 hsome
    rw [hfind, Option.map_some, (isLast_of_find? hfind).unique hlast]

end Survey

namespace IntervalIndex

variable {index : IntervalIndex} {i : Interval} {pid : Pid}

/-- The intervals of all processes, process by process. An interval may be in it once only, but
that is for `Finds` to say. -/
def all (index : IntervalIndex) : List Interval := index.pids.flatMap index.intervals

theorem mem_all_iff (h : index.Ordered) : i ∈ index.all ↔ i ∈ index := by
  rw [all, List.mem_flatMap]
  constructor
  · rintro ⟨pid, -, hmem⟩
    exact ((mem_intervals_iff h).1 hmem).1
  · exact fun hmem => ⟨i.pid, mem_pids_of_mem hmem, (mem_intervals_iff h).2 ⟨hmem, rfl⟩⟩

/-- No interval is listed twice. -/
theorem nodup_all (h : index.Ordered) : index.all.Nodup := by
  -- within one process, and across processes
  refine List.nodup_flatMap.2 ⟨fun pid _ => ?_, ?_⟩
  · refine List.pairwise_map.2 ((index.lines pid).byLow.ascending.imp_of_mem ?_)
    -- intervals under different first lines differ
    intro a b ha hb hlt heq
    have hlow : a.2.low = a.1 := (h.keyed (OrderedMap.mem_entries_iff.1 ha)).2
    have hlow' : b.2.low = b.1 := (h.keyed (OrderedMap.mem_entries_iff.1 hb)).2
    rw [heq, hlow'] at hlow
    omega
  · refine List.pairwise_map.2 (index.processes.ascending.imp ?_)
    intro a b hlt i ha hb
    have hpid := ((mem_intervals_iff h).1 ha).2
    have hpid' := ((mem_intervals_iff h).1 hb).2
    exact Nat.ne_of_lt hlt (hpid.symm.trans hpid')

end IntervalIndex

namespace Survey

variable {records : List TraceRecord} {seen rest : List Interval} {run : Interval} {pid : Pid}
  {index : IntervalIndex} {t : ProcessTable}

/-! ### The process table -/

/-- The process at the start of a run. If the index has no last line for it, the run is all that is known
of it. -/
def begin (index : IntervalIndex) (run : Interval) : Process :=
  .start run ((index.lastLine? run.pid).getD run.high)

/-- The table has the process of the first run of each process number, and they are queued in the order
of these runs. -/
structure Staffed (index : IntervalIndex) (seen : List Interval) (t : ProcessTable) : Prop where
  /-- The process with a number is at the start of its first run. -/
  get?_eq : ∀ pid, t.get? pid = (seen.find? (·.pid == pid)).map (begin index)
  /-- All are ready to run. -/
  queues_eq : t.queues = { runnable := (seen.map (·.pid)).eraseDups }

theorem Staffed.isSome_iff (h : Staffed index seen t) :
    (t.get? pid).isSome = true ↔ pid ∈ seen.map (·.pid) := by
  rw [h.get?_eq, Option.isSome_map, List.find?_isSome, List.mem_map]
  simp

/-- A process that starts further on is queued last, also where processes are lined up by
position. This is why the order of the queue does not show at the start. -/
theorem Staffed.queues_enter (h : Staffed index seen t) (hnew : t.get? run.pid = none)
    (hlater : ∀ other ∈ seen, other.offset ≤ run.offset) :
    (t.enter (begin index run) .runnable).queues =
      { runnable := (seen.map (·.pid)).eraseDups ++ [run.pid] } := by
  let put := t.put (begin index run)
  have hqueue : put.queue .runnable = (seen.map (·.pid)).eraseDups := by
    show t.queues.runnable = _
    rw [h.queues_eq]
  have hplace : put.positionOf run.pid = run.offset := by
    rw [ProcessTable.positionOf, ProcessTable.get?_put]
    exact congrArg (fun p? : Option Process => p?.elim 0 (·.position)) (if_pos rfl)
  -- all processes in the queue are at the start of an earlier run
  have hlast : ∀ pid ∈ put.queue .runnable, put.positionOf pid ≤ put.positionOf run.pid := by
    intro pid hpid
    rw [hqueue, List.mem_eraseDups, ← h.isSome_iff] at hpid
    have hne : pid ≠ run.pid := by
      rintro rfl
      rw [hnew] at hpid
      cases hpid
    obtain ⟨p, hp⟩ := Option.isSome_iff_exists.1 hpid
    have hput : put.get? pid = some p := ProcessTable.get?_put.trans ((if_neg hne).trans hp)
    rw [h.get?_eq] at hp
    obtain ⟨other, hfind, rfl⟩ := Option.map_eq_some_iff.1 hp
    rw [hplace, ProcessTable.positionOf, hput]
    exact hlater other (List.mem_of_find?_eq_some hfind)
  have hqueues : put.queues = { runnable := (seen.map (·.pid)).eraseDups } := h.queues_eq
  show (put.enqueue run.pid .runnable).queues = _
  rw [ProcessTable.queues_enqueue_of_last fun _ _ => hlast, hqueue, hqueues]
  rfl

/-- **One run more.** It adds a process at the end of the queue, unless there is one. -/
theorem Staffed.addProcess (h : Staffed index seen t)
    (hlater : ∀ other ∈ seen, other.offset ≤ run.offset) :
    ∃ t', addProcess index t run = .ok t' ∧ t'.order = t.order ∧
      Staffed index (seen ++ [run]) t' := by
  unfold Survey.addProcess
  -- the process of the run is there already, and nothing is done
  by_cases hpresent : (t.get? run.pid).isSome = true
  · refine ⟨t, if_pos hpresent, rfl, fun pid => ?_, ?_⟩
    · rw [List.find?_append, h.get?_eq]
      cases hfind : seen.find? (·.pid == pid) with
      | some other => rfl
      | none =>
        -- the run is of another process, as its own has one
        have hne : run.pid ≠ pid := by
          rintro rfl
          rw [h.get?_eq, hfind] at hpresent
          cases hpresent
        rw [Option.none_or, List.find?_singleton, beq_false_of_ne hne]
        rfl
    · rw [h.queues_eq, List.map_append, List.map_singleton, eraseDups_concat,
        if_pos (h.isSome_iff.1 hpresent)]
  · -- it is not there, and is added
    have hnew : t.get? run.pid = none := Option.not_isSome_iff_eq_none.1 hpresent
    have habsent : run.pid ∉ seen.map (·.pid) := fun hmem => hpresent (h.isSome_iff.2 hmem)
    let t' := t.enter (begin index run) .runnable
    have hinsert : t.insert (begin index run) = .ok t' := by
      rw [ProcessTable.insert]
      have hnone : (t.get? (begin index run).pid).isNone = true := by
        show (t.get? run.pid).isNone = true
        rw [hnew]
        rfl
      rw [hnone]
      rfl
    have hget : ∀ pid, t'.get? pid = if pid = run.pid then some (begin index run) else t.get? pid :=
      fun pid => ProcessTable.get?_put
    refine ⟨t', (if_neg hpresent).trans hinsert, rfl, fun pid => ?_, ?_⟩
    · -- the search for its number finds this run, and that for another one does not
      rw [hget, h.get?_eq, List.find?_append]
      by_cases hpid : pid = run.pid
      · subst hpid
        have hnone : seen.find? (·.pid == run.pid) = none := by
          rw [h.get?_eq] at hnew
          exact Option.map_eq_none_iff.1 hnew
        rw [if_pos rfl, hnone, Option.none_or, List.find?_singleton, beq_self_eq_true]
        rfl
      · rw [if_neg hpid, List.find?_singleton, beq_false_of_ne (Ne.symm hpid)]
        simp only [Bool.false_eq_true, if_false, Option.or_none]
    · rw [List.map_append, List.map_singleton, eraseDups_concat, if_neg habsent]
      exact h.queues_enter hnew hlater

theorem Staffed.foldlM (h : Staffed index seen t)
    (hsorted : (seen ++ rest).Pairwise fun a b => a.offset ≤ b.offset) :
    ∃ t', rest.foldlM (Survey.addProcess index) t = .ok t' ∧ t'.order = t.order ∧
      Staffed index (seen ++ rest) t' := by
  -- by induction on the runs that are still to be looked at
  induction rest generalizing seen t with
  | nil => exact ⟨t, rfl, rfl, (List.append_nil seen).symm ▸ h⟩
  | cons run rest ih =>
    have hlater : ∀ other ∈ seen, other.offset ≤ run.offset := fun other hother =>
      (List.pairwise_append.1 hsorted).2.2 other hother run List.mem_cons_self
    obtain ⟨t₁, hadd, horder₁, h₁⟩ := h.addProcess hlater
    have hsplit : seen ++ run :: rest = seen ++ [run] ++ rest := by simp
    rw [hsplit] at hsorted ⊢
    obtain ⟨t', hfold, horder, h'⟩ := ih h₁ hsorted
    refine ⟨t', ?_, horder.trans horder₁, h'⟩
    rw [List.foldlM_cons, hadd]
    exact hfold

/-- The runs start one after the other in the text, if the records do. Each starts where its
first record stands, and the lines of an earlier run come before. -/
theorem pairwise_offset_runs (h : records.Pairwise fun a b => a.offset < b.offset) :
    (runs records).Pairwise fun a b => a.offset ≤ b.offset := by
  have hdivides := divides_runs records
  refine (pairwise_runs_lt records).imp_of_mem fun {a b} ha hb hlt => ?_
  have ha' := List.mem_reverse.2 ha
  have hb' := List.mem_reverse.2 hb
  -- each run starts where its first record does
  obtain ⟨record, hrecord, -⟩ := hdivides.owned ha' a.low_mem
  obtain ⟨found, hfound, -⟩ := hdivides.owned hb' b.low_mem
  rw [hdivides.starts ha' hrecord, hdivides.starts hb' hfound]
  have hlow : a.low < b.low := Nat.lt_of_le_of_lt a.low_le_high hlt
  -- lines are counted from one
  obtain ⟨line, hline⟩ := Nat.exists_eq_succ_of_ne_zero (Nat.ne_of_gt (line_bounds hrecord).1)
  obtain ⟨other, hother⟩ := Nat.exists_eq_succ_of_ne_zero (Nat.ne_of_gt (line_bounds hfound).1)
  rw [hline] at hrecord
  rw [hother] at hfound
  obtain ⟨hi, rfl⟩ := List.getElem?_eq_some_iff.1 hrecord
  obtain ⟨hj, rfl⟩ := List.getElem?_eq_some_iff.1 hfound
  exact Nat.le_of_lt (List.pairwise_iff_getElem.1 h line other hi hj (by omega))

/-! ### What is found -/

/-- The process is at the first record of a process number, ready to run, and knows the last one. -/
structure Begins (records : List TraceRecord) (pid : Pid) (p : Process) : Prop where
  /-- It has the number. -/
  pid_eq : p.pid = pid
  /-- On its first line there is a record of it, and it stands where that line starts. -/
  first : ∃ record, record? records p.firstLine = some record ∧ record.pid = pid ∧
    p.position = record.offset
  /-- No line before that one has a record of it. -/
  firstLine_le : ∀ {line record}, record? records line = some record → record.pid = pid →
    p.firstLine ≤ line
  /-- The cursor is on the first line. -/
  line_eq : p.line = p.firstLine
  /-- The interval of the cursor is the maximal run that begins there. -/
  interval : MaximalRun records p.interval ∧ p.interval.pid = pid ∧ p.interval.low = p.firstLine
  /-- The last line is that of its last record. -/
  isLast : IsLast records pid p.lastLine
  /-- It is ready to run. -/
  state_eq : p.state = .runnable
  /-- It waits for nothing and has no pages. -/
  idle : p.wait = 0 ∧ p.pending? = none ∧ p.pages = ∅

/-- What the survey of some records says of them. All of it is in terms of the records, so that
nothing of the two loops of the survey is left. -/
structure Finds (records : List TraceRecord) (order : QueueOrder) (survey : Survey) : Prop where
  /-- It has their number. -/
  records_eq : survey.records = records.length
  /-- The intervals are the maximal runs. -/
  mem_all_iff : ∀ i, i ∈ survey.index.all ↔ MaximalRun records i
  /-- They are listed under their processes. -/
  pid_eq : ∀ pid, ∀ i ∈ survey.index.intervals pid, i.pid = pid
  /-- No two of them have a line in common. -/
  apart : survey.index.all.Pairwise fun i j => i.meets j = false
  /-- Each line is in one of them. -/
  covered : ∀ line, 1 ≤ line → line ≤ records.length → ∃ i ∈ survey.index.all, line ∈ i
  /-- Their lengths can be counted, and sum up to the number of records. -/
  lengths : records.length < 2 ^ 64 → ∃ lengths,
    survey.index.all.mapM Interval.length = .ok lengths ∧ lengths.sum = records.length
  /-- The last line of a process is that of its last record. -/
  lastLine?_eq_some_iff : ∀ pid line,
    survey.index.lastLine? pid = some line ↔ IsLast records pid line
  /-- The processes are those of the records. -/
  isSome_get?_iff : ∀ pid,
    (survey.processes.get? pid).isSome = true ↔ pid ∈ records.map (·.pid)
  /-- Each is at its first record. -/
  begins : ∀ {pid p}, survey.processes.get? pid = some p → Begins records pid p
  /-- All are queued as ready to run, in the order in which they appear in the records. -/
  queues_eq : survey.processes.queues = { runnable := (records.map (·.pid)).eraseDups }
  /-- The queue is to be lined up as was asked. -/
  order_eq : survey.processes.order = order

/-- Each process is at the start of its first maximal run. What the table says of it in terms of
runs is put into terms of records here. -/
theorem Staffed.begins {p : Process} (h : Staffed index (runs records) t)
    (hlast : ∀ pid line, index.lastLine? pid = some line ↔ IsLast records pid line)
    (hp : t.get? pid = some p) : Begins records pid p := by
  -- the process was found by its number at the first of its runs
  rw [h.get?_eq] at hp
  obtain ⟨run, hfind, rfl⟩ := Option.map_eq_some_iff.1 hp
  have htest : (run.pid == pid) = true := (List.find?_some hfind :)
  obtain rfl : run.pid = pid := beq_iff_eq.1 htest
  have hrun := List.mem_of_find?_eq_some hfind
  have hmaximal := mem_runs_iff.1 hrun
  obtain ⟨record, hrecord, hpid⟩ := hmaximal.owned run.low_mem
  refine ⟨rfl, ⟨record, hrecord, hpid, hmaximal.starts hrecord⟩, fun {line found} hfound howner => ?_,
    rfl, ⟨hmaximal, rfl, rfl⟩, ?_, rfl, rfl, rfl, rfl⟩
  · obtain ⟨other, hother, hotherpid, hline⟩ := exists_run hfound
    have htest' : (other.pid == run.pid) = true := beq_iff_eq.2 (hotherpid.trans howner)
    show run.low ≤ line
    rw [Interval.mem_iff] at hline
    -- a record of the process is in that run or in a later one
    rcases rel_of_find? (pairwise_runs_lt records) hfind hother htest' with rfl | hlt
    · exact hline.1
    · have := run.low_le_high
      omega
  · -- the search from the end finds a run as well
    have hsome : ((runs records).reverse.find? (·.pid == run.pid)).isSome = true :=
      List.find?_isSome.2 ⟨run, List.mem_reverse.2 hrun, htest⟩
    obtain ⟨latest, hlatest⟩ := Option.isSome_iff_exists.1 hsome
    have hknown := (hlast run.pid latest.high).2 (isLast_of_find? hlatest)
    have hline : (begin index run).lastLine = latest.high := by
      show (index.lastLine? run.pid).getD run.high = latest.high
      rw [hknown, Option.getD_some]
    rw [hline]
    exact isLast_of_find? hlatest

theorem mapM_length {l : List Interval} (h : ∀ i ∈ l, span i < 2 ^ 64) :
    l.mapM Interval.length = .ok (l.map span) := by
  induction l with
  | nil => rfl
  | cons i rest ih =>
    have hlength : i.length = .ok (span i) := Fault.fit_eq_ok_iff.2 ⟨h i List.mem_cons_self, rfl⟩
    rw [List.mapM_cons, hlength, ih fun j hj => h j (List.mem_cons_of_mem _ hj)]
    rfl

/-- **A survey of records.** It succeeds, and finds what there is. The index is built first, and then the
processes, which read their last lines from it. -/
theorem ofRecords_eq_ok (order : QueueOrder)
    (h : records.Pairwise fun a b => a.offset < b.offset) :
    ∃ survey, ofRecords records order = .ok survey ∧ Finds records order survey := by
  obtain ⟨index, hindex, hordered, hmem⟩ := foldlM_addRun_runs records
  have hlast : ∀ pid line, index.lastLine? pid = some line ↔ IsLast records pid line :=
    fun pid line => lastLine?_of_runs hindex
  -- at the beginning no run was seen
  have hempty : Staffed index [] { order } := ⟨fun _ => rfl, rfl⟩
  have hstaff : ∃ t, (runs records).foldlM (addProcess index) { order } = .ok t ∧ t.order = order ∧
      Staffed index (runs records) t := hempty.foldlM (pairwise_offset_runs h)
  obtain ⟨t, hfold, horder, hstaffed⟩ := hstaff
  have hmem' : ∀ i, i ∈ index.all ↔ MaximalRun records i := by
    intro i
    rw [IntervalIndex.mem_all_iff hordered, hmem, mem_runs_iff]
  have hnodup := IntervalIndex.nodup_all hordered
  -- the intervals of the index are the runs in some order, as neither list has one twice
  have hperm : index.all.Perm (runs records) := by
    refine (List.perm_ext_iff_of_nodup hnodup ?_).2 fun i => ?_
    · refine (pairwise_runs_lt records).imp fun {a b} hlt heq => ?_
      have := a.low_le_high
      rw [heq] at hlt this
      omega
    · rw [hmem', mem_runs_iff]
  have hsum : (index.all.map span).sum = records.length := by
    rw [(hperm.map span).sum_eq, sum_runs]
  refine ⟨{ index, processes := t, records := records.length }, ?_, rfl, hmem', ?_, ?_, ?_, ?_, hlast,
    ?_, fun hp => hstaffed.begins hlast hp, ?_, horder⟩
  · simp only [ofRecords, hindex, hfold, bind, Except.bind]
    rfl
  · exact fun pid i hi => ((IntervalIndex.mem_intervals_iff hordered).1 hi).2
  · -- two runs that meet would be one
    refine hnodup.imp_of_mem fun {i j} hi hj hne => Bool.eq_false_iff.2 fun hmeets => hne ?_
    obtain ⟨line, hin, hin'⟩ := Interval.meets_iff.1 hmeets
    exact ((hmem' i).1 hi).eq_of_mem ((hmem' j).1 hj) hin hin'
  · -- each line has a record, which is in a run
    intro line hone hle
    have hrecord : ∃ record, record? records line = some record := by
      obtain ⟨line, rfl⟩ := Nat.exists_eq_succ_of_ne_zero (Nat.ne_of_gt hone)
      exact ⟨records[line], List.getElem?_eq_getElem hle⟩
    obtain ⟨record, hrecord⟩ := hrecord
    obtain ⟨run, hrun, -, hline⟩ := exists_run hrecord
    exact ⟨run, hperm.mem_iff.2 hrun, hline⟩
  · -- no run is longer than the trace
    intro hfits
    refine ⟨_, mapM_length fun i hi => ?_, hsum⟩
    have hbounds := (divides_runs records).bounds (List.mem_reverse.2 (hperm.mem_iff.1 hi))
    rw [span]
    omega
  · intro pid
    rw [hstaffed.isSome_iff, ← List.mem_eraseDups, eraseDups_runs, List.mem_eraseDups]
  · rw [hstaffed.queues_eq, eraseDups_runs]

end Survey

namespace TraceReader

variable {reader after : TraceReader} {order : QueueOrder} {survey : Survey}

/-- **What a survey has found.** It says of the records that the reader has from the start what there is
to find in them. -/
theorem finds_of_survey (h : reader.survey order = .ok (.ok survey, after)) :
    ∃ records, reader.rewind.2.records.1 = .ok records ∧ survey.Finds records order := by
  obtain ⟨hseek, -, records, hrecords, -, hsurvey⟩ := survey_eq_ok_iff.1 h
  refine ⟨records, hrecords, ?_⟩
  rw [Medium.rewind_eq_ok hseek rfl] at hrecords
  have hholds := Medium.holds_of_records hrecords
  obtain ⟨found, hfound, hfinds⟩ :=
    Survey.ofRecords_eq_ok order (hholds.ordered Medium.startsLine_zero).1
  cases hsurvey.symm.trans hfound
  exact hfinds

/-- Records that can be read, from the start of a medium that can be moved, are surveyed: nothing else
can go wrong. -/
theorem exists_survey_of_records {records : List TraceRecord} (hseek : reader.medium.seekError? = none)
    (hrecords : reader.rewind.2.records.1 = .ok records) (hne : records ≠ []) :
    ∃ survey after, reader.survey order = .ok (.ok survey, after) := by
  have hheld := hrecords
  rw [Medium.rewind_eq_ok hseek rfl] at hheld
  have hholds := Medium.holds_of_records hheld
  obtain ⟨survey, hsurvey, -⟩ :=
    Survey.ofRecords_eq_ok order (hholds.ordered Medium.startsLine_zero).1
  exact ⟨survey, _, survey_eq_ok_iff.2 ⟨hseek, rfl, records, hrecords, hne, hsurvey⟩⟩

end TraceReader

/-- **What a survey answers.** For the bytes of a medium that can be read and moved the survey says what
is wrong with the first line that is neither blank nor has a record on it, or that there are no records,
or what there is to find in the records of the lines. In the last case the reader is back at the start,
and each record is on the line at its offset. -/
theorem TraceReader.survey_of_text {reader : TraceReader} (hseek : reader.medium.seekError? = none)
    (hread : reader.medium.readError? = none) (order : QueueOrder) :
    (∀ earlier start later e,
        Medium.lineStarts reader.medium.bytes 0 = earlier ++ start :: later →
        (∀ line ∈ earlier, Medium.Accepts reader.medium.bytes line) →
        Medium.lineRecord reader.medium.bytes start = .error e →
        ∃ after, reader.survey order = .ok (.error e, after)) ∧
      ((∀ line ∈ Medium.lineStarts reader.medium.bytes 0,
          Medium.Accepts reader.medium.bytes line) →
        (Medium.lineRecords reader.medium.bytes = [] →
          ∃ after, reader.survey order = .ok (.error .emptyTrace, after)) ∧
        (Medium.lineRecords reader.medium.bytes ≠ [] →
          ∃ survey after, reader.survey order = .ok (.ok survey, after) ∧
            after.position = 0 ∧ after.medium = { reader.medium with offset := 0 } ∧
            survey.Finds (Medium.lineRecords reader.medium.bytes) order ∧
            ∀ record ∈ Medium.lineRecords reader.medium.bytes,
              record.offset ∈ Medium.lineStarts reader.medium.bytes 0 ∧
                Medium.lineRecord reader.medium.bytes record.offset = .ok (some record))) := by
  have hrewind : reader.rewind = (.ok (), reader.medium.readerAt 0) :=
    Medium.rewind_eq_ok hseek rfl
  -- the records are read line by line, which gives each of the three answers
  cases hall : (reader.medium.readerAt 0).records with
  | mk found stop =>
  have hfound : (TraceReader.recordsAfter [] (reader.medium.readerAt 0)).1 = found := by
    rw [← TraceReader.records, hall]
  refine ⟨fun earlier start later e hlines hearlier hstart => ?_, fun hlines => ?_⟩
  · -- a line is rejected, and reading stops with its error
    rw [Medium.recordsAfter_of_rejected hread [] hlines hearlier hstart] at hfound
    subst hfound
    refine ⟨stop, ?_⟩
    rw [survey, hrewind]
    simp only [hall]
  rw [Medium.recordsAfter_of_accepted hread [] hlines, List.reverse_nil, List.nil_append] at hfound
  subst hfound
  -- all lines are accepted, and there are no records on them or some
  refine ⟨fun hnil => ⟨stop, ?_⟩, fun hne => ?_⟩
  · have hnil' : Medium.lineRecordsFrom reader.medium.bytes 0 = [] := hnil
    rw [survey, hrewind]
    simp only [hall, hnil']
  · obtain ⟨survey, hsurvey, hfinds⟩ := Survey.ofRecords_eq_ok order
      (Medium.pairwise_lineRecordsFrom : (Medium.lineRecords reader.medium.bytes).Pairwise _)
    have hrecords : reader.rewind.2.records.1 = .ok (Medium.lineRecords reader.medium.bytes) := by
      rw [hrewind, hall]
      rfl
    exact ⟨survey, reader.medium.readerAt 0,
      survey_eq_ok_iff.2 ⟨hseek, rfl, _, hrecords, hne, hsurvey⟩, rfl, rfl, hfinds,
      fun record hrecord => Medium.lineRecord_of_mem hrecord⟩

/-- Three records of two processes, with a blank line between them and no end of the last line. -/
def blankBetween : TraceReader := .ofBytes ⟨#[49, 32, 55, 10, 10, 50, 32, 51, 10, 50, 32, 52]⟩

theorem survey_of_blankBetween :
    (blankBetween.medium.seekError? = none ∧ blankBetween.medium.readError? = none) ∧
      Medium.lineRecords blankBetween.medium.bytes = [⟨⟨1, 7⟩, 0, 4⟩, ⟨⟨2, 3⟩, 5, 9⟩, ⟨⟨2, 4⟩, 9, 12⟩] ∧
      ∃ survey after, blankBetween.survey .tracePosition = .ok (.ok survey, after) ∧
        after.position = 0 ∧
        survey.Finds [⟨⟨1, 7⟩, 0, 4⟩, ⟨⟨2, 3⟩, 5, 9⟩, ⟨⟨2, 4⟩, 9, 12⟩] .tracePosition := by
  have hlines : Medium.lineStarts blankBetween.medium.bytes 0 = [0, 4, 5, 9] := by decide +kernel
  have hrecords : Medium.lineRecords blankBetween.medium.bytes =
      [⟨⟨1, 7⟩, 0, 4⟩, ⟨⟨2, 3⟩, 5, 9⟩, ⟨⟨2, 4⟩, 9, 12⟩] := by decide +kernel
  have haccepted : ∀ line ∈ [0, 4, 5, 9],
      (Medium.lineRecord blankBetween.medium.bytes line).isOk = true := by decide +kernel
  obtain ⟨-, hanswers⟩ := @TraceReader.survey_of_text blankBetween rfl rfl .tracePosition
  obtain ⟨-, hsurvey⟩ := hanswers fun line hline => by
    rw [hlines] at hline
    have hok := haccepted line hline
    cases hrecord : Medium.lineRecord blankBetween.medium.bytes line with
    | ok record? => exact ⟨record?, hrecord⟩
    | error e =>
      rw [hrecord] at hok
      cases hok
  obtain ⟨survey, after, hfound, hposition, -, hfinds, -⟩ :=
    hsurvey (by rw [hrecords]; exact List.cons_ne_nil _ _)
  rw [hrecords] at hfinds
  exact ⟨⟨rfl, rfl⟩, hrecords, survey, after, hfound, hposition, hfinds⟩

end DemandPaging
