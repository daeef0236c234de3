import DemandPaging.Survey
import DemandPaging.Proofs.Intervals
import Mathlib.Data.List.Chain

/-!
# The runs of a trace

The survey cuts a trace into runs, one record after the other, the latest run first.
`Survey.Divides` says what has been reached: every run has just the lines of one process that lie
between its bounds, it starts where its first record stands, each line so far is in some run, and
each run begins right after the one before it, which is of another process. One more record keeps
this (`Divides.addRecord_concat`), so it holds of the runs of every trace (`divides_runs`).

Since the runs are disjoint the survey can record all of them, and the index that it makes has them
and nothing else (`foldlM_addRun_runs`).
-/

namespace DemandPaging.Survey

/-- The record on a line. Lines are counted from one, so that zero can stand for the line before
the first one. -/
def record? (records : List TraceRecord) : Nat → Option TraceRecord
  | 0 => none
  | line + 1 => records[line]?

section

variable {records : List TraceRecord} {record latest : TraceRecord} {line : Nat}

theorem line_bounds (h : record? records line = some record) : 1 ≤ line ∧ line ≤ records.length := by
  cases line with
  | zero => cases h
  | succ line =>
    have := (List.getElem?_eq_some_iff.1 h).1
    omega

theorem mem_of_record? (h : record? records line = some record) : record ∈ records := by
  cases line with
  | zero => cases h
  | succ line => exact List.mem_of_getElem? h

/-- One record more is found on the line after the last one, and the others where they were. -/
theorem record?_concat : record? (records ++ [latest]) line =
    if line = records.length + 1 then some latest else record? records line := by
  cases line with
  | zero => simp [record?]
  | succ line =>
    by_cases hline : line = records.length
    · simp [record?, hline]
    · simp only [record?, Nat.add_right_cancel_iff, hline, if_false]
      rcases Nat.lt_or_gt_of_ne hline with hlt | hgt
      · exact List.getElem?_append_left hlt
      · have hlen : (records ++ [latest]).length = records.length + 1 := List.length_append
        rw [List.getElem?_eq_none (by omega), List.getElem?_eq_none (by omega)]

theorem record?_concat_of_some (h : record? records line = some record) :
    record? (records ++ [latest]) line = some record := by
  have := line_bounds h
  rw [record?_concat, if_neg (by omega), h]

theorem record?_of_concat (h : record? (records ++ [latest]) line = some record)
    (hline : line ≠ records.length + 1) : record? records line = some record := by
  rwa [record?_concat, if_neg hline] at h

end

/-! ### Cutting a trace into runs -/

/-- The runs, the latest first, divide the records. They come in this order since it is the latest one
that a record can make longer. -/
structure Divides (runs : List Interval) (records : List TraceRecord) : Prop where
  /-- The lines of a run are lines of its process. -/
  owned : ∀ {run line}, run ∈ runs → line ∈ run →
    ∃ record, record? records line = some record ∧ record.pid = run.pid
  /-- A run starts where its first record stands. -/
  starts : ∀ {run record}, run ∈ runs → record? records run.low = some record →
    run.offset = record.offset
  /-- Each line is in a run. -/
  covered : ∀ {line record}, record? records line = some record → ∃ run ∈ runs, line ∈ run
  /-- The latest run ends on the last line. -/
  latest : ∀ {run}, runs.head? = some run → run.high = records.length
  /-- A run begins right after the one before, which is of another process. -/
  maximal : runs.IsChain fun later earlier =>
    earlier.high + 1 = later.low ∧ earlier.pid ≠ later.pid

namespace Divides

variable {runs : List Interval} {records : List TraceRecord} {run : Interval}

theorem nil : Divides [] [] where
  owned h := absurd h List.not_mem_nil
  starts h := absurd h List.not_mem_nil
  covered {line _} h := by
    cases line <;> cases h
  latest h := by cases h
  maximal := .nil

/-- The lines of a run are lines of the trace. -/
theorem bounds (h : Divides runs records) (hrun : run ∈ runs) :
    1 ≤ run.low ∧ run.high ≤ records.length := by
  obtain ⟨_, hlow, -⟩ := h.owned hrun run.low_mem
  have hlast : run.high ∈ run := ⟨run.low_le_high, Nat.le_refl _⟩
  obtain ⟨_, hhigh, -⟩ := h.owned hrun hlast
  exact ⟨(line_bounds hlow).1, (line_bounds hhigh).2⟩

/-- Runs are apart and in order. -/
theorem descending (h : Divides runs records) :
    runs.Pairwise fun later earlier => earlier.high < later.low := by
  have hchain : runs.IsChain fun later earlier => earlier.high < later.low :=
    h.maximal.imp fun later earlier hnext => Nat.lt_of_succ_le (Nat.le_of_eq hnext.1)
  -- from neighbours to all pairs, as a run does not end before it begins
  have : Trans (fun later earlier : Interval => earlier.high < later.low)
      (fun later earlier : Interval => earlier.high < later.low)
      (fun later earlier : Interval => earlier.high < later.low) :=
    ⟨fun {_ b _} hab hbc => by have := b.low_le_high; omega⟩
  exact List.isChain_iff_pairwise.1 hchain

/-- A run so far keeps its lines when a record is added. -/
theorem owned_concat (h : Divides runs records) (hrun : run ∈ runs) {line : Nat} (hline : line ∈ run)
    (record : TraceRecord) :
    ∃ found, record? (records ++ [record]) line = some found ∧ found.pid = run.pid := by
  obtain ⟨found, hfound, howner⟩ := h.owned hrun hline
  exact ⟨found, record?_concat_of_some hfound, howner⟩

theorem starts_concat (h : Divides runs records) (hrun : run ∈ runs) {record found : TraceRecord}
    (hfound : record? (records ++ [record]) run.low = some found) : run.offset = found.offset := by
  have := h.bounds hrun
  have := run.low_le_high
  exact h.starts hrun (record?_of_concat hfound (by omega))

/-- The first record makes the first run. -/
theorem first (record : TraceRecord) : Divides (addRecord [] record) [record] where
  owned {run line} hrun hline := by
    cases List.mem_singleton.1 hrun
    obtain rfl : line = 1 := Nat.le_antisymm hline.2 hline.1
    exact ⟨record, rfl, rfl⟩
  starts hrun hlow := by
    cases List.mem_singleton.1 hrun
    cases hlow
    rfl
  covered hfound := ⟨_, List.mem_singleton.2 rfl, Interval.mem_iff.2 (line_bounds hfound)⟩
  latest := by
    rintro _ ⟨⟩
    rfl
  maximal := List.isChain_singleton _

/-- A record of the same process makes the latest run longer. That run was the last one and still is, and
all others are as they were. -/
theorem longer {earlier : List Interval} {record : TraceRecord}
    (h : Divides (run :: earlier) records) (hpid : run.pid = record.pid) :
    Divides (addRecord (run :: earlier) record) (records ++ [record]) := by
  have hend : run.high = records.length := h.latest rfl
  have hlow := run.low_le_high
  rw [addRecord, if_pos hpid]
  refine ⟨fun {other line} hother hline => ?_, fun {other found} hother hfound => ?_,
    fun {line found} hfound => ?_, ?_, ?_⟩
  · rcases List.mem_cons.1 hother with rfl | hother
    · by_cases hnew : line = records.length + 1
      · exact ⟨record, record?_concat.trans (if_pos hnew), hpid.symm⟩
      -- any line but the new one was in the run before
      · have hin : line ∈ run := by
          rw [Interval.mem_iff] at hline ⊢
          simp only at hline
          omega
        exact h.owned_concat List.mem_cons_self hin record
    · exact h.owned_concat (List.mem_cons_of_mem _ hother) hline record
  · rcases List.mem_cons.1 hother with rfl | hother
    -- the run was there, and starts where it did
    · have hmem : run ∈ run :: earlier := List.mem_cons_self
      have hfound : record? (records ++ [record]) run.low = some found := hfound
      exact (h.starts_concat hmem hfound :)
    · exact h.starts_concat (List.mem_cons_of_mem _ hother) hfound
  · -- the new line is the last one of the run, and an older one is where it was
    by_cases hnew : line = records.length + 1
    · refine ⟨_, List.mem_cons_self, Interval.mem_iff.2 ?_⟩
      simp only
      omega
    · obtain ⟨other, hother, hin⟩ := h.covered (record?_of_concat hfound hnew)
      rcases List.mem_cons.1 hother with rfl | hother
      · refine ⟨_, List.mem_cons_self, ?_⟩
        rw [Interval.mem_iff] at hin ⊢
        simp only
        omega
      · exact ⟨other, List.mem_cons_of_mem _ hother, hin⟩
  · rintro _ ⟨⟩
    rw [List.length_append, List.length_singleton, ← hend]
  · -- the run before the latest one ends where it did
    cases earlier with
    | nil => exact List.isChain_singleton _
    | cons before earlier =>
      obtain ⟨hnext, hrest⟩ := List.isChain_cons_cons.1 h.maximal
      exact List.isChain_cons_cons.2 ⟨hnext, hrest⟩

/-- A record of another process begins a run, which has its line and no other. The run before it
has ended, as it is followed by a line of another process. -/
theorem another {earlier : List Interval} {record : TraceRecord}
    (h : Divides (run :: earlier) records) (hpid : run.pid ≠ record.pid) :
    Divides (addRecord (run :: earlier) record) (records ++ [record]) := by
  have hend : run.high = records.length := h.latest rfl
  rw [addRecord, if_neg hpid]
  refine ⟨fun {other line} hother hline => ?_, fun {other found} hother hfound => ?_,
    fun {line found} hfound => ?_, ?_, List.isChain_cons_cons.2 ⟨⟨rfl, hpid⟩, h.maximal⟩⟩
  · rcases List.mem_cons.1 hother with rfl | hother
    -- the new run has one line
    · obtain rfl : line = run.high + 1 := Nat.le_antisymm hline.2 hline.1
      exact ⟨record, record?_concat.trans (if_pos (by rw [hend])), rfl⟩
    · exact h.owned_concat hother hline record
  · rcases List.mem_cons.1 hother with rfl | hother
    · rw [record?_concat, if_pos (by simp only [hend])] at hfound
      cases hfound
      rfl
    · exact h.starts_concat hother hfound
  · -- the new line is in the new run
    by_cases hnew : line = records.length + 1
    · refine ⟨_, List.mem_cons_self, Interval.mem_iff.2 ?_⟩
      simp only
      omega
    · obtain ⟨other, hother, hin⟩ := h.covered (record?_of_concat hfound hnew)
      exact ⟨other, List.mem_cons_of_mem _ hother, hin⟩
  · rintro _ ⟨⟩
    rw [List.length_append, List.length_singleton, ← hend]

/-- **One more record.** Cutting goes on with a line more of the latest run, or with a new run.
Whatever comes, the runs up to there divide the records up to there. -/
theorem addRecord_concat (h : Divides runs records) (record : TraceRecord) :
    Divides (addRecord runs record) (records ++ [record]) := by
  cases runs with
  | nil =>
    cases records with
    | nil => exact first record
    | cons start rest =>
      -- without runs there are no records so far
      have hstart : record? (start :: rest) 1 = some start := rfl
      obtain ⟨_, hmem, -⟩ := h.covered hstart
      cases hmem
  | cons run earlier =>
    by_cases hpid : run.pid = record.pid
    · exact h.longer hpid
    · exact h.another hpid

end Divides

/-- The runs of a trace divide it, by induction on its records, the last one last. -/
theorem divides_runs (records : List TraceRecord) : Divides (runs records).reverse records := by
  rw [runs, List.reverse_reverse]
  induction records using List.reverseRecOn with
  | nil => exact .nil
  | append_singleton records record ih =>
    rw [List.foldl_append, List.foldl_cons, List.foldl_nil]
    exact ih.addRecord_concat record

/-! ### Recording the runs -/

/-- Recording a list of disjoint intervals one by one makes an index with just these besides the ones it
had. No attempt is refused, since what was recorded before is in the way of none of them. -/
theorem foldlM_addRun {runs : List Interval} {index : IntervalIndex} (h : index.Ordered)
    (hapart : runs.Pairwise fun a b => b.meets a = false)
    (hfree : ∀ j ∈ index, ∀ run ∈ runs, j.meets run = false) :
    ∃ index', runs.foldlM addRun index = .ok index' ∧ index'.Ordered ∧
      ∀ j, j ∈ index' ↔ j ∈ runs ∨ j ∈ index := by
  induction runs generalizing index with
  | nil => exact ⟨index, rfl, h, fun j => by simp⟩
  | cons run rest ih =>
    obtain ⟨hrun, hrest⟩ := List.pairwise_cons.1 hapart
    obtain ⟨index₁, hinsert, hordered, hmem⟩ :=
      IntervalIndex.insert_eq_ok h fun j hj _ => hfree j hj run List.mem_cons_self
    have hstep : addRun index run = .ok index₁ := by
      rw [addRun, hinsert]
      rfl
    -- the runs to come meet neither this one nor those before
    have hfree₁ : ∀ j ∈ index₁, ∀ other ∈ rest, j.meets other = false := by
      intro j hj other hother
      rcases (hmem j).1 hj with rfl | hj
      · rw [Interval.meets_comm]
        exact hrun other hother
      · exact hfree j hj other (List.mem_cons_of_mem _ hother)
    obtain ⟨index', hfold, hordered', hmem'⟩ := ih hordered hrest hfree₁
    refine ⟨index', ?_, hordered', fun j => ?_⟩
    · rw [List.foldlM_cons, hstep]
      exact hfold
    · rw [hmem', hmem, List.mem_cons]
      tauto

/-- The runs of a trace can all be recorded, and make up the index. -/
theorem foldlM_addRun_runs (records : List TraceRecord) :
    ∃ index, (runs records).foldlM addRun ∅ = .ok index ∧ index.Ordered ∧
      ∀ j, j ∈ index ↔ j ∈ runs records := by
  have hapart : (runs records).Pairwise fun a b => b.meets a = false := by
    rw [← List.pairwise_reverse]
    -- two runs are apart, as the later one begins above the end of the earlier one
    refine (divides_runs records).descending.imp fun {later earlier} hlt => ?_
    rw [Interval.meets, Bool.and_eq_false_iff, decide_eq_false_iff_not]
    omega
  obtain ⟨index, hfold, hordered, hmem⟩ := foldlM_addRun IntervalIndex.ordered_empty hapart
    fun j hj => absurd hj IntervalIndex.not_mem_empty
  refine ⟨index, hfold, hordered, fun j => ?_⟩
  rw [hmem, or_iff_left IntervalIndex.not_mem_empty]

end DemandPaging.Survey
