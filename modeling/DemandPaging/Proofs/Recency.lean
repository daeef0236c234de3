import DemandPaging.Proofs.Retention
import Mathlib.Data.List.Dedup

/-!
# Least recently used

Under the policy that evicts what was unused for longest, the pages of a process that has the memory to
itself can be told from its references alone: in memory are the pages of the last `k` distinct ones,
where `k` is the number of frames, and the list of the policy has them in the order of their last use
(`Retention.lru`). So a reference is a hit if fewer than `k` other pages were used since the last
reference to its page, and a miss otherwise (`lru_recalls`).

That the last distinct pages follow the rule of the policy is a fact about lists. A page that is used comes
to the end of them (`dedup_concat`). If it is one of the last `k` it only changes its place
(`rtake_erase_of_mem`); if it is not, the first of them is left behind, as soon as there are `k`
(`rtake_erase_of_not_mem`).
-/

namespace DemandPaging

/-! ### The last distinct elements of a list -/

section
variable {α : Type} [DecidableEq α] {l before after : List α} {x : α} {k : Nat}

/-- The last of a list is the last one of its distinct elements. If it was there before, that place is
given up for the end. -/
theorem dedup_concat (l : List α) (x : α) : (l ++ [x]).dedup = l.dedup.erase x ++ [x] := by
  induction l with
  | nil => rfl
  | cons y rest ih =>
    by_cases hmem : y ∈ rest
    · rw [List.cons_append, List.dedup_cons_of_mem (List.mem_append_left _ hmem),
        List.dedup_cons_of_mem hmem, ih]
    · rw [List.dedup_cons_of_notMem hmem, List.cons_append]
      by_cases heq : y = x
      · subst heq
        have hnew : y ∉ rest.dedup := List.mem_dedup.not.2 hmem
        rw [List.dedup_cons_of_mem (List.mem_append_right _ List.mem_cons_self), ih,
          List.erase_of_not_mem hnew, List.erase_cons_head]
      · have hnew : y ∉ rest ++ [x] := by
          rw [List.mem_append, List.mem_singleton, not_or]
          exact ⟨hmem, heq⟩
        rw [List.dedup_cons_of_notMem hnew, ih, List.erase_cons_tail (by simpa using heq),
          List.cons_append]

/-- One of the last `k + 1` elements that comes to the end. The elements before these are not touched, so
the others of these are the last ones still. -/
theorem rtake_erase_of_mem (hnodup : l.Nodup) (hmem : x ∈ l.rtake (k + 1)) :
    (l.erase x).rtake k = (l.rtake (k + 1)).erase x := by
  have hlen := List.length_pos_of_mem (List.mem_of_mem_drop hmem)
  have hsplit := List.take_append_drop (l.length - (k + 1)) l
  -- with no element twice, it is not further up as well
  have hnew : x ∉ l.take (l.length - (k + 1)) := fun hin =>
    (List.nodup_append.1 (hsplit.symm ▸ hnodup)).2.2 x hin x hmem rfl
  have herase : l.erase x =
      l.take (l.length - (k + 1)) ++ (l.drop (l.length - (k + 1))).erase x := by
    rw [← List.erase_append_right _ hnew, hsplit]
  have hcount : (l.erase x).length - k = (l.take (l.length - (k + 1))).length := by
    rw [List.length_erase_of_mem (List.mem_of_mem_drop hmem), List.length_take]
    omega
  rw [List.rtake, hcount, herase, List.drop_left]
  rfl

/-- One that is not among them: if there are so many, the first of them is left behind. It does not
matter whether it is anywhere else in the list. -/
theorem rtake_erase_of_not_mem (hmem : x ∉ l.rtake (k + 1)) :
    (l.erase x).rtake k =
      if (l.rtake (k + 1)).length ≤ k then l.rtake (k + 1) else (l.rtake (k + 1)).tail := by
  have hlen : (l.rtake (k + 1)).length = l.length - (l.length - (k + 1)) := List.length_drop
  split
  · next hshort =>
    -- all of the list is among the last elements
    have hall : l.rtake (k + 1) = l := by
      rw [List.rtake, show l.length - (k + 1) = 0 by omega, List.drop_zero]
    rw [hall] at hmem ⊢
    rw [List.erase_of_not_mem hmem, List.rtake, show l.length - k = 0 by omega, List.drop_zero]
  · next hlong =>
    rw [List.rtake, List.rtake, List.tail_drop]
    by_cases hin : x ∈ l
    · -- it is further up, so what is taken out is before the last ones
      have hsplit := List.take_append_drop (l.length - (k + 1)) l
      have hfront : x ∈ l.take (l.length - (k + 1)) := by
        rw [← hsplit, List.mem_append] at hin
        exact hin.resolve_right hmem
      have hpos := List.length_pos_of_mem hfront
      have herase : l.erase x = (l.take (l.length - (k + 1))).erase x ++ l.drop (l.length - (k + 1)) := by
        rw [← List.erase_append_left _ hfront, hsplit]
      have hcount : (l.erase x).length - k = ((l.take (l.length - (k + 1))).erase x).length + 1 := by
        rw [List.length_erase_of_mem hin, List.length_erase_of_mem hfront, List.length_take] at *
        omega
      rw [hcount, herase, List.drop_length_add_append, List.drop_drop]
    · -- it is new
      rw [List.erase_of_not_mem hin, show l.length - (k + 1) + 1 = l.length - k by omega]

/-- An element is among the last distinct ones if there are few others after it. -/
theorem mem_rtake_dedup_split_iff (hnew : x ∉ after) :
    x ∈ (before ++ x :: after).dedup.rtake k ↔ after.dedup.length < k := by
  -- what comes after it is all that is after it when there is one of each
  obtain ⟨front, hfront⟩ : x :: after.dedup <:+ (before ++ x :: after).dedup := by
    rw [List.dedup_append, ← List.dedup_cons_of_notMem hnew]
    exact List.suffix_union_right _ _
  rw [← hfront, mem_rtake_split_iff (List.mem_dedup.not.2 hnew)]

/-- **Recency.** The last `k` distinct elements are those with fewer than `k` others after them, counted
from the last place at which they stand. -/
theorem mem_rtake_dedup_iff : x ∈ l.dedup.rtake k ↔
    ∃ before after, l = before ++ x :: after ∧ x ∉ after ∧ after.dedup.length < k := by
  constructor
  · intro hmem
    obtain ⟨before, after, rfl, hnew⟩ :=
      exists_last_occurrence (List.mem_dedup.1 (List.mem_of_mem_drop hmem))
    exact ⟨before, after, rfl, hnew, (mem_rtake_dedup_split_iff hnew).1 hmem⟩
  · rintro ⟨before, after, rfl, hnew, hlt⟩
    exact (mem_rtake_dedup_split_iff hnew).2 hlt
end

/-- **The rule.** The policy hears of every use, and keeps the last `k` distinct pages. -/
def Retention.lru {k : Nat} (hpos : 0 < k) : Retention .lru k where
  heard? := some ∘ Reference.page
  kept uses := uses.dedup.rtake k
  heard_of_miss _ := rfl
  kept_nil := by rw [List.dedup_nil, List.rtake_nil]
  kept_concat {uses ref} hnew := by
    obtain ⟨more, rfl⟩ : ∃ more, k = more + 1 := Nat.exists_eq_succ_of_ne_zero hpos.ne'
    rw [dedup_concat, List.rtake_concat_succ, rtake_erase_of_not_mem hnew]
    simp only [Nat.lt_succ_iff]
  kept_of_hit {uses r} _ hmem := by
    obtain ⟨more, rfl⟩ : ∃ more, k = more + 1 := Nat.exists_eq_succ_of_ne_zero hpos.ne'
    rw [if_pos rfl, Function.comp_apply, Option.toList_some, dedup_concat, List.rtake_concat_succ,
      rtake_erase_of_mem (List.nodup_dedup _) hmem]

/-! ### Records -/

/-- Whether the page number at a place was used lately: it is found before, and fewer than `k` other
page numbers are between the last such place and this one. -/
def Recalled (k : Nat) (vpns : List Vpn) (i : Nat) : Prop :=
  ∃ j < i, vpns[j]? = vpns[i]? ∧ (∀ l < i, j < l → vpns[l]? ≠ vpns[i]?) ∧
    ((vpns.take i).drop (j + 1)).dedup.length < k

instance (k : Nat) (vpns : List Vpn) (i : Nat) : Decidable (Recalled k vpns i) :=
  inferInstanceAs (Decidable (∃ j < i, _ ∧ (∀ l < i, _) ∧ _))

theorem recalled_iff {k i : Nat} {vpns : List Vpn} {vpn : Vpn} (h : vpns[i]? = some vpn) :
    Recalled k vpns i ↔ vpn ∈ (vpns.take i).dedup.rtake k := by
  rw [mem_rtake_dedup_iff, Recalled, h]
  constructor
  · -- from the place of the last use to the uses before and after it
    rintro ⟨j, hlt, hsame, hlast, hfew⟩
    obtain ⟨hj, hvpn⟩ := List.getElem?_eq_some_iff.1 hsame
    refine ⟨(vpns.take i).take j, (vpns.take i).drop (j + 1), ?_, fun hmem => ?_, hfew⟩
    · have hlen : j < (vpns.take i).length := by
        rw [List.length_take]
        omega
      have hhead : (vpns.take i)[j] = vpn := by rw [List.getElem_take, hvpn]
      rw [← hhead, ← List.drop_eq_getElem_cons hlen, List.take_append_drop]
    -- a later place with the number would be nearer
    · obtain ⟨l, hl⟩ := List.mem_iff_getElem?.1 hmem
      rw [List.getElem?_drop, List.getElem?_take] at hl
      split at hl
      · next hbefore => exact hlast _ hbefore (by omega) hl
      · cases hl
  · -- the uses before it say at which place it is
    rintro ⟨before, between, hsplit, hnew, hfew⟩
    have hlen := congrArg List.length hsplit
    rw [List.length_take, List.length_append, List.length_cons] at hlen
    have hplace : ∀ l < i, vpns[l]? = (before ++ vpn :: between)[l]? := by
      intro l hl
      rw [← hsplit, List.getElem?_take, if_pos hl]
    refine ⟨before.length, by omega, ?_, fun l hl hlater heq => ?_, ?_⟩
    · rw [hplace _ (by omega), List.getElem?_append_right (Nat.le_refl _), Nat.sub_self]
      rfl
    · rw [hplace l hl, List.getElem?_append_right (Nat.le_of_lt hlater),
        List.getElem?_cons, if_neg (by omega)] at heq
      exact hnew (List.mem_of_getElem? heq)
    · rwa [hsplit, List.drop_append, List.drop_eq_nil_of_le (by omega), List.nil_append,
        show before.length + 1 - before.length = 1 by omega, List.drop_succ_cons, List.drop_zero]

namespace Machine

variable {m : Machine} {own : Pid} {records : List TraceRecord} {k i : Nat} {r : Reference}

/-- The references so far are those of the first records, and each of them is a hit if its page
number was used lately. It says which references these are, since otherwise it would hold of a
run that executes none. -/
def HitsRecalled (k : Nat) (records : List TraceRecord) (m : Machine) : Prop :=
  ∀ i r, m.references[i]? = some r → r.line = i + 1 ∧ (records[i]?).map (·.page) = some r.page ∧
    (r.hit = true ↔ Recalled k (records.map (·.page.vpn)) i)

/-- The pages before a place are those of the records before it, which are all of one process.
So the page numbers alone tell the pages apart. -/
theorem pages_take_eq (hexecuted : m.executed <+: Survey.references records)
    (hsingle : ∀ record ∈ records, record.pid = own) (hlt : i < m.references.length) :
    (m.references.take i).map (·.page) =
      ((records.map (·.page.vpn)).take i).map (PageRef.mk own) := by
  refine List.ext_getElem? fun j => ?_
  rw [List.getElem?_map, List.getElem?_map, List.getElem?_take, List.getElem?_take, List.getElem?_map]
  split
  · next hj =>
    have hj' := Nat.lt_trans hj hlt
    obtain ⟨other, hother, -, hpage⟩ :=
      record_of_reference hexecuted (List.getElem?_eq_getElem hj')
    rw [List.getElem?_eq_getElem hj', hother, Option.map_some, Option.map_some, Option.map_some,
      hpage, ← hsingle other (List.mem_of_getElem? hother)]
    rfl
  -- neither list has anything at the place itself or after it
  · rfl

/-- What the rule says of the pages of one process says the same of their numbers, as the process is part
of each of them. -/
theorem Retains.hitsRecalled {hpos : 0 < k} (h : m.Retains (.lru hpos))
    (hexecuted : m.executed <+: Survey.references records)
    (hsingle : ∀ record ∈ records, record.pid = own) : m.HitsRecalled k records := by
  intro i r hr
  obtain ⟨record, hrecord, hline, hpage⟩ := record_of_reference hexecuted hr
  refine ⟨hline, by rw [hrecord, hpage]; rfl, ?_⟩
  -- the rule judged the reference by the pages before it
  have hkept : r.hit = true ↔ r.page ∈ ((m.references.take i).map (·.page)).dedup.rtake k := by
    rw [h.judged (take_concat_isPrefix hr), ← List.filterMap_eq_map]
    rfl
  have hvpn : (records.map (·.page.vpn))[i]? = some record.page.vpn := by
    rw [List.getElem?_map, hrecord]
    rfl
  have hinj : Function.Injective (PageRef.mk own) := fun _ _ heq => (PageRef.mk.inj heq).2
  have hown : record.page = PageRef.mk own record.page.vpn := by
    rw [← hsingle record (List.mem_of_getElem? hrecord)]
    rfl
  rw [hkept, pages_take_eq hexecuted hsingle (List.getElem?_eq_some_iff.1 hr).1, recalled_iff hvpn,
    List.dedup_map_of_injective hinj, hpage, hown, List.rtake, List.length_map, ← List.map_drop,
    List.mem_map_of_injective hinj]
  rfl

/-- If there is a reference for each record, the hits are the records whose page numbers were used
lately. -/
theorem HitsRecalled.countP_eq (h : m.HitsRecalled k records)
    (hlength : m.references.length = records.length) :
    m.references.countP (·.hit) =
      (List.range records.length).countP (Recalled k (records.map (·.page.vpn)) ·) := by
  have hjudged : m.references.map (·.hit) = (List.range records.length).map fun i =>
      decide (Recalled k (records.map (·.page.vpn)) i) := by
    refine List.ext_getElem (by rw [List.length_map, List.length_map, List.length_range, hlength]) ?_
    intro i hi _
    rw [List.length_map] at hi
    obtain ⟨-, -, hhit⟩ := h i _ (List.getElem?_eq_getElem hi)
    rw [List.getElem_map, List.getElem_map, List.getElem_range, Bool.eq_iff_iff, hhit,
      decide_eq_true_iff]
  have hcounts := congrArg (List.countP id) hjudged
  rwa [List.countP_map, List.countP_map] at hcounts

end Machine

namespace Simulator

variable {own : Pid}

/-- **Least recently used.** On a trace of one process under the policy that evicts what was unused for
longest, the references are those of the records, one after the other, and each of them is a hit if its
page number was used lately: if fewer than `k` others are between it and the last record with the same
one, where `k` is the number of frames. A run that the clock can count executes all of them, and counts
as many hits as there are such records. -/
theorem lru_recalls {config : ValidConfig} {reader after : TraceReader} {stats : Stats}
    {survey : Survey} {records : List TraceRecord}
    (hreach : reader.medium.bytes.size ≤ reader.medium.maxOffset) (hfresh : stats.totals = {})
    (hsurvey : reader.survey config.queueOrder = .ok (.ok survey, after))
    (hrecords : reader.rewind.2.records.1 = .ok records)
    (hsingle : ∀ record ∈ records, record.pid = own) (hlru : config.policy = .lru) :
    ∃ s, start config reader stats = .ok (.ok s) ∧
      (∀ {n t}, s.Reaches n t → t.machine.HitsRecalled config.totalFrames records) ∧
      (s.run ≠ .error .overflow → ∃ report t, s.run = .ok (.ok report, t) ∧
        t.machine.references.length = records.length ∧
        t.machine.HitsRecalled config.totalFrames records ∧
        report.hits = (List.range records.length).countP
          (Recalled config.totalFrames (records.map (·.page.vpn)) ·) ∧
        report.hits + report.misses = records.length) := by
  obtain ⟨s, chart, hstart, rfl, hsound, hrecords', -⟩ := start_eq_ok hreach hfresh hsurvey
  cases hrecords.symm.trans hrecords'
  have hsfresh := fresh_of_start hreach hfresh hsurvey hstart
  have hrecalled : ∀ {n t}, s.Reaches n t →
      t.machine.HitsRecalled s.config.totalFrames chart.records := by
    intro n t hreaches
    obtain ⟨hsound', -⟩ := hsound.of_reaches hreaches
    have hretains := hsound.retains_of_reaches hsfresh hsingle hlru (.inl rfl)
      (.lru s.config.totalFrames_pos) hreaches
    exact hretains.hitsRecalled (hsound'.replays.executed_prefix_of_single hsingle) hsingle
  refine ⟨s, hstart, hrecalled, fun hclock => ?_⟩
  -- what the run returns has the references of what it has come to, one for each record
  obtain ⟨n, t, report, u, hreaches, hrun, hsame, hlength, hhits, hmisses⟩ :=
    hsound.exists_completed hclock
  have hall := hrecalled hreaches
  refine ⟨report, u, hrun, ?_⟩
  rw [Machine.HitsRecalled, hsame, hhits, hmisses, hall.countP_eq hlength]
  refine ⟨hlength, hall, rfl, ?_⟩
  rw [← hall.countP_eq hlength, ← hlength, List.length_eq_countP_add_countP (·.hit)]
  simp only [Bool.not_eq_true, Bool.decide_eq_false]

/-- A trace in which one process uses page 7 again after page 8, and page 8 again after page 9. -/
def returns : TraceReader :=
  .ofBytes ⟨#[49, 32, 55, 10, 49, 32, 56, 10, 49, 32, 55, 10, 49, 32, 57, 10, 49, 32, 56, 10]⟩

/-- A memory of two frames under least recently used. -/
def paired : ValidConfig where
  memoryBytes := 2
  pageSize := 1
  policy := .lru
  clockTick := 2
  diskPenalty := 6
  valid := by decide

theorem lru_recalls_returns : ∃ survey after records,
    returns.survey paired.queueOrder = .ok (.ok survey, after) ∧
      returns.rewind.2.records.1 = .ok records ∧ (∀ record ∈ records, record.pid = 1) ∧
      ∃ s, start paired returns { totalFrames := 2 } = .ok (.ok s) ∧
        (∀ {n t}, s.Reaches n t → t.machine.HitsRecalled 2 records) ∧
        ∃ report t, s.run = .ok (.ok report, t) ∧
          t.machine.references.length = records.length ∧ t.machine.HitsRecalled 2 records ∧
          report.hits = (List.range records.length).countP
            (Recalled 2 (records.map (·.page.vpn)) ·) ∧
          report.hits + report.misses = records.length := by
  obtain ⟨survey, after, hsurvey, hbudget⟩ := exists_survey returns paired.queueOrder
    (fun survey => survey.records * (paired.clockTick + paired.diskPenalty) < 2 ^ 64) (by decide +kernel)
  obtain ⟨records, hrecords, hsingle⟩ := exists_single_records returns 1 (by decide +kernel)
  obtain ⟨s, hstart, hreaches, hrun⟩ := @lru_recalls 1 paired returns after { totalFrames := 2 }
    survey records (by decide) rfl hsurvey hrecords hsingle rfl
  exact ⟨survey, after, records, hsurvey, hrecords, hsingle, s, hstart, hreaches,
    hrun (run_ne_overflow (by decide) rfl hsurvey (of_decide_eq_true hbudget) hstart)⟩

end Simulator

end DemandPaging
