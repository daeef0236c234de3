import DemandPaging.Proofs.Retention

/-!
# First in, first out

Under the policy that evicts what came in first, the pages of a process that has the memory to itself
can be told from its misses alone: in memory are the pages of the last `k` misses, where `k` is the
number of frames, and the list of the policy has them in the order of the misses (`Retention.fifo`). A
hit leaves the list as it is. So a reference is a hit if its page was missed before, and fewer than `k`
misses came since the last one of them (`fifo_windows`).

Which references were misses depends on the list, and the list on which of them were misses. The two
are therefore kept together: a page that comes in is a miss more at the end of the list, and the
first one of the list has left if there are `k` others (`rtake_concat`); and what the list has when a
reference is executed are the last misses before it.
-/

namespace DemandPaging

/-! ### The last elements of a list -/

section
variable {α β : Type} {l : List α} {x : β} {y : α} {k : Nat} {select : α → Option β}

/-- One element more: if there are so many, the first of the last ones is left behind. -/
theorem rtake_concat (l : List α) (y : α) (hpos : 0 < k) :
    (l ++ [y]).rtake k =
      (if (l.rtake k).length < k then l.rtake k else (l.rtake k).tail) ++ [y] := by
  obtain ⟨more, rfl⟩ : ∃ more, k = more + 1 := Nat.exists_eq_succ_of_ne_zero (Nat.pos_iff_ne_zero.1 hpos)
  have hlen : (l.rtake (more + 1)).length = l.length - (l.length - (more + 1)) := List.length_drop
  rw [List.rtake_concat_succ]
  apply congrArg (· ++ [y])
  -- as they are fewer than that, none is left behind
  split
  · next hshort =>
    rw [List.rtake, List.rtake, show l.length - more = 0 by omega,
      show l.length - (more + 1) = 0 by omega]
  · -- there are as many as that, so the first of them is left behind
    next hlong =>
    rw [List.rtake, List.rtake, List.tail_drop, show l.length - (more + 1) + 1 = l.length - more by omega]

/-- Of the values that are selected from a list, those among the last `k` are selected at some place
with fewer than `k` selected after it. -/
theorem mem_rtake_filterMap_iff : x ∈ (l.filterMap select).rtake k ↔
    ∃ before y after, l = before ++ y :: after ∧ select y = some x ∧
      (∀ z ∈ after, select z ≠ some x) ∧ (after.filterMap select).length < k := by
  constructor
  · -- the last place at which it is selected is the one to look at
    intro hmem
    obtain ⟨front, back, hsplit, hnew⟩ := exists_last_occurrence (List.mem_of_mem_drop hmem)
    rw [hsplit, mem_rtake_split_iff hnew] at hmem
    obtain ⟨l₁, l₂, rfl, -, hback⟩ := List.filterMap_eq_append_iff.1 hsplit
    obtain ⟨skipped, y, after, rfl, -, hy, rfl⟩ := List.filterMap_eq_cons_iff.1 hback
    refine ⟨l₁ ++ skipped, y, after, (List.append_assoc ..).symm, hy, ?_, hmem⟩
    intro z hz hselect
    exact hnew (List.mem_filterMap.2 ⟨z, hz, hselect⟩)
  · -- after that place the value is not selected again, so it counts from there
    rintro ⟨before, y, after, rfl, hy, hlast, hfew⟩
    have hnew : x ∉ after.filterMap select := by
      intro hmem
      obtain ⟨z, hz, hselect⟩ := List.mem_filterMap.1 hmem
      exact hlast z hz hselect
    rw [List.filterMap_append, List.filterMap_cons_some hy, mem_rtake_split_iff hnew]
    exact hfew

end

/-! ### Moves -/

/-- The page of a reference that was a miss. Under first in, first out only these are heard of.
-/
def Reference.missed? (r : Reference) : Option PageRef := if r.hit then none else some r.page

theorem Reference.missed?_eq_some_iff {r : Reference} {ref : PageRef} :
    r.missed? = some ref ↔ r.hit = false ∧ r.page = ref := by
  rw [missed?]
  cases r.hit with
  | false => rw [if_neg Bool.false_ne_true, Option.some.injEq, eq_self, true_and]
  | true => simp only [if_true, reduceCtorEq, false_and]

/-- The misses are as many as the references that are not hits. -/
theorem Reference.length_missed (references : List Reference) :
    (references.filterMap missed?).length = (references.map (·.hit)).count false := by
  induction references with
  | nil => rfl
  | cons r rest ih =>
    rw [List.map_cons, List.count_cons, ← ih]
    cases hhit : r.hit with
    | false =>
      rw [List.filterMap_cons_some (missed?_eq_some_iff.2 ⟨hhit, rfl⟩)]
      rfl
    | true =>
      have hnone : r.missed? = none := if_pos hhit
      rw [List.filterMap_cons_none hnone]
      rfl

/-- **The rule.** The policy hears of the misses only, and keeps the last `k` of them. -/
def Retention.fifo {k : Nat} (hpos : 0 < k) : Retention .fifo k where
  heard? := Reference.missed?
  kept misses := misses.rtake k
  heard_of_miss hmiss := Reference.missed?_eq_some_iff.2 ⟨hmiss, rfl⟩
  kept_nil := List.rtake_nil ..
  kept_concat _ := rtake_concat _ _ hpos
  kept_of_hit {misses r} hhit _ := by
    have hnone : r.missed? = none := if_pos hhit
    rw [hnone, Option.toList_none, List.append_nil, if_neg PolicyKind.noConfusion]

/-! ### Records -/

/-- Whether the page number at a place is retained when `hits` tells which places are hits: it was missed
at an earlier place, and fewer than `k` places between the last such one and this one are misses. -/
def Retained (k : Nat) (vpns : List Vpn) (hits : List Bool) (i : Nat) : Prop :=
  ∃ j < i, (vpns[j]? = vpns[i]? ∧ hits[j]? = some false) ∧
    (∀ l < i, j < l → ¬(vpns[l]? = vpns[i]? ∧ hits[l]? = some false)) ∧
    ((hits.take i).drop (j + 1)).count false < k

instance (k : Nat) (vpns : List Vpn) (hits : List Bool) (i : Nat) : Decidable (Retained k vpns hits i) :=
  inferInstanceAs (Decidable (∃ j < i, _ ∧ (∀ l < i, _) ∧ _))

section
variable {references : List Reference} {vpns : List Vpn} {own : Pid} {r : Reference} {k i : Nat}

/-- A page is retained if it is one of the last `k` that were missed. -/
theorem retained_iff
    (hvpns : ∀ {j : Nat} {r : Reference}, references[j]? = some r → vpns[j]? = some r.page.vpn)
    (hown : ∀ r ∈ references, r.page.pid = own) (hr : references[i]? = some r) :
    Retained k vpns (references.map (·.hit)) i ↔
      r.page ∈ ((references.take i).filterMap Reference.missed?).rtake k := by
  have hlen : i < references.length := (List.getElem?_eq_some_iff.1 hr).1
  -- at an earlier place, the two lists tell of a miss of the page
  have hplace : ∀ j < i, ∃ s, (references.take i)[j]? = some s ∧
      ((vpns[j]? = vpns[i]? ∧ (references.map (·.hit))[j]? = some false) ↔
        s.missed? = some r.page) := by
    intro j hj
    have hs := List.getElem?_eq_getElem (Nat.lt_trans hj hlen)
    refine ⟨references[j], by rw [List.getElem?_take, if_pos hj, hs], ?_⟩
    have hpid := hown _ (List.mem_of_getElem? hs)
    have hpid' := hown _ (List.mem_of_getElem? hr)
    rw [hvpns hs, hvpns hr, List.getElem?_map, hs, Option.map_some, Option.some.injEq,
      Option.some.injEq, Reference.missed?_eq_some_iff, and_comm]
    refine and_congr_right fun _ => ⟨fun hvpn => ?_, congrArg PageRef.vpn⟩
    calc references[j].page
        = ⟨own, references[j].page.vpn⟩ := by rw [← hpid]
      _ = ⟨own, r.page.vpn⟩ := by rw [hvpn]
      _ = r.page := by rw [← hpid']
  rw [mem_rtake_filterMap_iff]
  -- from the place of the last miss to the references before and after it
  constructor
  · rintro ⟨j, hj, hmiss, hlast, hfew⟩
    obtain ⟨s, hs, hiff⟩ := hplace j hj
    obtain ⟨hjlt, rfl⟩ := List.getElem?_eq_some_iff.1 hs
    refine ⟨(references.take i).take j, _, (references.take i).drop (j + 1), ?_, hiff.1 hmiss, ?_, ?_⟩
    · rw [← List.drop_eq_getElem_cons hjlt, List.take_append_drop]
    -- a later miss of the page would be nearer
    · intro z hz hmissed
      obtain ⟨n, hn⟩ := List.mem_iff_getElem?.1 hz
      rw [List.getElem?_drop] at hn
      have hlt : j + 1 + n < i :=
        Nat.lt_of_lt_of_le (List.getElem?_eq_some_iff.1 hn).1 (List.length_take_le ..)
      obtain ⟨z', hz', hiff'⟩ := hplace _ hlt
      cases hn.symm.trans hz'
      exact hlast _ hlt (by omega) (hiff'.2 hmissed)
    · rw [Reference.length_missed, List.map_drop, List.map_take]
      exact hfew
  · -- the references before the miss say at which place it is
    rintro ⟨before, s, after, hsplit, hmissed, hlast, hfew⟩
    have hcount := congrArg List.length hsplit
    rw [List.length_take, List.length_append, List.length_cons] at hcount
    have hj : before.length < i := by omega
    refine ⟨before.length, hj, ?_, ?_, ?_⟩
    · obtain ⟨s', hs', hiff⟩ := hplace _ hj
      rw [hsplit, List.getElem?_append_right (Nat.le_refl _), Nat.sub_self] at hs'
      cases hs'
      exact hiff.2 hmissed
    · intro l hl hlater hmiss
      obtain ⟨z, hz, hiff⟩ := hplace l hl
      rw [hsplit, List.getElem?_append_right (Nat.le_of_lt hlater), List.getElem?_cons,
        if_neg (by omega)] at hz
      exact hlast z (List.mem_of_getElem? hz) (hiff.1 hmiss)
    · -- the misses after it are those between the two places
      rwa [Reference.length_missed, show after = (references.take i).drop (before.length + 1) by
        rw [hsplit, List.drop_append, List.drop_eq_nil_of_le (by omega), List.nil_append,
          show before.length + 1 - before.length = 1 by omega, List.drop_succ_cons, List.drop_zero],
        List.map_drop, List.map_take] at hfew

end

namespace Machine

variable {m : Machine} {own : Pid} {records : List TraceRecord} {k i : Nat} {r : Reference}

/-- The references so far are those of the first records, and each of them is a hit if its page
number is retained. Which of the earlier ones were hits is taken from the references themselves,
place by place. -/
def HitsRetained (k : Nat) (records : List TraceRecord) (m : Machine) : Prop :=
  ∀ i r, m.references[i]? = some r → r.line = i + 1 ∧ (records[i]?).map (·.page) = some r.page ∧
    (r.hit = true ↔ Retained k (records.map (·.page.vpn)) (m.references.map (·.hit)) i)

/-- What the rule says of the pages of one process says the same of their numbers. Which of the places
before are misses is told by the references themselves. -/
theorem Retains.hitsRetained {hpos : 0 < k} (h : m.Retains (.fifo hpos))
    (hexecuted : m.executed <+: Survey.references records)
    (hsingle : ∀ record ∈ records, record.pid = own) : m.HitsRetained k records := by
  intro i r hr
  obtain ⟨record, hrecord, hline, hpage⟩ := record_of_reference hexecuted hr
  refine ⟨hline, by rw [hrecord, hpage]; rfl, ?_⟩
  have hvpns : ∀ {j : Nat} {r : Reference}, m.references[j]? = some r →
      (records.map (·.page.vpn))[j]? = some r.page.vpn := by
    intro j r hr
    obtain ⟨record, hrecord, -, hpage⟩ := record_of_reference hexecuted hr
    rw [List.getElem?_map, hrecord, hpage]
    rfl
  -- all pages are of one process, so a page is told by its number
  have hown : ∀ r ∈ m.references, r.page.pid = own := by
    intro r hmem
    obtain ⟨j, hr⟩ := List.mem_iff_getElem?.1 hmem
    obtain ⟨record, hrecord, -, hpage⟩ := record_of_reference hexecuted hr
    rw [hpage]
    exact hsingle record (List.mem_of_getElem? hrecord)
  rw [h.judged (take_concat_isPrefix hr), retained_iff hvpns hown hr]
  rfl

end Machine

namespace Simulator

variable {own : Pid}

/-- **First in, first out.** On a trace of one process under the policy that evicts what came in first,
the references are those of the records, one after the other, and each of them is a hit if its page
number is retained: if an earlier record with the same one was a miss, and fewer than `k` misses are
between the last such record and this one, where `k` is the number of frames. A run that the clock can
count executes all of them. -/
theorem fifo_windows {config : ValidConfig} {reader after : TraceReader} {stats : Stats}
    {survey : Survey} {records : List TraceRecord}
    (hreach : reader.medium.bytes.size ≤ reader.medium.maxOffset) (hfresh : stats.totals = {})
    (hsurvey : reader.survey config.queueOrder = .ok (.ok survey, after))
    (hrecords : reader.rewind.2.records.1 = .ok records)
    (hsingle : ∀ record ∈ records, record.pid = own) (hfifo : config.policy = .fifo) :
    ∃ s, start config reader stats = .ok (.ok s) ∧
      (∀ {n t}, s.Reaches n t → t.machine.HitsRetained config.totalFrames records) ∧
      (s.run ≠ .error .overflow → ∃ report t, s.run = .ok (.ok report, t) ∧
        t.machine.references.length = records.length ∧
        t.machine.HitsRetained config.totalFrames records ∧
        report.hits = t.machine.references.countP (·.hit) ∧
        report.misses = t.machine.references.countP (!·.hit)) := by
  obtain ⟨s, chart, hstart, rfl, hsound, hrecords', -⟩ := start_eq_ok hreach hfresh hsurvey
  cases hrecords.symm.trans hrecords'
  have hsfresh := fresh_of_start hreach hfresh hsurvey hstart
  have hretained : ∀ {n t}, s.Reaches n t →
      t.machine.HitsRetained s.config.totalFrames chart.records := by
    intro n t hreaches
    obtain ⟨hsound', -⟩ := hsound.of_reaches hreaches
    have hretains := hsound.retains_of_reaches hsfresh hsingle hfifo (.inr rfl)
      (.fifo s.config.totalFrames_pos) hreaches
    exact hretains.hitsRetained (hsound'.replays.executed_prefix_of_single hsingle) hsingle
  refine ⟨s, hstart, hretained, fun hclock => ?_⟩
  -- what the run returns has the references of what it has come to, one for each record
  obtain ⟨n, t, report, u, hreaches, hrun, hsame, hlength, hhits, hmisses⟩ :=
    hsound.exists_completed hclock
  refine ⟨report, u, hrun, ?_⟩
  rw [Machine.HitsRetained, hsame]
  exact ⟨hlength, hretained hreaches, hhits, hmisses⟩

/-- A trace in which one process uses page 7 before and after it was evicted for page 9. -/
def reloads : TraceReader :=
  .ofBytes ⟨#[49, 32, 55, 10, 49, 32, 56, 10, 49, 32, 55, 10, 49, 32, 57, 10, 49, 32, 55, 10]⟩

/-- A memory of two frames under first in, first out. -/
def queued : ValidConfig where
  memoryBytes := 2
  pageSize := 1
  policy := .fifo
  queueOrder := .tracePosition
  clockTick := 2
  diskPenalty := 6
  valid := by decide

theorem fifo_windows_of_reloads : ∃ survey after records,
    reloads.survey queued.queueOrder = .ok (.ok survey, after) ∧
      reloads.rewind.2.records.1 = .ok records ∧ (∀ record ∈ records, record.pid = 1) ∧
      ∃ s, start queued reloads { totalFrames := 2 } = .ok (.ok s) ∧
        (∀ {n t}, s.Reaches n t → t.machine.HitsRetained 2 records) ∧
        ∃ report t, s.run = .ok (.ok report, t) ∧
          t.machine.references.length = records.length ∧ t.machine.HitsRetained 2 records ∧
          report.hits = t.machine.references.countP (·.hit) ∧
          report.misses = t.machine.references.countP (!·.hit) := by
  obtain ⟨survey, after, hsurvey, hbudget⟩ := exists_survey reloads queued.queueOrder
    (fun survey => survey.records * (queued.clockTick + queued.diskPenalty) < 2 ^ 64) (by decide +kernel)
  obtain ⟨records, hrecords, hsingle⟩ := exists_single_records reloads 1 (by decide +kernel)
  obtain ⟨s, hstart, hreaches, hrun⟩ := @fifo_windows 1 queued reloads after { totalFrames := 2 }
    survey records (by decide) rfl hsurvey hrecords hsingle rfl
  exact ⟨survey, after, records, hsurvey, hrecords, hsingle, s, hstart, hreaches,
    hrun (run_ne_overflow (by decide) rfl hsurvey (of_decide_eq_true hbudget) hstart)⟩

end Simulator

end DemandPaging
