import DemandPaging.Interval.Index
import DemandPaging.Proofs.Neighbours

/-!
# The intervals of an index

An interval index stores its intervals under their first lines, process by process. What it means is
the set of its intervals: `i ∈ index` says that `i` is stored where it belongs. An index is `Ordered`
when nothing else is stored and no two intervals of a process meet, which is the state that `insert`
keeps (`insert_eq_ok`, `insert_eq_error`).

In an ordered index the neighbour queries have their intended answers: `find?` finds the interval of a
process that holds a line (`find?_eq_some_of_mem`), `next?` the first one past a given one, with none of
the process in between (`next?_eq_some`, `next?_eq_none`).
-/

namespace DemandPaging

theorem Interval.meets_comm (i j : Interval) : i.meets j = j.meets i := by
  rw [Interval.meets, Interval.meets, Bool.and_comm]

theorem Interval.low_mem (i : Interval) : i.low ∈ i :=
  Interval.mem_iff.2 ⟨Nat.le_refl _, i.low_le_high⟩

namespace IntervalIndex

variable {index : IntervalIndex} {i j : Interval} {pid : Pid} {line : Nat}

/-- Membership: the interval is stored among those of its process, under its first line. -/
instance : Membership Interval IntervalIndex where
  mem index i := (index.lines i.pid).byLow.get? i.low = some i

theorem mem_iff : i ∈ index ↔ (index.lines i.pid).byLow.get? i.low = some i := Iff.rfl

/-- Every stored interval stands in its place, and those of one process are disjoint. An index
that is built by `insert` from the empty one is always like this. -/
structure Ordered (index : IntervalIndex) : Prop where
  /-- What is stored of a process under a line is an interval of it that starts there. -/
  keyed : ∀ {pid k i}, (index.lines pid).byLow.get? k = some i → i.pid = pid ∧ i.low = k
  /-- Intervals of one process that meet are the same. -/
  apart : ∀ {i j}, i ∈ index → j ∈ index → i.pid = j.pid → i.meets j = true → i = j

theorem Ordered.mem_of_get? (h : index.Ordered) {k : Nat}
    (hget : (index.lines pid).byLow.get? k = some i) : i ∈ index ∧ i.pid = pid ∧ i.low = k := by
  obtain ⟨rfl, rfl⟩ := h.keyed hget
  exact ⟨hget, rfl, rfl⟩

theorem lines_empty : (∅ : IntervalIndex).lines pid = {} := rfl

theorem not_mem_empty : i ∉ (∅ : IntervalIndex) := fun h => by
  rw [mem_iff, lines_empty] at h
  cases h

theorem ordered_empty : (∅ : IntervalIndex).Ordered where
  keyed h := by rw [lines_empty] at h; cases h
  apart h := absurd h not_mem_empty

/-! ### Neighbours -/

/-- The intervals of a process between which one that starts at a line would stand: the last one
that starts up to the line, and the first one that starts from there on. These are the two that
a new interval is compared with. -/
def neighbours (index : IntervalIndex) (pid : Pid) (line : Nat) : List Interval :=
  ((index.lines pid).byLow.lastAtMost? line).toList ++
    ((index.lines pid).byLow.firstAtLeast? line).toList

theorem Ordered.mem_of_mem_neighbours (h : index.Ordered) (hi : i ∈ index.neighbours pid line) :
    i ∈ index ∧ i.pid = pid := by
  have hget : ∃ k, (index.lines pid).byLow.get? k = some i := by
    rcases List.mem_append.1 hi with hi | hi
    · obtain ⟨k, hk, -⟩ := OrderedMap.lastAtMost?_eq_some (Option.mem_toList.1 hi)
      exact ⟨k, hk⟩
    · obtain ⟨k, hk, -⟩ := OrderedMap.firstAtLeast?_eq_some (Option.mem_toList.1 hi)
      exact ⟨k, hk⟩
  obtain ⟨k, hk⟩ := hget
  obtain ⟨hin, hpid, -⟩ := h.mem_of_get? hk
  exact ⟨hin, hpid⟩

/-- **Two neighbours are enough.** If an interval of the process has a line of another one then so has
one of the two between which that one would stand. The interval that has the line starts before the other
one or after it, and the neighbour on that side is it, or stands in between. -/
theorem Ordered.exists_neighbour (h : index.Ordered) (hj : j ∈ index) (hpid : j.pid = i.pid)
    (hmeets : j.meets i = true) :
    ∃ other, other ∈ index.neighbours i.pid i.low ∧ other.meets i = true := by
  have hget : (index.lines i.pid).byLow.get? j.low = some j := hpid ▸ hj
  obtain ⟨line, hline, hline'⟩ := Interval.meets_iff.1 hmeets
  rw [Interval.mem_iff] at hline hline'
  by_cases hle : j.low ≤ i.low
  · cases hlast : (index.lines i.pid).byLow.lastAtMost? i.low with
    | none =>
      have := OrderedMap.lastAtMost?_eq_none hlast hget
      omega
    | some other =>
      obtain ⟨k, hk, hki, hmax⟩ := OrderedMap.lastAtMost?_eq_some hlast
      obtain ⟨hother, hotherpid, rfl⟩ := h.mem_of_get? hk
      -- it starts no earlier than `j`, which reaches up to the other one
      have hlow : j.low ≤ other.low := hmax _ _ hget hle
      have hsame : j.meets other = true :=
        Interval.meets_iff.2 ⟨other.low, ⟨hlow, by omega⟩, other.low_mem⟩
      obtain rfl := h.apart hj hother (hpid.trans hotherpid.symm) hsame
      -- so it is `j` itself
      exact ⟨j, List.mem_append_left _ (Option.mem_toList.2 hlast), hmeets⟩
  · cases hfirst : (index.lines i.pid).byLow.firstAtLeast? i.low with
    | none =>
      have := OrderedMap.firstAtLeast?_eq_none hfirst hget
      omega
    | some other =>
      obtain ⟨k, hk, hki, hmin⟩ := OrderedMap.firstAtLeast?_eq_some hfirst
      obtain ⟨-, -, rfl⟩ := h.mem_of_get? hk
      -- it starts no later than `j`, which begins within the other one
      have hlow : other.low ≤ j.low := hmin _ _ hget (by omega)
      refine ⟨other, List.mem_append_right _ (Option.mem_toList.2 hfirst), ?_⟩
      exact Interval.meets_iff.2 ⟨other.low, other.low_mem, hki, by omega⟩

/-! ### Recording an interval -/

theorem lines_of_insert {own : LineSet} {other : Pid} :
    lines { processes := index.processes.insert pid own } other =
      if other = pid then own else index.lines other := by
  simp only [lines, OrderedMap.get?_insert]
  split <;> rfl

theorem insert_of_none (h : (index.neighbours i.pid i.low).find? (·.meets i) = none) :
    index.insert i.pid i.low i.high i.offset = .ok (i, ⟨index.processes.insert i.pid
      ⟨(index.lines i.pid).byLow.insert i.low i, max (index.lines i.pid).lastLine i.high⟩⟩) := by
  rw [neighbours] at h
  simp only [insert, Interval.ofBounds, i.low_le_high, dite_true, bind, Except.bind, h]
  rfl

theorem insert_of_some {other : Interval}
    (h : (index.neighbours i.pid i.low).find? (·.meets i) = some other) :
    index.insert i.pid i.low i.high i.offset =
      .error (.breach (.overlappingInterval i.pid i.low i.high other.low other.high)) := by
  rw [neighbours] at h
  simp only [insert, Interval.ofBounds, i.low_le_high, dite_true, bind, Except.bind, h]
  rfl

theorem insert_of_inverted {low high offset : Nat} (h : ¬low ≤ high) :
    index.insert pid low high offset = .error (.breach (.invertedInterval low high)) := by
  rw [insert, Interval.ofBounds, dif_neg h]
  rfl

/-- **Recording succeeds between disjoint intervals.** If no interval of the process meets a new one then
`insert` accepts it, and the new index has it besides those of the old one. That it replaces none of them
is due to where they stand: one in its place would have its first line. -/
theorem insert_eq_ok (h : index.Ordered)
    (hfree : ∀ j ∈ index, j.pid = i.pid → j.meets i = false) :
    ∃ index', index.insert i.pid i.low i.high i.offset = .ok (i, index') ∧ index'.Ordered ∧
      ∀ j, j ∈ index' ↔ j = i ∨ j ∈ index := by
  have hnone : (index.neighbours i.pid i.low).find? (·.meets i) = none := by
    refine List.find?_eq_none.2 fun j hj => ?_
    obtain ⟨hin, hpid⟩ := h.mem_of_mem_neighbours hj
    rw [hfree j hin hpid]
    exact Bool.false_ne_true
  let lines : LineSet := {
    byLow := (index.lines i.pid).byLow.insert i.low i
    lastLine := max (index.lines i.pid).lastLine i.high }
  let index' : IntervalIndex := ⟨index.processes.insert i.pid lines⟩
  have hget : ∀ other k, (index'.lines other).byLow.get? k =
      if other = i.pid ∧ k = i.low then some i else (index.lines other).byLow.get? k := by
    intro other k
    rw [lines_of_insert]
    by_cases hother : other = i.pid
    · subst hother
      simp [lines, OrderedMap.get?_insert]
    · simp [hother]
  -- an interval is stored where it belongs, so nothing but its own place is asked
  have hmem : ∀ j, j ∈ index' ↔ j = i ∨ j ∈ index := by
    intro j
    rw [mem_iff, hget, mem_iff]
    constructor
    · split
      · exact fun heq => .inl (Option.some.inj heq).symm
      · exact fun heq => .inr heq
    · rintro (rfl | hj)
      · simp
      · split
        · next hplace =>
          -- an interval that starts where the new one does meets it
          have hlow : i.low ∈ j ∧ i.low ∈ i := ⟨hplace.2 ▸ j.low_mem, i.low_mem⟩
          have := hfree j hj hplace.1
          rw [Interval.meets_iff.2 ⟨_, hlow⟩] at this
          cases this
        · exact hj
  refine ⟨index', ?_, ⟨?_, ?_⟩, hmem⟩
  · exact insert_of_none hnone
  · -- what is stored is in its place
    intro other k j hj
    rw [hget] at hj
    split at hj
    · next hplace =>
      cases hj
      exact ⟨hplace.1.symm, hplace.2.symm⟩
    · exact h.keyed hj
  -- two of the old ones are apart, and the new one meets none of them
  · intro j k hj hk hpid hmeets
    rcases (hmem j).1 hj with rfl | hjold <;> rcases (hmem k).1 hk with rfl | hkold
    · rfl
    · rw [Interval.meets_comm, hfree k hkold hpid.symm] at hmeets
      cases hmeets
    · rw [hfree j hjold hpid] at hmeets
      cases hmeets
    · exact h.apart hjold hkold hpid hmeets

/-- **Recording fails where intervals meet.** If any interval of the process meets a new one then
`insert` refuses it, because of one that does. Which one it names need not be the one that is given. -/
theorem insert_eq_error (h : index.Ordered) (hj : j ∈ index) (hpid : j.pid = i.pid)
    (hmeets : j.meets i = true) :
    ∃ other ∈ index, other.pid = i.pid ∧ other.meets i = true ∧
      index.insert i.pid i.low i.high i.offset =
        .error (.breach (.overlappingInterval i.pid i.low i.high other.low other.high)) := by
  obtain ⟨found, hfound, hfoundmeets⟩ := h.exists_neighbour hj hpid hmeets
  have hsome : ((index.neighbours i.pid i.low).find? (·.meets i)).isSome = true :=
    List.find?_isSome.2 ⟨found, hfound, hfoundmeets⟩
  obtain ⟨other, hother⟩ := Option.isSome_iff_exists.1 hsome
  obtain ⟨hin, hotherpid⟩ := h.mem_of_mem_neighbours (List.mem_of_find?_eq_some hother)
  exact ⟨other, hin, hotherpid, (List.find?_some hother :), insert_of_some hother⟩

/-- An interval that is recorded is stored under its first line, and may be the last one. -/
theorem insert_cases {index' : IntervalIndex} {low high offset : Nat}
    (h : index.insert pid low high offset = .ok (i, index')) :
    (∃ hle : low ≤ high, i = { pid, low, high, offset, low_le_high := hle }) ∧
      index' = ⟨index.processes.insert pid
        ⟨(index.lines pid).byLow.insert low i, max (index.lines pid).lastLine high⟩⟩ := by
  simp only [insert, Fault.bind_eq_ok_iff, Interval.ofBounds] at h
  obtain ⟨_, hbounds, h⟩ := h
  split at hbounds
  · next hle =>
    cases hbounds
    split at h
    · cases h
    · cases h
      exact ⟨⟨hle, rfl⟩, rfl⟩
  · cases hbounds

/-! ### Queries -/

/-- A line is found in the interval that has it, which is the last one to start before the line:
one that started between them would meet it. -/
theorem find?_eq_some_of_mem (h : index.Ordered) (hi : i ∈ index) (hline : line ∈ i) :
    index.find? i.pid line = some i := by
  have hget := mem_iff.1 hi
  cases hlast : (index.lines i.pid).byLow.lastAtMost? line with
  | none =>
    have := OrderedMap.lastAtMost?_eq_none hlast hget
    rw [Interval.mem_iff] at hline
    omega
  | some j =>
    obtain ⟨k, hk, hle, hmax⟩ := OrderedMap.lastAtMost?_eq_some hlast
    obtain ⟨hj, hpid, rfl⟩ := h.mem_of_get? hk
    -- the last interval that starts up to the line starts between `i.low` and the line, so meets `i`
    have hlow : i.low ≤ j.low := hmax _ _ hget hline.1
    have hmeets : i.meets j = true :=
      Interval.meets_iff.2 ⟨j.low, ⟨hlow, Nat.le_trans hle hline.2⟩, j.low_mem⟩
    obtain rfl := h.apart hi hj hpid.symm hmeets
    simp [find?, hlast, hline]

/-- The next interval begins after the end of this one, and none of the process is in between. -/
theorem next?_eq_some (h : index.Ordered) (hi : i ∈ index) (hnext : index.next? i = some j) :
    j ∈ index ∧ j.pid = i.pid ∧ i.high < j.low ∧
      ∀ k ∈ index, k.pid = i.pid → i.low < k.low → j.low ≤ k.low := by
  obtain ⟨low, hget, hlt, hmin⟩ := OrderedMap.firstAbove?_eq_some hnext
  obtain ⟨hj, hpid, rfl⟩ := h.mem_of_get? hget
  refine ⟨hj, hpid, Nat.lt_of_not_le fun hle => ?_, fun k hk hkpid => ?_⟩
  -- otherwise it would begin within this one
  · have hmeets : i.meets j = true :=
      Interval.meets_iff.2 ⟨j.low, ⟨Nat.le_of_lt hlt, hle⟩, j.low_mem⟩
    obtain rfl := h.apart hi hj hpid.symm hmeets
    exact Nat.lt_irrefl _ hlt
  · rw [mem_iff, hkpid] at hk
    exact hmin _ k hk

theorem next?_eq_none (hnext : index.next? i = none) (hj : j ∈ index) (hpid : j.pid = i.pid) :
    j.low ≤ i.low := by
  rw [mem_iff, hpid] at hj
  exact OrderedMap.firstAbove?_eq_none hnext hj

/-- The intervals of a process are those of the index that belong to it. -/
theorem mem_intervals_iff (h : index.Ordered) :
    i ∈ index.intervals pid ↔ i ∈ index ∧ i.pid = pid := by
  rw [intervals, OrderedMap.mem_values_iff]
  constructor
  · rintro ⟨low, hget⟩
    obtain ⟨hmem, hpid, -⟩ := h.mem_of_get? hget
    exact ⟨hmem, hpid⟩
  · rintro ⟨hmem, rfl⟩
    exact ⟨i.low, hmem⟩

theorem mem_pids_of_mem (h : i ∈ index) : i.pid ∈ index.pids := by
  cases hget : index.processes.get? i.pid with
  | none =>
    have hlines : index.lines i.pid = {} := by rw [lines, hget, Option.getD_none]
    rw [mem_iff, hlines] at h
    cases h
  | some lines => exact List.mem_map.2 ⟨_, OrderedMap.mem_entries_iff.2 hget, rfl⟩

end IntervalIndex

end DemandPaging
