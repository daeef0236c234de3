import DemandPaging.OrderedMap

/-!
# Neighbours in an ordered map

The look-ups of an `OrderedMap` say which keys it has; the neighbour queries say where a key would
stand among them. Each is characterised here by look-ups alone:

* `lastAtMost?` finds the greatest key up to a bound (`lastAtMost?_eq_some`), and fails only if all
  keys lie above it (`lastAtMost?_eq_none`);
* `firstAtLeast?` and `firstAbove?` find the least key that passes an upward closed test, and are both
  instances of one search (`find?_entries_eq_some`, `find?_entries_eq_none`).
-/

namespace DemandPaging.OrderedMap

variable {β : Type} {m : OrderedMap β} {k : Nat} {v : β}

/-! ### Values -/

theorem mem_values_iff : v ∈ m.values ↔ ∃ k, m.get? k = some v := by
  simp only [values, List.mem_map, ← mem_entries_iff]
  constructor
  · rintro ⟨⟨k, _⟩, hmem, rfl⟩
    exact ⟨k, hmem⟩
  · rintro ⟨k, hmem⟩
    exact ⟨(k, v), hmem, rfl⟩

/-! ### Repeated insertion -/

/-- A key has one value, the last one that was put in. -/
theorem insert_insert {w : β} : (m.insert k v).insert k w = m.insert k w := by
  refine ext_get? fun j => ?_
  rw [get?_insert, get?_insert, get?_insert]
  split <;> rfl

theorem insert_of_get? (h : m.get? k = some v) : m.insert k v = m := by
  refine ext_get? fun j => ?_
  rw [get?_insert]
  split
  · next heq => rw [heq, h]
  · rfl

/-! ### The least key that passes a test -/

/-- A search in the entries stops at the least key that passes the test. The keys ascend, so those that
come after the first one that passes are greater. -/
theorem find?_entries_eq_some (test : Nat → Bool) {entry : Nat × β}
    (h : m.entries.find? (test ·.1) = some entry) :
    m.get? entry.1 = some entry.2 ∧ test entry.1 = true ∧
      ∀ j w, m.get? j = some w → test j = true → entry.1 ≤ j := by
  obtain ⟨htest, before, after, heq, hbefore⟩ := List.find?_eq_some_iff_append.1 h
  have hsorted := m.ascending
  rw [heq, List.pairwise_append] at hsorted
  refine ⟨mem_entries_iff.1 (heq ▸ by simp), htest, fun j w hj htj => ?_⟩
  have hmem : (j, w) ∈ before ++ entry :: after := heq ▸ mem_entries_iff.2 hj
  rcases List.mem_append.1 hmem with hin | hin
  -- no key before it passes the test
  · have := hbefore _ hin
    simp [htj] at this
  · rcases List.mem_cons.1 hin with rfl | hin
    · exact Nat.le_refl _
    · exact Nat.le_of_lt ((List.pairwise_cons.1 hsorted.2.1).1 _ hin)

theorem find?_entries_eq_none (test : Nat → Bool) (h : m.entries.find? (test ·.1) = none)
    {j : Nat} {w : β} (hj : m.get? j = some w) : test j = false := by
  have := List.find?_eq_none.1 h _ (mem_entries_iff.2 hj)
  simpa using this

/-- The first key that is not below a bound is the least of those. -/
theorem firstAtLeast?_eq_some (h : m.firstAtLeast? k = some v) :
    ∃ j, m.get? j = some v ∧ k ≤ j ∧ ∀ i w, m.get? i = some w → k ≤ i → j ≤ i := by
  obtain ⟨entry, hfind, rfl⟩ := Option.map_eq_some_iff.1 h
  obtain ⟨hget, hle, hmin⟩ := find?_entries_eq_some (fun i => decide (k ≤ i)) hfind
  exact ⟨entry.1, hget, of_decide_eq_true hle, fun i w hi hki => hmin i w hi (decide_eq_true hki)⟩

theorem firstAtLeast?_eq_none (h : m.firstAtLeast? k = none) {i : Nat} {w : β}
    (hi : m.get? i = some w) : i < k := by
  have hfind : m.entries.find? (k ≤ ·.1) = none := Option.map_eq_none_iff.1 h
  have := find?_entries_eq_none (fun i => decide (k ≤ i)) hfind hi
  simpa using this

/-- The first key above a bound is the least of those. -/
theorem firstAbove?_eq_some (h : m.firstAbove? k = some v) :
    ∃ j, m.get? j = some v ∧ k < j ∧ ∀ i w, m.get? i = some w → k < i → j ≤ i := by
  obtain ⟨entry, hfind, rfl⟩ := Option.map_eq_some_iff.1 h
  obtain ⟨hget, hlt, hmin⟩ := find?_entries_eq_some (fun i => decide (k < i)) hfind
  exact ⟨entry.1, hget, of_decide_eq_true hlt, fun i w hi hki => hmin i w hi (decide_eq_true hki)⟩

theorem firstAbove?_eq_none (h : m.firstAbove? k = none) {i : Nat} {w : β}
    (hi : m.get? i = some w) : i ≤ k := by
  have hfind : m.entries.find? (k < ·.1) = none := Option.map_eq_none_iff.1 h
  have := find?_entries_eq_none (fun i => decide (k < i)) hfind hi
  simpa using this

/-- The least key above one of the keys is the next one. With the map split at that key, what
comes before is lower and what comes after is not. -/
theorem firstAbove?_of_entries {before after : List (Nat × β)}
    (h : m.entries = before ++ (k, v) :: after) : m.firstAbove? k = after.head?.map (·.2) := by
  have hsorted := m.ascending
  rw [h, List.pairwise_append] at hsorted
  obtain ⟨-, hafter, hbefore⟩ := hsorted
  -- those that come before are below the key, so the search passes over them
  have hnone : before.find? (k < ·.1) = none := by
    refine List.find?_eq_none.2 fun entry hentry hlt => ?_
    have hle : entry.1 < k := hbefore entry hentry (k, v) List.mem_cons_self
    exact Nat.lt_asymm hle (of_decide_eq_true hlt)
  rw [firstAbove?, h, List.find?_append, hnone, Option.none_or, List.find?_cons_of_neg (by simp)]
  cases after with
  | nil => rfl
  | cons next rest =>
    have hlt : decide (k < next.1) = true :=
      decide_eq_true ((List.pairwise_cons.1 hafter).1 next List.mem_cons_self)
    rw [List.find?_cons, hlt]
    rfl

/-! ### The greatest key up to a bound -/

/-- Since the keys ascend, those up to a bound are the first ones. By induction on the entries, as a
prefix of a list that is in order says nothing of what comes after it. -/
theorem mem_takeWhile_entries_iff {j : Nat} {w : β} :
    (j, w) ∈ m.entries.takeWhile (·.1 ≤ k) ↔ m.get? j = some w ∧ j ≤ k := by
  rw [← mem_entries_iff]
  obtain ⟨entries, h⟩ := m
  simp only
  induction entries with
  | nil => simp
  | cons head rest ih =>
    obtain ⟨hhead, hrest⟩ := List.pairwise_cons.1 h
    rw [List.takeWhile_cons]
    split
    · next hle =>
      have hle : head.1 ≤ k := of_decide_eq_true hle
      rw [List.mem_cons, List.mem_cons, ih hrest]
      constructor
      · rintro (rfl | ⟨hmem, hj⟩)
        · exact ⟨.inl rfl, hle⟩
        · exact ⟨.inr hmem, hj⟩
      · rintro ⟨rfl | hmem, hj⟩
        · exact .inl rfl
        · exact .inr ⟨hmem, hj⟩
    · next hlt =>
      -- every key from here on is above the bound
      have hlt : ¬head.1 ≤ k := fun hle => hlt (decide_eq_true hle)
      refine iff_of_false (fun hmem => by cases hmem) fun ⟨hmem, hj⟩ => ?_
      rcases List.mem_cons.1 hmem with rfl | hmem
      · exact hlt hj
      · have := hhead _ hmem
        simp only at this
        omega

/-- The last key up to a bound is the greatest of those. The keys up to the bound are an initial
stretch, as the keys ascend. -/
theorem lastAtMost?_eq_some (h : m.lastAtMost? k = some v) :
    ∃ j, m.get? j = some v ∧ j ≤ k ∧ ∀ i w, m.get? i = some w → i ≤ k → i ≤ j := by
  obtain ⟨⟨j, _⟩, hlast, rfl⟩ := Option.map_eq_some_iff.1 h
  obtain ⟨before, heq⟩ := List.getLast?_eq_some_iff.1 hlast
  obtain ⟨hget, hle⟩ := mem_takeWhile_entries_iff.1 (List.mem_of_getLast? hlast)
  refine ⟨j, hget, hle, fun i w hi hik => ?_⟩
  have hsorted : (m.entries.takeWhile (·.1 ≤ k)).Pairwise fun a b => a.1 < b.1 :=
    m.ascending.sublist (List.takeWhile_sublist _)
  have hmem := mem_takeWhile_entries_iff.2 ⟨hi, hik⟩
  rw [heq] at hsorted hmem
  -- the keys up to the bound ascend, so the last of them is the greatest
  rcases List.mem_append.1 hmem with hin | hin
  · exact Nat.le_of_lt ((List.pairwise_append.1 hsorted).2.2 _ hin _ (List.mem_singleton.2 rfl))
  · cases List.mem_singleton.1 hin
    exact Nat.le_refl _

theorem lastAtMost?_eq_none (h : m.lastAtMost? k = none) {i : Nat} {w : β}
    (hi : m.get? i = some w) : k < i := by
  -- the keys up to the bound are found at the front, and there are none
  have hnil : m.entries.takeWhile (·.1 ≤ k) = [] :=
    List.getLast?_eq_none_iff.1 (Option.map_eq_none_iff.1 h)
  refine Nat.lt_of_not_le fun hik => ?_
  have hmem := mem_takeWhile_entries_iff.2 ⟨hi, hik⟩
  rw [hnil] at hmem
  cases hmem

end DemandPaging.OrderedMap
