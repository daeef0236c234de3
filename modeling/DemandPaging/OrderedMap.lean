/-!
# Maps in the order of their keys

An `OrderedMap` keeps values under natural numbers, as one list of entries whose keys ascend. Reading
it in order is reading the list, and a question about neighbours (the greatest key up to a bound, the
least key above one) is a search in the list. Since the keys ascend, a map is determined by its
look-ups: `ext_get?`.
-/

namespace DemandPaging

/-- Values under natural numbers. That the keys ascend is a field, so that a list of entries
that is out of order, or has a key twice, cannot be built. -/
structure OrderedMap (β : Type) where
  /-- The keys with their values. -/
  entries : List (Nat × β)
  /-- The keys ascend. -/
  ascending : entries.Pairwise fun a b => a.1 < b.1
  deriving DecidableEq

namespace OrderedMap

variable {β : Type} {m n : OrderedMap β} {k j : Nat} {v : β}

/-- The map without entries. -/
def empty : OrderedMap β := ⟨[], .nil⟩

instance : EmptyCollection (OrderedMap β) := ⟨empty⟩

/-- The number of entries. -/
def size (m : OrderedMap β) : Nat := m.entries.length

/-- The keys, ascending. -/
def keys (m : OrderedMap β) : List Nat := m.entries.map (·.1)

/-- The values in the order of their keys. -/
def values (m : OrderedMap β) : List β := m.entries.map (·.2)

/-- The value under a key. -/
def get? (m : OrderedMap β) (k : Nat) : Option β :=
  (m.entries.find? (·.1 == k)).map (·.2)

/-- Whether there is a value under a key. -/
def contains (m : OrderedMap β) (k : Nat) : Bool := (m.get? k).isSome

/-! ### Insertion -/

/-- Puts a value into ascending entries, in place of the one under that key if there is one. -/
def insertEntry (k : Nat) (v : β) : List (Nat × β) → List (Nat × β)
  | [] => [(k, v)]
  | (key, value) :: rest =>
    if k < key then (k, v) :: (key, value) :: rest
    else if k = key then (k, v) :: rest
    else (key, value) :: insertEntry k v rest

theorem mem_of_mem_insertEntry {e : Nat × β} {l : List (Nat × β)} (h : e ∈ insertEntry k v l) :
    e = (k, v) ∨ e ∈ l := by
  induction l with
  | nil => simpa [insertEntry] using h
  | cons head rest ih =>
    grind [insertEntry]

theorem pairwise_insertEntry {l : List (Nat × β)} (h : l.Pairwise fun a b => a.1 < b.1) :
    (insertEntry k v l).Pairwise fun a b => a.1 < b.1 := by
  induction l with
  | nil => simp [insertEntry]
  | cons head rest ih =>
    obtain ⟨hhead, hrest⟩ := List.pairwise_cons.1 h
    unfold insertEntry
    split
    · next hlt =>
      refine List.pairwise_cons.2 ⟨fun e he => ?_, h⟩
      rcases List.mem_cons.1 he with rfl | he
      · exact hlt
      · exact Nat.lt_trans hlt (hhead e he)
    · split
      · next heq => exact List.pairwise_cons.2 ⟨fun e he => heq ▸ hhead e he, hrest⟩
      · refine List.pairwise_cons.2 ⟨fun e he => ?_, ih hrest⟩
        rcases mem_of_mem_insertEntry he with rfl | he
        · simp only; omega
        · exact hhead e he

/-- The map with a value under a key, in place of the one there if there is one. Every other
entry stays, and with them their order. -/
def insert (m : OrderedMap β) (k : Nat) (v : β) : OrderedMap β :=
  ⟨insertEntry k v m.entries, pairwise_insertEntry m.ascending⟩

/-- The map with every value changed. -/
def map (m : OrderedMap β) (f : β → β) : OrderedMap β where
  entries := m.entries.map fun e => (e.1, f e.2)
  ascending := List.pairwise_map.2 m.ascending

/-- The map with the value under a key changed, if there is one. No entry comes or goes, so the
keys ascend as before. -/
def modify (m : OrderedMap β) (k : Nat) (f : β → β) : OrderedMap β where
  entries := m.entries.map fun e => if e.1 = k then (e.1, f e.2) else e
  ascending := by
    refine List.pairwise_map.2 (m.ascending.imp fun h => ?_)
    split <;> split <;> exact h

/-! ### Neighbours -/

/-- The value under the least key. -/
def first? (m : OrderedMap β) : Option β := m.values.head?

/-- The value under the greatest key that is at most `k`. The entries that come into question
are an initial stretch of the list, and the last of them is the answer. -/
def lastAtMost? (m : OrderedMap β) (k : Nat) : Option β :=
  ((m.entries.takeWhile (·.1 ≤ k)).getLast?).map (·.2)

/-- The value under the least key that is at least `k`. -/
def firstAtLeast? (m : OrderedMap β) (k : Nat) : Option β :=
  (m.entries.find? (k ≤ ·.1)).map (·.2)

/-- The value under the least key above `k`. -/
def firstAbove? (m : OrderedMap β) (k : Nat) : Option β :=
  (m.entries.find? (k < ·.1)).map (·.2)

/-! ### Look-ups -/

@[simp] theorem get?_empty : (∅ : OrderedMap β).get? k = none := rfl

theorem get?_insert : (m.insert k v).get? j = if j = k then some v else m.get? j := by
  simp only [insert, get?]
  induction m.entries with
  | nil => grind [insertEntry]
  | cons head rest ih => grind [insertEntry]

theorem get?_modify {f : β → β} :
    (m.modify k f).get? j = if j = k then (m.get? j).map f else m.get? j := by
  simp only [modify, get?]
  induction m.entries with
  | nil => simp
  | cons head rest ih => grind

theorem get?_map {f : β → β} : (m.map f).get? k = (m.get? k).map f := by
  simp [map, get?, List.find?_map, Function.comp_def]

theorem mem_entries_iff : (k, v) ∈ m.entries ↔ m.get? k = some v := by
  obtain ⟨entries, h⟩ := m
  simp only [get?]
  induction entries with
  | nil => simp
  | cons head rest ih =>
    obtain ⟨hhead, hrest⟩ := List.pairwise_cons.1 h
    by_cases hk : head.1 = k
    · have : (k, v) ∉ rest := fun hmem => by have := hhead _ hmem; simp only at this; omega
      simp [hk, this, Prod.ext_iff, eq_comm]
    · simp [hk, ih hrest, Prod.ext_iff, Ne.symm hk]

/-- Maps with the same look-ups are the same. -/
theorem ext_get? (h : ∀ k, m.get? k = n.get? k) : m = n := by
  obtain ⟨l, hl⟩ := m
  obtain ⟨r, hr⟩ := n
  have hmem : ∀ e, e ∈ l ↔ e ∈ r := fun e => by
    rw [mem_entries_iff (m := ⟨l, hl⟩), mem_entries_iff (m := ⟨r, hr⟩), h]
  have hperm : l.Perm r :=
    (List.perm_ext_iff_of_nodup (hl.imp fun h e => by simp [e] at h)
      (hr.imp fun h e => by simp [e] at h)).2 hmem
  have := hperm.eq_of_pairwise (fun a b _ _ hab hba => absurd hab (Nat.lt_asymm hba)) hl hr
  simpa using this

end OrderedMap

end DemandPaging
