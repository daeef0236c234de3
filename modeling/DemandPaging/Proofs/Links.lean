import DemandPaging.Policy.PageList
import Mathlib.Logic.Function.Basic
import Mathlib.Data.List.Perm.Subperm

/-!
# The page list as a sequence

A page list keeps its entries in slots that name each other. `PageList.Links list order` says which
sequence of slots that is: each entry names the one before it and the one after, the ends of the list
are those of the sequence, no other slot counts as queued, and the vacant slots are just the empty
ones.

What the list says of a slot, and of no other, is `held?`: the page, and the frame while the page is
queued. For each operation there is one statement, that it succeeds under its contract and what it
does to the sequence and to the entries:

* `alloc_links`: a page is entered in an empty slot, not queued;
* `pushBack_eq_ok`: a page is queued at the end of the sequence;
* `unlink_eq_ok`, `release_eq_ok`: one slot leaves the sequence;
* `moveToBack_eq_ok`: one slot goes to the end, and no entry changes;
* `popFront_eq_ok`: the first slot leaves.

The links can be followed through the sequence in both directions (`follow_next`, `follow_prev`), and
the frames of the list are those of the sequence, in order (`frames_eq`).
-/

namespace DemandPaging

/-- The frame of a page while it is queued. A node keeps the frame after that, but it is of no
account then. -/
def ListNode.queuedIn? (node : ListNode) : Option FrameId :=
  if node.linked then node.frame? else none

namespace PageList

variable {list : PageList} {order : List Nat} {slot other : Nat} {node : ListNode}

/-- What the list says of a slot: the page, and the frame while the page is queued. -/
def held? (list : PageList) (slot : Nat) : Option (PageRef × Option FrameId) :=
  (list.node? slot).map fun node => (node.page, node.queuedIn?)

/-- The entries of the list, in the order of their slots in a sequence. A list has one sequence at most,
as its links can be followed. -/
structure Links (list : PageList) (order : List Nat) : Prop where
  /-- No slot is queued twice. -/
  nodup : order.Nodup
  /-- A queued slot names its neighbours and has a frame. -/
  neighbours : ∀ {before slot after}, order = before ++ slot :: after →
    ∃ node, list.node? slot = some node ∧ node.linked = true ∧ node.frame?.isSome = true ∧
      node.prev? = before.getLast? ∧ node.next? = after.head?
  /-- No other slot counts as queued. -/
  mem_of_linked : ∀ {slot node}, list.node? slot = some node → node.linked = true → slot ∈ order
  /-- The oldest entry comes first. -/
  head_eq : list.head? = order.head?
  /-- The newest entry comes last. -/
  tail_eq : list.tail? = order.getLast?
  /-- The number of entries is kept. -/
  length_eq : list.length = order.length
  /-- No slot is vacant twice. -/
  vacant_nodup : list.vacant.Nodup
  /-- The vacant slots are the empty ones. -/
  mem_vacant_iff : ∀ {slot}, slot ∈ list.vacant ↔ slot < list.slots.size ∧ list.node? slot = none

theorem links_empty : (∅ : PageList).Links [] where
  nodup := .nil
  neighbours h := by simp at h
  mem_of_linked h := by cases h
  head_eq := rfl
  tail_eq := rfl
  length_eq := rfl
  vacant_nodup := .nil
  mem_vacant_iff {slot} := by
    constructor
    · intro h
      cases h
    · intro h
      exact absurd h.1 (Nat.not_lt_zero slot)

/-! ### Nodes after a change -/

/-- A change to one node shows in no other. -/
theorem node?_modifyNode {f : ListNode → ListNode} : (list.modifyNode slot f).node? other =
    if other = slot then (list.node? other).map f else list.node? other := by
  simp only [node?, modifyNode, Array.getElem?_modify, eq_comm (a := slot)]
  split
  · cases list.slots[other]? with
    | none => rfl
    | some held => cases held <;> rfl
  · rfl

@[simp] theorem size_modifyNode {f : ListNode → ListNode} :
    (list.modifyNode slot f).slots.size = list.slots.size :=
  Array.size_modify

theorem lt_size_of_node? (h : list.node? slot = some node) : slot < list.slots.size := by
  by_contra hge
  rw [node?, Array.getElem?_eq_none (Nat.le_of_not_lt hge)] at h
  cases h

theorem node?_congr (list : PageList) {list' : PageList} (h : list'.slots = list.slots) :
    list'.node? other = list.node? other := by
  rw [node?, node?, h]

theorem node_eq_ok (h : list.node? slot = some node) : list.node slot = .ok node := by
  rw [PageList.node, h]
  rfl

theorem held?_eq_some (h : list.node? slot = some node) :
    list.held? slot = some (node.page, node.queuedIn?) := by
  rw [held?, h]
  rfl

namespace Links

/-- The flag of a node tells whether its slot is in the sequence. -/
theorem linked_iff (h : list.Links order) (hnode : list.node? slot = some node) :
    node.linked = true ↔ slot ∈ order := by
  refine ⟨h.mem_of_linked hnode, fun hmem => ?_⟩
  obtain ⟨before, after, horder⟩ := List.append_of_mem hmem
  obtain ⟨found, hfound, hlinked, -⟩ := h.neighbours horder
  cases hnode.symm.trans hfound
  exact hlinked

theorem not_mem_of_unlinked (h : list.Links order) (hnode : list.node? slot = some node)
    (hunlinked : node.linked = false) : slot ∉ order := by
  rw [← h.linked_iff hnode, hunlinked]
  exact Bool.false_ne_true

end Links

/-! ### Giving a page a slot -/

/-- A list that differs in one slot that was empty, and in its vacant slots. Both ways of finding a slot
come down to this. -/
theorem Links.fill {list' : PageList} (h : list.Links order) (hempty : list.node? slot = none)
    (hnode : ∀ other, list'.node? other = if other = slot then some node else list.node? other)
    (hunlinked : node.linked = false) (hhead : list'.head? = list.head?)
    (htail : list'.tail? = list.tail?) (hlength : list'.length = list.length)
    (hnodup : list'.vacant.Nodup)
    (hvacant : ∀ {slot}, slot ∈ list'.vacant ↔ slot < list'.slots.size ∧ list'.node? slot = none) :
    list'.Links order where
  nodup := h.nodup
  neighbours {before queued after} horder := by
    obtain ⟨found, hfound, hrest⟩ := h.neighbours horder
    refine ⟨found, ?_, hrest⟩
    -- a slot in the sequence was not empty, so it is another one
    have hne : queued ≠ slot := fun heq => by rw [heq, hempty] at hfound; cases hfound
    rw [hnode, if_neg hne, hfound]
  mem_of_linked {queued found} hfound hlinked := by
    rw [hnode] at hfound
    split at hfound
    · cases hfound
      rw [hunlinked] at hlinked
      cases hlinked
    · exact h.mem_of_linked hfound hlinked
  head_eq := hhead.trans h.head_eq
  tail_eq := htail.trans h.tail_eq
  length_eq := hlength.trans h.length_eq
  vacant_nodup := hnodup
  mem_vacant_iff := hvacant

/-- **A slot for a page.** The slot was empty, and now holds the page, which is not queued. It is one
that was freed before if there is any, and a new one otherwise. -/
theorem alloc_links (h : list.Links order) (page : PageRef) :
    list.node? (list.alloc page).1 = none ∧ (list.alloc page).2.Links order ∧
      ∀ other, (list.alloc page).2.node? other =
        if other = (list.alloc page).1 then some { page } else list.node? other := by
  cases hvacant : list.vacant with
  | nil =>
    -- no slot is vacant: a new one is put at the end
    have hempty : list.node? list.slots.size = none := by
      rw [node?, Array.getElem?_eq_none (Nat.le_refl _)]
      rfl
    have halloc : list.alloc page =
        (list.slots.size, { list with slots := list.slots.push (some { page }) }) := by
      unfold alloc
      split
      · next heq => cases hvacant.symm.trans heq
      · rfl
    rw [halloc]
    have hnode : ∀ other,
        ({ list with slots := list.slots.push (some { page }) } : PageList).node? other =
          if other = list.slots.size then some { page } else list.node? other := by
      intro other
      simp only [node?, Array.getElem?_push]
      split <;> rfl
    refine ⟨hempty, h.fill hempty hnode rfl rfl rfl rfl h.vacant_nodup fun {slot} => ?_, hnode⟩
    -- no slot is vacant, neither before nor after
    show slot ∈ list.vacant ↔ _
    rw [hnode, Array.size_push, h.mem_vacant_iff]
    split
    · next heq =>
      rw [heq]
      simp
    · next hne =>
      refine and_congr_left fun _ => ?_
      omega
  | cons slot vacant =>
    -- the slot that became vacant last is used again
    obtain ⟨hlt, hempty⟩ := h.mem_vacant_iff.1 (hvacant ▸ List.mem_cons_self)
    simp only [alloc, hvacant]
    have hnode : ∀ other,
        ({ list with
            slots := list.slots.setIfInBounds slot (some { page }), vacant } : PageList).node? other =
          if other = slot then some { page } else list.node? other := by
      intro other
      simp only [node?, Array.getElem?_setIfInBounds, hlt, if_true, eq_comm (a := slot)]
      split <;> rfl
    obtain ⟨hslot, hnodup⟩ := List.nodup_cons.1 (hvacant ▸ h.vacant_nodup)
    -- it was vacant once, so it no longer is
    refine ⟨hempty, h.fill hempty hnode rfl rfl rfl rfl hnodup fun {other} => ?_, hnode⟩
    rw [hnode, Array.size_setIfInBounds]
    split
    · next heq =>
      rw [heq]
      simp [hslot]
    · next hne =>
      rw [← h.mem_vacant_iff, hvacant, List.mem_cons, or_iff_right hne]

/-! ### Queueing a page -/

/-- In a sequence without repetitions only the last slot is the last one. -/
theorem getLast?_split_iff {before after : List Nat} (h : (before ++ slot :: after).Nodup) :
    (before ++ slot :: after).getLast? = some slot ↔ after = [] := by
  rw [List.getLast?_append, List.getLast?_cons]
  cases after with
  | nil => simp
  | cons next rest =>
    have hmem : slot ∉ next :: rest := (List.nodup_cons.1 (List.nodup_append.1 h).2.1).1
    simp only [reduceCtorEq, iff_false, Option.some_or, Option.some.injEq, List.getLast?_cons,
      Option.getD_some]
    exact fun heq => hmem (heq ▸ List.mem_of_getLast? List.getLast?_cons)

/-- In a sequence without repetitions only the first slot is the first one. -/
theorem head?_split_iff {before after : List Nat} (h : (before ++ slot :: after).Nodup) :
    (before ++ slot :: after).head? = some slot ↔ before = [] := by
  cases before with
  | nil => simp
  | cons first rest =>
    have hmem : first ∉ rest ++ slot :: after := (List.nodup_cons.1 h).1
    simp only [List.cons_append, List.head?_cons, Option.some.injEq, reduceCtorEq, iff_false]
    exact fun heq => hmem (heq ▸ List.mem_append_cons_self)

/-- Where a slot stands in a sequence that was made longer by one: it is the new one, or it was there. -/
theorem append_singleton_eq_split {before after : List Nat}
    (h : order ++ [slot] = before ++ other :: after) :
    (after = [] ∧ other = slot ∧ before = order) ∨
      ∃ rest, after = rest ++ [slot] ∧ order = before ++ other :: rest := by
  rcases List.eq_nil_or_concat' after with rfl | ⟨rest, last, rfl⟩
  · obtain ⟨rfl, hlast⟩ := List.append_inj' h rfl
    exact .inl ⟨rfl, (List.cons.inj hlast).1.symm, rfl⟩
  · rw [← List.cons_append, ← List.append_assoc] at h
    obtain ⟨rfl, hlast⟩ := List.append_inj' h rfl
    exact .inr ⟨rest, by rw [(List.cons.inj hlast).1], rfl⟩

/-- What a new entry does to the nodes: its own is queued, and the one that was newest leads to it. The
nodes are described once, and all that is said of the new list is read off this. -/
structure Pushed (list : PageList) (slot : Nat) (node : ListNode) (frame : FrameId)
    (list' : PageList) : Prop where
  /-- No other nodes change. -/
  node?_eq : ∀ other, list'.node? other =
    if other = slot then
      some { node with frame? := some frame, prev? := list.tail?, next? := none, linked := true }
    else if list.tail? = some other then
      (list.node? other).map ({ · with next? := some slot })
    else list.node? other
  /-- If there were no entries, it is the first one. -/
  head_eq : list'.head? = if list.tail? = none then some slot else list.head?
  /-- It is the last one. -/
  tail_eq : list'.tail? = some slot
  /-- There is one entry more. -/
  length_eq : list'.length = list.length + 1
  /-- The same slots are vacant. -/
  vacant_eq : list'.vacant = list.vacant
  /-- There are as many slots. -/
  size_eq : list'.slots.size = list.slots.size

theorem exists_pushed (hslot : list.node? slot = some node) (hunlinked : node.linked = false)
    (htail : list.tail? ≠ some slot) (frame : FrameId) :
    ∃ list', list.pushBack slot frame = .ok list' ∧ Pushed list slot node frame list' := by
  unfold pushBack
  rw [node_eq_ok hslot]
  simp only [bind, Except.bind, hunlinked, Fault.require]
  cases hlast : list.tail? with
  | none =>
    -- the new entry is the only one
    refine ⟨_, rfl, fun other => ?_, by rw [hlast]; rfl, rfl, rfl, rfl, size_modifyNode⟩
    show (list.modifyNode slot _).node? other = _
    rw [node?_modifyNode, hlast]
    split
    · next heq => rw [heq, hslot]; rfl
    · rfl
  | some last =>
    refine ⟨_, rfl, fun other => ?_, by rw [hlast]; rfl, rfl, rfl, rfl, ?_⟩
    -- the entry that was newest is another one, so the two changes do not meet
    · have hne : last ≠ slot := fun heq => htail (heq ▸ hlast)
      rw [node?_modifyNode, hlast]
      show (if other = last then ((list.modifyNode slot _).node? other).map _
        else (list.modifyNode slot _).node? other) = _
      rw [node?_modifyNode]
      by_cases hslot' : other = slot
      · rw [if_neg (fun heq => hne (heq.symm.trans hslot')), if_pos hslot', if_pos hslot', hslot',
          hslot]
        rfl
      · by_cases hother : other = last
        · rw [if_pos hother, if_neg hslot', if_neg hslot', if_pos (congrArg some hother.symm)]
        · rw [if_neg hother, if_neg hslot', if_neg hslot',
            if_neg fun heq => hother (Option.some.inj heq).symm]
    · rw [size_modifyNode]
      exact size_modifyNode

namespace Pushed

variable {frame : FrameId} {list' : PageList}

/-- Another entry may change whom it names, and nothing else. So it is queued just if it was. -/
theorem exists_node (h : Pushed list slot node frame list') (hne : other ≠ slot) {held : ListNode}
    (hheld : list'.node? other = some held) :
    ∃ next?, list.node? other = some { held with next? } := by
  rw [h.node?_eq, if_neg hne] at hheld
  split at hheld
  · obtain ⟨was, hwas, rfl⟩ := Option.map_eq_some_iff.1 hheld
    exact ⟨_, hwas⟩
  · exact ⟨_, hheld⟩

theorem node?_eq_none_iff (h : Pushed list slot node frame list') (hslot : list.node? slot = some node) :
    list'.node? other = none ↔ list.node? other = none := by
  rw [h.node?_eq]
  split
  · next heq => rw [heq, hslot]; simp
  · split
    · exact Option.map_eq_none_iff
    · exact Iff.rfl

/-- The slot has its page in the frame, and the other ones what they hold. -/
theorem held?_eq (h : Pushed list slot node frame list') :
    list'.held? = Function.update list.held? slot (some (node.page, some frame)) := by
  funext other
  rw [Function.update_apply, held?, h.node?_eq]
  split
  · rfl
  · split
    -- a link is no part of an entry
    · rw [Option.map_map]
      rfl
    · rfl

/-- **Neighbours.** The new entry and the one that was newest name each other. -/
theorem neighbours (h : Pushed list slot node frame list') (hlist : list.Links order)
    (hnew : slot ∉ order) {queued : Nat} {before after : List Nat}
    (horder : order ++ [slot] = before ++ queued :: after) :
    ∃ node, list'.node? queued = some node ∧ node.linked = true ∧ node.frame?.isSome = true ∧
      node.prev? = before.getLast? ∧ node.next? = after.head? := by
  rcases append_singleton_eq_split horder with ⟨rfl, rfl, rfl⟩ | ⟨rest, rfl, hold⟩
  · -- the new entry itself
    exact ⟨_, (h.node?_eq _).trans (if_pos rfl), rfl, rfl, hlist.tail_eq, rfl⟩
  · -- an older one, which is the newest of these or is not
    obtain ⟨found, hfound, hlinked, hframe, hprev, hnext⟩ := hlist.neighbours hold
    have hne : queued ≠ slot := fun heq => hnew (hold ▸ heq ▸ List.mem_append_cons_self)
    have hlast : list.tail? = some queued ↔ rest = [] := by
      rw [hlist.tail_eq, hold]
      exact getLast?_split_iff (hold ▸ hlist.nodup)
    have hqueued := (h.node?_eq queued).trans (if_neg hne)
    cases rest with
    | nil =>
      -- the entry that was newest now leads to the new one
      rw [if_pos (hlast.2 rfl), hfound] at hqueued
      exact ⟨_, hqueued, hlinked, hframe, hprev, rfl⟩
    | cons next rest =>
      rw [if_neg fun heq => List.cons_ne_nil _ _ (hlast.1 heq), hfound] at hqueued
      exact ⟨_, hqueued, hlinked, hframe, hprev, hnext⟩

/-- The sequence goes on with the slot. -/
theorem links (h : Pushed list slot node frame list') (hlist : list.Links order)
    (hslot : list.node? slot = some node) (hnew : slot ∉ order) : list'.Links (order ++ [slot]) where
  nodup := by
    refine List.nodup_append.2 ⟨hlist.nodup, List.pairwise_singleton _ _, fun a ha b hb heq => ?_⟩
    rw [heq, List.mem_singleton.1 hb] at ha
    exact hnew ha
  neighbours horder := h.neighbours hlist hnew horder
  mem_of_linked {queued found} hfound hlinked := by
    rw [List.mem_append, List.mem_singleton]
    by_cases hqueued : queued = slot
    · exact .inr hqueued
    · obtain ⟨_, hwas⟩ := h.exists_node hqueued hfound
      exact .inl (hlist.mem_of_linked hwas hlinked)
  head_eq := by
    rw [h.head_eq, hlist.head_eq, hlist.tail_eq]
    cases order with
    | nil => rfl
    | cons first rest => simp
  tail_eq := by rw [h.tail_eq, List.getLast?_concat]
  length_eq := by rw [h.length_eq, hlist.length_eq, List.length_append, List.length_singleton]
  vacant_nodup := by
    rw [h.vacant_eq]
    exact hlist.vacant_nodup
  mem_vacant_iff {other} := by
    rw [h.vacant_eq, h.size_eq, h.node?_eq_none_iff hslot]
    exact hlist.mem_vacant_iff

end Pushed

/-- **The newest entry.** A page that is not queued can be, and then comes last. -/
theorem pushBack_eq_ok (h : list.Links order) (hslot : list.node? slot = some node)
    (hunlinked : node.linked = false) (frame : FrameId) :
    ∃ list', list.pushBack slot frame = .ok list' ∧ list'.Links (order ++ [slot]) ∧
      list'.held? = Function.update list.held? slot (some (node.page, some frame)) := by
  have hnew : slot ∉ order := h.not_mem_of_unlinked hslot hunlinked
  have htail : list.tail? ≠ some slot := by
    rw [h.tail_eq]
    exact fun heq => hnew (List.mem_of_getLast? heq)
  obtain ⟨list', hpush, hpushed⟩ := exists_pushed hslot hunlinked htail frame
  exact ⟨list', hpush, hpushed.links h hslot hnew, hpushed.held?_eq⟩

/-! ### Taking a page out of the queue -/

/-- What taking an entry out does to the nodes: its own is no longer queued, and its neighbours lead to
each other. The three kinds of nodes that change are different ones, since no slot is queued twice. -/
structure Unlinked (list : PageList) (slot : Nat) (node : ListNode) (list' : PageList) : Prop where
  /-- No other nodes change. -/
  node?_eq : ∀ other, list'.node? other =
    if other = slot then some { node with prev? := none, next? := none, linked := false }
    else if node.prev? = some other then
      (list.node? other).map ({ · with next? := node.next? })
    else if node.next? = some other then
      (list.node? other).map ({ · with prev? := node.prev? })
    else list.node? other
  /-- If it was the first one, the next one is now. -/
  head_eq : list'.head? = if node.prev? = none then node.next? else list.head?
  /-- If it was the last one, the one before it is now. -/
  tail_eq : list'.tail? = if node.next? = none then node.prev? else list.tail?
  /-- There is one entry less. -/
  length_eq : list'.length = list.length - 1
  /-- No slot becomes vacant. -/
  vacant_eq : list'.vacant = list.vacant
  /-- There are as many slots. -/
  size_eq : list'.slots.size = list.slots.size

theorem exists_unlinked (hslot : list.node? slot = some node) (hlinked : node.linked = true)
    (hprev : node.prev? ≠ some slot) (hnext : node.next? ≠ some slot)
    (hapart : ∀ other, node.prev? = some other → node.next? ≠ some other) :
    ∃ list', list.unlink slot = .ok list' ∧ Unlinked list slot node list' := by
  obtain ⟨page, frame?, prev?, next?, linked⟩ := node
  obtain rfl : linked = true := hlinked
  unfold unlink
  rw [node_eq_ok hslot]
  simp only [bind, Except.bind, Fault.require, if_true]
  let alone := list.modifyNode slot ({ · with prev? := none, next? := none, linked := false })
  have hown : ∀ other, alone.node? other =
      if other = slot then some { page, frame? } else list.node? other := by
    intro other
    rw [node?_modifyNode]
    split
    · next heq => rw [heq, hslot]; rfl
    · rfl
  -- the slot that is taken out is no neighbour of itself, so its node stays as it is now
  cases prev? with
  | none =>
    cases next? with
    | none =>
      exact ⟨_, rfl, fun other => (node?_congr alone rfl).trans (hown other), rfl, rfl, rfl, rfl,
        size_modifyNode⟩
    | some after =>
      refine ⟨_, rfl, fun other => ?_, rfl, rfl, rfl, rfl, size_modifyNode.trans size_modifyNode⟩
      refine (node?_congr (alone.modifyNode after ({ · with prev? := none })) rfl).trans ?_
      rw [node?_modifyNode, hown]
      have hne : after ≠ slot := fun heq => hnext (heq ▸ rfl)
      grind
  | some before =>
    have hne : before ≠ slot := fun heq => hprev (heq ▸ rfl)
    cases next? with
    | none =>
      refine ⟨_, rfl, fun other => ?_, rfl, rfl, rfl, rfl, size_modifyNode.trans size_modifyNode⟩
      refine (node?_congr (alone.modifyNode before ({ · with next? := none })) rfl).trans ?_
      rw [node?_modifyNode, hown]
      grind
    | some after =>
      have hne' : after ≠ slot := fun heq => hnext (heq ▸ rfl)
      have hne'' : before ≠ after := fun heq => hapart before rfl (heq ▸ rfl)
      refine ⟨_, rfl, fun other => ?_, rfl, rfl, rfl, rfl,
        size_modifyNode.trans (size_modifyNode.trans size_modifyNode)⟩
      refine (node?_congr ((alone.modifyNode before
        ({ · with next? := some after })).modifyNode after ({ · with prev? := some before }))
        rfl).trans ?_
      rw [node?_modifyNode, node?_modifyNode, hown]
      grind

/-- Where a slot stands in a sequence that lost one: before the gap or after it. -/
theorem append_eq_split {before after front rest : List Nat}
    (h : before ++ after = front ++ other :: rest) :
    (∃ mid, before = front ++ other :: mid ∧ rest = mid ++ after) ∨
      ∃ mid, front = before ++ mid ∧ after = mid ++ other :: rest := by
  rcases List.append_eq_append_iff.1 h with ⟨mid, hfront, hafter⟩ | ⟨mid, hbefore, hrest⟩
  · exact .inr ⟨mid, hfront, hafter⟩
  · cases mid with
    | nil => exact .inr ⟨[], by simpa using hbefore.symm, by simpa using hrest.symm⟩
    | cons first mid =>
      obtain ⟨rfl, rfl⟩ := List.cons.inj hrest
      exact .inl ⟨mid, hbefore, rfl⟩

namespace Unlinked

variable {list' : PageList} {before after : List Nat}

theorem node?_self (h : Unlinked list slot node list') :
    list'.node? slot = some { node with prev? := none, next? := none, linked := false } :=
  (h.node?_eq slot).trans (if_pos rfl)

/-- Neighbours change whom they name, and nothing else of another entry does. -/
theorem exists_node (h : Unlinked list slot node list') (hne : other ≠ slot) {held : ListNode}
    (hheld : list'.node? other = some held) :
    ∃ prev? next?, list.node? other = some { held with prev?, next? } := by
  rw [h.node?_eq, if_neg hne] at hheld
  split at hheld
  · obtain ⟨was, hwas, rfl⟩ := Option.map_eq_some_iff.1 hheld
    exact ⟨_, _, hwas⟩
  · split at hheld
    · obtain ⟨was, hwas, rfl⟩ := Option.map_eq_some_iff.1 hheld
      exact ⟨_, _, hwas⟩
    · exact ⟨_, _, hheld⟩

theorem node?_eq_none_iff (h : Unlinked list slot node list') (hslot : list.node? slot = some node) :
    list'.node? other = none ↔ list.node? other = none := by
  rw [h.node?_eq]
  split
  · next heq => rw [heq, hslot]; simp
  · split
    · exact Option.map_eq_none_iff
    · split
      · exact Option.map_eq_none_iff
      · exact Iff.rfl

/-- The slot keeps its page, and the other ones what they hold. -/
theorem held?_eq (h : Unlinked list slot node list') :
    list'.held? = Function.update list.held? slot (some (node.page, none)) := by
  funext other
  rw [Function.update_apply, held?, h.node?_eq]
  split
  · rfl
  · split
    · rw [Option.map_map]
      rfl
    · split
      · rw [Option.map_map]
        rfl
      · rfl

/-- **Neighbours.** Those of the entry that was taken out name each other, and all other entries name
the same ones as before. -/
theorem neighbours (h : Unlinked list slot node list') (hlist : list.Links (before ++ slot :: after))
    (hprev : node.prev? = before.getLast?) (hnext : node.next? = after.head?) {queued : Nat}
    {front rest : List Nat} (horder : before ++ after = front ++ queued :: rest) :
    ∃ node, list'.node? queued = some node ∧ node.linked = true ∧ node.frame?.isSome = true ∧
      node.prev? = front.getLast? ∧ node.next? = rest.head? := by
  -- nothing stands both before and after the one taken out
  obtain ⟨hbefore, hrest, hdisjoint⟩ := List.nodup_append.1 hlist.nodup
  obtain ⟨hnotin, hafter⟩ := List.nodup_cons.1 hrest
  have hapart : ∀ other ∈ before, other ∉ after := fun other hb ha =>
    hdisjoint _ hb _ (List.mem_cons_of_mem _ ha) rfl
  have hqueued := h.node?_eq queued
  rcases append_eq_split horder with ⟨mid, rfl, rfl⟩ | ⟨mid, rfl, rfl⟩
  -- an entry that was before the one taken out
  · have hsplit :
        front ++ queued :: mid ++ slot :: after = front ++ queued :: (mid ++ slot :: after) :=
      List.append_assoc ..
    obtain ⟨held, hheld, hqlinked, hframe, hqprev, hqnext⟩ := hlist.neighbours hsplit
    have hin : queued ∈ front ++ queued :: mid := List.mem_append_cons_self
    have hne : queued ≠ slot := fun heq => hdisjoint _ hin _ List.mem_cons_self heq
    rw [if_neg hne] at hqueued
    -- it led to the one taken out if it was the last one before it
    cases mid with
    | nil =>
      rw [if_pos (by rw [hprev, List.getLast?_concat]), hheld] at hqueued
      exact ⟨_, hqueued, hqlinked, hframe, hqprev, hnext⟩
    | cons next mid =>
      have hlast : node.prev? ≠ some queued := by
        rw [hprev]
        exact fun heq => List.cons_ne_nil _ _ ((getLast?_split_iff hbefore).1 heq)
      have hfirst : node.next? ≠ some queued := by
        rw [hnext]
        exact fun heq => hapart _ hin (List.mem_of_head? heq)
      rw [if_neg hlast, if_neg hfirst, hheld] at hqueued
      exact ⟨_, hqueued, hqlinked, hframe, hqprev, hqnext⟩
  -- an entry that was after it
  · have hsplit :
        before ++ slot :: (mid ++ queued :: rest) = (before ++ slot :: mid) ++ queued :: rest :=
      (List.append_assoc before (slot :: mid) _).symm
    obtain ⟨held, hheld, hqlinked, hframe, hqprev, hqnext⟩ := hlist.neighbours hsplit
    have hin : queued ∈ mid ++ queued :: rest := List.mem_append_cons_self
    have hlast : node.prev? ≠ some queued := by
      rw [hprev]
      exact fun heq => hapart _ (List.mem_of_getLast? heq) hin
    rw [if_neg fun heq : queued = slot => hnotin (heq ▸ hin), if_neg hlast] at hqueued
    -- the first one after it was led to from there
    cases mid with
    | nil =>
      rw [if_pos (by rw [hnext]; rfl), hheld] at hqueued
      refine ⟨_, hqueued, hqlinked, hframe, ?_, hqnext⟩
      rw [List.append_nil]
      exact hprev
    | cons next mid =>
      have hfirst : node.next? ≠ some queued := by
        rw [hnext]
        exact fun heq => List.cons_ne_nil _ _ ((head?_split_iff hafter).1 heq)
      rw [if_neg hfirst, hheld] at hqueued
      refine ⟨_, hqueued, hqlinked, hframe, ?_, hqnext⟩
      rw [hqprev]
      simp [List.getLast?_append, List.getLast?_cons]

/-- The sequence has lost the slot. -/
theorem links (h : Unlinked list slot node list') (hlist : list.Links (before ++ slot :: after))
    (hslot : list.node? slot = some node) (hprev : node.prev? = before.getLast?)
    (hnext : node.next? = after.head?) : list'.Links (before ++ after) where
  nodup := (List.nodup_cons.1 (List.perm_middle.nodup_iff.1 hlist.nodup)).2
  neighbours horder := h.neighbours hlist hprev hnext horder
  mem_of_linked {queued held} hheld hlinked := by
    by_cases hne : queued = slot
    · rw [hne, h.node?_self] at hheld
      cases hheld
      cases hlinked
    · obtain ⟨_, _, hwas⟩ := h.exists_node hne hheld
      have hold := hlist.mem_of_linked hwas hlinked
      rw [List.mem_append, List.mem_cons, or_iff_right (a := queued = slot) hne] at hold
      exact List.mem_append.2 hold
  head_eq := by
    rw [h.head_eq, hlist.head_eq, hprev, hnext]
    cases before with
    | nil => rfl
    | cons first rest => simp
  tail_eq := by
    rw [h.tail_eq, hlist.tail_eq, hprev, hnext]
    cases after with
    | nil => simp
    | cons first rest => simp [List.getLast?_append, List.getLast?_cons]
  length_eq := by
    rw [h.length_eq, hlist.length_eq]
    simp
  vacant_nodup := by
    rw [h.vacant_eq]
    exact hlist.vacant_nodup
  mem_vacant_iff {other} := by
    rw [h.vacant_eq, h.size_eq, h.node?_eq_none_iff hslot]
    exact hlist.mem_vacant_iff

end Unlinked

/-- **One entry less.** A queued page can be taken out; its neighbours become neighbours. That it is not
a neighbour of itself, and that its neighbours are two, is what the sequence says. -/
theorem unlink_eq_ok {before after : List Nat} (h : list.Links (before ++ slot :: after))
    (hslot : list.node? slot = some node) :
    ∃ list', list.unlink slot = .ok list' ∧ list'.Links (before ++ after) ∧
      list'.held? = Function.update list.held? slot (some (node.page, none)) ∧
      list'.node? slot = some { node with prev? := none, next? := none, linked := false } := by
  obtain ⟨found, hfound, hlinked, -, hprev, hnext⟩ := h.neighbours rfl
  cases hslot.symm.trans hfound
  obtain ⟨-, hrest, hdisjoint⟩ := List.nodup_append.1 h.nodup
  have hnotprev : node.prev? ≠ some slot := fun heq =>
    hdisjoint _ (List.mem_of_getLast? (hprev ▸ heq)) _ List.mem_cons_self rfl
  have hnotnext : node.next? ≠ some slot := fun heq =>
    (List.nodup_cons.1 hrest).1 (List.mem_of_head? (hnext ▸ heq))
  have hapart : ∀ other, node.prev? = some other → node.next? ≠ some other := fun other hp hn =>
    hdisjoint _ (List.mem_of_getLast? (hprev ▸ hp)) _
      (List.mem_cons_of_mem _ (List.mem_of_head? (hnext ▸ hn))) rfl
  obtain ⟨list', hunlink, hunlinked⟩ := exists_unlinked hslot hlinked hnotprev hnotnext hapart
  exact ⟨list', hunlink, hunlinked.links h hslot hprev hnext, hunlinked.held?_eq,
    hunlinked.node?_self⟩

/-- **The oldest entry.** If any page is queued then the first is taken out, and its frame told.
Its slot stays with the page, without the frame. -/
theorem popFront_eq_ok (h : list.Links (slot :: order)) :
    ∃ node frame list', list.node? slot = some node ∧ node.queuedIn? = some frame ∧
      list.popFront = .ok (some frame, list') ∧ list'.Links order ∧
      list'.held? = Function.update list.held? slot (some (node.page, none)) := by
  -- the first entry is one with nothing before it
  have h : list.Links ([] ++ slot :: order) := h
  obtain ⟨node, hslot, hlinked, hframe, -⟩ := h.neighbours rfl
  obtain ⟨frame, hframe⟩ := Option.isSome_iff_exists.1 hframe
  obtain ⟨list', hunlink, hlinks, hentry, -⟩ := unlink_eq_ok h hslot
  refine ⟨node, frame, list', hslot, ?_, ?_, hlinks, hentry⟩
  · rw [ListNode.queuedIn?, hlinked, if_pos rfl, hframe]
  · have hhead : list.head? = some slot := h.head_eq
    rw [popFront, hhead]
    simp only [node_eq_ok hslot, hunlink, hframe, bind, Except.bind]
    rfl

/-- **A used page.** A queued page can be moved to the end, and nothing else changes. It is taken out and
queued again, with the frame that it had. -/
theorem moveToBack_eq_ok {before after : List Nat} (h : list.Links (before ++ slot :: after)) :
    ∃ list', list.moveToBack slot = .ok list' ∧ list'.Links (before ++ after ++ [slot]) ∧
      list'.held? = list.held? := by
  obtain ⟨node, hslot, hlinked, hframe, -⟩ := h.neighbours rfl
  obtain ⟨frame, hframe⟩ := Option.isSome_iff_exists.1 hframe
  obtain ⟨list₁, hunlink, hlinks₁, hentry₁, hslot₁⟩ := unlink_eq_ok h hslot
  obtain ⟨list', hpush, hlinks, hentry⟩ := pushBack_eq_ok hlinks₁ hslot₁ rfl frame
  refine ⟨list', ?_, hlinks, ?_⟩
  · rw [moveToBack, node_eq_ok hslot]
    simp only [bind, Except.bind, hframe, Fault.demand, hunlink]
    exact hpush
  -- what was taken out was put back as it was
  · rw [hentry, hentry₁, Function.update_idem]
    refine Function.update_eq_self_iff.2 ?_
    rw [held?_eq_some hslot, ListNode.queuedIn?, hlinked, if_pos rfl, hframe]

/-! ### Freeing a slot -/

/-- Emptying a slot that is not queued. The sequence does not notice, since no entry names a
slot outside of it. -/
theorem Links.vacate (h : list.Links order) (hslot : list.node? slot = some node)
    (hnew : slot ∉ order) :
    Links { list with slots := list.slots.setIfInBounds slot none, vacant := slot :: list.vacant }
      order := by
  have hlt := lt_size_of_node? hslot
  have hnode : ∀ other, PageList.node? { list with
      slots := list.slots.setIfInBounds slot none, vacant := slot :: list.vacant } other =
        if other = slot then none else list.node? other := by
    intro other
    simp only [node?, Array.getElem?_setIfInBounds, hlt, if_true, eq_comm (a := slot)]
    split <;> rfl
  refine ⟨h.nodup, ?_, ?_, h.head_eq, h.tail_eq, h.length_eq, ?_, ?_⟩
  -- the sequence does not go through the slot
  · intro before queued after horder
    obtain ⟨found, hfound, hrest⟩ := h.neighbours horder
    refine ⟨found, ?_, hrest⟩
    rw [hnode, if_neg fun heq : queued = slot => hnew (horder ▸ heq ▸ List.mem_append_cons_self),
      hfound]
  · intro queued found hfound hlinked
    rw [hnode] at hfound
    split at hfound
    · cases hfound
    · exact h.mem_of_linked hfound hlinked
  · refine List.nodup_cons.2 ⟨fun hmem => ?_, h.vacant_nodup⟩
    -- the slot was not vacant before, since it held something
    rw [h.mem_vacant_iff, hslot] at hmem
    cases hmem.2
  · -- a slot is empty if it is this one or was empty before
    intro other
    rw [hnode, Array.size_setIfInBounds, List.mem_cons, h.mem_vacant_iff]
    split
    · next heq => simp [heq, hlt]
    · next hne => rw [or_iff_right hne]

/-- **A slot less.** The slot of a page can be freed, whether the page is queued or not. In the
first case it is taken out of the sequence before it is emptied. -/
theorem release_eq_ok (h : list.Links order) (hslot : list.node? slot = some node) :
    ∃ list', list.release slot = .ok list' ∧ list'.Links (order.erase slot) ∧
      list'.held? = Function.update list.held? slot none := by
  have hentry : ∀ l : PageList, slot < l.slots.size → PageList.held? { l with
      slots := l.slots.setIfInBounds slot none, vacant := slot :: l.vacant } =
        Function.update l.held? slot none := by
    intro l hlt
    funext other
    simp only [held?, node?, Array.getElem?_setIfInBounds, hlt, if_true, Function.update_apply,
      eq_comm (a := slot)]
    split <;> rfl
  unfold release
  rw [node_eq_ok hslot]
  by_cases hlinked : node.linked = true
  -- a queued slot is taken out of the sequence first
  · obtain ⟨before, after, rfl⟩ := List.append_of_mem (h.mem_of_linked hslot hlinked)
    obtain ⟨list₁, hunlink, hlinks₁, hentry₁, hslot₁⟩ := unlink_eq_ok h hslot
    have hslotb : slot ∉ before := fun hmem =>
      (List.nodup_append.1 h.nodup).2.2 _ hmem _ List.mem_cons_self rfl
    have hrest := (List.nodup_cons.1 (List.nodup_append.1 h.nodup).2.1).1
    have herase : (before ++ slot :: after).erase slot = before ++ after := by
      rw [List.erase_append_right _ hslotb, List.erase_cons_head]
    refine ⟨_, ?_, herase ▸ hlinks₁.vacate hslot₁ ?_, ?_⟩
    · simp only [bind, Except.bind, hlinked, if_true, hunlink]
      rfl
    · rw [hentry _ (lt_size_of_node? hslot₁), hentry₁, Function.update_idem]
    · rw [List.mem_append]
      exact fun hmem => hmem.elim hslotb hrest
  · have hunlinked := Bool.eq_false_iff.2 hlinked
    have hnew := h.not_mem_of_unlinked hslot hunlinked
    refine ⟨_, ?_, (List.erase_of_not_mem hnew).symm ▸ h.vacate hslot hnew,
      hentry _ (lt_size_of_node? hslot)⟩
    simp only [bind, Except.bind, hunlinked, Bool.false_eq_true, if_false]
    rfl

/-! ### Reading the sequence -/

/-- Where each slot of a path leads to the next one, following the links finds the path. It is
used for both directions, with the one link or the other. -/
theorem follow_eq_some {link : ListNode → Option Nat} {path : List Nat} {steps : Nat}
    (hlink : ∀ before slot after, path = before ++ slot :: after →
      ∃ node, list.node? slot = some node ∧ link node = after.head?)
    (hsteps : path.length ≤ steps) :
    ∃ nodes, list.follow link steps path.head? = some nodes ∧ nodes.map (·.1) = path ∧
      ∀ entry ∈ nodes, list.node? entry.1 = some entry.2 := by
  induction path generalizing steps with
  | nil => exact ⟨[], by rw [List.head?_nil, follow], rfl, fun _ hmem => by cases hmem⟩
  | cons slot rest ih =>
    cases steps with
    | zero => exact absurd hsteps (Nat.not_succ_le_zero _)
    | succ steps =>
      -- the slot leads to the first one of the rest, which is found with one step less
      obtain ⟨node, hnode, hnext⟩ := hlink [] slot rest rfl
      obtain ⟨nodes, hfollow, hslots, hnodes⟩ :=
        ih (fun before _ _ horder => hlink (slot :: before) _ _ (horder ▸ rfl))
          (Nat.le_of_succ_le_succ hsteps)
      refine ⟨(slot, node) :: nodes, ?_, ?_, fun entry hmem => ?_⟩
      · rw [List.head?_cons, follow, hnode]
        simp only [hnext, hfollow, Option.bind_eq_bind, Option.bind_some, Option.pure_def]
      · rw [List.map_cons, hslots]
      · rcases List.mem_cons.1 hmem with rfl | hmem
        · exact hnode
        · exact hnodes _ hmem

/-- No slot is in the sequence twice, so it is no longer than the list has slots. This is how many steps
are enough to follow it. -/
theorem Links.length_le_size (h : list.Links order) : order.length ≤ list.slots.size := by
  have hsubset : order ⊆ List.range list.slots.size := by
    intro slot hmem
    obtain ⟨before, after, horder⟩ := List.append_of_mem hmem
    obtain ⟨node, hnode, -⟩ := h.neighbours horder
    exact List.mem_range.2 (lt_size_of_node? hnode)
  have := (h.nodup.subperm hsubset).length_le
  rwa [List.length_range] at this

/-- Following the links from the oldest entry on finds the sequence. -/
theorem Links.follow_next (h : list.Links order) :
    ∃ nodes, list.follow ListNode.next? list.slots.size list.head? = some nodes ∧
      nodes.map (·.1) = order ∧ ∀ entry ∈ nodes, list.node? entry.1 = some entry.2 := by
  rw [h.head_eq]
  refine follow_eq_some (fun _ _ _ horder => ?_) h.length_le_size
  obtain ⟨node, hnode, -, -, -, hnext⟩ := h.neighbours horder
  exact ⟨node, hnode, hnext⟩

/-- Following them back from the newest entry finds it in reverse. -/
theorem Links.follow_prev (h : list.Links order) :
    ∃ nodes, list.follow ListNode.prev? list.slots.size list.tail? = some nodes ∧
      nodes.map (·.1) = order.reverse ∧ ∀ entry ∈ nodes, list.node? entry.1 = some entry.2 := by
  rw [h.tail_eq, ← List.head?_reverse]
  refine follow_eq_some (fun before slot after horder => ?_)
    (Nat.le_trans (Nat.le_of_eq List.length_reverse) h.length_le_size)
  -- what comes after a slot in reverse comes before it
  have hsplit : order = after.reverse ++ slot :: before.reverse := by
    rw [← List.reverse_reverse order, horder]
    simp
  obtain ⟨node, hnode, -, -, hprev, -⟩ := h.neighbours hsplit
  exact ⟨node, hnode, by rw [hprev, List.getLast?_reverse]⟩

/-- The entries of a list stand in the slots of its sequence, in order. -/
theorem Links.entries_spec (h : list.Links order) :
    list.entries.map (·.1) = order ∧ ∀ entry ∈ list.entries, list.node? entry.1 = some entry.2 := by
  obtain ⟨nodes, hfollow, hslots, hnodes⟩ := h.follow_next
  rw [entries, hfollow]
  exact ⟨hslots, hnodes⟩

/-- **The frames of a list.** They are the frames of its sequence, in order. -/
theorem Links.frames_eq (h : list.Links order) :
    list.frames = order.filterMap fun slot => (list.held? slot).bind (·.2) := by
  obtain ⟨hslots, hnodes⟩ := h.entries_spec
  rw [frames, ← hslots, List.filterMap_map]
  refine List.filterMap_congr fun entry hmem => ?_
  have hnode := hnodes entry hmem
  have hlinked : entry.2.linked = true :=
    (h.linked_iff hnode).2 (hslots ▸ List.mem_map_of_mem hmem)
  rw [Function.comp_apply, held?_eq_some hnode, Option.bind_some, ListNode.queuedIn?, hlinked,
    if_pos rfl]

end PageList

end DemandPaging
