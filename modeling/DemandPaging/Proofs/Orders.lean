import DemandPaging.Proofs.Tracking

/-!
# The order of the list

What the list of a list-keeping policy is about is the sequence of the pages in it, `PageList.refs`,
oldest first. Each operation has a plain effect on that sequence: a page that is loaded comes to its
end, a page that is used moves there, the page that leaves comes from its front, and a page that is
dropped is taken out of it. The frames of the list are those of the sequence, in order
(`Follows.frames_eq`).

The two policies that keep a list (`Policy.Keeps`) do these things on the same notices, but for one: a
use moves the page under the one, and has no effect under the other.
-/

namespace DemandPaging

/-- The slot of a page is the one that it is marked with. -/
theorem Page.overhead_of_slot {page : Page} {slot : Nat} (h : page.slot = .ok slot) :
    page.overhead = .listed slot := by
  unfold Page.slot at h
  split at h
  · next hslot =>
    cases h
    exact hslot
  · cases h

namespace PageList

variable {list list' : PageList} {order : List Nat} {pages : PageMap} {ref : PageRef} {page : Page}
  {frame : FrameId} {slot : Nat}

/-- The pages in the list, oldest first. The slots that these pages have do not show in it. -/
def refs (list : PageList) : List PageRef := list.entries.map (·.2.page)

/-- The page that a slot belongs to, whether the slot is in the list or not. It is the owner
until the slot is given back. -/
def owner? (list : PageList) (slot : Nat) : Option PageRef := (list.held? slot).map (·.1)

theorem refs_empty : (∅ : PageList).refs = [] := rfl

/-- Going through the list by its links, each slot gives the page that owns it. -/
theorem Links.refs_eq (h : list.Links order) : list.refs = order.filterMap list.owner? := by
  obtain ⟨hslots, hnodes⟩ := h.entries_spec
  rw [refs, ← hslots, List.filterMap_map, ← List.filterMap_eq_map]
  refine List.filterMap_congr fun entry hmem => ?_
  rw [Function.comp_apply, Function.comp_apply, owner?, held?_eq_some (hnodes entry hmem)]
  rfl

/-- The owners stay the same when a slot hears of another frame for its page. -/
theorem owner?_of_update {frame? : Option FrameId} (howner : list.owner? slot = some ref)
    (h : list'.held? = Function.update list.held? slot (some (ref, frame?))) :
    list'.owner? = list.owner? := by
  funext other
  rw [owner?, h, Function.update_apply]
  split
  · next heq => rw [heq, howner, Option.map_some]
  · rfl

namespace Follows

theorem owner?_eq_some (h : list.Follows pages) (hpage : pages ref = some page)
    (hslot : page.overhead = .listed slot) : list.owner? slot = some ref := by
  rw [owner?, h.entry_of_page hpage hslot]
  rfl

/-- **Membership.** The pages in the list are the resident ones. Each page that is known has a slot, and
the slot is in the list just while the page has a frame. -/
theorem mem_refs_iff (h : list.Follows pages) :
    ref ∈ list.refs ↔ ∃ frame, pages.frame? ref = some frame := by
  obtain ⟨order, hlinks⟩ := h.links
  rw [hlinks.refs_eq, List.mem_filterMap]
  constructor
  · rintro ⟨slot, hmem, howner⟩
    -- a slot in the sequence has a frame, which is the one of its page
    obtain ⟨before, after, horder⟩ := List.append_of_mem hmem
    obtain ⟨node, hnode, hlinked, hsome, -⟩ := hlinks.neighbours horder
    have hheld := held?_eq_some hnode
    rw [owner?, hheld] at howner
    cases howner
    obtain ⟨page, hpage, -, hframe⟩ := h.frame_of_entry hheld
    obtain ⟨frame, hnodeFrame⟩ := Option.isSome_iff_exists.1 hsome
    refine ⟨frame, PageMap.frame?_eq_some_iff.2 ⟨page, hpage, ?_⟩⟩
    rw [hframe, ListNode.queuedIn?, if_pos hlinked, hnodeFrame]
  · -- the slot of a resident page is linked, so it is in the sequence
    rintro ⟨frame, hframe⟩
    obtain ⟨page, hpage, hframe⟩ := PageMap.frame?_eq_some_iff.1 hframe
    obtain ⟨slot, hslot, -⟩ := h.slot_of_page hpage
    exact ⟨slot, h.mem_order hlinks hpage hslot hframe, h.owner?_eq_some hpage hslot⟩

/-- **The frames of the list.** They are the frames of the pages in it, in order. -/
theorem frames_eq (h : list.Follows pages) : list.frames = list.refs.filterMap pages.frame? := by
  obtain ⟨order, hlinks⟩ := h.links
  obtain ⟨hslots, hnodes⟩ := hlinks.entries_spec
  rw [frames, refs, List.filterMap_map]
  refine List.filterMap_congr fun entry hmem => ?_
  have hnode := hnodes entry hmem
  have hlinked : entry.2.linked = true :=
    (hlinks.linked_iff hnode).2 (hslots ▸ List.mem_map_of_mem hmem)
  obtain ⟨page, hpage, -, hframe⟩ := h.frame_of_entry (held?_eq_some hnode)
  -- the slot has noted the frame that its page is in
  rw [Function.comp_apply, PageMap.frame?_of_page hpage, hframe, ListNode.queuedIn?, if_pos hlinked]

/-- A slot is the only one of its page, since the page is marked with it. -/
theorem owner?_inj (h : list.Follows pages) {other : Nat} (hslot : list.owner? slot = some ref)
    (hother : list.owner? other = some ref) : slot = other := by
  obtain ⟨⟨_, frame?⟩, hheld, rfl⟩ := Option.map_eq_some_iff.1 hslot
  obtain ⟨⟨_, frame?'⟩, hheld', heq⟩ := Option.map_eq_some_iff.1 hother
  cases heq
  obtain ⟨page, hpage, hoverhead⟩ := h.page_of_slot hheld
  obtain ⟨page', hpage', hoverhead'⟩ := h.page_of_slot hheld'
  cases hpage.symm.trans hpage'
  cases hoverhead.symm.trans hoverhead'
  rfl

/-- No page is in the list twice. -/
theorem nodup_refs (h : list.Follows pages) : list.refs.Nodup := by
  obtain ⟨order, hlinks⟩ := h.links
  rw [hlinks.refs_eq]
  exact hlinks.nodup.filterMap fun slot other ref hslot hother => h.owner?_inj hslot hother

end Follows

/-! ### Operations -/

theorem refs_alloc (h : list.Follows pages) (ref : PageRef) :
    (list.alloc ref).2.refs = list.refs := by
  obtain ⟨order, hlinks⟩ := h.links
  obtain ⟨hempty, hlinks', hnodes⟩ := alloc_links hlinks ref
  rw [hlinks'.refs_eq, hlinks.refs_eq]
  refine List.filterMap_congr fun slot hmem => ?_
  -- a slot in the sequence is not the new one
  have hne : slot ≠ (list.alloc ref).1 := by
    rintro rfl
    obtain ⟨before, after, horder⟩ := List.append_of_mem hmem
    obtain ⟨node, hnode, -⟩ := hlinks.neighbours horder
    cases hempty.symm.trans hnode
  rw [owner?, owner?, held?, held?, hnodes, if_neg hne]

/-- A page that is loaded becomes the newest one. Its slot was not linked, or the list would have refused
it. -/
theorem refs_pushBack (h : list.Follows pages) (hpage : pages ref = some page)
    (hslot : page.overhead = .listed slot) (hpush : list.pushBack slot frame = .ok list') :
    list'.refs = list.refs ++ [ref] := by
  obtain ⟨order, hlinks⟩ := h.links
  have howner := h.owner?_eq_some hpage hslot
  obtain ⟨node, hnode, rfl, -⟩ := h.node_of_page hpage hslot
  have hunlinked : node.linked = false := by
    have hpushed := hpush
    simp only [pushBack, node_eq_ok hnode, Fault.bind_eq_ok_iff] at hpushed
    obtain ⟨_, hsame, _, hunlinked, -⟩ := hpushed
    cases hsame
    simpa using Fault.require_eq_ok_iff.1 hunlinked
  -- the slot comes to the end of the links, and no slot has another owner
  obtain ⟨_, hpush', hlinks', hheld⟩ := pushBack_eq_ok hlinks hnode hunlinked frame
  cases hpush.symm.trans hpush'
  rw [hlinks'.refs_eq, owner?_of_update howner hheld, List.filterMap_append, hlinks.refs_eq,
    List.filterMap_cons_some howner]
  rfl

/-- A page that is moved becomes the newest one, and the others stay in order. Its frame does
not change, so that only the order does. -/
theorem refs_moveToBack (h : list.Follows pages) (hpage : pages ref = some page)
    (hslot : page.overhead = .listed slot) (hframe : page.frame? = some frame)
    (hmove : list.moveToBack slot = .ok list') : list'.refs = list.refs.erase ref ++ [ref] := by
  obtain ⟨order, hlinks⟩ := h.links
  have howner := h.owner?_eq_some hpage hslot
  have hnodup := h.nodup_refs
  obtain ⟨before, after, rfl⟩ := List.append_of_mem (h.mem_order hlinks hpage hslot hframe)
  obtain ⟨_, hmove', hlinks', hheld⟩ := moveToBack_eq_ok hlinks
  cases hmove.symm.trans hmove'
  have howners : list'.owner? = list.owner? := by
    funext other
    rw [owner?, hheld, owner?]
  -- the page stands nowhere else in the sequence, so it is this place that it is taken out of
  rw [hlinks.refs_eq, List.filterMap_append, List.filterMap_cons_some howner] at hnodup ⊢
  have hnew : ref ∉ before.filterMap list.owner? := fun hmem =>
    (List.nodup_append.1 hnodup).2.2 ref hmem ref List.mem_cons_self rfl
  rw [hlinks'.refs_eq, howners, List.filterMap_append, List.filterMap_append,
    List.filterMap_cons_some howner, List.erase_append_right _ hnew, List.erase_cons_head]
  rfl

/-- The page that leaves is the oldest one. It stays known, and its slot belongs to it still. -/
theorem refs_oldest {kind : PolicyKind} (h : list.Follows pages)
    (holdest : list.oldest kind = .ok (frame, list')) :
    ∃ ref, list.refs = ref :: list'.refs ∧ pages.frame? ref = some frame := by
  obtain ⟨order, hlinks⟩ := h.links
  cases order with
  | nil =>
    -- there is no oldest one in an empty list
    have hpop : list.popFront = .ok (none, list) := by
      rw [popFront, hlinks.head_eq]
      rfl
    rw [oldest, hpop] at holdest
    cases holdest
  | cons first rest =>
    -- the first slot is taken out of the links, and gives the frame that it had noted
    obtain ⟨node, frame', list'', hnode, hqueued, hpop, hlinks', hheld⟩ := popFront_eq_ok hlinks
    rw [oldest, hpop] at holdest
    cases holdest
    have hfirst := held?_eq_some hnode
    have howner : list.owner? first = some node.page := by
      rw [owner?, hfirst]
      rfl
    rw [hqueued] at hfirst
    obtain ⟨page, hpage, -, hframe⟩ := h.frame_of_entry hfirst
    refine ⟨node.page, ?_, PageMap.frame?_eq_some_iff.2 ⟨page, hpage, hframe⟩⟩
    rw [hlinks.refs_eq, hlinks'.refs_eq, owner?_of_update howner hheld,
      List.filterMap_cons_some howner]

/-- The frame that is given up is the first of the list, and leaves the others in order. Asked of frames
alone, this needs the links but not the pages. -/
theorem Links.oldest_frames {rest : List FrameId} (h : list.Links order)
    (hframes : list.frames = frame :: rest) (kind : PolicyKind) :
    ∃ list', list.oldest kind = .ok (frame, list') ∧ list'.frames = rest := by
  rw [h.frames_eq] at hframes
  cases order with
  | nil => cases hframes
  | cons first order =>
    obtain ⟨node, frame', list', hnode, hqueued, hpop, hlinks', hheld⟩ := popFront_eq_ok h
    have hfirst : (list.held? first).bind (·.2) = some frame' := by
      rw [held?_eq_some hnode, Option.bind_some, hqueued]
    simp only [List.filterMap_cons, hfirst, List.cons.injEq] at hframes
    obtain ⟨rfl, rfl⟩ := hframes
    refine ⟨list', ?_, ?_⟩
    · rw [oldest, hpop]
      rfl
    · rw [hlinks'.frames_eq]
      refine List.filterMap_congr fun slot hmem => ?_
      have hne : slot ≠ first := by
        rintro rfl
        exact (List.nodup_cons.1 h.nodup).1 hmem
      rw [hheld, Function.update_of_ne hne]

/-- A page that is dropped is taken out. It may be one that is not in memory, and then it is not in the
list and its slot is only given back. -/
theorem refs_release (h : list.Follows pages) (hpage : pages ref = some page)
    (hslot : page.overhead = .listed slot) (hrelease : list.release slot = .ok list') :
    list'.refs = list.refs.erase ref := by
  obtain ⟨order, hlinks⟩ := h.links
  have howner := h.owner?_eq_some hpage hslot
  have hnodup := h.nodup_refs
  obtain ⟨node, hnode, rfl, -⟩ := h.node_of_page hpage hslot
  obtain ⟨_, hrelease', hlinks', hheld⟩ := release_eq_ok hlinks hnode
  cases hrelease.symm.trans hrelease'
  -- the other slots keep their owners
  have hkept : ∀ other ∈ order.erase slot, list'.owner? other = list.owner? other := by
    intro other hmem
    have hne : other ≠ slot := (hlinks.nodup.mem_erase_iff.1 hmem).1
    rw [owner?, hheld, Function.update_of_ne hne, owner?]
  rw [hlinks'.refs_eq, List.filterMap_congr hkept, hlinks.refs_eq]
  by_cases hmem : slot ∈ order
  · obtain ⟨before, after, rfl⟩ := List.append_of_mem hmem
    rw [hlinks.refs_eq, List.filterMap_append, List.filterMap_cons_some howner] at hnodup
    have hnew : node.page ∉ before.filterMap list.owner? := fun hmem =>
      (List.nodup_append.1 hnodup).2.2 _ hmem _ List.mem_cons_self rfl
    -- neither the page nor its slot stands before this place
    have hslots : slot ∉ before := fun hmem =>
      (List.nodup_append.1 hlinks.nodup).2.2 _ hmem _ List.mem_cons_self rfl
    rw [List.erase_append_right _ hslots, List.erase_cons_head, List.filterMap_append,
      List.filterMap_append, List.filterMap_cons_some howner, List.erase_append_right _ hnew,
      List.erase_cons_head]
  · -- its slot is not linked, and a page that is in the list is there by its slot
    rw [List.erase_of_not_mem hmem, List.erase_of_not_mem]
    intro hin
    obtain ⟨other, hother, heq⟩ := List.mem_filterMap.1 hin
    exact hmem (h.owner?_inj heq howner ▸ hother)

end PageList

/-! ### Policies that keep a list -/

namespace Policy

variable {policy policy' : Policy} {kind : PolicyKind} {list : PageList} {pages : PageMap}
  {ref : PageRef} {page : Page} {frame : FrameId} {total : Nat}

/-- A policy that keeps a list, with its kind and the list. The rest of the section is said of both at
once. -/
inductive Keeps : Policy → PolicyKind → PageList → Prop where
  /-- The list is in order of last use. -/
  | lru (list : PageList) : Keeps (lru list) .lru list
  /-- The list is in order of arrival. -/
  | fifo (list : PageList) : Keeps (fifo list) .fifo list

/-- A policy that was just built has an empty list, if it keeps one. -/
theorem keeps_of_build {seed : Nat} (hkind : kind = .lru ∨ kind = .fifo)
    (h : build kind total seed = .ok policy) : policy.Keeps kind ∅ := by
  rcases hkind with rfl | rfl <;> cases h <;> constructor

namespace Keeps

theorem follows (h : policy.Keeps kind list) (hfollows : policy.Follows total pages) :
    list.Follows pages := by
  cases h with
  | lru | fifo => exact hfollows

theorem tracked?_eq (h : policy.Keeps kind list) : policy.tracked? = some list.frames := by
  cases h with
  | lru | fifo => rfl

/-- A new page does not come into the list yet, as it is not in memory. -/
theorem track (h : policy.Keeps kind list) (hfollows : list.Follows pages) (ref : PageRef) :
    ∃ list', (policy.track ref).2.Keeps kind list' ∧ list'.refs = list.refs := by
  cases h with
  | lru | fifo => exact ⟨_, by constructor, PageList.refs_alloc hfollows ref⟩

/-- A page that is loaded becomes the newest one. -/
theorem noteLoad (h : policy.Keeps kind list) (hfollows : list.Follows pages)
    (hpage : pages ref = some page)
    (hnote : policy.noteLoad { page with frame? := some frame } = .ok policy') :
    ∃ list', policy'.Keeps kind list' ∧ list'.refs = list.refs ++ [ref] := by
  cases h with
  | lru | fifo =>
    simp only [Policy.noteLoad, Fault.bind_eq_ok_iff, Fault.pure_eq_ok_iff] at hnote
    obtain ⟨slot, hslot, frame', -, list', hpush, rfl⟩ := hnote
    have hoverhead : page.overhead = .listed slot := Page.overhead_of_slot hslot
    exact ⟨list', by constructor, PageList.refs_pushBack hfollows hpage hoverhead hpush⟩

/-- A page that is used becomes the newest one, unless the order is that of arrival. This is all that the
two policies differ in. -/
theorem noteAccess (h : policy.Keeps kind list) (hfollows : list.Follows pages)
    (hpage : pages ref = some page) (hframe : page.frame? = some frame)
    (haccess : policy.noteAccess page = .ok policy') :
    ∃ list', policy'.Keeps kind list' ∧
      list'.refs = if kind = .lru then list.refs.erase ref ++ [ref] else list.refs := by
  cases h with
  | lru =>
    simp only [Policy.noteAccess, Fault.bind_eq_ok_iff, Fault.pure_eq_ok_iff] at haccess
    obtain ⟨slot, hslot, list', hmove, rfl⟩ := haccess
    exact ⟨list', .lru list',
      PageList.refs_moveToBack hfollows hpage (Page.overhead_of_slot hslot) hframe hmove⟩
  | fifo =>
    cases haccess
    exact ⟨list, .fifo list, rfl⟩

/-- The oldest page leaves. -/
theorem victim (h : policy.Keeps kind list) (hfollows : list.Follows pages)
    (hvictim : policy.victim = .ok (frame, policy')) :
    ∃ list' ref, policy'.Keeps kind list' ∧ list.refs = ref :: list'.refs ∧
      pages.frame? ref = some frame := by
  cases h with
  | lru | fifo =>
    simp only [Policy.victim, Fault.bind_eq_ok_iff, Fault.pure_eq_ok_iff, Prod.mk.injEq] at hvictim
    obtain ⟨⟨_, list'⟩, holdest, rfl, rfl⟩ := hvictim
    obtain ⟨ref, hrefs, hframe⟩ := PageList.refs_oldest hfollows holdest
    exact ⟨list', ref, by constructor, hrefs, hframe⟩

/-- The first frame that is tracked is the victim, and the others stay as they are. -/
theorem victim_eq_ok {rest : List FrameId} (h : policy.Keeps kind list) (hfollows : list.Follows pages)
    (hframes : list.frames = frame :: rest) :
    ∃ policy', policy.victim = .ok (frame, policy') ∧ policy'.tracked? = some rest := by
  obtain ⟨order, hlinks⟩ := hfollows.links
  cases h with
  | lru =>
    obtain ⟨list', holdest, rfl⟩ := hlinks.oldest_frames hframes .lru
    refine ⟨.lru list', ?_, rfl⟩
    rw [Policy.victim, holdest]
    rfl
  | fifo =>
    obtain ⟨list', holdest, rfl⟩ := hlinks.oldest_frames hframes .fifo
    refine ⟨.fifo list', ?_, rfl⟩
    rw [Policy.victim, holdest]
    rfl

/-- A page that is dropped is taken out of the list. -/
theorem forget (h : policy.Keeps kind list) (hfollows : list.Follows pages)
    (hpage : pages ref = some page) (hforget : policy.forget page = .ok policy') :
    ∃ list', policy'.Keeps kind list' ∧ list'.refs = list.refs.erase ref := by
  cases h with
  | lru | fifo =>
    simp only [Policy.forget, Fault.bind_eq_ok_iff, Fault.pure_eq_ok_iff] at hforget
    obtain ⟨slot, hslot, list', hrelease, rfl⟩ := hforget
    exact ⟨list', by constructor,
      PageList.refs_release hfollows hpage (Page.overhead_of_slot hslot) hrelease⟩

end Keeps

end Policy

end DemandPaging
