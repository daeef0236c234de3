import DemandPaging.Policy.Basic
import DemandPaging.Proofs.Links
import DemandPaging.Proofs.Sweeps
import Mathlib.Data.List.Nodup

/-!
# What a policy knows

A replacement policy keeps its own record of the pages in memory. `Policy.Follows policy total pages`
says that this record is right for a family of pages over `total` frames: a list-keeping policy has
one slot for each page and queues those that are in frames, the clock marks as occupied just the
frames that hold pages, and random choice knows the number of frames.

Each notice keeps the record right while the family changes in one place: `track_follows`,
`noteLoad_eq_ok`, `noteAccess_eq_ok`, `forget_eq_ok`. When all frames are in use a victim is found, and
it is a page that is in memory (`victim_eq_ok`). What the policy says that it tracks are then the
frames of the pages in memory, each once (`mem_tracked_iff`, `nodup_tracked`).
-/

namespace DemandPaging

/-- A family of pages: for each name its page, if there is one. Which process has a page, and in
which order the pages are kept, does not show in it. -/
abbrev PageMap := PageRef → Option Page

namespace PageMap

variable {pages : PageMap} {ref other : PageRef} {page : Page} {frame : FrameId} {total : Nat}

/-- The frame of a page, if it is known and in memory. -/
def frame? (pages : PageMap) (ref : PageRef) : Option FrameId := (pages ref).bind (·.frame?)

theorem frame?_eq_some_iff :
    pages.frame? ref = some frame ↔ ∃ page, pages ref = some page ∧ page.frame? = some frame :=
  Option.bind_eq_some_iff

theorem frame?_of_page (h : pages ref = some page) : pages.frame? ref = page.frame? := by
  rw [frame?, h, Option.bind_some]

theorem frame?_update {left : Option Page} :
    frame? (Function.update pages ref left) other =
      if other = ref then left.bind (·.frame?) else pages.frame? other := by
  simp only [frame?, Function.update_apply]
  split <;> rfl

/-- When a page comes in, its frame has a page and the others have theirs. -/
theorem exists_frame?_update_iff (hpage : pages ref = some page) (hout : page.frame? = none)
    {place : FrameId} :
    (∃ name, frame? (Function.update pages ref (some { page with frame? := some frame })) name =
      some place) ↔ (∃ name, pages.frame? name = some place) ∨ place = frame := by
  constructor
  · rintro ⟨name, hname⟩
    rw [frame?_update] at hname
    split at hname
    · exact .inr (Option.some.inj hname).symm
    · exact .inl ⟨name, hname⟩
  · rintro (⟨name, hname⟩ | rfl)
    · refine ⟨name, ?_⟩
      rw [frame?_update, if_neg, hname]
      -- the page itself was in no frame before
      rintro rfl
      rw [frame?_of_page hpage, hout] at hname
      cases hname
    · exact ⟨ref, frame?_update.trans (if_pos rfl)⟩

/-- The pages are in frames of a memory, and no two in one. It is said of the pages alone; that
the frames say the same is `Residency`. -/
structure Placed (pages : PageMap) (total : Nat) : Prop where
  /-- Each frame is one of the memory. -/
  within : ∀ {ref frame}, pages.frame? ref = some frame → frame < total
  /-- A frame has at most one page. -/
  exclusive : ∀ {ref other frame}, pages.frame? ref = some frame → pages.frame? other = some frame →
    ref = other

end PageMap

variable {pages : PageMap} {ref other : PageRef} {page : Page} {frame : FrameId} {total : Nat}

/-! ### Lists -/

namespace PageList

variable {list list' : PageList} {order : List Nat} {slot : Nat}

/-- The list has a slot for each page and for nothing else, and the pages in frames are queued. -/
structure Follows (list : PageList) (pages : PageMap) : Prop where
  /-- The entries form a sequence. -/
  links : ∃ order, list.Links order
  /-- A page has a slot that names it and its frame. -/
  slot_of_page : ∀ {ref page}, pages ref = some page →
    ∃ slot, page.overhead = .listed slot ∧ list.held? slot = some (ref, page.frame?)
  /-- A slot that names a page is the slot of that page. -/
  page_of_slot : ∀ {slot ref frame?}, list.held? slot = some (ref, frame?) →
    ∃ page, pages ref = some page ∧ page.overhead = .listed slot

namespace Follows

theorem entry_of_page (h : list.Follows pages) (hpage : pages ref = some page)
    (hslot : page.overhead = .listed slot) : list.held? slot = some (ref, page.frame?) := by
  obtain ⟨found, hfound, hentry⟩ := h.slot_of_page hpage
  cases hslot.symm.trans hfound
  exact hentry

theorem frame_of_entry (h : list.Follows pages) {frame? : Option FrameId}
    (hentry : list.held? slot = some (ref, frame?)) :
    ∃ page, pages ref = some page ∧ page.overhead = .listed slot ∧ page.frame? = frame? := by
  obtain ⟨page, hpage, hslot⟩ := h.page_of_slot hentry
  have := hentry.symm.trans (h.entry_of_page hpage hslot)
  exact ⟨page, hpage, hslot, by cases this; rfl⟩

/-- The list and the pages may change together, in one slot and one name that belong to each other
before and after. -/
theorem update (h : list.Follows pages) (hlinks : list'.Links order)
    {entry : Option (PageRef × Option FrameId)} {left : Option Page}
    (hentry : list'.held? = Function.update list.held? slot entry)
    (hslot : ∀ other page, pages other = some page → page.overhead = .listed slot → other = ref)
    (hname : ∀ other frame?, list.held? other = some (ref, frame?) → other = slot)
    (hsome : ∀ page, left = some page →
      page.overhead = .listed slot ∧ entry = some (ref, page.frame?))
    (hnone : left = none → entry = none) :
    list'.Follows (Function.update pages ref left) where
  links := ⟨order, hlinks⟩
  slot_of_page {other page} hpage := by
    rw [Function.update_apply] at hpage
    split at hpage
    · next heq =>
      obtain ⟨hoverhead, rfl⟩ := hsome page hpage
      exact ⟨slot, hoverhead, by rw [hentry, Function.update_self, heq]⟩
    · next hne =>
      obtain ⟨found, hoverhead, hfound⟩ := h.slot_of_page hpage
      -- another page has another slot, and that one has not changed
      have hother : found ≠ slot := fun heq => hne (hslot other page hpage (heq ▸ hoverhead))
      exact ⟨found, hoverhead, by rw [hentry, Function.update_of_ne hother, hfound]⟩
  page_of_slot {other name frame?} hother := by
    rw [hentry, Function.update_apply] at hother
    split at hother
    · next heq =>
      cases left with
      | none =>
        rw [hnone rfl] at hother
        cases hother
      | some page =>
        obtain ⟨hoverhead, rfl⟩ := hsome page rfl
        cases hother
        exact ⟨page, Function.update_self .., heq ▸ hoverhead⟩
    · next hne =>
      obtain ⟨page, hpage, hoverhead⟩ := h.page_of_slot hother
      -- and another slot names another page
      have hname' : name ≠ ref := fun heq => hne (hname other frame? (heq ▸ hother))
      exact ⟨page, by rw [Function.update_of_ne hname', hpage], hoverhead⟩

/-- A page and its slot may change together. The new page has the same slot, so that no slot
names two pages and no page has two slots. -/
theorem update_page (h : list.Follows pages) (hlinks : list'.Links order)
    (hpage : pages ref = some page) (hslot : page.overhead = .listed slot) {left : Option Page}
    (hleft : ∀ p, left = some p → p.overhead = page.overhead)
    (hentry : list'.held? =
      Function.update list.held? slot (left.map fun p => (ref, p.frame?))) :
    list'.Follows (Function.update pages ref left) := by
  -- slots and pages belong to each other, one to one
  refine h.update hlinks hentry ?_ ?_ ?_ ?_
  · intro other found hfound hoverhead
    have := (h.entry_of_page hfound hoverhead).symm.trans (h.entry_of_page hpage hslot)
    exact (Prod.mk.inj (Option.some.inj this)).1
  · intro other frame? hother
    obtain ⟨found, hfound, hoverhead⟩ := h.page_of_slot hother
    cases hpage.symm.trans hfound
    cases hslot.symm.trans hoverhead
    rfl
  · rintro p rfl
    exact ⟨(hleft p rfl).trans hslot, rfl⟩
  · rintro rfl
    rfl

theorem mem_order (h : list.Follows pages) (hlinks : list.Links order) (hpage : pages ref = some page)
    (hslot : page.overhead = .listed slot) (hframe : page.frame? = some frame) : slot ∈ order := by
  have hentry := h.entry_of_page hpage hslot
  obtain ⟨node, hnode, heq⟩ := Option.map_eq_some_iff.1 hentry
  refine hlinks.mem_of_linked hnode ?_
  rw [Prod.mk.injEq, hframe, ListNode.queuedIn?] at heq
  -- a slot that is not queued would tell no frame
  by_contra hunlinked
  rw [if_neg hunlinked] at heq
  cases heq.2

theorem node_of_page (h : list.Follows pages) (hpage : pages ref = some page)
    (hslot : page.overhead = .listed slot) :
    ∃ node, list.node? slot = some node ∧ node.page = ref ∧ node.queuedIn? = page.frame? := by
  obtain ⟨node, hnode, heq⟩ := Option.map_eq_some_iff.1 (h.entry_of_page hpage hslot)
  exact ⟨node, hnode, (Prod.mk.inj heq).1, (Prod.mk.inj heq).2⟩

end Follows

theorem follows_empty : (∅ : PageList).Follows fun _ => none where
  links := ⟨[], links_empty⟩
  slot_of_page h := by cases h
  page_of_slot h := by cases h

theorem alloc_follows (h : list.Follows pages) (hnew : pages ref = none) :
    (list.alloc ref).2.Follows
      (Function.update pages ref (some { ref, overhead := .listed (list.alloc ref).1 })) := by
  obtain ⟨order, hlinks⟩ := h.links
  obtain ⟨hempty, hlinks', hnode⟩ := alloc_links hlinks ref
  have hentry : (list.alloc ref).2.held? =
      Function.update list.held? (list.alloc ref).1 (some (ref, none)) := by
    funext other
    rw [Function.update_apply, held?, hnode]
    split <;> rfl
  refine h.update hlinks' hentry ?_ ?_ ?_ ?_
  -- the slot was empty, so it belonged to no page
  · intro other page hpage hslot
    have := h.entry_of_page hpage hslot
    rw [held?, hempty] at this
    cases this
  · intro other frame? hentry
    obtain ⟨page, hpage, -⟩ := h.page_of_slot hentry
    rw [hnew] at hpage
    cases hpage
  · rintro page ⟨⟩
    exact ⟨rfl, rfl⟩
  · intro hnone
    cases hnone

theorem pushBack_follows (h : list.Follows pages) (hpage : pages ref = some page)
    (hframe : page.frame? = none) (frame : FrameId) :
    ∃ slot list', page.overhead = .listed slot ∧ list.pushBack slot frame = .ok list' ∧
      list'.Follows (Function.update pages ref (some { page with frame? := some frame })) := by
  obtain ⟨order, hlinks⟩ := h.links
  obtain ⟨slot, hslot, hentry⟩ := h.slot_of_page hpage
  obtain ⟨node, hnode, rfl, hqueued⟩ := h.node_of_page hpage hslot
  -- a page that is in no frame is not queued
  have hunlinked : node.linked = false := by
    by_contra hlinked
    have hmem := hlinks.mem_of_linked hnode (Bool.not_eq_false _ ▸ hlinked)
    obtain ⟨before, after, horder⟩ := List.append_of_mem hmem
    obtain ⟨found, hfound, hlinked, hsome, -⟩ := hlinks.neighbours horder
    cases hnode.symm.trans hfound
    rw [ListNode.queuedIn?, hlinked, if_pos rfl, hframe] at hqueued
    rw [hqueued] at hsome
    cases hsome
  obtain ⟨list', hpush, hlinks', hentry'⟩ := pushBack_eq_ok hlinks hnode hunlinked frame
  refine ⟨slot, list', hslot, hpush, h.update_page hlinks' hpage hslot ?_ hentry'⟩
  rintro p ⟨⟩
  rfl

theorem moveToBack_follows (h : list.Follows pages) (hpage : pages ref = some page)
    (hframe : page.frame? = some frame) :
    ∃ slot list', page.overhead = .listed slot ∧ list.moveToBack slot = .ok list' ∧
      list'.Follows pages := by
  obtain ⟨order, hlinks⟩ := h.links
  obtain ⟨slot, hslot, -⟩ := h.slot_of_page hpage
  -- a page in a frame is queued, so it can be moved
  obtain ⟨before, after, rfl⟩ := List.append_of_mem (h.mem_order hlinks hpage hslot hframe)
  obtain ⟨list', hmove, hlinks', hentry⟩ := moveToBack_eq_ok hlinks
  refine ⟨slot, list', hslot, hmove, ⟨⟨_, hlinks'⟩, fun hp => ?_, fun hs => ?_⟩⟩
  · rw [hentry]
    exact h.slot_of_page hp
  · rw [hentry] at hs
    exact h.page_of_slot hs

theorem release_follows (h : list.Follows pages) (hpage : pages ref = some page) :
    ∃ slot list', page.overhead = .listed slot ∧ list.release slot = .ok list' ∧
      list'.Follows (Function.update pages ref none) := by
  obtain ⟨order, hlinks⟩ := h.links
  obtain ⟨slot, hslot, -⟩ := h.slot_of_page hpage
  obtain ⟨node, hnode, -⟩ := h.node_of_page hpage hslot
  obtain ⟨list', hrelease, hlinks', hentry⟩ := release_eq_ok hlinks hnode
  refine ⟨slot, list', hslot, hrelease, h.update_page hlinks' hpage hslot ?_ hentry⟩
  intro p hp
  cases hp

/-- If any page is in a frame then the oldest entry is one, and can be taken out. It is in no
frame after that, and keeps its slot. -/
theorem oldest_follows (h : list.Follows pages) (hsome : pages.frame? other = some frame)
    (kind : PolicyKind) :
    ∃ ref page frame list', pages ref = some page ∧ page.frame? = some frame ∧
      list.oldest kind = .ok (frame, list') ∧
      list'.Follows (Function.update pages ref (some { page with frame? := none })) := by
  obtain ⟨order, hlinks⟩ := h.links
  obtain ⟨page, hpage, hframe⟩ := PageMap.frame?_eq_some_iff.1 hsome
  obtain ⟨slot, hslot, -⟩ := h.slot_of_page hpage
  have hmem := h.mem_order hlinks hpage hslot hframe
  -- the sequence has that page at least, so it has a first one
  cases order with
  | nil => cases hmem
  | cons first rest =>
    obtain ⟨node, frame, list', hnode, hqueued, hpop, hlinks', hentry⟩ := popFront_eq_ok hlinks
    have hfirst := held?_eq_some hnode
    rw [hqueued] at hfirst
    obtain ⟨page, hpage, hslot, hframe⟩ := h.frame_of_entry hfirst
    refine ⟨node.page, page, frame, list', hpage, hframe, ?_,
      h.update_page hlinks' hpage hslot ?_ hentry⟩
    · rw [oldest, hpop]
      rfl
    · rintro p ⟨⟩
      rfl

/-- The frames of a list that follows the pages are those of the pages. A page that is in no
frame has a slot as well, but is not queued. -/
theorem Follows.mem_frames_iff (h : list.Follows pages) :
    frame ∈ list.frames ↔ ∃ ref, pages.frame? ref = some frame := by
  obtain ⟨order, hlinks⟩ := h.links
  rw [hlinks.frames_eq, List.mem_filterMap]
  constructor
  -- what a slot tells is the frame of its page
  · rintro ⟨slot, -, hentry⟩
    obtain ⟨⟨ref, frame?⟩, hentry, rfl⟩ := Option.bind_eq_some_iff.1 hentry
    obtain ⟨page, hpage, -, hframe⟩ := h.frame_of_entry hentry
    exact ⟨ref, PageMap.frame?_eq_some_iff.2 ⟨page, hpage, hframe⟩⟩
  -- and a page in a frame has a slot in the sequence
  · rintro ⟨ref, hframe⟩
    obtain ⟨page, hpage, hframe⟩ := PageMap.frame?_eq_some_iff.1 hframe
    obtain ⟨slot, hslot, hentry⟩ := h.slot_of_page hpage
    exact ⟨slot, h.mem_order hlinks hpage hslot hframe, by rw [hentry, Option.bind_some, hframe]⟩

theorem Follows.nodup_frames (h : list.Follows pages) (hplaced : pages.Placed total) :
    list.frames.Nodup := by
  obtain ⟨order, hlinks⟩ := h.links
  rw [hlinks.frames_eq]
  refine List.Nodup.filterMap (fun slot slot' frame hentry hentry' => ?_) hlinks.nodup
  obtain ⟨⟨ref, frame?⟩, hentry, rfl⟩ := Option.bind_eq_some_iff.1 hentry
  obtain ⟨⟨ref', frame?'⟩, hentry', rfl⟩ := Option.bind_eq_some_iff.1 hentry'
  obtain ⟨page, hpage, hslot, hframe⟩ := h.frame_of_entry hentry
  obtain ⟨page', hpage', hslot', hframe'⟩ := h.frame_of_entry hentry'
  -- one frame, so one page, so one slot
  obtain rfl := hplaced.exclusive (PageMap.frame?_eq_some_iff.2 ⟨page, hpage, hframe⟩)
    (PageMap.frame?_eq_some_iff.2 ⟨page', hpage', hframe'⟩)
  cases hpage.symm.trans hpage'
  cases hslot.symm.trans hslot'
  rfl

end PageList

/-! ### The clock -/

namespace Clock

variable {clock clock' : Clock} {other : FrameId}

/-- The occupied frames are those that hold pages. -/
structure Follows (clock : Clock) (total : Nat) (pages : PageMap) : Prop where
  /-- The clock has all frames of the memory. -/
  size_eq : clock.size = total
  /-- A frame is occupied if a page is in it. -/
  occupies_iff : ∀ {frame}, clock.occupies frame = true ↔ ∃ ref, pages.frame? ref = some frame

theorem follows_ofSize (htotal : 0 < total) :
    ∃ clock, ofSize total = .ok clock ∧ clock.Follows total fun _ => none := by
  refine ⟨_, dif_pos htotal, Array.size_replicate, fun {frame} => ⟨fun h => ?_, ?_⟩⟩
  · rw [occupies, Array.getElem?_replicate] at h
    split at h <;> cases h
  · rintro ⟨ref, hframe⟩
    cases hframe

/-! #### Changing one frame -/

theorem any_modify {frames : Array ClockFrame} {f : ClockFrame → ClockFrame} (test : ClockFrame → Bool) :
    (frames.modify frame f)[other]?.any test =
      if other = frame then frames[frame]?.any fun info => test (f info)
      else frames[other]?.any test := by
  simp only [Array.getElem?_modify, eq_comm (a := frame)]
  split
  · next heq => rw [heq, Option.any_map]
  · rfl

/-- A frame of the memory can be changed, and no other one changes with it. -/
theorem modifyFrame_eq_ok (hframe : frame < clock.size) (f : ClockFrame → ClockFrame) :
    ∃ clock', clock.modifyFrame frame f = .ok clock' ∧ clock'.size = clock.size ∧
      ∀ other, clock'.occupies other =
        if other = frame then clock.frames[frame]?.any fun info => (f info).occupied
        else clock.occupies other := by
  exact ⟨_, if_pos hframe, Array.size_modify, fun other => any_modify _⟩

theorem noteLoad_follows (h : clock.Follows total pages) (hpage : pages ref = some page)
    (hframe : page.frame? = none) (hlt : frame < total) :
    ∃ clock', clock.noteLoad { page with frame? := some frame } = .ok clock' ∧
      clock'.Follows total (Function.update pages ref (some { page with frame? := some frame })) := by
  have hlt : frame < clock.size := h.size_eq ▸ hlt
  obtain ⟨clock', hmodify, hsize, hoccupies⟩ :=
    modifyFrame_eq_ok hlt fun _ => { occupied := true, referenced := true }
  refine ⟨clock', hmodify, hsize.trans h.size_eq, fun {other} => ?_⟩
  rw [hoccupies, any_of_lt_size hlt, PageMap.exists_frame?_update_iff hpage hframe, ← h.occupies_iff]
  split
  · next heq => exact iff_of_true rfl (.inr heq)
  · next hne => rw [or_iff_left hne]

theorem noteAccess_follows (h : clock.Follows total pages) (hpage : pages ref = some page)
    (hframe : page.frame? = some frame) :
    ∃ clock', clock.noteAccess page = .ok clock' ∧ clock'.Follows total pages := by
  have hoccupied : clock.occupies frame = true :=
    h.occupies_iff.2 ⟨ref, PageMap.frame?_eq_some_iff.2 ⟨page, hpage, hframe⟩⟩
  obtain ⟨clock', hmodify, hsize, hoccupies⟩ :=
    modifyFrame_eq_ok (lt_size_of_occupies hoccupied) ({ · with referenced := true })
  refine ⟨clock', ?_, hsize.trans h.size_eq, fun {other} => ?_⟩
  · rw [noteAccess, frameOf, hframe]
    exact hmodify
  · rw [hoccupies, ← h.occupies_iff]
    split
    · next heq =>
      rw [heq]
      rfl
    · rfl

/-- A frame that is no longer occupied, and a page that is no longer in it. Both an eviction and
the end of a process come to this on the clock. -/
theorem follows_of_vacated (h : clock.Follows total pages) (hplaced : pages.Placed total)
    (hframe : pages.frame? ref = some frame) {left : Option Page}
    (hleft : left.bind (·.frame?) = none) (hsize : clock'.size = clock.size)
    (hoccupies : ∀ other, clock'.occupies other = (clock.occupies other && decide (other ≠ frame))) :
    clock'.Follows total (Function.update pages ref left) where
  size_eq := hsize.trans h.size_eq
  occupies_iff {other} := by
    rw [hoccupies, Bool.and_eq_true, h.occupies_iff, decide_eq_true_iff]
    constructor
    · rintro ⟨⟨name, hname⟩, hne⟩
      -- a page in another frame is another page
      refine ⟨name, ?_⟩
      rw [PageMap.frame?_update, if_neg, hname]
      rintro rfl
      exact hne (Option.some.inj (hname.symm.trans hframe))
    · rintro ⟨name, hname⟩
      rw [PageMap.frame?_update] at hname
      split at hname
      · rw [hleft] at hname
        cases hname
      · next hne =>
        -- and another page is in another frame
        refine ⟨⟨name, hname⟩, ?_⟩
        rintro rfl
        exact hne (hplaced.exclusive hname hframe)

theorem forget_follows (h : clock.Follows total pages) (hplaced : pages.Placed total)
    (hpage : pages ref = some page) :
    ∃ clock', clock.forget page = .ok clock' ∧
      clock'.Follows total (Function.update pages ref none) := by
  cases hframe : page.frame? with
  | none =>
    -- the page is in no frame, so there is nothing to forget
    refine ⟨clock, ?_, h.size_eq, fun {other} => ?_⟩
    · rw [forget, hframe]
    · rw [h.occupies_iff]
      refine exists_congr fun name => ?_
      rw [PageMap.frame?_update]
      split
      · next heq => rw [heq, PageMap.frame?_of_page hpage, hframe, Option.bind_none]
      · exact Iff.rfl
  | some frame =>
    have hin : pages.frame? ref = some frame := PageMap.frame?_eq_some_iff.2 ⟨page, hpage, hframe⟩
    have hlt : frame < clock.size := lt_size_of_occupies (h.occupies_iff.2 ⟨ref, hin⟩)
    obtain ⟨clock', hmodify, hsize, hoccupies⟩ := modifyFrame_eq_ok hlt fun _ => {}
    refine ⟨clock', ?_, follows_of_vacated h hplaced hin rfl hsize fun other => ?_⟩
    · rw [forget, hframe]
      exact hmodify
    · rw [hoccupies, any_of_lt_size hlt]
      split
      · next heq => simp [heq]
      · next hne => simp [hne]

/-! #### The sweep -/

/-- If any frame is occupied then one of them is the victim, and the others stay as they are. -/
theorem victim_eq_ok (h : clock.occupies other = true) :
    ∃ frame clock', clock.victim = .ok (frame, clock') ∧ clock.occupies frame = true ∧
      clock'.size = clock.size ∧
      ∀ other, clock'.occupies other = (clock.occupies other && decide (other ≠ frame)) := by
  obtain ⟨frame, clock', examined, passed, hsweeps, hexamined, hswept, hcases⟩ := exists_sweeps h
  refine ⟨frame, clock', hsweeps.victim_eq hexamined, ?_, hswept.size_eq, fun other => ?_⟩
  · rcases hcases with ⟨hfind, -⟩ | ⟨-, hfind, -⟩
    · exact (candidate_iff.1 (List.find?_some hfind)).1
    · exact List.find?_some hfind
  · rw [Bool.eq_iff_iff, hswept.occupies_iff, Bool.and_eq_true, decide_eq_true_iff]

theorem victim_follows (h : clock.Follows total pages) (hplaced : pages.Placed total)
    {name : PageRef} (hsome : pages.frame? name = some frame) :
    ∃ ref page frame clock', pages ref = some page ∧ page.frame? = some frame ∧
      clock.victim = .ok (frame, clock') ∧
      clock'.Follows total (Function.update pages ref (some { page with frame? := none })) := by
  obtain ⟨frame, clock', hvictim, hoccupied, hsize, hother⟩ :=
    victim_eq_ok (h.occupies_iff.2 ⟨name, hsome⟩)
  obtain ⟨ref, hframe⟩ := h.occupies_iff.1 hoccupied
  obtain ⟨page, hpage, hpageFrame⟩ := PageMap.frame?_eq_some_iff.1 hframe
  exact ⟨ref, page, frame, clock', hpage, hpageFrame, hvictim,
    follows_of_vacated h hplaced hframe rfl hsize hother⟩

end Clock

/-! ### Policies -/

namespace Policy

variable {policy : Policy} {kind : PolicyKind} {seed : Nat}

/-- The record that a policy keeps is right for the pages and a memory of `total` frames. -/
def Follows (policy : Policy) (total : Nat) (pages : PageMap) : Prop :=
  match policy with
  | lru list => list.Follows pages
  | fifo list => list.Follows pages
  | clock circle => circle.Follows total pages
  | random frames _ => frames = total

/-- A new policy knows no page. The lists are empty, and no frame of the clock is occupied. -/
theorem build_eq_ok (htotal : 0 < total) :
    ∃ policy, build kind total seed = .ok policy ∧ policy.kind = kind ∧
      policy.Follows total fun _ => none := by
  have hbuild : ∃ policy, build kind total seed = .ok policy ∧
      policy.Follows total fun _ => none := by
    cases kind with
    | lru => exact ⟨_, rfl, PageList.follows_empty⟩
    | fifo => exact ⟨_, rfl, PageList.follows_empty⟩
    | clock =>
      obtain ⟨clock, hclock, hfollows⟩ := Clock.follows_ofSize htotal
      refine ⟨.clock clock, ?_, hfollows⟩
      rw [build, hclock]
      rfl
    | random =>
      refine ⟨.random total (.ofSeed seed), ?_, rfl⟩
      rw [build, Fault.require, decide_eq_true htotal]
      rfl
  obtain ⟨policy, hpolicy, hfollows⟩ := hbuild
  exact ⟨policy, hpolicy, kind_of_build hpolicy, hfollows⟩

theorem kind_track : (policy.track ref).2.kind = policy.kind := by
  cases policy <;> rfl

/-- **A new page.** Its mark is known to the policy. For a list that is a slot which no other
page has; the other policies keep nothing of it. -/
theorem track_follows (h : policy.Follows total pages) (hnew : pages ref = none) :
    (policy.track ref).2.Follows total
      (Function.update pages ref (some { ref, overhead := (policy.track ref).1 })) := by
  cases policy with
  -- both lists give the page a slot; the clock and random choice take no notice of it
  | lru list | fifo list => exact PageList.alloc_follows h hnew
  | clock clock =>
    refine ⟨h.size_eq, fun {frame} => ?_⟩
    rw [h.occupies_iff]
    refine exists_congr fun name => ?_
    rw [PageMap.frame?_update]
    split
    -- the new page is in no frame, and before there was no page
    · next heq =>
      rw [heq, PageMap.frame?, hnew]
      rfl
    · exact Iff.rfl
  | random frames stream => exact h

/-- **A page that was loaded.** The frame held no page before, and the page was in none; after
that the policy has the two together. -/
theorem noteLoad_eq_ok (h : policy.Follows total pages) (hpage : pages ref = some page)
    (hframe : page.frame? = none) (hlt : frame < total) :
    ∃ policy', policy.noteLoad { page with frame? := some frame } = .ok policy' ∧
      policy'.kind = policy.kind ∧
      policy'.Follows total (Function.update pages ref (some { page with frame? := some frame })) := by
  cases policy with
  | lru list =>
    obtain ⟨slot, list', hslot, hpush, hfollows⟩ := PageList.pushBack_follows h hpage hframe frame
    refine ⟨.lru list', ?_, rfl, hfollows⟩
    simp only [noteLoad, Page.slot, hslot, noteLoad.frameOf, Fault.demand, bind, Except.bind, hpush]
    rfl
  | fifo list =>
    obtain ⟨slot, list', hslot, hpush, hfollows⟩ := PageList.pushBack_follows h hpage hframe frame
    refine ⟨.fifo list', ?_, rfl, hfollows⟩
    simp only [noteLoad, Page.slot, hslot, noteLoad.frameOf, Fault.demand, bind, Except.bind, hpush]
    rfl
  | clock clock =>
    obtain ⟨clock', hload, hfollows⟩ := Clock.noteLoad_follows h hpage hframe hlt
    refine ⟨.clock clock', ?_, rfl, hfollows⟩
    rw [noteLoad, hload]
    rfl
  | random frames stream => exact ⟨_, rfl, rfl, h⟩

/-- **A page that was used.** No page comes or goes. The order of the list may change, and a
mark of the clock, which are not part of what is to be kept right. -/
theorem noteAccess_eq_ok (h : policy.Follows total pages) (hpage : pages ref = some page)
    (hframe : page.frame? = some frame) :
    ∃ policy', policy.noteAccess page = .ok policy' ∧ policy'.kind = policy.kind ∧
      policy'.Follows total pages := by
  cases policy with
  | lru list =>
    obtain ⟨slot, list', hslot, hmove, hfollows⟩ := PageList.moveToBack_follows h hpage hframe
    refine ⟨.lru list', ?_, rfl, hfollows⟩
    simp only [noteAccess, Page.slot, hslot, bind, Except.bind, hmove]
    rfl
  -- in order of arrival, use changes nothing
  | fifo list => exact ⟨_, rfl, rfl, h⟩
  | clock clock =>
    obtain ⟨clock', haccess, hfollows⟩ := Clock.noteAccess_follows h hpage hframe
    refine ⟨.clock clock', ?_, rfl, hfollows⟩
    rw [noteAccess, haccess]
    rfl
  | random frames stream => exact ⟨_, rfl, rfl, h⟩

/-- **A page that is gone.** Whether it was in a frame or not, nothing of it is left: its slot
is vacant, and its frame is not occupied. -/
theorem forget_eq_ok (h : policy.Follows total pages) (hplaced : pages.Placed total)
    (hpage : pages ref = some page) :
    ∃ policy', policy.forget page = .ok policy' ∧ policy'.kind = policy.kind ∧
      policy'.Follows total (Function.update pages ref none) := by
  cases policy with
  | lru list =>
    obtain ⟨slot, list', hslot, hrelease, hfollows⟩ := PageList.release_follows h hpage
    refine ⟨.lru list', ?_, rfl, hfollows⟩
    simp only [forget, Page.slot, hslot, bind, Except.bind, hrelease]
    rfl
  | fifo list =>
    obtain ⟨slot, list', hslot, hrelease, hfollows⟩ := PageList.release_follows h hpage
    refine ⟨.fifo list', ?_, rfl, hfollows⟩
    simp only [forget, Page.slot, hslot, bind, Except.bind, hrelease]
    rfl
  | clock clock =>
    obtain ⟨clock', hforget, hfollows⟩ := Clock.forget_follows h hplaced hpage
    refine ⟨.clock clock', ?_, rfl, hfollows⟩
    rw [forget, hforget]
    rfl
  | random frames stream => exact ⟨_, rfl, rfl, h⟩

/-- **A victim.** When each frame holds a page the policy names one of them, and from then on takes its
frame to be empty. -/
theorem victim_eq_ok (h : policy.Follows total pages) (hplaced : pages.Placed total)
    (htotal : 0 < total) (hfull : ∀ frame < total, ∃ ref, pages.frame? ref = some frame) :
    ∃ ref page frame policy', pages ref = some page ∧ page.frame? = some frame ∧
      policy.victim = .ok (frame, policy') ∧ policy'.kind = policy.kind ∧
      policy'.Follows total (Function.update pages ref (some { page with frame? := none })) := by
  -- there is a page in memory at all
  obtain ⟨name, hsome⟩ := hfull 0 htotal
  cases policy with
  | lru list =>
    obtain ⟨ref, page, frame, list', hpage, hframe, hvictim, hfollows⟩ :=
      PageList.oldest_follows h hsome .lru
    refine ⟨ref, page, frame, .lru list', hpage, hframe, ?_, rfl, hfollows⟩
    rw [victim, hvictim]
    rfl
  | fifo list =>
    obtain ⟨ref, page, frame, list', hpage, hframe, hvictim, hfollows⟩ :=
      PageList.oldest_follows h hsome .fifo
    refine ⟨ref, page, frame, .fifo list', hpage, hframe, ?_, rfl, hfollows⟩
    rw [victim, hvictim]
    rfl
  | clock clock =>
    obtain ⟨ref, page, frame, clock', hpage, hframe, hvictim, hfollows⟩ :=
      Clock.victim_follows h hplaced hsome
    refine ⟨ref, page, frame, .clock clock', hpage, hframe, ?_, rfl, hfollows⟩
    rw [victim, hvictim]
    rfl
  | random frames stream =>
    obtain rfl : frames = total := h
    -- the number drawn is that of a frame, and every frame holds a page
    obtain ⟨ref, hdrawn⟩ := hfull _ (RandomStream.below_lt stream htotal)
    obtain ⟨page, hpage, hframe⟩ := PageMap.frame?_eq_some_iff.1 hdrawn
    exact ⟨ref, page, _, _, hpage, hframe, rfl, rfl, rfl⟩

/-! #### What is tracked -/

/-- Random choice is the only policy that tracks no frames. -/
theorem isSome_tracked?_iff : policy.tracked?.isSome = true ↔ policy.kind ≠ .random := by
  cases policy with
  | random frames stream => exact iff_of_false Bool.false_ne_true fun hne => hne rfl
  | lru | fifo | clock => exact iff_of_true rfl fun heq => by cases heq

/-- **The tracked frames.** They are those of the pages in memory. -/
theorem mem_tracked_iff (h : policy.Follows total pages) {tracked : List FrameId}
    (htracked : policy.tracked? = some tracked) :
    frame ∈ tracked ↔ ∃ ref, pages.frame? ref = some frame := by
  cases policy with
  | lru list | fifo list =>
    cases htracked
    exact PageList.Follows.mem_frames_iff h
  | clock clock =>
    cases htracked
    rw [← h.occupies_iff, Clock.occupiedFrames, List.mem_filter, List.mem_range]
    exact and_iff_right_of_imp Clock.lt_size_of_occupies
  | random frames stream => cases htracked

theorem nodup_tracked (h : policy.Follows total pages) (hplaced : pages.Placed total)
    {tracked : List FrameId} (htracked : policy.tracked? = some tracked) : tracked.Nodup := by
  cases policy with
  | lru list | fifo list =>
    cases htracked
    exact PageList.Follows.nodup_frames h hplaced
  | clock clock =>
    cases htracked
    exact List.nodup_range.filter _
  | random frames stream => cases htracked

end Policy

end DemandPaging
