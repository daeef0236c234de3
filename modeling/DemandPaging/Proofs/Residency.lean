import DemandPaging.Policy.PagedMemory
import DemandPaging.Proofs.Tracking

/-!
# Frames and pages

A frame names the page that it holds and a page names its frame. `Residency frames pages` says that
the two sides agree, and that the frames in use are marked as such. A page can then be put into an
empty frame (`load_eq_ok`) and taken out again (`evict_eq_ok`), and the number of frames in use changes
by one.

`Coherent frames policy pages` adds that the policy knows which pages are in memory. A frame for one
more page is then always found (`claim_eq_ok`): an empty one, or that of a page which the policy gives
up. Meeting a page, loading, evicting and giving it up, each on all three sides, keep them coherent
(`track`, `Coherent.load_eq_ok`, `Coherent.evict_eq_ok`, `Coherent.forget_eq_ok`).
-/

namespace DemandPaging

/-! ### Marks -/

namespace FreeFrames

variable {free : FreeFrames} {frame : FrameId}

theorem occupy_eq_ok (h : free.used[frame]? = some false) :
    ∃ free', free.occupy frame = .ok free' ∧ free'.used = free.used.setIfInBounds frame true ∧
      free'.usedCount = free.usedCount + 1 := by
  obtain ⟨hlt, hunused⟩ := Array.getElem?_eq_some_iff.1 h
  have hok : ∃ free', free.occupy frame = .ok free' ∧ free'.usedCount = free.usedCount + 1 := by
    rw [occupy, dif_pos hlt]
    refine ⟨_, rfl, ?_⟩
    simp only [hunused]
    rfl
  obtain ⟨free', hoccupy, hcount⟩ := hok
  exact ⟨free', hoccupy, used_of_occupy hoccupy, hcount⟩

theorem release_eq_ok (h : free.used[frame]? = some true) :
    ∃ free', free.release frame = .ok free' ∧ free'.used = free.used.setIfInBounds frame false ∧
      free'.usedCount + 1 = free.usedCount := by
  obtain ⟨hlt, hused⟩ := Array.getElem?_eq_some_iff.1 h
  -- the frame is one of those that are counted
  have hpos : 0 < free.usedCount := by
    rw [free.usedCount_eq, Array.count_pos_iff]
    exact hused ▸ Array.getElem_mem hlt
  have hok : ∃ free', free.release frame = .ok free' ∧ free'.usedCount + 1 = free.usedCount := by
    rw [release, dif_pos hlt]
    refine ⟨_, rfl, ?_⟩
    simp only [hused, if_true]
    exact Nat.sub_add_cancel hpos
  obtain ⟨free', hrelease, hcount⟩ := hok
  exact ⟨free', hrelease, used_of_release hrelease, hcount⟩

/-- If as many marks are set as there are, none is missing. -/
theorem all_used_of_full (h : free.used.size ≤ free.usedCount) (hlt : frame < free.used.size) :
    free.used[frame]? = some true := by
  -- all marks are counted, so none is missing
  have hcount : free.used.count true = free.used.size :=
    Nat.le_antisymm Array.count_le_size (free.usedCount_eq ▸ h)
  rw [Array.getElem?_eq_getElem hlt, Array.count_eq_size.1 hcount _ (Array.getElem_mem hlt)]

theorem firstFree?_eq_some (h : free.firstFree? = some frame) : free.used[frame]? = some false := by
  obtain ⟨hlt, hfree, -⟩ := Array.findIdx?_eq_some_iff_getElem.1 h
  rw [Array.getElem?_eq_getElem hlt]
  simpa using hfree

theorem full_of_firstFree?_eq_none (h : free.firstFree? = none) :
    free.used.size ≤ free.usedCount := by
  rw [free.usedCount_eq]
  refine Nat.le_of_eq (Array.count_eq_size.2 fun used hmem => ?_).symm
  have := Array.findIdx?_eq_none_iff.1 h used hmem
  simpa using this

end FreeFrames

/-! ### Frames in use -/

namespace FrameTable

variable {frames : FrameTable} {frame : FrameId}

/-- The frames that hold a page, in order. They are read off what the frames hold, without the
marks. -/
def occupiedFrames (frames : FrameTable) : List FrameId :=
  (List.range frames.size).filter fun frame => frames.holders[frame]?.join.isSome

theorem mem_occupiedFrames_iff :
    frame ∈ frames.occupiedFrames ↔ ∃ ref, frames.holders[frame]? = some (some ref) := by
  rw [occupiedFrames, List.mem_filter, List.mem_range, Option.isSome_iff_exists]
  constructor
  · rintro ⟨-, ref, hholder⟩
    exact ⟨ref, Option.join_eq_some_iff.1 hholder⟩
  · rintro ⟨ref, hholder⟩
    exact ⟨(Array.getElem?_eq_some_iff.1 hholder).1, ref, by rw [hholder, Option.join_some]⟩

theorem nodup_occupiedFrames : frames.occupiedFrames.Nodup :=
  List.nodup_range.filter _

/-- The counter of the table is the number of frames that hold a page. It counts marks, and
these are set just where a page is recorded. -/
theorem allocated_eq (h : frames.free.used = frames.holders.map Option.isSome) :
    frames.allocated = frames.occupiedFrames.length := by
  -- the slots of the table as a list over its frames, which can then be counted
  have hlist : frames.holders.toList =
      (List.range frames.size).map fun frame => frames.holders[frame]?.join := by
    refine List.ext_getElem? fun frame => ?_
    rw [List.getElem?_map, Array.getElem?_toList]
    by_cases hlt : frame < frames.size
    · rw [List.getElem?_range hlt, Option.map_some, Array.getElem?_eq_getElem hlt, Option.join_some]
    · have hge := Nat.le_of_not_lt hlt
      rw [List.getElem?_eq_none (by rwa [List.length_range]), Array.getElem?_eq_none hge]
      rfl
  rw [allocated, frames.free.usedCount_eq, h, occupiedFrames, ← List.countP_eq_length_filter,
    Array.count, Array.countP_map, ← Array.countP_toList, hlist, List.countP_map]
  refine List.countP_congr fun frame _ => ?_
  simp

theorem allocated_le_size (h : frames.free.used = frames.holders.map Option.isSome) :
    frames.allocated ≤ frames.size := by
  rw [allocated_eq h, occupiedFrames]
  exact Nat.le_trans (List.length_filter_le _ _) (Nat.le_of_eq List.length_range)

end FrameTable

/-- The frames and the pages name each other, and the frames in use are marked. How many frames are in
use is counted from the marks. -/
structure Residency (frames : FrameTable) (pages : PageMap) : Prop where
  /-- A page has its own name. -/
  named : ∀ {ref page}, pages ref = some page → page.ref = ref
  /-- A frame holds a page if the page names the frame. -/
  held_iff : ∀ {frame ref},
    frames.holders[frame]? = some (some ref) ↔ pages.frame? ref = some frame
  /-- The frames that hold a page are marked as used. -/
  marked : frames.free.used = frames.holders.map Option.isSome

namespace Residency

variable {frames : FrameTable} {pages : PageMap} {ref : PageRef} {page : Page} {frame : FrameId}

theorem placed (h : Residency frames pages) : pages.Placed frames.size where
  within hframe := (Array.getElem?_eq_some_iff.1 (h.held_iff.2 hframe)).1
  exclusive hframe hother := by
    have := (h.held_iff.2 hframe).symm.trans (h.held_iff.2 hother)
    cases this
    rfl

theorem used_of_holder (h : Residency frames pages) {holder? : Option PageRef}
    (hholder : frames.holders[frame]? = some holder?) :
    frames.free.used[frame]? = some holder?.isSome := by
  rw [h.marked, Array.getElem?_map, hholder]
  rfl

/-- A new table has no page in any frame. It is the one from which all others come by loads and
evictions. -/
theorem ofSize_eq_ok {total : Nat} (htotal : 0 < total) :
    ∃ frames, FrameTable.ofSize total = .ok frames ∧ frames.size = total ∧ frames.allocated = 0 ∧
      Residency frames fun _ => none := by
  have hofSize : FrameTable.ofSize total =
      .ok { holders := .replicate total none, free := .ofSize total } := by
    rw [FrameTable.ofSize, Fault.require, decide_eq_true htotal]
    rfl
  refine ⟨_, hofSize, Array.size_replicate, rfl, ?_, ?_, ?_⟩
  · intro ref page hpage
    cases hpage
  · intro frame ref
    refine iff_of_false (fun hholder => ?_) fun hframe => by cases hframe
    rw [Array.getElem?_replicate] at hholder
    split at hholder <;> cases hholder
  · show Array.replicate total false = (Array.replicate total none).map Option.isSome
    rw [Array.map_replicate]
    rfl

/-- One frame and one page may change together, if they name each other afterwards or are both without.
Loading and both ways of evicting are cases of this. -/
theorem update {frames' : FrameTable} {holder? : Option PageRef} {left : Option Page}
    (h : Residency frames pages) (hlt : frame < frames.size)
    (hholders : frames'.holders = frames.holders.setIfInBounds frame holder?)
    (hused : frames'.free.used = frames.free.used.setIfInBounds frame holder?.isSome)
    (hbefore : ∀ other, pages.frame? other = some frame → other = ref)
    (hpage : pages.frame? ref = some frame ∨ pages.frame? ref = none)
    (hnamed : ∀ p, left = some p → p.ref = ref)
    (hafter : (holder? = none ∧ left.bind (·.frame?) = none) ∨
      (holder? = some ref ∧ left.bind (·.frame?) = some frame)) :
    Residency frames' (Function.update pages ref left) where
  named {other page} hother := by
    rw [Function.update_apply] at hother
    split at hother
    · next heq => exact heq ▸ hnamed page hother
    · exact h.named hother
  held_iff {other name} := by
    rw [hholders, Array.getElem?_setIfInBounds, PageMap.frame?_update]
    by_cases hframe : frame = other
    · subst hframe
      have hlt : frame < frames.holders.size := hlt
      rw [if_pos rfl, if_pos hlt, Option.some_inj]
      -- the frame itself holds the page afterwards, or nothing
      by_cases hname : name = ref
      · rw [if_pos hname, hname]
        rcases hafter with ⟨hholder, hleft⟩ | ⟨hholder, hleft⟩
        · rw [hholder, hleft]
          exact iff_of_false (by simp) (by simp)
        · exact iff_of_true hholder hleft
      · rw [if_neg hname]
        refine iff_of_false (fun hholder => ?_) fun hin => hname (hbefore name hin)
        rcases hafter with ⟨hnone, -⟩ | ⟨hsome, -⟩
        · cases hholder.symm.trans hnone
        · exact hname (Option.some.inj (hholder.symm.trans hsome))
    · -- another frame holds what it held
      rw [if_neg hframe, h.held_iff]
      split
      · next hname =>
        -- the page is in no other frame than this one, before and after
        subst hname
        refine iff_of_false (fun hin => ?_) fun hin => ?_
        · rcases hpage with hold | hold
          · exact hframe (Option.some.inj (hold.symm.trans hin))
          · cases hin.symm.trans hold
        · rcases hafter with ⟨-, hleft⟩ | ⟨-, hleft⟩
          · cases hin.symm.trans hleft
          · exact hframe (Option.some.inj (hleft.symm.trans hin))
      · exact Iff.rfl
  marked := by
    rw [hused, hholders, h.marked, Array.map_setIfInBounds]

/-- **Loading.** A page in no frame can be put into an empty one. None of the checks fails, as the frame
holds no page and the page names no frame. -/
theorem load_eq_ok (h : Residency frames pages) (hpage : pages ref = some page)
    (hframe : page.frame? = none) (hfree : frames.holders[frame]? = some none) :
    ∃ frames', frames.load frame page = .ok (frames', { page with frame? := some frame }) ∧
      Residency frames' (Function.update pages ref (some { page with frame? := some frame })) ∧
      frames'.size = frames.size ∧ frames'.allocated = frames.allocated + 1 := by
  obtain ⟨free, hoccupy, hused, hcount⟩ := FreeFrames.occupy_eq_ok (h.used_of_holder hfree)
  have hname := h.named hpage
  refine ⟨{ holders := frames.holders.setIfInBounds frame (some page.ref), free }, ?_, ?_,
    Array.size_setIfInBounds, hcount⟩
  · simp only [FrameTable.load, FrameTable.holder?, hfree, hframe, hoccupy, bind, Except.bind]
    rfl
  · have hlt := (Array.getElem?_eq_some_iff.1 hfree).1
    have hused : free.used = frames.free.used.setIfInBounds frame (some page.ref).isSome := hused
    refine h.update hlt rfl hused ?_ (.inr ?_) ?_ (.inr ⟨congrArg some hname, rfl⟩)
    -- no page was in the frame, since it was empty
    · intro other hother
      cases hfree.symm.trans (h.held_iff.2 hother)
    · rw [PageMap.frame?_of_page hpage, hframe]
    · rintro p ⟨⟩
      exact hname

/-- **Eviction.** A page can be taken out of its frame, whether it is kept or not. Both are told of,
since a page that is evicted stays known and one whose process ends does not. -/
theorem evict_eq_ok (h : Residency frames pages) (hpage : pages ref = some page)
    (hframe : page.frame? = some frame) :
    ∃ frames', frames.evict frame page = .ok (frames', { page with frame? := none }) ∧
      Residency frames' (Function.update pages ref (some { page with frame? := none })) ∧
      Residency frames' (Function.update pages ref none) ∧
      frames'.holders[frame]? = some none ∧
      frames'.size = frames.size ∧ frames'.allocated + 1 = frames.allocated := by
  have hin : pages.frame? ref = some frame := PageMap.frame?_eq_some_iff.2 ⟨page, hpage, hframe⟩
  have hholder := h.held_iff.2 hin
  obtain ⟨hlt, -⟩ := Array.getElem?_eq_some_iff.1 hholder
  obtain ⟨free, hrelease, hused, hcount⟩ := FreeFrames.release_eq_ok (h.used_of_holder hholder)
  have hname := h.named hpage
  refine ⟨{ holders := frames.holders.setIfInBounds frame none, free }, ?_, ?_, ?_, ?_,
    Array.size_setIfInBounds, hcount⟩
  · simp only [FrameTable.evict, FrameTable.holder?, hholder, hname, hframe, hrelease, Fault.require,
      bind, Except.bind, decide_true, if_true]
    rfl
  · refine h.update hlt rfl hused (fun other hother => ?_) (.inl hin) ?_ (.inl ⟨rfl, rfl⟩)
    · exact h.placed.exclusive hother hin
    · rintro p ⟨⟩
      exact hname
  · refine h.update hlt rfl hused (fun other hother => ?_) (.inl hin) ?_ (.inl ⟨rfl, rfl⟩)
    · exact h.placed.exclusive hother hin
    · intro p hp
      cases hp
  · exact Array.getElem?_setIfInBounds_self_of_lt hlt

theorem mem_occupiedFrames_iff (h : Residency frames pages) :
    frame ∈ frames.occupiedFrames ↔ ∃ ref, pages.frame? ref = some frame := by
  rw [FrameTable.mem_occupiedFrames_iff]
  exact exists_congr fun ref => h.held_iff

/-- While some frame is free the one that is given out is empty. Which one it is does not matter
here. -/
theorem allocate_eq_ok (h : Residency frames pages) (hfree : frames.hasFree = true) :
    ∃ frame, frames.allocate = .ok frame ∧ frames.holders[frame]? = some none := by
  cases hfirst : frames.free.firstFree? with
  | none =>
    -- some frame is free, so the search does not fail
    have hfull := FreeFrames.full_of_firstFree?_eq_none hfirst
    rw [FrameTable.hasFree, decide_eq_true_iff, FreeFrames.freeCount, FreeFrames.size] at hfree
    omega
  | some frame =>
    refine ⟨frame, Fault.demand_eq_ok_iff.2 hfirst, ?_⟩
    -- and a frame that is not marked is empty
    have hunused := FreeFrames.firstFree?_eq_some hfirst
    rw [h.marked, Array.getElem?_map, Option.map_eq_some_iff] at hunused
    obtain ⟨holder?, hholder, hnone⟩ := hunused
    rw [hholder, Option.isSome_eq_false_iff.1 hnone |> Option.isNone_iff_eq_none.1]

/-- When no frame is free each of them holds a page. -/
theorem full_of_not_hasFree (h : Residency frames pages) (hfree : frames.hasFree = false) :
    ∀ frame < frames.size, ∃ ref, pages.frame? ref = some frame := by
  intro frame hlt
  rw [FrameTable.hasFree, decide_eq_false_iff_not, FreeFrames.freeCount, FreeFrames.size] at hfree
  have hsize : frames.free.used.size = frames.size := by
    rw [h.marked, Array.size_map]
    rfl
  have hcount : frames.free.used.size ≤ frames.free.usedCount := by omega
  have hused := FreeFrames.all_used_of_full hcount (hsize ▸ hlt)
  rw [h.marked, Array.getElem?_map, Option.map_eq_some_iff] at hused
  obtain ⟨holder?, hholder, hsome⟩ := hused
  obtain ⟨ref, rfl⟩ := Option.isSome_iff_exists.1 hsome
  exact ⟨ref, h.held_iff.1 hholder⟩

/-- When no frame is free all of them are counted. -/
theorem allocated_eq_size (h : Residency frames pages) (hfree : frames.hasFree = false) :
    frames.allocated = frames.size := by
  have hle := FrameTable.allocated_le_size h.marked
  have hsize : frames.free.used.size = frames.size := by
    rw [h.marked, Array.size_map]
    rfl
  rw [FrameTable.hasFree, decide_eq_false_iff_not, FreeFrames.freeCount, FreeFrames.size, hsize] at hfree
  rw [FrameTable.allocated] at hle ⊢
  omega

/-- While a frame is free fewer pages are in memory than there are frames. The pages are in
different frames, and none of them is the free one. -/
theorem length_lt_of_hasFree {refs : List PageRef} (h : Residency frames pages)
    (hfree : frames.hasFree = true) (hnodup : refs.Nodup)
    (hin : ∀ ref ∈ refs, ∃ frame, pages.frame? ref = some frame) : refs.length < frames.size := by
  obtain ⟨free, -, hempty⟩ := h.allocate_eq_ok hfree
  -- the pages are in different frames, none of which is the free one
  have hinj : ∀ ref ∈ refs, ∀ other ∈ refs, pages.frame? ref = pages.frame? other → ref = other := by
    intro ref href other _ heq
    obtain ⟨frame, hframe⟩ := hin ref href
    exact h.placed.exclusive hframe (heq ▸ hframe)
  have hsubset : refs.map pages.frame? ⊆ ((List.range frames.size).erase free).map some := by
    intro frame? hmem
    obtain ⟨ref, href, rfl⟩ := List.mem_map.1 hmem
    obtain ⟨frame, hframe⟩ := hin ref href
    refine List.mem_map.2 ⟨frame, ?_, hframe.symm⟩
    refine List.nodup_range.mem_erase_iff.2 ⟨?_, List.mem_range.2 (h.placed.within hframe)⟩
    rintro rfl
    cases hempty.symm.trans (h.held_iff.2 hframe)
  have hle := (List.subperm_of_subset (hnodup.map_on hinj) hsubset).length_le
  have hlt : free < frames.size := (Array.getElem?_eq_some_iff.1 hempty).1
  rw [List.length_map, List.length_map, List.length_erase_of_mem (List.mem_range.2 hlt),
    List.length_range] at hle
  exact Nat.lt_of_le_of_lt hle (Nat.sub_one_lt_of_lt hlt)

/-- While no frame is free there are as many pages in memory as there are frames, by counting the frames
by the pages in them. -/
theorem size_le_of_full {refs : List PageRef} (h : Residency frames pages)
    (hfree : frames.hasFree = false)
    (hall : ∀ ref frame, pages.frame? ref = some frame → ref ∈ refs) :
    frames.size ≤ refs.length := by
  have hsubset : (List.range frames.size).map some ⊆ refs.map pages.frame? := by
    intro frame? hmem
    obtain ⟨frame, hlt, rfl⟩ := List.mem_map.1 hmem
    obtain ⟨ref, hframe⟩ := h.full_of_not_hasFree hfree frame (List.mem_range.1 hlt)
    exact List.mem_map.2 ⟨ref, hall ref frame hframe, hframe⟩
  have hnodup : ((List.range frames.size).map some).Nodup :=
    List.nodup_range.map fun _ _ => Option.some.inj
  have hle := (List.subperm_of_subset hnodup hsubset).length_le
  rwa [List.length_map, List.length_map, List.length_range] at hle

end Residency

/-! ### Frames, pages and the policy -/

/-- Frames, pages and the policy agree on which pages are in memory. All that brings a page in
or takes it out changes the three together. That there is a frame at all is what keeps a full
memory from having nothing to evict. -/
structure Coherent (frames : FrameTable) (policy : Policy) (pages : PageMap) : Prop where
  /-- The frames and the pages agree. -/
  residency : Residency frames pages
  /-- The policy knows the pages. -/
  follows : policy.Follows frames.size pages
  /-- There is a frame. -/
  nonempty : 0 < frames.size

namespace Coherent

variable {frames : FrameTable} {policy : Policy} {pages : PageMap} {ref : PageRef} {page : Page}
  {frame : FrameId}

/-- **A frame for one more page.** It is empty, or holds a page that the policy gives up. In the second
case the policy follows the pages without that one already, while the frames still have it. -/
theorem claim_eq_ok (h : Coherent frames policy pages) :
    ∃ frame owner? policy', policy.claim frames = .ok (frame, owner?, policy') ∧
      policy'.kind = policy.kind ∧
      ((owner? = none ∧ policy' = policy ∧ frames.holders[frame]? = some none) ∨
        ∃ owner page, owner? = some owner ∧ pages owner = some page ∧ page.frame? = some frame ∧
          policy'.Follows frames.size
            (Function.update pages owner (some { page with frame? := none }))) := by
  unfold Policy.claim
  cases hfree : frames.hasFree with
  | true =>
    obtain ⟨frame, hallocate, hholder⟩ := h.residency.allocate_eq_ok hfree
    refine ⟨frame, none, policy, ?_, rfl, .inl ⟨rfl, rfl, hholder⟩⟩
    rw [if_pos rfl, hallocate]
    rfl
  | false =>
    -- each frame holds a page, so the policy finds one to give up
    obtain ⟨owner, page, frame, policy', hpage, hframe, hvictim, hkind, hfollows⟩ :=
      Policy.victim_eq_ok h.follows h.residency.placed h.nonempty
        (h.residency.full_of_not_hasFree hfree)
    have hholder := h.residency.held_iff.2 (PageMap.frame?_eq_some_iff.2 ⟨page, hpage, hframe⟩)
    refine ⟨frame, some owner, policy', ?_, hkind, .inr ⟨owner, page, rfl, hpage, hframe, hfollows⟩⟩
    rw [if_neg Bool.false_ne_true, hvictim]
    simp only [FrameTable.holder?, hholder, bind, Except.bind, Fault.demand]
    rfl

/-- **A new page.** It is in no frame, and the policy has marked it. The frames have nothing to
do with it yet. -/
theorem track (h : Coherent frames policy pages) (hnew : pages ref = none) :
    Coherent frames (policy.track ref).2
      (Function.update pages ref (some { ref, overhead := (policy.track ref).1 })) := by
  refine ⟨⟨fun {other found} hother => ?_, fun {frame other} => ?_, h.residency.marked⟩,
    Policy.track_follows h.follows hnew, h.nonempty⟩
  · rw [Function.update_apply] at hother
    split at hother
    · next heq =>
      cases hother
      exact heq.symm
    · exact h.residency.named hother
  · -- no frame held it before, and none holds it now
    rw [h.residency.held_iff, PageMap.frame?_update]
    split
    · next heq =>
      rw [heq, PageMap.frame?, hnew]
      rfl
    · exact Iff.rfl

/-- **A page comes in.** It is put into an empty frame, and the policy is told. -/
theorem load_eq_ok (h : Coherent frames policy pages) (hpage : pages ref = some page)
    (hframe : page.frame? = none) (hfree : frames.holders[frame]? = some none) :
    ∃ frames' policy', frames.load frame page = .ok (frames', { page with frame? := some frame }) ∧
      policy.noteLoad { page with frame? := some frame } = .ok policy' ∧
      frames'.size = frames.size ∧ policy'.kind = policy.kind ∧
      frames'.allocated = frames.allocated + 1 ∧
      Coherent frames' policy'
        (Function.update pages ref (some { page with frame? := some frame })) := by
  obtain ⟨frames', hload, hresidency, hsize, hallocated⟩ := h.residency.load_eq_ok hpage hframe hfree
  -- an empty frame is one of the memory
  have hlt : frame < frames.size := (Array.getElem?_eq_some_iff.1 hfree).1
  obtain ⟨policy', hnote, hkind, hfollows⟩ := Policy.noteLoad_eq_ok h.follows hpage hframe hlt
  exact ⟨frames', policy', hload, hnote, hsize, hkind, hallocated, hresidency,
    hsize.symm ▸ hfollows, hsize.symm ▸ h.nonempty⟩

/-- **A page has to leave.** The policy has given its frame up already, so only the frames are left to
change. -/
theorem evict_eq_ok {policy' : Policy} (h : Coherent frames policy pages) (hpage : pages ref = some page)
    (hframe : page.frame? = some frame)
    (hfollows : policy'.Follows frames.size
      (Function.update pages ref (some { page with frame? := none }))) :
    ∃ frames', frames.evict frame page = .ok (frames', { page with frame? := none }) ∧
      frames'.holders[frame]? = some none ∧ frames'.size = frames.size ∧
      frames'.allocated + 1 = frames.allocated ∧
      Coherent frames' policy' (Function.update pages ref (some { page with frame? := none })) := by
  obtain ⟨frames', hevict, hresidency, -, hfree, hsize, hallocated⟩ :=
    h.residency.evict_eq_ok hpage hframe
  exact ⟨frames', hevict, hfree, hsize, hallocated, hresidency, hsize.symm ▸ hfollows,
    hsize.symm ▸ h.nonempty⟩

/-- **A page is given up.** The policy forgets it, and its frame is emptied if it has one. The
page itself is gone from the family then. -/
theorem forget_eq_ok (h : Coherent frames policy pages) (hpage : pages ref = some page) :
    ∃ policy', policy.forget page = .ok policy' ∧ policy'.kind = policy.kind ∧
      ((page.frame? = none ∧ Coherent frames policy' (Function.update pages ref none)) ∨
        ∃ frame frames', page.frame? = some frame ∧
          frames.evict frame page = .ok (frames', { page with frame? := none }) ∧
          frames'.size = frames.size ∧ frames'.allocated + 1 = frames.allocated ∧
          Coherent frames' policy' (Function.update pages ref none)) := by
  obtain ⟨policy', hforget, hkind, hfollows⟩ :=
    Policy.forget_eq_ok h.follows h.residency.placed hpage
  refine ⟨policy', hforget, hkind, ?_⟩
  cases hframe : page.frame? with
  | none =>
    refine .inl ⟨rfl, ⟨?_, hfollows, h.nonempty⟩⟩
    refine ⟨fun {other found} hother => ?_, fun {frame other} => ?_, h.residency.marked⟩
    · rw [Function.update_apply] at hother
      split at hother
      · cases hother
      · exact h.residency.named hother
    -- no frame held the page, so the frames may stay as they are
    · rw [h.residency.held_iff, PageMap.frame?_update]
      split
      · next heq => rw [heq, PageMap.frame?_of_page hpage, hframe, Option.bind_none]
      · exact Iff.rfl
  | some frame =>
    obtain ⟨frames', hevict, -, hresidency, -, hsize, hallocated⟩ :=
      h.residency.evict_eq_ok hpage hframe
    exact .inr ⟨frame, frames', rfl, hevict, hsize, hallocated, hresidency, hsize.symm ▸ hfollows,
      hsize.symm ▸ h.nonempty⟩

end Coherent

end DemandPaging
