import DemandPaging.Proofs.Effects

/-!
# A memory under any use

What may happen to a page of a memory under a policy is an `Occasion`: the page is met and marked by
the policy, it is used, or it is given up. A page that was given up may be met again, and a page that
is used is met first if need be, so that a list of occasions stands for everything that keeps the
contract between a policy and its user.

While frames, pages and policy are coherent each occasion succeeds and leaves them coherent
(`PagedMemory.Kept.occur_eq_ok`), and whatever page has to leave memory for another one was in a frame.
So after any number of occasions the records agree (`PagedMemory.InStep`): the policy tracks the frames
of the resident pages, the clock has marks on these only, and a list has one slot for each page that
names it and is queued while the page is resident (`occasions_eq_ok`).
-/

namespace DemandPaging

/-! ### Marks of the clock -/

namespace Clock

variable {clock clock' : Clock} {frame : FrameId} {page : Page} {total steps : Nat} {pages : PageMap}
  {ref : PageRef} {f : ClockFrame → ClockFrame}

/-- No mark of use is on an empty frame. The clock alone does not ensure this: a use marks whatever frame
it is told, and it is the frame of a resident page only because frames and pages agree. -/
structure Marked (clock : Clock) : Prop where
  /-- A frame with a mark holds a page. -/
  occupied : ∀ {frame : FrameId} {info : ClockFrame}, clock.frames[frame]? = some info →
    info.referenced = true → info.occupied = true

theorem Marked.referenced_subset (h : clock.Marked) :
    clock.referencedFrames ⊆ clock.occupiedFrames := by
  intro frame hmem
  obtain ⟨hlt, hmark⟩ := List.mem_filter.1 hmem
  refine List.mem_filter.2 ⟨hlt, ?_⟩
  -- an empty slot of the array has no mark, and any other one is judged by its frame
  cases hinfo : clock.frames[frame]? with
  | none =>
    rw [hinfo] at hmark
    cases hmark
  | some info =>
    rw [hinfo] at hmark
    exact h.occupied hinfo hmark

theorem marked_ofSize (h : ofSize total = .ok clock) : clock.Marked where
  occupied {frame info} hinfo hreferenced := by
    unfold ofSize at h
    split at h <;> cases h
    -- a new clock has no mark at all
    rw [Array.getElem?_replicate] at hinfo
    split at hinfo <;> cases hinfo
    cases hreferenced

theorem Marked.modify (h : clock.Marked) (hframes : clock'.frames = clock.frames.modify frame f)
    (hf : ∀ info, clock.frames[frame]? = some info → (f info).referenced = true →
      (f info).occupied = true) : clock'.Marked where
  occupied {other info} hinfo := by
    rw [hframes, Array.getElem?_modify] at hinfo
    -- one frame is written; the others are as they were
    split at hinfo
    · next heq =>
      obtain ⟨before, hbefore, rfl⟩ := Option.map_eq_some_iff.1 hinfo
      exact hf before (heq ▸ hbefore)
    · exact h.occupied hinfo

theorem frames_of_modifyFrame (h : clock.modifyFrame frame f = .ok clock') :
    clock'.frames = clock.frames.modify frame f := by
  unfold modifyFrame at h
  split at h <;> cases h
  rfl

theorem Marked.noteLoad (h : clock.Marked) (hload : clock.noteLoad page = .ok clock') :
    clock'.Marked := by
  obtain ⟨frame, -, hmodify⟩ := Fault.bind_eq_ok_iff.1 hload
  -- loading a page sets both, the page and the mark
  exact h.modify (frames_of_modifyFrame hmodify) fun _ _ _ => rfl

/-- A use puts a mark on a frame, and that frame has a page, because the page that is used is resident.
-/
theorem Marked.noteAccess (h : clock.Marked) (hfollows : clock.Follows total pages)
    (hpage : pages ref = some page) (haccess : clock.noteAccess page = .ok clock') :
    clock'.Marked := by
  -- the clock finds the frame of the page, and frames with pages are those that it calls occupied
  obtain ⟨frame, hframe, hmodify⟩ := Fault.bind_eq_ok_iff.1 haccess
  have hin : pages.frame? ref = some frame :=
    PageMap.frame?_eq_some_iff.2 ⟨page, hpage, Fault.demand_eq_ok_iff.1 hframe⟩
  have hoccupied : clock.occupies frame = true := hfollows.occupies_iff.2 ⟨ref, hin⟩
  refine h.modify (frames_of_modifyFrame hmodify) fun info hinfo _ => ?_
  rw [occupies, hinfo] at hoccupied
  exact hoccupied

theorem Marked.forget (h : clock.Marked) (hforget : clock.forget page = .ok clock') :
    clock'.Marked := by
  unfold Clock.forget at hforget
  split at hforget
  · -- giving up a page takes the mark away with it
    exact h.modify (frames_of_modifyFrame hforget) fun _ _ hmark => by cases hmark
  · cases hforget
    exact h

theorem Marked.advance (h : clock.Marked)
    (hf : (f clock.current).referenced = true → (f clock.current).occupied = true) :
    (clock.advance f).Marked := by
  refine h.modify rfl fun info hinfo => ?_
  rw [getElem?_hand] at hinfo
  cases hinfo
  exact hf

/-- The victim of a sweep has lost its mark before it leaves the clock. -/
theorem Marked.sweep (h : clock.Marked) (hsweep : clock.sweep steps = some (frame, clock')) :
    clock'.Marked := by
  -- by induction on the steps that are left; each writes the frame under the hand and moves on
  induction steps generalizing clock with
  | zero => cases hsweep
  | succ steps ih =>
    rw [Clock.sweep] at hsweep
    split at hsweep
    · -- an empty frame is passed as it is
      exact ih (h.advance fun hmark => h.occupied getElem?_hand hmark) hsweep
    · split at hsweep
      · -- a mark is taken away, and the frame is passed
        exact ih (h.advance fun hmark => Bool.noConfusion hmark) hsweep
      · next hunmarked =>
        cases hsweep
        exact h.advance fun hmark => absurd hmark hunmarked

end Clock

namespace Policy

variable {policy policy' : Policy} {kind : PolicyKind} {total seed : Nat} {pages : PageMap}
  {ref : PageRef} {page : Page} {frame : FrameId}

/-- If the policy is a clock, no mark is on an empty frame. -/
def Marked : Policy → Prop
  | clock circle => circle.Marked
  | _ => True

theorem marked_build (h : build kind total seed = .ok policy) : policy.Marked := by
  cases kind with
  | lru | fifo =>
    cases h
    trivial
  | clock =>
    simp only [build, Fault.bind_eq_ok_iff, Fault.pure_eq_ok_iff] at h
    obtain ⟨circle, hcircle, rfl⟩ := h
    exact Clock.marked_ofSize hcircle
  | random =>
    simp only [build, Fault.bind_eq_ok_iff, Fault.pure_eq_ok_iff] at h
    obtain ⟨_, _, rfl⟩ := h
    trivial

theorem Marked.track (h : policy.Marked) : (policy.track ref).2.Marked := by
  -- only a clock has marks; the other policies keep nothing that could go wrong
  cases policy with
  | clock circle => exact h
  | lru | fifo | random => trivial

theorem Marked.noteLoad (h : policy.Marked) (hload : policy.noteLoad page = .ok policy') :
    policy'.Marked := by
  cases policy with
  | clock circle =>
    obtain ⟨circle', hcircle, heq⟩ := Fault.bind_eq_ok_iff.1 hload
    cases heq
    exact Clock.Marked.noteLoad h hcircle
  | lru | fifo | random =>
    simp only [Policy.noteLoad, Fault.bind_eq_ok_iff, Fault.pure_eq_ok_iff] at hload
    grind [Marked]

theorem Marked.noteAccess (h : policy.Marked) (hfollows : policy.Follows total pages)
    (hpage : pages ref = some page) (haccess : policy.noteAccess page = .ok policy') :
    policy'.Marked := by
  cases policy with
  | clock circle =>
    obtain ⟨circle', hcircle, heq⟩ := Fault.bind_eq_ok_iff.1 haccess
    cases heq
    exact Clock.Marked.noteAccess h hfollows hpage hcircle
  | lru | fifo | random =>
    simp only [Policy.noteAccess, Fault.bind_eq_ok_iff, Fault.pure_eq_ok_iff] at haccess
    grind [Marked]

theorem Marked.forget (h : policy.Marked) (hforget : policy.forget page = .ok policy') :
    policy'.Marked := by
  cases policy with
  | clock circle =>
    obtain ⟨circle', hcircle, heq⟩ := Fault.bind_eq_ok_iff.1 hforget
    cases heq
    exact Clock.Marked.forget h hcircle
  | lru | fifo | random =>
    simp only [Policy.forget, Fault.bind_eq_ok_iff, Fault.pure_eq_ok_iff] at hforget
    grind [Marked]

theorem Marked.victim (h : policy.Marked) (hvictim : policy.victim = .ok (frame, policy')) :
    policy'.Marked := by
  cases policy with
  | clock circle =>
    obtain ⟨⟨drawn, circle'⟩, hcircle, heq⟩ := Fault.bind_eq_ok_iff.1 hvictim
    cases heq
    exact Clock.Marked.sweep h (Fault.demand_eq_ok_iff.1 hcircle)
  | lru | fifo | random =>
    simp only [Policy.victim, Fault.bind_eq_ok_iff, Fault.pure_eq_ok_iff] at hvictim
    grind [Marked]

end Policy

/-! ### Slots of the pages -/

/-- What the list of a list-keeping policy says of a page. The first three clauses hold from the first
meeting on; the others say what the slot is while the page is resident. -/
structure PageList.Lists (list : PageList) (page : Page) (slot : Nat) (node : ListNode) : Prop where
  /-- The page has its slot for a mark. -/
  overhead_eq : page.overhead = .listed slot
  /-- The slot is in use. -/
  node_eq : list.node? slot = some node
  /-- It belongs to the page. -/
  page_eq : node.page = page.ref
  /-- It counts as queued while the page is resident. -/
  linked_eq : node.linked = page.isResident
  /-- The frame of a resident page is known. -/
  frame_eq : page.isResident = true → node.frame? = page.frame?
  /-- The queue has the slot while the page is resident. -/
  queued_iff : slot ∈ list.entries.map (·.1) ↔ page.isResident = true

namespace PageList.Follows

variable {list : PageList} {pages : PageMap} {ref other : PageRef} {page found : Page}

theorem exists_lists (h : list.Follows pages) (hpage : pages ref = some page) (hname : page.ref = ref) :
    ∃ slot node, list.Lists page slot node := by
  -- the links of the list spell out its order; the page has a slot, and the slot a node for the page
  obtain ⟨order, hlinks⟩ := h.links
  obtain ⟨slot, hslot, -⟩ := h.slot_of_page hpage
  obtain ⟨node, hnode, howner, hqueued⟩ := h.node_of_page hpage hslot
  have hmem : slot ∈ order ↔ page.isResident = true := by
    constructor
    · intro hmem
      -- a slot of the queue has a frame, and that is the frame of its page
      obtain ⟨before, after, horder⟩ := List.append_of_mem hmem
      obtain ⟨queued, hfound, hlinked, hsome, -⟩ := hlinks.neighbours horder
      cases hnode.symm.trans hfound
      rw [ListNode.queuedIn?, hlinked, if_pos rfl] at hqueued
      rw [Page.isResident, ← hqueued]
      exact hsome
    · intro hresident
      obtain ⟨frame, hframe⟩ := Page.isResident_iff.1 hresident
      exact h.mem_order hlinks hpage hslot hframe
  have hlinked : node.linked = page.isResident := by
    rw [Bool.eq_iff_iff, hlinks.linked_iff hnode]
    exact hmem
  -- the order is the list of entries, so what holds of one holds of the other
  refine ⟨slot, node, hslot, hnode, howner.trans hname.symm, hlinked, fun hresident => ?_, ?_⟩
  · rw [← hqueued, ListNode.queuedIn?, hlinked, if_pos hresident]
  · rw [hlinks.entries_spec.1]
    exact hmem

/-- Two pages do not share a slot: a slot tells the page that it belongs to. -/
theorem overhead_ne (h : list.Follows pages) (hpage : pages ref = some page)
    (hfound : pages other = some found) (hne : ref ≠ other) : page.overhead ≠ found.overhead := by
  intro heq
  obtain ⟨slot, hslot, hentry⟩ := h.slot_of_page hpage
  have hother := h.entry_of_page hfound (heq ▸ hslot)
  rw [hentry] at hother
  exact hne (congrArg Prod.fst (Option.some.inj hother))

end PageList.Follows

/-! ### A store of pages -/

namespace PageStore

variable {s : PageStore} {page : Page} {ref : PageRef}

theorem page?_put_eq : (s.put page).page? = Function.update s.page? page.ref (some page) := by
  funext ref
  rw [page?_put, Function.update_apply]

theorem page?_remove : (s.remove ref).page? = Function.update s.page? ref none := by
  funext other
  rw [Function.update_apply, page?, remove, List.find?_filter]
  -- under the name that was removed nothing is found, and the search for another one does not see it
  split
  · next heq =>
    refine List.find?_eq_none.2 fun page _ => ?_
    simp [heq]
  · next hne =>
    refine congrArg (List.find? · s.pages) (funext fun page => ?_)
    grind

theorem distinct_remove (h : (s.pages.map (·.ref)).Nodup) :
    ((s.remove ref).pages.map (·.ref)).Nodup :=
  h.sublist (List.filter_sublist.map _)

theorem distinct_put (h : (s.pages.map (·.ref)).Nodup) :
    ((s.put page).pages.map (·.ref)).Nodup := by
  refine List.nodup_cons.2 ⟨fun hmem => ?_, distinct_remove h⟩
  obtain ⟨other, hother, heq⟩ := List.mem_map.1 hmem
  -- what the store keeps beside the page has another name
  exact of_decide_eq_true (List.mem_filter.1 hother).2 heq

/-- The pages of a store are those that are found under their names, as long as there is one page of a
name. -/
theorem mem_pages_iff (h : (s.pages.map (·.ref)).Nodup) :
    page ∈ s.pages ↔ s.page? page.ref = some page := by
  rw [page?]
  constructor
  · -- something is found under the name of a page that is there, and it is this page
    intro hmem
    obtain ⟨found, hfound⟩ : ∃ found, s.pages.find? (·.ref = page.ref) = some found :=
      Option.isSome_iff_exists.1 (List.find?_isSome.2 ⟨page, hmem, decide_eq_true rfl⟩)
    have hname : found.ref = page.ref := of_decide_eq_true (List.find?_some hfound :)
    rw [hfound, List.inj_on_of_nodup_map h (List.mem_of_find?_eq_some hfound) hmem hname]
  · exact List.mem_of_find?_eq_some

end PageStore

/-! ### One occasion -/

/-- What may happen to a page. Whether it is known, resident or neither decides what comes of it. -/
inductive Occasion where
  /-- It is met, and marked by the policy. -/
  | meet (ref : PageRef)
  /-- It is used. -/
  | use (ref : PageRef)
  /-- It is given up. -/
  | drop (ref : PageRef)
  deriving DecidableEq, Repr

namespace PagedMemory

variable {m m' : PagedMemory} {ref : PageRef} {page : Page} {frame : FrameId} {owner : PageRef}
  {kind : PolicyKind} {total seed : Nat}

/-- A memory of `total` empty frames under a new policy. It fails only without frames, since
there is nothing else to get wrong. -/
def build (kind : PolicyKind) (total seed : Nat) : Except Fault PagedMemory := do
  let policy ← Policy.build kind total seed
  return { ← PageStore.ofSize total with policy }

/-- Lets something happen. The answer is that of a use: the frame into which a page was loaded, and the
page that had to leave for it. A page that is known is not met again, and one that is not known is not
given up. -/
def occur (m : PagedMemory) :
    Occasion → Except Fault (Option (FrameId × Option PageRef) × PagedMemory)
  | .meet ref =>
    match m.page? ref with
    | some _ => .ok (none, m)
    | none => .ok (none, (m.track ref).2)
  | .use ref => m.touch ref
  | .drop ref =>
    match m.page? ref with
    | some page => do return (none, (← m.discard page).2)
    | none => .ok (none, m)

/-- Lets several things happen, one after the other. The answers are not kept; `occurEach` is
for where they matter. -/
def occurAll (m : PagedMemory) (occasions : List Occasion) : Except Fault PagedMemory :=
  occasions.foldlM (fun m occasion => return (← m.occur occasion).2) m

/-- What the use of a known page does, as far as the policy and the pages are concerned. A hit
is told to the policy alone, and a miss is an intake as in a machine. -/
inductive Touches (m : PagedMemory) (ref : PageRef) (page : Page) :
    Option (FrameId × Option PageRef) → PagedMemory → Prop where
  /-- It is in memory, and the policy hears that it is used. -/
  | hit {frame : FrameId} {m' : PagedMemory} (hframe : page.frame? = some frame)
    (haccess : m.policy.noteAccess page = .ok m'.policy) : Touches m ref page none m'
  /-- It comes into memory. -/
  | miss {frame : FrameId} {owner? : Option PageRef} {m' : PagedMemory}
    (hintake : Intake m.frames m.policy m.page? ref m'.policy m'.page?) :
    Touches m ref page (some (frame, owner?)) m'

/-- What holds of a memory between occasions. The first clause is what makes each operation succeed; the
others are carried along for what is said of the records. -/
structure Kept (m : PagedMemory) : Prop where
  /-- Frames, policy and pages agree. -/
  coherent : Coherent m.frames m.policy m.page?
  /-- A clock has marks on frames with pages only. -/
  marked : m.policy.Marked
  /-- There is one page of a name. -/
  distinct : (m.pages.map (·.ref)).Nodup

theorem exists_kept_of_build (kind : PolicyKind) (seed : Nat) (htotal : 0 < total) :
    ∃ m, build kind total seed = .ok m ∧ m.Kept ∧ m.policy.kind = kind := by
  -- the policy and the frames are built apart, and neither has heard of a page
  obtain ⟨policy, hpolicy, hkind, hfollows⟩ : ∃ policy, Policy.build kind total seed = .ok policy ∧
      policy.kind = kind ∧ policy.Follows total fun _ => none := Policy.build_eq_ok htotal
  obtain ⟨frames, hframes, hsize, -, hresidency⟩ := Residency.ofSize_eq_ok htotal
  refine ⟨{ frames, policy }, ?_, ⟨⟨hresidency, hsize.symm ▸ hfollows, hsize.symm ▸ htotal⟩,
    Policy.marked_build hpolicy, .nil⟩, hkind⟩
  simp only [build, hpolicy, PageStore.ofSize, hframes, bind, Except.bind]
  rfl

namespace Kept

theorem track (h : m.Kept) (hnew : m.page? ref = none) :
    (m.track ref).2.Kept ∧ (m.track ref).2.page? ref = some (m.track ref).1 ∧
      (m.track ref).2.policy.kind = m.policy.kind ∧ (m.track ref).1.frame? = none ∧
      (m.track ref).2.frames = m.frames := by
  -- a page that is met is written under its name, with what the policy returned for it
  have hpages : (m.track ref).2.page? =
      Function.update m.page? ref (some { ref, overhead := (m.policy.track ref).1 }) :=
    PageStore.page?_put_eq
  refine ⟨⟨?_, h.marked.track, PageStore.distinct_put h.distinct⟩, ?_, Policy.kind_track, rfl, rfl⟩
  · show Coherent m.frames (m.policy.track ref).2 (m.track ref).2.page?
    rw [hpages]
    exact h.coherent.track hnew
  · rw [hpages, Function.update_self]
    rfl

/-- A frame for a page that is not in memory, and the memory without the page that had to leave.
Whatever page that was, it stays known. -/
theorem makeRoom_eq_ok (h : m.Kept) :
    ∃ frame owner? m', m.makeRoom = .ok (frame, owner?, m') ∧ m'.Kept ∧
      m'.policy.kind = m.policy.kind ∧ m'.frames.holders[frame]? = some none ∧
      Room m.frames m.policy m.page? frame m'.policy m'.page? ∧
      ∀ owner, owner? = some owner → m.frames.holder? frame = .ok (some owner) ∧
        m.frames.hasFree = false := by
  obtain ⟨frame, owner?, policy, hclaim, hkind, hcases⟩ := h.coherent.claim_eq_ok
  unfold makeRoom
  rw [hclaim]
  -- there is a free frame, or the policy gives up one with a page
  rcases hcases with ⟨rfl, rfl, hfree⟩ | ⟨owner, left, rfl, hleft, hin, hfollows⟩
  · -- a free frame is claimed, and nothing else changes
    obtain ⟨hsome, hallocate⟩ : m.frames.hasFree = true ∧ m.frames.allocate = .ok frame := by
      rcases Policy.claim_cases hclaim with ⟨hsome, hallocate, -⟩ | ⟨_, -, -, -, hnone⟩
      · exact ⟨hsome, hallocate⟩
      · cases hnone
    exact ⟨frame, none, m, rfl, h, rfl, hfree, .free hsome hallocate, fun owner howner => by cases howner⟩
  · -- no frame is free, and the policy has named this one
    obtain ⟨hfull, hvictim, hholder⟩ : m.frames.hasFree = false ∧ m.policy.victim = .ok (frame, policy) ∧
        m.frames.holder? frame = .ok (some owner) := by
      rcases Policy.claim_cases hclaim with ⟨-, -, hnone, -⟩ | ⟨_, hfull, hvictim, hholder, howner⟩
      · cases hnone
      · cases howner
        exact ⟨hfull, hvictim, hholder⟩
    obtain ⟨frames, hevict, hfree, -, -, hcoherent⟩ := h.coherent.evict_eq_ok hleft hin hfollows
    -- the page that leaves keeps its name and its mark, and loses its frame
    have hname := h.coherent.residency.named hleft
    let store := PageStore.put { m with frames } { left with frame? := none }
    have hpages : store.page? = Function.update m.page? owner (some { left with frame? := none }) :=
      hname ▸ PageStore.page?_put_eq
    refine ⟨frame, some owner, { store with policy }, ?_, ⟨?_, ?_, PageStore.distinct_put h.distinct⟩,
      hkind, hfree, ?_, ?_⟩
    · simp only [hleft, PageStore.evict, hevict, Fault.demand, bind, Except.bind]
      rfl
    · show Coherent frames policy store.page?
      rw [hpages]
      exact hcoherent
    · exact h.marked.victim hvictim
    · show Room m.frames m.policy m.page? frame policy store.page?
      rw [hpages]
      exact .taken hfull hvictim hleft hin
    · rintro _ ⟨⟩
      exact ⟨hholder, hfull⟩

/-- A use of a page that is not known is one of a page that was met. -/
theorem touch_track (h : m.Kept) (hnew : m.page? ref = none) :
    m.touch ref = (m.track ref).2.touch ref := by
  obtain ⟨-, hpage, -⟩ := h.track hnew
  simp only [touch, hnew, hpage]

theorem touch_eq_ok_of_page (h : m.Kept) (hpage : m.page? ref = some page) :
    ∃ answer m', m.touch ref = .ok (answer, m') ∧ m'.Kept ∧ m'.policy.kind = m.policy.kind ∧
      m.Touches ref page answer m' ∧
      ∀ frame owner, answer = some (frame, some owner) →
        m.frames.holder? frame = .ok (some owner) ∧ m.frames.hasFree = false := by
  unfold touch
  simp only [hpage]
  -- a resident page is a hit, any other one a miss
  cases hresident : page.isResident with
  | true =>
    obtain ⟨frame, hframe⟩ := Page.isResident_iff.1 hresident
    obtain ⟨policy, haccess, hkind, hfollows⟩ :=
      Policy.noteAccess_eq_ok h.coherent.follows hpage hframe
    -- on a hit only the policy changes
    refine ⟨none, { m with policy }, ?_, ⟨⟨h.coherent.residency, hfollows, h.coherent.nonempty⟩,
      h.marked.noteAccess h.coherent.follows hpage haccess, h.distinct⟩, hkind,
      .hit hframe haccess, ?_⟩
    · rw [haccess]
      rfl
    · intro frame owner heq
      cases heq
  | false =>
    have hframe : page.frame? = none :=
      Option.not_isSome_iff_eq_none.1 (by rw [← Page.isResident, hresident]; decide)
    -- on a miss room is made first, and the memory after that has the page as it was, still outside
    obtain ⟨frame, owner?, m₂, hroom, h₂, hkind₂, hfree, hfound, howner⟩ := h.makeRoom_eq_ok
    have hpage₂ := hfound.page_eq hpage hframe
    obtain ⟨frames, policy, hload, hnote, -, hkind, -, hcoherent⟩ :=
      h₂.coherent.load_eq_ok hpage₂ hframe hfree
    have hname := h₂.coherent.residency.named hpage₂
    let store := PageStore.put { m₂ with frames } { page with frame? := some frame }
    have hpages : store.page? = Function.update m₂.page? ref
        (some { page with frame? := some frame }) := by
      rw [← hname]
      exact PageStore.page?_put_eq
    -- the second memory goes with the frame that was free in it
    refine ⟨some (frame, owner?), { store with policy }, ?_, ⟨?_, h₂.marked.noteLoad hnote,
      PageStore.distinct_put h₂.distinct⟩, hkind.trans hkind₂, .miss ?_, ?_⟩
    · simp only [hroom, PageStore.load, hload, hnote, bind, Except.bind]
      rfl
    · show Coherent frames policy store.page?
      rw [hpages]
      exact hcoherent
    · show Intake m.frames m.policy m.page? ref policy store.page?
      rw [hpages]
      exact .load hpage hframe hfound hpage₂ hnote
    · -- what is said of the page that had to leave is what making room has said
      intro frame owner heq
      cases heq
      exact howner owner rfl

/-- **A use.** It succeeds, and if another page has to leave memory, that page was in its frame and no
frame was free. -/
theorem touch_eq_ok (h : m.Kept) (ref : PageRef) :
    ∃ answer m', m.touch ref = .ok (answer, m') ∧ m'.Kept ∧ m'.policy.kind = m.policy.kind ∧
      ∀ frame owner, answer = some (frame, some owner) →
        m.frames.holder? frame = .ok (some owner) ∧ m.frames.hasFree = false := by
  cases hpage : m.page? ref with
  | some page =>
    obtain ⟨answer, m', htouch, h', hkind, -, howner⟩ := h.touch_eq_ok_of_page hpage
    exact ⟨answer, m', htouch, h', hkind, howner⟩
  -- a page that is not known is met first, and the frames do not change by that
  | none =>
    obtain ⟨h₁, hpage₁, hkind₁, -, hframes₁⟩ := h.track hpage
    obtain ⟨answer, m', htouch, h', hkind, -, howner⟩ := h₁.touch_eq_ok_of_page hpage₁
    exact ⟨answer, m', (h.touch_track hpage).trans htouch, h', hkind.trans hkind₁,
      hframes₁ ▸ howner⟩

theorem discard_eq_ok (h : m.Kept) (hpage : m.page? ref = some page) :
    ∃ m', m.discard page = .ok (page.frame?, m') ∧ m'.Kept ∧ m'.policy.kind = m.policy.kind ∧
      m.policy.forget page = .ok m'.policy := by
  have hname := h.coherent.residency.named hpage
  obtain ⟨policy, hforget, hkind, hcases⟩ := h.coherent.forget_eq_ok hpage
  have hmarked := h.marked.forget hforget
  unfold discard
  rw [hforget]
  -- a page in memory leaves its frame before it is given up; any other one is only forgotten
  rcases hcases with ⟨hframe, hcoherent⟩ | ⟨frame, frames, hframe, hevict, -, -, hcoherent⟩
  · refine ⟨{ m.remove page.ref with policy }, ?_, ⟨?_, hmarked, PageStore.distinct_remove h.distinct⟩,
      hkind, rfl⟩
    · rw [hframe]
      rfl
    · show Coherent m.frames policy (m.remove page.ref).page?
      rw [PageStore.page?_remove, hname]
      exact hcoherent
  · let store := PageStore.put { m with frames } { page with frame? := none }
    refine ⟨{ store.remove page.ref with policy }, ?_, ⟨?_, hmarked,
      PageStore.distinct_remove (PageStore.distinct_put h.distinct)⟩, hkind, rfl⟩
    · simp only [hframe, PageStore.evict, hevict, bind, Except.bind]
      rfl
    · show Coherent frames policy (store.remove page.ref).page?
      rw [PageStore.page?_remove, show store.page? = _ from PageStore.page?_put_eq,
        Function.update_idem, hname]
      exact hcoherent

/-- **An occasion.** It succeeds, and a page that has to leave memory was in a frame. What has nothing to
do, because the page is known or is not, changes nothing. -/
theorem occur_eq_ok (h : m.Kept) (occasion : Occasion) :
    ∃ answer m', m.occur occasion = .ok (answer, m') ∧ m'.Kept ∧ m'.policy.kind = m.policy.kind ∧
      ∀ frame owner, answer = some (frame, some owner) →
        m.frames.holder? frame = .ok (some owner) ∧ m.frames.hasFree = false := by
  cases occasion with
  | meet ref =>
    cases hpage : m.page? ref with
    | some page => exact ⟨none, m, by simp only [occur, hpage], h, rfl, fun _ _ heq => by cases heq⟩
    | none =>
      obtain ⟨h', -, hkind, -⟩ := h.track hpage
      exact ⟨none, _, by simp only [occur, hpage], h', hkind, fun _ _ heq => by cases heq⟩
  | use ref => exact h.touch_eq_ok ref
  | drop ref =>
    cases hpage : m.page? ref with
    | some page =>
      obtain ⟨m', hdiscard, h', hkind, -⟩ := h.discard_eq_ok hpage
      refine ⟨none, m', ?_, h', hkind, fun _ _ heq => by cases heq⟩
      simp only [occur, hpage, hdiscard]
      rfl
    | none => exact ⟨none, m, by simp only [occur, hpage], h, rfl, fun _ _ heq => by cases heq⟩

/-! ### Any number of occasions -/

theorem occurAll_eq_ok (h : m.Kept) (occasions : List Occasion) :
    ∃ m', m.occurAll occasions = .ok m' ∧ m'.Kept ∧ m'.policy.kind = m.policy.kind := by
  -- by induction on the occasions, for any memory that is kept, since the first one leaves another
  induction occasions generalizing m with
  | nil => exact ⟨m, rfl, h, rfl⟩
  | cons occasion rest ih =>
    obtain ⟨answer, m₁, hoccur, h₁, hkind₁, -⟩ := h.occur_eq_ok occasion
    obtain ⟨m', hrest, h', hkind⟩ := ih h₁
    refine ⟨m', ?_, h', hkind.trans hkind₁⟩
    rw [occurAll, List.foldlM_cons, hoccur]
    exact hrest

end Kept

/-- The policy of a memory, its frames and its pages say the same. This is in terms of what can be read
off the records, and does not mention how they are kept coherent. -/
structure InStep (m : PagedMemory) : Prop where
  /-- There is one page of a name. -/
  distinct : m.pages.Pairwise fun a b => a.ref ≠ b.ref
  /-- Random choice is the only policy that tracks no frames. -/
  tracks : m.policy.tracked?.isSome = true ↔ m.policy.kind ≠ .random
  /-- The others track the frames of the resident pages, each once. -/
  tracked : ∀ {tracked}, m.policy.tracked? = some tracked → tracked.Nodup ∧
    ∀ frame, frame ∈ tracked ↔ ∃ page ∈ m.pages, page.frame? = some frame
  /-- A clock has marks on tracked frames only. -/
  marked : ∀ {clock}, m.policy = .clock clock → clock.referencedFrames ⊆ clock.occupiedFrames
  /-- A list has a slot for each page. -/
  listed : ∀ {list}, m.policy = .lru list ∨ m.policy = .fifo list →
    ∀ page ∈ m.pages, ∃ slot node, list.Lists page slot node
  /-- No two pages have the same slot. -/
  apart : ∀ {list}, m.policy = .lru list ∨ m.policy = .fifo list →
    m.pages.Pairwise fun a b => a.overhead ≠ b.overhead

theorem Kept.inStep (h : m.Kept) : m.InStep := by
  -- there is one page of a name, so to be in memory is to be found under its name
  have hmem : ∀ {page : Page}, page ∈ m.pages ↔ m.page? page.ref = some page :=
    PageStore.mem_pages_iff h.distinct
  have hfollows : ∀ {list}, m.policy = .lru list ∨ m.policy = .fifo list → list.Follows m.page? := by
    intro list hpolicy
    have hfollows := h.coherent.follows
    rcases hpolicy with hpolicy | hpolicy <;> rwa [hpolicy] at hfollows
  refine ⟨List.pairwise_map.1 h.distinct, Policy.isSome_tracked?_iff, fun {tracked} htracked => ?_,
    fun {clock} hpolicy => ?_, fun {list} hpolicy page hpage => ?_, fun {list} hpolicy => ?_⟩
  · -- the tracked frames are those of the page table, and these are those of the resident pages
    refine ⟨Policy.nodup_tracked h.coherent.follows h.coherent.residency.placed htracked,
      fun frame => ?_⟩
    rw [Policy.mem_tracked_iff h.coherent.follows htracked]
    constructor
    · rintro ⟨ref, hframe⟩
      obtain ⟨page, hpage, hframe⟩ := PageMap.frame?_eq_some_iff.1 hframe
      exact ⟨page, hmem.2 ((h.coherent.residency.named hpage).symm ▸ hpage), hframe⟩
    · rintro ⟨page, hpage, hframe⟩
      exact ⟨page.ref, PageMap.frame?_eq_some_iff.2 ⟨page, hmem.1 hpage, hframe⟩⟩
  · -- the marks of a clock
    have hmarked := h.marked
    rw [hpolicy] at hmarked
    exact Clock.Marked.referenced_subset hmarked
  · -- the slot of each page of a list
    exact (hfollows hpolicy).exists_lists (hmem.1 hpage) rfl
  · -- two slots, by the names of the two pages
    refine (List.pairwise_map.1 h.distinct).imp_of_mem fun {a b} ha hb hne => ?_
    exact (hfollows hpolicy).overhead_ne (hmem.1 ha) (hmem.1 hb) hne

/-- **Any use of a memory.** A memory of at least one frame can be built under each policy, and whatever
occurs to its pages succeeds. After that the policy, the frames and the pages say the same; and when
another page has to leave memory, no frame is free and that page is in the frame that the policy names. -/
theorem occasions_eq_ok (htotal : 0 < total) (occasions : List Occasion) :
    ∃ m₀ m, build kind total seed = .ok m₀ ∧ m₀.occurAll occasions = .ok m ∧ m.policy.kind = kind ∧
      m.InStep ∧
      ∀ occasion, ∃ answer m', m.occur occasion = .ok (answer, m') ∧ m'.InStep ∧
        ∀ frame owner, answer = some (frame, some owner) →
          m.frames.hasFree = false ∧ m.frames.holder? frame = .ok (some owner) := by
  obtain ⟨m₀, hbuild, h₀, hkind₀⟩ := exists_kept_of_build kind seed htotal
  obtain ⟨m, hall, h, hkind⟩ := h₀.occurAll_eq_ok occasions
  refine ⟨m₀, m, hbuild, hall, hkind.trans hkind₀, h.inStep, fun occasion => ?_⟩
  obtain ⟨answer, m', hoccur, h', -, howner⟩ := h.occur_eq_ok occasion
  exact ⟨answer, m', hoccur, h'.inStep, fun frame owner heq =>
    ⟨(howner frame owner heq).2, (howner frame owner heq).1⟩⟩

/-- Two pages used in two frames, a third that takes one of them, and the second given up and met
again. -/
theorem occasions_eq_ok_of_three : 0 < 2 ∧ ∃ m₀ m, build .lru 2 0 = .ok m₀ ∧
    m₀.occurAll [.use ⟨1, 0⟩, .use ⟨1, 1⟩, .use ⟨2, 0⟩, .drop ⟨1, 1⟩, .meet ⟨1, 1⟩] = .ok m ∧
      m.policy.kind = .lru ∧ m.InStep ∧
      ∀ occasion, ∃ answer m', m.occur occasion = .ok (answer, m') ∧ m'.InStep ∧
        ∀ frame owner, answer = some (frame, some owner) →
          m.frames.hasFree = false ∧ m.frames.holder? frame = .ok (some owner) :=
  ⟨by decide, occasions_eq_ok (by decide) _⟩

end PagedMemory

end DemandPaging
