import DemandPaging.Proofs.Occasions
import Mathlib.Order.Bounds.Defs

/-!
# Frames and pages as one partial bijection

A frame names the page that it records, a page names its frame, and the marks of the frames say which of
them are used. Each call on a frame table writes all three. `PageStore.serve` makes calls one after the
other, on the pages of a family and with any frames. Whatever the calls are, refused ones included, the
three say the same afterwards (`PageStore.serve_views`), and what a further call comes to can be told
from them (`FrameTable.Replies`).

That no frame records two pages and no page is in two frames is `Residency`, which each call keeps
(`FrameTable.serveOne_replies`). All else that is said of the store follows from it, by counting
(`PageStore.Bound.allocated_eq`) and by looking for the first mark that is missing
(`FrameTable.allocate_eq_ok_iff`).

A call writes the frame, the page and the mark one after the other. `FrameTable.InPlace` carries it out
in this way, where a fault keeps what was written before it; the checks all come before the first write
(`FrameTable.InPlace.perform_eq`).
-/

namespace DemandPaging

/-! ### Calls -/

/-- What a frame table can be asked for on a page. Nothing keeps a caller from asking for what
the table must refuse. -/
inductive FrameCall where
  /-- To put it into a frame. -/
  | load (frame : FrameId)
  /-- To take it out of one. -/
  | evict (frame : FrameId)
  deriving DecidableEq, Repr

namespace FrameTable

/-- The table and the page after a call. Both are changed by it, and a call that is refused
gives neither. -/
def call (table : FrameTable) (page : Page) : FrameCall → Except Fault (FrameTable × Page)
  | .load frame => table.load frame page
  | .evict frame => table.evict frame page

/-- What comes of a call, with the table and the page after it, which are the same if it was refused. -/
def serveOne (table : FrameTable) (page : Page) (call : FrameCall) :
    Except Fault Unit × (FrameTable × Page) :=
  match table.call page call with
  | .ok after => (.ok (), after)
  | .error fault => (.error fault, table, page)

/-- When a call is refused: for a load if there is no such frame, if the frame records a page, or if the
page is in memory; for an eviction if there is no such frame or it records another page or none. -/
def Refuses (table : FrameTable) (page : Page) : FrameCall → Prop
  | .load frame =>
    table.size ≤ frame ∨ (∃ holder, table.holder? frame = .ok (some holder)) ∨ page.isResident = true
  | .evict frame => table.size ≤ frame ∨ table.holder? frame ≠ .ok (some page.ref)

/-- What may come of a call. The table after it is told by what its frames record; the marks of
the frames follow from that, and are left to `Residency`. -/
inductive Replies (table : FrameTable) (page : Page) :
    FrameCall → Except Fault Unit × (FrameTable × Page) → Prop where
  /-- It is refused and nothing has changed. -/
  | refused {call : FrameCall} {fault : Fault} (hrefuses : table.Refuses page call) :
    Replies table page call (.error fault, table, page)
  /-- The page is in the frame, and the frame records it. -/
  | loaded {frame : FrameId} {table' : FrameTable} (hadmits : ¬table.Refuses page (.load frame))
    (hholder : ∀ other, table'.holder? other =
      if other = frame then .ok (some page.ref) else table.holder? other) :
    Replies table page (.load frame) (.ok (), table', { page with frame? := some frame })
  /-- The page is in no frame, and the frame records none. -/
  | evicted {frame : FrameId} {table' : FrameTable} (hadmits : ¬table.Refuses page (.evict frame))
    (hholder : ∀ other, table'.holder? other =
      if other = frame then .ok none else table.holder? other) :
    Replies table page (.evict frame) (.ok (), table', { page with frame? := none })

end FrameTable

namespace PageStore

/-- Makes a call on the page of a name, if there is one. Whether it is refused or not, the page that comes
of it is stored. -/
def serveOne (s : PageStore) (ref : PageRef) (call : FrameCall) : PageStore :=
  match s.page? ref with
  | none => s
  | some page =>
    let (frames, page) := (s.frames.serveOne page call).2
    { s with frames }.put page

/-- The store after some calls, each on a page. A call that is refused is passed over. -/
def serve (s : PageStore) (calls : List (PageRef × FrameCall)) : PageStore :=
  calls.foldl (fun s call => s.serveOne call.1 call.2) s

/-- The frames and the pages of a store say the same of which page is in which frame. What is said in
both directions makes this a bijection: a page names one frame, and a frame records one page. -/
structure Views (s : PageStore) (total : Nat) : Prop where
  /-- The number of frames. -/
  size_eq : s.frames.size = total
  /-- A frame records a page if the page is in that frame, and only then. -/
  holder?_iff : ∀ {page frame}, page ∈ s.pages →
    (s.frames.holder? frame = .ok (some page.ref) ↔ page.frame? = some frame)
  /-- The frames record no other pages. -/
  known : ∀ {frame ref}, s.frames.holder? frame = .ok (some ref) → ref ∈ s.pages.map (·.ref)
  /-- A frame is marked as used if it records a page. -/
  isFree_eq : ∀ frame, s.frames.free.isFree frame = (s.frames.holder? frame).map Option.isNone
  /-- The number of frames in use is the number of pages in memory. -/
  allocated_eq : s.frames.allocated = s.pages.countP Page.isResident
  /-- Some frame is free as long as fewer pages are in memory than there are frames. -/
  hasFree_iff : s.frames.hasFree = true ↔ s.pages.countP Page.isResident < total
  /-- The frame that is given out is the first that records no page. -/
  allocate_iff : ∀ {frame},
    s.frames.allocate = .ok frame ↔ IsLeast {frame | s.frames.holder? frame = .ok none} frame
  /-- There is none if all frames record pages. -/
  exhausted_iff : s.frames.allocate = .error (.breach .noFreeFrame) ↔
    ∀ frame, s.frames.holder? frame ≠ .ok none

end PageStore

/-! ### Between two calls -/

namespace FrameTable

variable {table table' : FrameTable} {pages : PageMap} {page : Page} {ref : PageRef} {frame : FrameId}
  {holder? : Option PageRef} {call : FrameCall}

theorem holder?_eq_ok_iff : table.holder? frame = .ok holder? ↔ table.holders[frame]? = some holder? := by
  unfold FrameTable.holder?
  cases table.holders[frame]? with
  | none => simp
  | some found => simp

theorem holder?_eq_error_iff {fault : Fault} :
    table.holder? frame = .error fault ↔ table.size ≤ frame ∧ fault = .outOfBounds := by
  unfold FrameTable.holder?
  split
  · next h =>
    have hlt : frame < table.size := (Array.getElem?_eq_some_iff.1 h).1
    simp [hlt]
  · next h =>
    have hge : table.size ≤ frame := Array.getElem?_eq_none_iff.1 h
    simp [hge, eq_comm]

/-- There is a mark for each frame. -/
theorem size_free (h : Residency table pages) : table.free.size = table.size := by
  rw [FreeFrames.size, h.marked, Array.size_map]
  rfl

/-- The marks say which frames record a page. -/
theorem isFree_eq (h : Residency table pages) (frame : FrameId) :
    table.free.isFree frame = (table.holder? frame).map Option.isNone := by
  rw [FreeFrames.isFree, h.marked, Array.getElem?_map, FrameTable.holder?]
  cases table.holders[frame]? with
  | none => rfl
  | some found => cases found <;> rfl

theorem hasFree_iff (h : Residency table pages) :
    table.hasFree = true ↔ table.allocated < table.size := by
  rw [hasFree, decide_eq_true_iff, FreeFrames.freeCount, size_free h, allocated]
  omega

/-- A mark is missing where the frame records no page. -/
theorem used_eq_some_false_iff (h : Residency table pages) :
    table.free.used[frame]? = some false ↔ table.holder? frame = .ok none := by
  rw [h.marked, Array.getElem?_map, holder?_eq_ok_iff, Option.map_eq_some_iff]
  constructor
  · rintro ⟨found, hfound, hnone⟩
    rw [hfound, Option.isSome_eq_false_iff.1 hnone |> Option.isNone_iff_eq_none.1]
  · intro hholder
    exact ⟨none, hholder, rfl⟩

/-- The first mark that is missing is the first frame that records no page. The search goes over
the marks, which are those of the records frame by frame. -/
theorem allocate_eq_ok_iff (h : Residency table pages) :
    table.allocate = .ok frame ↔ IsLeast {frame | table.holder? frame = .ok none} frame := by
  simp only [← used_eq_some_false_iff h]
  rw [allocate, Fault.demand_eq_ok_iff, FreeFrames.firstFree?, Array.findIdx?_eq_some_iff_getElem]
  constructor
  · -- the marks before the first one that is missing are set
    rintro ⟨hlt, hfree, hfirst⟩
    refine ⟨Array.getElem?_eq_some_iff.2 ⟨hlt, by simpa using hfree⟩, fun other hother => ?_⟩
    obtain ⟨hin, hunused⟩ := Array.getElem?_eq_some_iff.1 hother
    by_contra hbefore
    exact hfirst other (Nat.lt_of_not_le hbefore) (by rw [hunused]; rfl)
  · rintro ⟨hframe, hleast⟩
    obtain ⟨hlt, hunused⟩ := Array.getElem?_eq_some_iff.1 hframe
    refine ⟨hlt, by rw [hunused]; rfl, fun other hbefore hfree => ?_⟩
    have hother : table.free.used[other]? = some false :=
      Array.getElem?_eq_some_iff.2 ⟨Nat.lt_trans hbefore hlt, by simpa using hfree⟩
    exact Nat.not_le_of_lt hbefore (hleast hother)

theorem allocate_eq_error_iff (h : Residency table pages) :
    table.allocate = .error (.breach .noFreeFrame) ↔ ∀ frame, table.holder? frame ≠ .ok none := by
  constructor
  · intro hnone frame hframe
    -- all marks are set, so this frame records a page
    rw [← used_eq_some_false_iff h] at hframe
    cases hfirst : table.free.firstFree? with
    | some first =>
      rw [allocate, hfirst] at hnone
      cases hnone
    | none =>
      have hall := Array.findIdx?_eq_none_iff.1 hfirst false (Array.mem_of_getElem? hframe)
      cases hall
  · intro hall
    cases hfirst : table.free.firstFree? with
    | some first =>
      -- a mark that is missing stands for a frame that records no page
      have hempty := (used_eq_some_false_iff h).1 (FreeFrames.firstFree?_eq_some hfirst)
      exact absurd hempty (hall first)
    | none =>
      rw [allocate, hfirst]
      rfl

/-! ### One call -/

theorem serveOne_of_ok {after : FrameTable × Page} (h : table.call page call = .ok after) :
    table.serveOne page call = (.ok (), after) := by
  rw [serveOne, h]

theorem serveOne_of_error {fault : Fault} (h : table.call page call = .error fault) :
    table.serveOne page call = (.error fault, table, page) := by
  rw [serveOne, h]

theorem holder?_setIfInBounds {free : FreeFrames} (hlt : frame < table.size) (other : FrameId) :
    FrameTable.holder? { holders := table.holders.setIfInBounds frame holder?, free } other =
      if other = frame then .ok holder? else table.holder? other := by
  rw [FrameTable.holder?]
  simp only [Array.getElem?_setIfInBounds]
  by_cases hother : other = frame
  · have hlt : frame < table.holders.size := hlt
    simp [hother, hlt]
  · rw [if_neg (Ne.symm hother), if_neg hother, FrameTable.holder?]

theorem lt_size_of_holder? (h : table.holder? frame = .ok holder?) : frame < table.size :=
  (Array.getElem?_eq_some_iff.1 (holder?_eq_ok_iff.1 h)).1

/-- A call that does not keep its contract is refused. The checks are followed in the order in which they
are made, so it does not matter which of them is the one that fails. -/
theorem call_of_refuses (h : table.Refuses page call) :
    ∃ fault, table.call page call = .error fault := by
  cases call with
  | load frame =>
    cases hholder : table.holder? frame with
    | error fault => exact ⟨fault, by rw [FrameTable.call, load, hholder]; rfl⟩
    | ok holder? =>
      have hlt := lt_size_of_holder? hholder
      cases hframe : page.frame? with
      | some elsewhere => cases holder? <;> exact ⟨_, by rw [FrameTable.call, load, hholder, hframe]; rfl⟩
      | none =>
        cases holder? with
        | some holder => exact ⟨_, by rw [FrameTable.call, load, hholder]; rfl⟩
        | none =>
          -- the frame is there and empty, and the page is in no frame
          rcases h with hge | ⟨holder, hheld⟩ | hresident
          · exact absurd hlt (Nat.not_lt.2 hge)
          · cases hholder.symm.trans hheld
          · rw [Page.isResident, hframe] at hresident
            cases hresident
  | evict frame =>
    cases hholder : table.holder? frame with
    | error fault => exact ⟨fault, by rw [FrameTable.call, evict, hholder]; rfl⟩
    | ok holder? =>
      -- what the frame records is not this page, or there is no such frame
      have hother : holder? ≠ some page.ref := by
        rintro rfl
        rcases h with hge | hne
        · exact absurd (lt_size_of_holder? hholder) (Nat.not_lt.2 hge)
        · exact hne hholder
      exact ⟨_, by
        rw [FrameTable.call, evict, hholder]
        simp only [bind, Except.bind, Fault.require, hother, decide_false]
        rfl⟩

theorem of_not_refuses_load (h : ¬table.Refuses page (.load frame)) :
    table.holder? frame = .ok none ∧ page.frame? = none := by
  simp only [Refuses, not_or, not_exists] at h
  obtain ⟨hlt, hempty, hout⟩ := h
  refine ⟨?_, by simpa [Page.isResident] using hout⟩
  cases hholder : table.holder? frame with
  | error fault => exact absurd (holder?_eq_error_iff.1 hholder).1 hlt
  | ok holder? =>
    cases holder? with
    | none => rfl
    | some holder => exact absurd hholder (hempty holder)

theorem of_not_refuses_evict (h : ¬table.Refuses page (.evict frame)) :
    table.holder? frame = .ok (some page.ref) := by
  by_contra hne
  exact h (.inr hne)

/-- **One call.** It is refused just if its contract is broken, and the frames and the pages agree after
it if they did before it. By cases on the contract and not on the answer, since a call that keeps it has
to be shown to succeed. -/
theorem serveOne_replies (h : Residency table pages) (hpage : pages ref = some page) (call : FrameCall) :
    table.Replies page call (table.serveOne page call) ∧
      ∃ outcome table' page', table.serveOne page call = (outcome, table', page') ∧
        table'.size = table.size ∧ page'.ref = page.ref ∧
        Residency table' (Function.update pages ref (some page')) := by
  by_cases hrefuses : table.Refuses page call
  · obtain ⟨fault, hcall⟩ := call_of_refuses hrefuses
    rw [serveOne_of_error hcall]
    -- nothing has changed
    refine ⟨.refused hrefuses, _, _, _, rfl, rfl, rfl, ?_⟩
    rwa [Function.update_eq_self_iff.2 hpage.symm]
  · have hname := h.named hpage
    cases call with
    -- the frame is empty and the page is in no frame, so each gets the other
    | load frame =>
      obtain ⟨hholder, hframe⟩ := of_not_refuses_load hrefuses
      obtain ⟨table', hload, hresidency, hsize, -⟩ :=
        h.load_eq_ok hpage hframe (holder?_eq_ok_iff.1 hholder)
      obtain ⟨-, -, free, -, htable⟩ := load_cases hload
      have hcall : table.call page (.load frame) = .ok (table', { page with frame? := some frame }) := hload
      rw [serveOne_of_ok hcall]
      refine ⟨.loaded hrefuses fun other => ?_, _, _, _, rfl, hsize, rfl, hresidency⟩
      rw [htable, holder?_setIfInBounds (lt_size_of_holder? hholder)]
    | evict frame =>
      have hholder := of_not_refuses_evict hrefuses
      -- the frame records the page, so the page says the same
      have hframe : page.frame? = some frame := by
        rw [← PageMap.frame?_of_page hpage, ← h.held_iff, ← holder?_eq_ok_iff, ← hname, hholder]
      obtain ⟨table', hevict, hresidency, -, -, hsize, -⟩ := h.evict_eq_ok hpage hframe
      obtain ⟨-, -, free, -, htable⟩ := evict_cases hevict
      have hcall : table.call page (.evict frame) = .ok (table', { page with frame? := none }) := hevict
      rw [serveOne_of_ok hcall]
      refine ⟨.evicted hrefuses fun other => ?_, _, _, _, rfl, hsize, rfl, hresidency⟩
      rw [htable, holder?_setIfInBounds (lt_size_of_holder? hholder)]

/-! ### A call on the table itself -/

/-- Operations that write a table and a page. A fault keeps what was written before it, which is
why it matters that all checks come first. -/
abbrev InPlace := ExceptT Fault (StateM (FrameTable × Page))

namespace InPlace

/-- Changes what a frame records. -/
def record (frame : FrameId) (holder? : Option PageRef) : InPlace Unit :=
  modify fun (table, page) =>
    ({ table with holders := table.holders.setIfInBounds frame holder? }, page)

/-- Changes what the page says of its frame. -/
def place (frame? : Option FrameId) : InPlace Unit :=
  modify fun (table, page) => (table, { page with frame? })

/-- Changes the marks of the frames. It is the last of three writes, and the only one that could
still fail. -/
def mark (change : FreeFrames → Except Fault FreeFrames) : InPlace Unit := do
  let (table, page) ← get
  let free ← change table.free
  set ({ table with free }, page)

/-- Carries out a call: first the checks, then the frame, the page and the mark. That nothing is
written when a check fails is what `perform_eq` says. -/
def perform : FrameCall → InPlace Unit
  | .load frame => do
    let (table, page) ← get
    let holder? ← table.holder? frame
    match holder?, page.frame? with
    | some holder, _ => throw (.breach (.frameOccupied frame holder))
    | none, some elsewhere => throw (.breach (.alreadyResident page.ref elsewhere))
    | none, none =>
      record frame (some page.ref)
      place (some frame)
      mark (·.occupy frame)
  | .evict frame => do
    let (table, page) ← get
    let holder? ← table.holder? frame
    Fault.require (holder? = some page.ref) (.notHeldBy frame page.ref holder?)
    Fault.require (page.frame? = some frame) (.recordElsewhere page.frame? frame)
    record frame none
    place none
    mark (·.release frame)

/-- A check that asks the table writes nothing. -/
theorem run_lift {α : Type} {outcome result : Except Fault α} (h : outcome = result) :
    (liftM outcome : InPlace α).run (table, page) = (result, table, page) := by
  rw [h]
  rfl

theorem mark_eq {change : FreeFrames → Except Fault FreeFrames} {free : FreeFrames}
    (h : change table.free = .ok free) :
    (mark change).run (table, page) = (.ok (), { table with free }, page) :=
  (Fault.run_bind_of_ok rfl).trans (Fault.run_bind_of_ok (run_lift h))

/-- A page is put into a frame. All three writes come after the last check, and the mark can be set as it
is missing where the frame is empty. -/
theorem perform_load (h : Residency table pages) :
    (perform (.load frame)).run (table, page) = table.serveOne page (.load frame) := by
  rw [serveOne, FrameTable.call, load]
  refine (Fault.run_bind_of_ok rfl).trans ?_
  cases hholder : table.holder? frame with
  | error fault => exact Fault.run_bind_of_error (run_lift hholder)
  | ok holder? =>
    refine (Fault.run_bind_of_ok (run_lift hholder)).trans ?_
    cases holder? with
    | some holder => rfl
    | none =>
      cases hframe : page.frame? with
      | some elsewhere => rfl
      | none =>
        obtain ⟨free, hoccupy, -⟩ := FreeFrames.occupy_eq_ok ((used_eq_some_false_iff h).2 hholder)
        have hwritten : (mark (·.occupy frame)).run
            ({ table with holders := table.holders.setIfInBounds frame (some page.ref) },
              { page with frame? := some frame }) = _ := mark_eq hoccupy
        simp only [bind, Except.bind, hoccupy]
        exact (Fault.run_bind_of_ok rfl).trans ((Fault.run_bind_of_ok rfl).trans hwritten)

/-- A page is taken out of a frame. That the page says so too is checked before the first write. -/
theorem perform_evict (h : Residency table pages) :
    (perform (.evict frame)).run (table, page) = table.serveOne page (.evict frame) := by
  rw [serveOne, FrameTable.call, evict]
  refine (Fault.run_bind_of_ok rfl).trans ?_
  cases hholder : table.holder? frame with
  | error fault => exact Fault.run_bind_of_error (run_lift hholder)
  | ok holder? =>
    refine (Fault.run_bind_of_ok (run_lift hholder)).trans ?_
    rw [Fault.ok_bind]
    cases hheld : Fault.require (holder? = some page.ref) (.notHeldBy frame page.ref holder?) with
    | error fault => exact Fault.run_bind_of_error rfl
    | ok _ =>
      refine (Fault.run_bind_of_ok rfl).trans ?_
      rw [Fault.ok_bind]
      cases hframe : Fault.require (page.frame? = some frame) (.recordElsewhere page.frame? frame) with
      | error fault => exact Fault.run_bind_of_error rfl
      | ok _ =>
        -- the frame records the page, so it is marked
        have hused := h.used_of_holder (holder?_eq_ok_iff.1 hholder)
        rw [of_decide_eq_true (Fault.require_eq_ok_iff.1 hheld)] at hused
        obtain ⟨free, hrelease, -⟩ := FreeFrames.release_eq_ok hused
        have hwritten : (mark (·.release frame)).run
            ({ table with holders := table.holders.setIfInBounds frame none },
              { page with frame? := none }) = _ := mark_eq hrelease
        refine (Fault.run_bind_of_ok rfl).trans ?_
        rw [hrelease]
        exact (Fault.run_bind_of_ok rfl).trans ((Fault.run_bind_of_ok rfl).trans hwritten)

/-- **A call on the table itself.** A call that is carried out by steps either comes to its end, and has
done what it does at once, or is refused before the table or the page was changed. -/
theorem perform_eq (h : Residency table pages) (page : Page) (call : FrameCall) :
    (perform call).run (table, page) = table.serveOne page call := by
  cases call with
  | load frame => exact perform_load h
  | evict frame => exact perform_evict h

end InPlace

end FrameTable

namespace PageStore

variable {s : PageStore} {page : Page} {ref : PageRef} {total : Nat} {refs : List PageRef}

/-- A page that is put in place of the one of its name leaves the names as they are, but for their order.
-/
theorem refs_put (h : (s.pages.map (·.ref)).Nodup) (hmem : page.ref ∈ s.pages.map (·.ref)) :
    ((s.put page).pages.map (·.ref)).Perm (s.pages.map (·.ref)) := by
  have hrest : (s.remove page.ref).pages.map (·.ref) = (s.pages.map (·.ref)).erase page.ref := by
    rw [h.erase_eq_filter, List.filter_map, remove]
    refine congrArg _ (List.filter_congr fun other _ => ?_)
    rw [Function.comp_apply, bne, beq_eq_decide, ← decide_not]
  rw [put, List.map_cons, hrest]
  exact (List.perm_cons_erase hmem).symm

/-- The frames and the pages of a store agree, and it has the pages of the given names. This is what each
call keeps, and what all of `Views` is read off. -/
structure Bound (s : PageStore) (total : Nat) (refs : List PageRef) : Prop where
  /-- The number of frames. -/
  size_eq : s.frames.size = total
  /-- The names of the pages. -/
  refs_perm : (s.pages.map (·.ref)).Perm refs
  /-- No two pages have the same name. -/
  distinct : (s.pages.map (·.ref)).Nodup
  /-- The frames and the pages agree. -/
  residency : Residency s.frames s.page?

theorem Bound.serveOne (h : s.Bound total refs) (ref : PageRef) (call : FrameCall) :
    (s.serveOne ref call).Bound total refs := by
  unfold PageStore.serveOne
  cases hpage : s.page? ref with
  | none => exact h
  | some page =>
    -- the page that comes out of the call is put back under its name
    obtain ⟨-, outcome, table', page', hserve, hsize, hname, hresidency⟩ :=
      FrameTable.serveOne_replies h.residency hpage call
    have href : page'.ref = ref := hname.trans (h.residency.named hpage)
    have hmem : page'.ref ∈ s.pages.map (·.ref) :=
      hname ▸ List.mem_map_of_mem (List.mem_of_find?_eq_some hpage)
    simp only [hserve]
    refine ⟨hsize.trans h.size_eq, (refs_put h.distinct hmem).trans h.refs_perm,
      distinct_put h.distinct, ?_⟩
    rw [page?_put_eq, href]
    exact hresidency

theorem Bound.serve (h : s.Bound total refs) (calls : List (PageRef × FrameCall)) :
    (s.serve calls).Bound total refs := by
  induction calls generalizing s with
  | nil => exact h
  | cons call calls ih => exact ih (h.serveOne call.1 call.2)

/-- The frames in use and the pages in memory are paired off: each frame in use is that of just one page.
-/
theorem Bound.occupiedFrames_perm (h : s.Bound total refs) :
    (s.frames.occupiedFrames.map some).Perm ((s.pages.filter Page.isResident).map (·.frame?)) := by
  have hframe : ∀ {page}, page ∈ s.pages → s.page? page.ref = some page := (mem_pages_iff h.distinct).1
  refine (List.perm_ext_iff_of_nodup ?_ ?_).2 fun frame? => ?_
  · -- no frame is counted twice
    exact FrameTable.nodup_occupiedFrames.map fun _ _ => Option.some.inj
  · -- two pages in one frame are the same page
    refine ((List.Nodup.of_map _ h.distinct).filter _).map_on fun page hpage other hother heq => ?_
    obtain ⟨hin, hresident⟩ := List.mem_filter.1 hpage
    obtain ⟨frame, hpageframe⟩ := Page.isResident_iff.1 hresident
    have hname := h.residency.placed.exclusive
      (PageMap.frame?_eq_some_iff.2 ⟨page, hframe hin, hpageframe⟩)
      (PageMap.frame?_eq_some_iff.2 ⟨other, hframe (List.mem_filter.1 hother).1, heq ▸ hpageframe⟩)
    exact List.inj_on_of_nodup_map h.distinct hin (List.mem_filter.1 hother).1 hname
  · constructor
    · -- a frame in use has a page
      intro hmem
      obtain ⟨frame, hoccupied, rfl⟩ := List.mem_map.1 hmem
      obtain ⟨ref, hin⟩ := h.residency.mem_occupiedFrames_iff.1 hoccupied
      obtain ⟨page, hpage, hpageframe⟩ := PageMap.frame?_eq_some_iff.1 hin
      have hresident := Page.isResident_iff.2 ⟨frame, hpageframe⟩
      exact List.mem_map.2 ⟨page, List.mem_filter.2 ⟨List.mem_of_find?_eq_some hpage, hresident⟩, hpageframe⟩
    · -- a page in memory has a frame, which is in use
      intro hmem
      obtain ⟨page, hin, rfl⟩ := List.mem_map.1 hmem
      obtain ⟨hpage, hresident⟩ := List.mem_filter.1 hin
      obtain ⟨frame, hpageframe⟩ := Page.isResident_iff.1 hresident
      have hin := PageMap.frame?_eq_some_iff.2 ⟨page, hframe hpage, hpageframe⟩
      exact List.mem_map.2 ⟨frame, h.residency.mem_occupiedFrames_iff.2 ⟨page.ref, hin⟩, hpageframe.symm⟩

/-- The frames in use are as many as the pages in memory. The table has a counter of its own, which is
the number of marks, and so the number of frames that record a page. -/
theorem Bound.allocated_eq (h : s.Bound total refs) :
    s.frames.allocated = s.pages.countP Page.isResident := by
  have hlength := h.occupiedFrames_perm.length_eq
  rw [List.length_map, List.length_map] at hlength
  rw [FrameTable.allocated_eq h.residency.marked, hlength, List.countP_eq_length_filter]

theorem Bound.views (h : s.Bound total refs) : s.Views total where
  size_eq := h.size_eq
  holder?_iff {page frame} hpage := by
    -- to record a page and to be its frame is the same, as the pages have different names
    rw [FrameTable.holder?_eq_ok_iff, h.residency.held_iff,
      PageMap.frame?_of_page ((mem_pages_iff h.distinct).1 hpage)]
  known {frame ref} hholder := by
    obtain ⟨page, hpage, -⟩ := PageMap.frame?_eq_some_iff.1
      (h.residency.held_iff.1 (FrameTable.holder?_eq_ok_iff.1 hholder))
    exact List.mem_map.2 ⟨page, List.mem_of_find?_eq_some hpage, h.residency.named hpage⟩
  isFree_eq := FrameTable.isFree_eq h.residency
  allocated_eq := h.allocated_eq
  hasFree_iff := by
    rw [FrameTable.hasFree_iff h.residency, h.allocated_eq, h.size_eq]
  allocate_iff := FrameTable.allocate_eq_ok_iff h.residency
  exhausted_iff := FrameTable.allocate_eq_error_iff h.residency

theorem bound_of_ofSize {frames : FrameTable} {pages : List Page}
    (hdistinct : (pages.map (·.ref)).Nodup) (hout : ∀ page ∈ pages, page.frame? = none)
    (hsize : frames.size = total) (h : Residency frames fun _ => none) :
    Bound { frames, pages } total (pages.map (·.ref)) := by
  refine ⟨hsize, .rfl, hdistinct, fun {ref page} hpage => ?_, fun {frame ref} => ?_, h.marked⟩
  · exact of_decide_eq_true (List.find?_some hpage :)
  · -- at first no frame records a page, and no page has a frame
    rw [h.held_iff]
    refine iff_of_false (fun hin => by cases hin) fun hin => ?_
    obtain ⟨page, hpage, hframe⟩ := PageMap.frame?_eq_some_iff.1 hin
    cases hframe.symm.trans (hout page (List.mem_of_find?_eq_some hpage))

/-- **Any calls.** A table of at least one frame is made, and calls are made on it and on pages of
different names that are not in memory at first. Whatever the calls are, the frames, their marks and the
pages say the same afterwards. A further call is refused just if its contract is broken, and leaves both
the table and the page as they are; if it is not refused it changes this page and this frame. -/
theorem serve_views {pages : List Page} (htotal : 0 < total) (hdistinct : (pages.map (·.ref)).Nodup)
    (hout : ∀ page ∈ pages, page.frame? = none) (calls : List (PageRef × FrameCall)) :
    ∃ frames s, FrameTable.ofSize total = .ok frames ∧ serve { frames, pages } calls = s ∧
      (s.pages.map (·.ref)).Perm (pages.map (·.ref)) ∧ s.Views total ∧
      ∀ page ∈ s.pages, ∀ call,
        s.frames.Replies page call (s.frames.serveOne page call) ∧
        (FrameTable.InPlace.perform call).run (s.frames, page) = s.frames.serveOne page call := by
  obtain ⟨frames, hframes, hsize, -, hresidency⟩ := Residency.ofSize_eq_ok htotal
  have h := (bound_of_ofSize hdistinct hout hsize hresidency).serve calls
  refine ⟨frames, _, hframes, rfl, h.refs_perm, h.views, fun page hpage call => ⟨?_, ?_⟩⟩
  · exact (FrameTable.serveOne_replies h.residency ((mem_pages_iff h.distinct).1 hpage) call).1
  · exact FrameTable.InPlace.perform_eq h.residency page call

/-- Pages that are not in memory and have no marks. -/
def newPages (refs : List PageRef) : List Page := refs.map fun ref => { ref, overhead := .empty }

/-- Two frames and two pages: the first page comes in, the second is refused its frame and comes into the
other one, and the first leaves. -/
theorem serve_views_of_two :
    0 < 2 ∧ ((newPages [⟨1, 0⟩, ⟨2, 0⟩]).map (·.ref)).Nodup ∧
    (∀ page ∈ newPages [⟨1, 0⟩, ⟨2, 0⟩], page.frame? = none) ∧
    ∃ frames s, FrameTable.ofSize 2 = .ok frames ∧
      serve { frames, pages := newPages [⟨1, 0⟩, ⟨2, 0⟩] }
        [(⟨1, 0⟩, .load 0), (⟨2, 0⟩, .load 0), (⟨2, 0⟩, .load 1), (⟨1, 0⟩, .evict 0)] = s ∧
      (s.pages.map (·.ref)).Perm ((newPages [⟨1, 0⟩, ⟨2, 0⟩]).map (·.ref)) ∧ s.Views 2 ∧
      ∀ page ∈ s.pages, ∀ call,
        s.frames.Replies page call (s.frames.serveOne page call) ∧
        (FrameTable.InPlace.perform call).run (s.frames, page) = s.frames.serveOne page call :=
  ⟨by decide, by decide, by decide, serve_views (by decide) (by decide) (by decide) _⟩

/-- The frame that was left is the next one to be given out. -/
example : (FrameTable.ofSize 2).map (fun frames =>
    (serve { frames, pages := newPages [⟨1, 0⟩, ⟨2, 0⟩] }
      [(⟨1, 0⟩, .load 0), (⟨2, 0⟩, .load 0), (⟨2, 0⟩, .load 1), (⟨1, 0⟩, .evict 0)]).frames.allocate) =
    .ok (.ok 0) := by
  decide +kernel

end PageStore

end DemandPaging
