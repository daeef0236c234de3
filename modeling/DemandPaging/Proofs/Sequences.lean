import DemandPaging.Proofs.Links

/-!
# The page list as a plain list

A page list with its links and its reused slots does what a plain list would do. `PageSequence` is that
plain list: the pages that are queued, each with its slot and its frame, and the slots that are given
out but not queued. `PageSequence.Does` has one rule for each thing that it can be asked for; a call
that breaks its contract (`PageSequence.Admits`) is refused, for one of the causes of
`PageSequence.Refuses`, and changes nothing.

Whatever a page list is asked for from the beginning on, refused calls included, its answers are those
of a plain list, and afterwards it depicts that list (`serve_runs`): its links lead through the queued
pages in both directions, and each slot is queued, idle or vacant as the plain list says.

Between two calls the links of a page list are those of the plain list and its slots hold the same
(`PageList.Shows`). There is one lemma for each call that this is kept, from which it is kept by any
call (`Shows.serveOne`) and by any number of them (`Shows.serve`).

A call changes several slots one after the other. `PageList.InPlace` carries it out in this way, where a
fault keeps what was changed before it; no fault comes after the first change (`InPlace.perform_eq`).
-/

namespace DemandPaging

/-! ### Calls -/

/-- What a page list can be asked for. Each call but the first names a slot that an earlier one has
answered with, or no slot at all. -/
inductive ListCall where
  /-- A slot for a page. -/
  | alloc (page : PageRef)
  /-- To queue the page of a slot last. -/
  | pushBack (slot : Nat) (frame : FrameId)
  /-- To take it out of the queue. -/
  | unlink (slot : Nat)
  /-- To queue it last again. -/
  | moveToBack (slot : Nat)
  /-- To take out the first page. -/
  | popFront
  /-- To take a slot back. -/
  | release (slot : Nat)
  deriving DecidableEq, Repr

/-- The slot that a call is about. A slot for a new page is not named by the caller, and neither is the
first page of the queue. -/
def ListCall.slot? : ListCall → Option Nat
  | pushBack slot _ | unlink slot | moveToBack slot | release slot => some slot
  | alloc _ | popFront => none

/-- What a page list answers. A call that only changes the list is answered all the same, so
that it can be told from one that was refused. -/
inductive ListAnswer where
  /-- It has done what it was asked for. -/
  | done
  /-- The page has this slot. -/
  | slot (slot : Nat)
  /-- The first page was in this frame, if there was one. -/
  | frame (frame? : Option FrameId)
  deriving DecidableEq, Repr

namespace PageList

/-- What a call answers, with the list after it. A call that breaks its contract has neither. -/
def call (list : PageList) : ListCall → Except Fault (ListAnswer × PageList)
  | .alloc page => let (slot, list) := list.alloc page; .ok (.slot slot, list)
  | .pushBack slot frame => do return (.done, ← list.pushBack slot frame)
  | .unlink slot => do return (.done, ← list.unlink slot)
  | .moveToBack slot => do return (.done, ← list.moveToBack slot)
  | .popFront => do let (frame?, list) ← list.popFront; return (.frame frame?, list)
  | .release slot => do return (.done, ← list.release slot)

/-- The answer to a call and the list after it, which is the same list if the call was refused. So a
caller that was refused can go on with the list that it has. -/
def serveOne (list : PageList) (call : ListCall) : Except Fault ListAnswer × PageList :=
  match list.call call with
  | .ok (answer, list) => (.ok answer, list)
  | .error fault => (.error fault, list)

/-- The answers to some calls, and the list after them. -/
def serve (list : PageList) : List ListCall → List (Except Fault ListAnswer) × PageList
  | [] => ([], list)
  | call :: calls =>
    let (answer, list) := list.serveOne call
    let (answers, list) := list.serve calls
    (answer :: answers, list)

end PageList

/-! ### Plain lists -/

/-- A page in a queue. Its slot is part of it, since it is by the slot that a caller asks for
it. -/
structure QueuedPage where
  /-- Its slot. -/
  slot : Nat
  /-- The page. -/
  page : PageRef
  /-- The frame that holds it. -/
  frame : FrameId
  deriving DecidableEq, Repr

/-- A plain list of pages. It says which pages are queued and which slots are given out, and nothing of
how the queue is linked or which slot is reused first. -/
structure PageSequence where
  /-- The queued pages, oldest first. -/
  queued : List QueuedPage := []
  /-- The pages of the slots that are given out but not queued. -/
  idle : Nat → Option PageRef := fun _ => none

namespace PageSequence

instance : EmptyCollection PageSequence := ⟨{}⟩

/-- The slots of the queued pages, in the order of the queue. No slot is in it twice, though
that is not said here. -/
def slots (seq : PageSequence) : List Nat := seq.queued.map (·.slot)

/-- The slot is given out: its page is queued, or it is idle. Only of such a slot can anything
be asked. -/
def Live (seq : PageSequence) (slot : Nat) : Prop :=
  slot ∈ seq.slots ∨ (seq.idle slot).isSome = true

/-- The call keeps its contract: what is queued is idle before, what is taken out or moved is queued, and
what is taken back was given out. A slot for a page and the first page can always be asked for. -/
def Admits (seq : PageSequence) : ListCall → Prop
  | .alloc _ | .popFront => True
  | .pushBack slot _ => (seq.idle slot).isSome = true
  | .unlink slot | .moveToBack slot => slot ∈ seq.slots
  | .release slot => seq.Live slot

/-- What a plain list does when it is called. There is one rule for each call and each state of its slot
in which the call keeps its contract; together they say what comes of any such call. -/
inductive Does (seq : PageSequence) : ListCall → ListAnswer → PageSequence → Prop where
  /-- The page has a slot that was not given out. -/
  | alloc {page : PageRef} {slot : Nat} (hvacant : ¬seq.Live slot) :
    Does seq (.alloc page) (.slot slot) { seq with idle := Function.update seq.idle slot (some page) }
  /-- The page comes last. -/
  | pushBack {page : PageRef} {slot : Nat} {frame : FrameId} (hidle : seq.idle slot = some page) :
    Does seq (.pushBack slot frame) .done
      { queued := seq.queued ++ [⟨slot, page, frame⟩], idle := Function.update seq.idle slot none }
  /-- Just this page is taken out. -/
  | unlink {before after : List QueuedPage} {entry : QueuedPage}
    (hqueued : seq.queued = before ++ entry :: after) :
    Does seq (.unlink entry.slot) .done
      { queued := before ++ after, idle := Function.update seq.idle entry.slot (some entry.page) }
  /-- The page comes last, in the same frame. -/
  | moveToBack {before after : List QueuedPage} {entry : QueuedPage}
    (hqueued : seq.queued = before ++ entry :: after) :
    Does seq (.moveToBack entry.slot) .done { seq with queued := before ++ after ++ [entry] }
  /-- There is no page to be taken out. -/
  | popNothing (hqueued : seq.queued = []) : Does seq .popFront (.frame none) seq
  /-- The first page is taken out. -/
  | popFront {entry : QueuedPage} {rest : List QueuedPage} (hqueued : seq.queued = entry :: rest) :
    Does seq .popFront (.frame (some entry.frame))
      { queued := rest, idle := Function.update seq.idle entry.slot (some entry.page) }
  /-- Just this page is taken out, and its slot taken back. -/
  | releaseQueued {before after : List QueuedPage} {entry : QueuedPage}
    (hqueued : seq.queued = before ++ entry :: after) :
    Does seq (.release entry.slot) .done { seq with queued := before ++ after }
  /-- The slot is taken back. -/
  | releaseIdle {page : PageRef} {slot : Nat} (hidle : seq.idle slot = some page) :
    Does seq (.release slot) .done { seq with idle := Function.update seq.idle slot none }

/-- A call that keeps its contract is about a slot that is given out. So a slot that is not
given out is a reason to refuse any call that names it. -/
theorem Admits.live {seq : PageSequence} {call : ListCall} {slot : Nat} (h : seq.Admits call)
    (hslot : call.slot? = some slot) : seq.Live slot := by
  -- each call that names a slot asks for one that is queued, idle, or one of the two
  cases call with
  | alloc page => cases hslot
  | popFront => cases hslot
  | pushBack other frame =>
    cases hslot
    exact .inr h
  | unlink other =>
    cases hslot
    exact .inl h
  | moveToBack other =>
    cases hslot
    exact .inl h
  | release other =>
    cases hslot
    exact h

/-- A slot is queued, idle, or not given out. All case splits on the state of a slot follow this one; a
queued slot comes with its place in the queue, since the rules for it need that. -/
theorem slot_cases (seq : PageSequence) (slot : Nat) :
    (∃ before entry after, seq.queued = before ++ entry :: after ∧ entry.slot = slot) ∨
      (∃ page, seq.idle slot = some page) ∨ ¬seq.Live slot := by
  by_cases hlive : seq.Live slot
  · rcases hlive with hqueued | hidle
    · obtain ⟨entry, hentry, hname⟩ := List.mem_map.1 hqueued
      obtain ⟨before, after, hsplit⟩ := List.append_of_mem hentry
      exact .inl ⟨before, entry, after, hsplit, hname⟩
    · exact .inr (.inl (Option.isSome_iff_exists.1 hidle))
  · exact .inr (.inr hlive)

/-- Why a call is refused. A page that was once queued and one that never was are told apart where they
are asked to be moved, since only the first of them has a frame to be moved with. -/
inductive Refuses (seq : PageSequence) : ListCall → Breach → Prop where
  /-- The slot is not given out. -/
  | stale {call : ListCall} {slot : Nat} (hslot : call.slot? = some slot) (hvacant : ¬seq.Live slot) :
    Refuses seq call (.staleSlot slot)
  /-- The page is queued already. -/
  | pushQueued {entry : QueuedPage} {frame : FrameId} (hqueued : entry ∈ seq.queued) :
    Refuses seq (.pushBack entry.slot frame) (.alreadyQueued entry.page)
  /-- The page is not queued. -/
  | unlinkIdle {page : PageRef} {slot : Nat} (hidle : seq.idle slot = some page) :
    Refuses seq (.unlink slot) (.notQueued page)
  /-- The page is no longer queued. -/
  | moveIdle {page : PageRef} {slot : Nat} (hidle : seq.idle slot = some page) :
    Refuses seq (.moveToBack slot) (.notQueued page)
  /-- The page never was queued. -/
  | moveNew {page : PageRef} {slot : Nat} (hidle : seq.idle slot = some page) :
    Refuses seq (.moveToBack slot) (.neverLoaded page)

/-- What a plain list replies: a call that keeps its contract is answered, and one that breaks it is
refused and changes nothing. -/
inductive Replies (seq : PageSequence) (call : ListCall) :
    Except Fault ListAnswer → PageSequence → Prop where
  /-- The call is answered. -/
  | answered {answer : ListAnswer} {seq' : PageSequence} (hadmits : seq.Admits call)
    (hdoes : seq.Does call answer seq') : Replies seq call (.ok answer) seq'
  /-- The call is refused. -/
  | refused {cause : Breach} (hbroken : ¬seq.Admits call) (hrefuses : seq.Refuses call cause) :
    Replies seq call (.error (.breach cause)) seq

/-- What a plain list replies to some calls, one after the other, and the list after them. A call that is
refused leaves the list for the next one as it is. -/
inductive Runs : PageSequence → List ListCall → List (Except Fault ListAnswer) → PageSequence →
    Prop where
  /-- There was no call. -/
  | nil {seq : PageSequence} : Runs seq [] [] seq
  /-- There was a first call. -/
  | cons {seq seq₁ seq' : PageSequence} {call : ListCall} {calls : List ListCall}
    {answer : Except Fault ListAnswer} {answers : List (Except Fault ListAnswer)}
    (hfirst : seq.Replies call answer seq₁) (hrest : Runs seq₁ calls answers seq') :
    Runs seq (call :: calls) (answer :: answers) seq'

end PageSequence

namespace PageList

variable {list list' : PageList} {seq : PageSequence} {slot : Nat} {page : PageRef}
  {frame : FrameId} {order : List Nat} {before after rest : List QueuedPage} {entry : QueuedPage}

/-- The list is a plain list with links. This is what a reader of the slots sees: the two walks along the
links, the frames, the counts, and which slots are marked as queued, idle or vacant. -/
structure Depicts (list : PageList) (seq : PageSequence) : Prop where
  /-- The links lead from the oldest entry to the newest one and no further, and back the same way. -/
  walks : ∃ nodes, list.follow ListNode.next? list.slots.size list.head? = some nodes ∧
    list.follow ListNode.prev? list.slots.size list.tail? = some nodes.reverse ∧
    nodes.map (fun node => (node.1, node.2.page, node.2.frame?)) =
      seq.queued.map fun entry => (entry.slot, entry.page, some entry.frame)
  /-- The frames are told in order. -/
  frames_eq : list.frames = seq.queued.map (·.frame)
  /-- The number of entries is kept. -/
  length_eq : list.length = seq.queued.length
  /-- No slot is queued twice. -/
  nodup : seq.slots.Nodup
  /-- The slots of the entries are marked as queued. -/
  linked_iff : ∀ {slot node}, list.node? slot = some node → (node.linked = true ↔ slot ∈ seq.slots)
  /-- The other slots that hold a page are idle. -/
  idle_eq : ∀ slot, seq.idle slot = ((list.node? slot).filter (!·.linked)).map (·.page)
  /-- No slot is vacant twice. -/
  vacant_nodup : list.vacant.Nodup
  /-- The slots that hold no page are vacant. -/
  mem_vacant_iff : ∀ {slot}, slot ∈ list.vacant ↔ slot < list.slots.size ∧ list.node? slot = none

/-- What stands in the slots of a walk tells the walk. So two walks over the same slots are the same,
whichever way the links led through them. -/
theorem nodes_eq {nodes : List (Nat × ListNode)}
    (hnodes : ∀ entry ∈ nodes, list.node? entry.1 = some entry.2) :
    nodes = (nodes.map (·.1)).filterMap fun slot => (list.node? slot).map (slot, ·) := by
  rw [List.filterMap_map]
  refine List.filterMap_some.symm.trans (List.filterMap_congr fun entry hentry => ?_)
  rw [Function.comp_apply, hnodes entry hentry]
  rfl

/-! ### Calls that break their contract -/

theorem node_of_empty (h : list.node? slot = none) :
    list.node slot = .error (.breach (.staleSlot slot)) := by
  rw [PageList.node, h]
  rfl

theorem pushBack_of_linked {node : ListNode} (hnode : list.node? slot = some node)
    (hlinked : node.linked = true) :
    list.pushBack slot frame = .error (.breach (.alreadyQueued node.page)) := by
  rw [PageList.pushBack, node_eq_ok hnode]
  simp only [bind, Except.bind, hlinked, Fault.require]
  rfl

theorem unlink_of_unlinked {node : ListNode} (hnode : list.node? slot = some node)
    (hunlinked : node.linked = false) :
    list.unlink slot = .error (.breach (.notQueued node.page)) := by
  rw [PageList.unlink, node_eq_ok hnode]
  simp only [bind, Except.bind, hunlinked, Fault.require]
  rfl

/-- A slot that holds nothing is of no use. Every call that names it looks at it first, and fails there.
-/
theorem call_error_of_empty {call : ListCall} (hslot : call.slot? = some slot)
    (hempty : list.node? slot = none) : list.call call = .error (.breach (.staleSlot slot)) := by
  have hnode := node_of_empty hempty
  cases call with
  | alloc page => cases hslot
  | popFront => cases hslot
  | pushBack other frame =>
    cases hslot
    simp only [PageList.call, PageList.pushBack, hnode, bind, Except.bind]
  | unlink other =>
    cases hslot
    simp only [PageList.call, PageList.unlink, hnode, bind, Except.bind]
  | moveToBack other =>
    cases hslot
    simp only [PageList.call, PageList.moveToBack, hnode, bind, Except.bind]
  | release other =>
    cases hslot
    simp only [PageList.call, PageList.release, hnode, bind, Except.bind]

/-! ### Between calls -/

/-- The links of the list are those of a plain list, and its slots hold the same. This is the invariant
that the calls keep. It says less than `Depicts`, in terms of what each slot holds, which is easier to
keep and from which the rest follows. -/
structure Shows (list : PageList) (seq : PageSequence) : Prop where
  /-- The links are those of the queued pages. -/
  links : list.Links seq.slots
  /-- A queued page is in its slot, with its frame. -/
  queued : ∀ entry ∈ seq.queued, list.held? entry.slot = some (entry.page, some entry.frame)
  /-- An idle slot holds its page only. -/
  idle_iff : ∀ {slot page}, seq.idle slot = some page ↔ list.held? slot = some (page, none)

theorem shows_empty : (∅ : PageList).Shows ∅ where
  links := links_empty
  queued _ hmem := by cases hmem
  idle_iff := iff_of_false nofun nofun

namespace Shows

/-- A slot is not queued and idle at the same time: it holds a frame in the one case and none in the
other. -/
theorem idle_eq_none (h : list.Shows seq) (hslot : slot ∈ seq.slots) : seq.idle slot = none := by
  -- it would hold its page with a frame and without one
  obtain ⟨entry, hentry, rfl⟩ := List.mem_map.1 hslot
  have hheld := h.queued entry hentry
  refine Option.eq_none_iff_forall_ne_some.2 fun page hidle => ?_
  cases hheld.symm.trans (h.idle_iff.1 hidle)

theorem not_mem_slots (h : list.Shows seq) (hidle : seq.idle slot = some page) : slot ∉ seq.slots :=
  fun hslot => by cases (h.idle_eq_none hslot).symm.trans hidle

/-- An idle slot holds a page that is not queued. -/
theorem exists_idle (h : list.Shows seq) (hidle : seq.idle slot = some page) :
    ∃ node, list.node? slot = some node ∧ node.page = page ∧ node.linked = false := by
  obtain ⟨node, hnode, hheld⟩ := Option.map_eq_some_iff.1 (h.idle_iff.1 hidle)
  refine ⟨node, hnode, (Prod.mk.inj hheld).1,
    Bool.eq_false_iff.2 fun hlinked => h.not_mem_slots hidle ?_⟩
  exact h.links.mem_of_linked hnode hlinked

/-- A slot that is not given out holds nothing. -/
theorem node?_eq_none (h : list.Shows seq) (hvacant : ¬seq.Live slot) : list.node? slot = none := by
  refine Option.eq_none_iff_forall_ne_some.2 fun node hnode => hvacant ?_
  -- a page in a slot is linked, and then queued, or it is idle
  by_cases hlinked : node.linked = true
  · exact .inl (h.links.mem_of_linked hnode hlinked)
  · have hheld : list.held? slot = some (node.page, none) := by
      rw [held?_eq_some hnode, ListNode.queuedIn?, if_neg hlinked]
    exact .inr (Option.isSome_iff_exists.2 ⟨_, h.idle_iff.2 hheld⟩)

/-- A queued slot holds its page. -/
theorem exists_queued (h : list.Shows seq) (hentry : entry ∈ seq.queued) :
    ∃ node, list.node? entry.slot = some node ∧ node.page = entry.page ∧ node.linked = true ∧
      node.frame? = some entry.frame := by
  obtain ⟨node, hnode, hheld⟩ := Option.map_eq_some_iff.1 (h.queued entry hentry)
  obtain ⟨hpage, hframe⟩ := Prod.mk.inj hheld
  have hlinked : node.linked = true := (h.links.linked_iff hnode).2 (List.mem_map_of_mem hentry)
  rw [ListNode.queuedIn?, if_pos hlinked] at hframe
  exact ⟨node, hnode, hpage, hlinked, hframe⟩

/-- One slot may change what it holds, if the plain list says the same of it. Every call but one changes
what is held in a single slot; its proof has to say what the plain list has there and that the other
entries were there before. -/
theorem update {held : Option (PageRef × Option FrameId)} {queued : List QueuedPage}
    {idle : Option PageRef} (h : list.Shows seq) (hlinks : list'.Links (queued.map (·.slot)))
    (hheld : list'.held? = Function.update list.held? slot held)
    (hsame : ∀ entry ∈ queued, entry.slot = slot → held = some (entry.page, some entry.frame))
    (hother : ∀ entry ∈ queued, entry.slot ≠ slot → entry ∈ seq.queued)
    (hidle : ∀ page, idle = some page ↔ held = some (page, none)) :
    list'.Shows { queued, idle := Function.update seq.idle slot idle } where
  links := hlinks
  queued entry hentry := by
    rw [hheld, Function.update_apply]
    split
    · next heq => exact hsame entry hentry heq
    · next hne => exact h.queued entry (hother entry hentry hne)
  idle_iff {other page} := by
    show Function.update seq.idle slot idle other = some page ↔ _
    rw [hheld, Function.update_apply, Function.update_apply]
    split
    · exact hidle page
    · exact h.idle_iff

/-- The other queued pages are in other slots, since no slot is linked twice. -/
theorem slot_ne (h : list.Shows seq) (hqueued : seq.queued = before ++ entry :: after) :
    ∀ other ∈ before ++ after, other.slot ≠ entry.slot := by
  -- the slots of the queue with this one moved to the front have no duplicates
  have hnodup := h.links.nodup
  rw [PageSequence.slots, hqueued, List.map_append, List.map_cons, List.perm_middle.nodup_iff,
    ← List.map_append, List.nodup_cons] at hnodup
  exact fun other hother heq => hnodup.1 (heq ▸ List.mem_map_of_mem hother)

theorem mem_of_mem_rest (hqueued : seq.queued = before ++ entry :: after) :
    ∀ other ∈ before ++ after, other ∈ seq.queued := by
  intro other hother
  rw [hqueued]
  exact List.perm_middle.symm.subset (List.mem_cons_of_mem _ hother)

/-! ### Calls that keep their contract -/

theorem alloc (h : list.Shows seq) (page : PageRef) :
    ¬seq.Live (list.alloc page).1 ∧ (list.alloc page).2.Shows
      { seq with idle := Function.update seq.idle (list.alloc page).1 (some page) } := by
  obtain ⟨hempty, hlinks, hnode⟩ := alloc_links h.links page
  have hslot : (list.alloc page).1 ∉ seq.slots := by
    -- a queued slot holds a page, and this one is empty
    intro hmem
    obtain ⟨before, after, horder⟩ := List.append_of_mem hmem
    obtain ⟨node, hfound, -⟩ := h.links.neighbours horder
    cases hempty.symm.trans hfound
  have hheld : (list.alloc page).2.held? =
      Function.update list.held? (list.alloc page).1 (some (page, none)) := by
    funext other
    rw [held?, hnode, Function.update_apply]
    split
    · rfl
    · rfl
  refine ⟨fun hlive => hlive.elim hslot fun hsome => ?_, h.update hlinks hheld ?_ ?_ ?_⟩
  · -- so does an idle one
    obtain ⟨found, hidle⟩ := Option.isSome_iff_exists.1 hsome
    obtain ⟨node, hfound, -⟩ := h.exists_idle hidle
    cases hempty.symm.trans hfound
  · -- the new slot is not queued, so no entry speaks of it
    exact fun entry hentry heq => absurd (heq ▸ List.mem_map_of_mem hentry) hslot
  · exact fun entry hentry _ => hentry
  · simp

theorem pushBack (h : list.Shows seq) (hidle : seq.idle slot = some page) (frame : FrameId) :
    ∃ list', list.pushBack slot frame = .ok list' ∧ list'.Shows
      { queued := seq.queued ++ [⟨slot, page, frame⟩], idle := Function.update seq.idle slot none } := by
  obtain ⟨node, hnode, rfl, hunlinked⟩ := h.exists_idle hidle
  obtain ⟨list', hpush, hlinks, hheld⟩ := pushBack_eq_ok h.links hnode hunlinked frame
  have hnew := h.not_mem_slots hidle
  refine ⟨list', hpush, h.update ?_ hheld (fun entry hentry heq => ?_) (fun entry hentry hne => ?_) ?_⟩
  · rw [List.map_append]
    exact hlinks
  · -- the entries that were queued before are in other slots, as the new one was idle
    rcases List.mem_append.1 hentry with hold | hlast
    · exact absurd (heq ▸ List.mem_map_of_mem hold) hnew
    · rw [List.mem_singleton.1 hlast]
  · rcases List.mem_append.1 hentry with hold | hlast
    · -- the only entry that was not queued before is the new one
      exact hold
    · exact absurd (congrArg QueuedPage.slot (List.mem_singleton.1 hlast)) hne
  · simp

theorem unlink (h : list.Shows seq) (hqueued : seq.queued = before ++ entry :: after) :
    ∃ list', list.unlink entry.slot = .ok list' ∧ list'.Shows
      { queued := before ++ after
        idle := Function.update seq.idle entry.slot (some entry.page) } := by
  -- only the place of the entry matters, so the links are split where it stands
  obtain ⟨node, hnode, hpage, -⟩ := h.exists_queued (hqueued ▸ List.mem_append_cons_self)
  have hlinks := h.links
  rw [PageSequence.slots, hqueued, List.map_append, List.map_cons] at hlinks
  obtain ⟨list', hunlink, hlinks', hheld, -⟩ := unlink_eq_ok hlinks hnode
  refine ⟨list', hunlink, h.update ?_ hheld (fun other hother heq => ?_) (fun other hother _ => ?_) ?_⟩
  · rw [List.map_append]
    exact hlinks'
  · -- none of the other entries is in the slot that is now idle
    exact absurd heq (h.slot_ne hqueued other hother)
  · exact mem_of_mem_rest hqueued other hother
  · simp [hpage]

theorem moveToBack (h : list.Shows seq) (hqueued : seq.queued = before ++ entry :: after) :
    ∃ list', list.moveToBack entry.slot = .ok list' ∧
      list'.Shows { seq with queued := before ++ after ++ [entry] } := by
  have hlinks := h.links
  rw [PageSequence.slots, hqueued, List.map_append, List.map_cons] at hlinks
  -- moving is taking out and queuing again, and no slot holds anything else after it
  obtain ⟨list', hmove, hlinks', hheld⟩ := moveToBack_eq_ok hlinks
  refine ⟨list', hmove, ?_, fun other hother => ?_, ?_⟩
  · rw [PageSequence.slots, List.map_append, List.map_append]
    exact hlinks'
  · rw [hheld]
    refine h.queued other ?_
    -- the same entries are queued as before
    rcases List.mem_append.1 hother with hrest | hlast
    · exact mem_of_mem_rest hqueued other hrest
    · rw [List.mem_singleton.1 hlast, hqueued]
      exact List.mem_append_cons_self
  · rw [hheld]
    exact h.idle_iff

theorem popFront (h : list.Shows seq) (hqueued : seq.queued = entry :: rest) :
    ∃ list', list.popFront = .ok (some entry.frame, list') ∧ list'.Shows
      { queued := rest, idle := Function.update seq.idle entry.slot (some entry.page) } := by
  have hhead : list.head? = some entry.slot := by
    rw [h.links.head_eq, PageSequence.slots, hqueued]
    rfl
  obtain ⟨node, hnode, -, -, hframe⟩ := h.exists_queued (hqueued ▸ List.mem_cons_self)
  -- the first page is one with nothing before it
  have hsplit : seq.queued = [] ++ entry :: rest := hqueued
  obtain ⟨list', hunlink, hshows⟩ := h.unlink hsplit
  refine ⟨list', ?_, hshows⟩
  -- the head of the links is the slot of the first entry
  rw [PageList.popFront, hhead]
  simp only [node_eq_ok hnode, hunlink, hframe, bind, Except.bind]
  rfl

theorem popFront_of_nil (h : list.Shows seq) (hqueued : seq.queued = []) :
    list.popFront = .ok (none, list) := by
  have hhead : list.head? = none := by
    rw [h.links.head_eq, PageSequence.slots, hqueued]
    rfl
  rw [PageList.popFront, hhead]
  rfl

theorem releaseQueued (h : list.Shows seq) (hqueued : seq.queued = before ++ entry :: after) :
    ∃ list', list.release entry.slot = .ok list' ∧
      list'.Shows { seq with queued := before ++ after } := by
  have hentry : entry ∈ seq.queued := hqueued ▸ List.mem_append_cons_self
  obtain ⟨node, hnode, -⟩ := h.exists_queued hentry
  obtain ⟨list', hrelease, hlinks, hheld⟩ := release_eq_ok h.links hnode
  have hslots : seq.slots.erase entry.slot = (before ++ after).map (·.slot) := by
    -- the first entry in the slot is this one, as no other one is in it
    have hnotin : entry.slot ∉ before.map (·.slot) := by
      intro hmem
      obtain ⟨other, hother, heq⟩ := List.mem_map.1 hmem
      exact h.slot_ne hqueued other (List.mem_append_left _ hother) heq
    rw [PageSequence.slots, hqueued, List.map_append, List.map_append, List.map_cons,
      List.erase_append_right _ hnotin, List.erase_cons_head]
  -- a queued slot was not idle, so that it is not idle now changes nothing
  have hidle : Function.update seq.idle entry.slot none = seq.idle :=
    Function.update_eq_self_iff.2 (h.idle_eq_none (List.mem_map_of_mem hentry)).symm
  refine ⟨list', hrelease, hidle ▸ h.update (hslots ▸ hlinks) hheld (fun other hother heq => ?_)
    (fun other hother _ => ?_) ?_⟩
  · exact absurd heq (h.slot_ne hqueued other hother)
  · exact mem_of_mem_rest hqueued other hother
  · simp

theorem releaseIdle (h : list.Shows seq) (hidle : seq.idle slot = some page) :
    ∃ list', list.release slot = .ok list' ∧
      list'.Shows { seq with idle := Function.update seq.idle slot none } := by
  obtain ⟨node, hnode, -⟩ := h.exists_idle hidle
  have hnew := h.not_mem_slots hidle
  obtain ⟨list', hrelease, hlinks, hheld⟩ := release_eq_ok h.links hnode
  rw [List.erase_of_not_mem hnew] at hlinks
  refine ⟨list', hrelease, h.update hlinks hheld (fun entry hentry heq => ?_)
    (fun entry hentry _ => hentry) ?_⟩
  · -- an idle slot is not queued, so the links are the same without it
    exact absurd (heq ▸ List.mem_map_of_mem hentry) hnew
  · simp

/-! ### Calls that break it -/

/-- What is queued already cannot be queued. The fault names the page that is queued in the slot. -/
theorem pushBack_error (h : list.Shows seq) (hentry : entry ∈ seq.queued) (frame : FrameId) :
    list.pushBack entry.slot frame = .error (.breach (.alreadyQueued entry.page)) := by
  obtain ⟨node, hnode, hpage, hlinked, -⟩ := h.exists_queued hentry
  rw [pushBack_of_linked hnode hlinked, hpage]

/-- What is not queued cannot be taken out. -/
theorem unlink_error (h : list.Shows seq) (hidle : seq.idle slot = some page) :
    list.unlink slot = .error (.breach (.notQueued page)) := by
  obtain ⟨node, hnode, rfl, hunlinked⟩ := h.exists_idle hidle
  exact unlink_of_unlinked hnode hunlinked

/-- It cannot be moved either. It depends on whether it was ever loaded which of the two contracts is
said to be broken, and the plain list does not tell that: it admits both answers. -/
theorem moveToBack_error (h : list.Shows seq) (hidle : seq.idle slot = some page) :
    list.moveToBack slot = .error (.breach (.notQueued page)) ∨
      list.moveToBack slot = .error (.breach (.neverLoaded page)) := by
  have hunlink := h.unlink_error hidle
  obtain ⟨node, hnode, rfl, -⟩ := h.exists_idle hidle
  rw [PageList.moveToBack, node_eq_ok hnode]
  simp only [bind, Except.bind, hunlink]
  -- a page without a frame never was in memory
  cases node.frame? with
  | none => exact .inr rfl
  | some frame => exact .inl rfl

end Shows

/-! ### One call -/

theorem serveOne_of_ok {call : ListCall} {answer : ListAnswer}
    (hcall : list.call call = .ok (answer, list')) : list.serveOne call = (.ok answer, list') := by
  rw [PageList.serveOne, hcall]

theorem serveOne_of_error {call : ListCall} {fault : Fault} (hcall : list.call call = .error fault) :
    list.serveOne call = (.error fault, list) := by
  rw [PageList.serveOne, hcall]

namespace Shows

/-- The call was answered as a plain list answers it. What is left to show of a call that keeps its
contract is that it succeeds, with a list that shows what the plain list has become. -/
theorem of_ok {call : ListCall} {answer : ListAnswer} {seq' : PageSequence}
    (hadmits : seq.Admits call) (hdoes : seq.Does call answer seq')
    (hcall : list.call call = .ok (answer, list')) (hshows : list'.Shows seq') :
    ∃ seq', seq.Replies call (list.serveOne call).1 seq' ∧ (list.serveOne call).2.Shows seq' := by
  rw [serveOne_of_ok hcall]
  exact ⟨seq', .answered hadmits hdoes, hshows⟩

/-- The call was refused as a plain list refuses it, and both are as they were. -/
theorem of_error {call : ListCall} {cause : Breach} (h : list.Shows seq)
    (hbroken : ¬seq.Admits call) (hrefuses : seq.Refuses call cause)
    (hcall : list.call call = .error (.breach cause)) :
    ∃ seq', seq.Replies call (list.serveOne call).1 seq' ∧ (list.serveOne call).2.Shows seq' := by
  rw [serveOne_of_error hcall]
  exact ⟨seq, .refused hbroken hrefuses, h⟩

/-- The slot was not given out. That is the same for every call that names a slot. -/
theorem of_stale {call : ListCall} (h : list.Shows seq) (hslot : call.slot? = some slot)
    (hstale : ¬seq.Live slot) :
    ∃ seq', seq.Replies call (list.serveOne call).1 seq' ∧ (list.serveOne call).2.Shows seq' :=
  h.of_error (fun hadmits => hstale (hadmits.live hslot)) (.stale hslot hstale)
    (call_error_of_empty hslot (h.node?_eq_none hstale))

/-- **One call.** What a page list replies is what a plain list replies. The cases are the calls, and for
each call that names a slot the three states that the slot can be in. -/
theorem serveOne (h : list.Shows seq) (call : ListCall) :
    ∃ seq', seq.Replies call (list.serveOne call).1 seq' ∧ (list.serveOne call).2.Shows seq' := by
  cases call with
  | alloc page =>
    -- any vacant slot will do for the plain list, and the one that is handed out is vacant
    obtain ⟨hvacant, hshows⟩ := h.alloc page
    exact of_ok trivial (.alloc hvacant) rfl hshows
  | popFront =>
    -- an empty queue answers that there is no first page
    cases hqueued : seq.queued with
    | nil =>
      refine of_ok trivial (.popNothing hqueued) ?_ h
      rw [PageList.call, h.popFront_of_nil hqueued]
      rfl
    | cons entry rest =>
      obtain ⟨list', hpop, hshows⟩ := h.popFront hqueued
      refine of_ok trivial (.popFront hqueued) ?_ hshows
      rw [PageList.call, hpop]
      rfl
  | pushBack slot frame =>
    rcases seq.slot_cases slot with ⟨before, entry, after, hqueued, rfl⟩ | ⟨page, hidle⟩ | hstale
    · -- a page that is queued already is refused
      have hentry : entry ∈ seq.queued := hqueued ▸ List.mem_append_cons_self
      refine h.of_error (fun hadmits => ?_) (.pushQueued hentry) ?_
      · rw [PageSequence.Admits, h.idle_eq_none (List.mem_map_of_mem hentry)] at hadmits
        cases hadmits
      · rw [PageList.call, h.pushBack_error hentry]
        rfl
    · -- an idle page is queued last
      obtain ⟨list', hpush, hshows⟩ := h.pushBack hidle frame
      refine of_ok (Option.isSome_iff_exists.2 ⟨page, hidle⟩) (.pushBack hidle) ?_ hshows
      rw [PageList.call, hpush]
      rfl
    · -- a slot that is not given out is refused, here and in the calls below
      exact h.of_stale rfl hstale
  | unlink slot =>
    rcases seq.slot_cases slot with ⟨before, entry, after, hqueued, rfl⟩ | ⟨page, hidle⟩ | hstale
    · have hentry : entry ∈ seq.queued := hqueued ▸ List.mem_append_cons_self
      -- a queued page is taken out of its place
      obtain ⟨list', hunlink, hshows⟩ := h.unlink hqueued
      refine of_ok (List.mem_map_of_mem hentry) (.unlink hqueued) ?_ hshows
      rw [PageList.call, hunlink]
      rfl
    · -- an idle one is not in the queue to be taken out
      refine h.of_error (h.not_mem_slots hidle) (.unlinkIdle hidle) ?_
      rw [PageList.call, h.unlink_error hidle]
      rfl
    · exact h.of_stale rfl hstale
  | moveToBack slot =>
    rcases seq.slot_cases slot with ⟨before, entry, after, hqueued, rfl⟩ | ⟨page, hidle⟩ | hstale
    · have hentry : entry ∈ seq.queued := hqueued ▸ List.mem_append_cons_self
      -- a queued page keeps its frame and comes to the end
      obtain ⟨list', hmove, hshows⟩ := h.moveToBack hqueued
      refine of_ok (List.mem_map_of_mem hentry) (.moveToBack hqueued) ?_ hshows
      rw [PageList.call, hmove]
      rfl
    · -- an idle one was in memory before or never was
      rcases h.moveToBack_error hidle with hmove | hmove
      · refine h.of_error (h.not_mem_slots hidle) (.moveIdle hidle) ?_
        rw [PageList.call, hmove]
        rfl
      · refine h.of_error (h.not_mem_slots hidle) (.moveNew hidle) ?_
        rw [PageList.call, hmove]
        rfl
    · exact h.of_stale rfl hstale
  | release slot =>
    rcases seq.slot_cases slot with ⟨before, entry, after, hqueued, rfl⟩ | ⟨page, hidle⟩ | hstale
    · have hentry : entry ∈ seq.queued := hqueued ▸ List.mem_append_cons_self
      -- a queued page is taken out before its slot is
      obtain ⟨list', hrelease, hshows⟩ := h.releaseQueued hqueued
      refine of_ok (.inl (List.mem_map_of_mem hentry)) (.releaseQueued hqueued) ?_ hshows
      rw [PageList.call, hrelease]
      rfl
    · -- the slot of an idle page is taken back at once
      obtain ⟨list', hrelease, hshows⟩ := h.releaseIdle hidle
      refine of_ok (.inr (Option.isSome_iff_exists.2 ⟨page, hidle⟩)) (.releaseIdle hidle) ?_ hshows
      rw [PageList.call, hrelease]
      rfl
    · exact h.of_stale rfl hstale

/-! ### Any number of calls -/

/-- **Calls in a row.** What a page list replies to them is what a plain list replies. The induction is
on the calls, and what carries it is that each of them leaves a list that shows a plain list again. -/
theorem serve (h : list.Shows seq) (calls : List ListCall) :
    ∃ seq', seq.Runs calls (list.serve calls).1 seq' ∧ (list.serve calls).2.Shows seq' := by
  induction calls generalizing list seq with
  | nil => exact ⟨seq, .nil, h⟩
  | cons call calls ih =>
    obtain ⟨seq₁, hfirst, h₁⟩ := h.serveOne call
    obtain ⟨seq', hrest, h'⟩ := ih h₁
    exact ⟨seq', .cons hfirst hrest, h'⟩

/-! ### Between calls -/

/-- What is held but not queued is idle, and what is idle is held and not queued. This is the
plain list's part of a slot, read off its node. -/
theorem idle_eq (h : list.Shows seq) (slot : Nat) :
    seq.idle slot = ((list.node? slot).filter (!·.linked)).map (·.page) := by
  cases hidle : seq.idle slot with
  | some page =>
    obtain ⟨node, hnode, rfl, hunlinked⟩ := h.exists_idle hidle
    rw [hnode, Option.filter_some, hunlinked]
    rfl
  | none =>
    refine (Option.map_eq_none_iff.2 (Option.filter_eq_none_iff.2 fun node hnode => ?_)).symm
    -- a page that is neither queued nor idle would be held all the same
    intro hunlinked
    have hheld : list.held? slot = some (node.page, none) := by
      rw [held?_eq_some hnode, ListNode.queuedIn?, if_neg (by simpa using hunlinked)]
    cases hidle.symm.trans (h.idle_iff.2 hheld)

/-- **Links in both directions.** A list that shows a plain list depicts it. The walk along the links to
the newest entry goes over the queued slots in order, and the walk back over the same slots in reverse.
-/
theorem depicts (h : list.Shows seq) : list.Depicts seq where
  walks := by
    obtain ⟨nodes, hfollow, hslots, hnodes⟩ := h.links.follow_next
    obtain ⟨back, hback, hslots', hnodes'⟩ := h.links.follow_prev
    -- both walks are told by what stands in the slots they go over
    have hreverse : back = nodes.reverse := by
      rw [nodes_eq hnodes', hslots', nodes_eq hnodes, hslots, List.filterMap_reverse]
    refine ⟨nodes, hfollow, hreverse ▸ hback, ?_⟩
    rw [nodes_eq hnodes, hslots, PageSequence.slots, List.filterMap_map, List.map_filterMap,
      ← List.filterMap_eq_map]
    refine List.filterMap_congr fun entry hentry => ?_
    obtain ⟨node, hnode, hpage, -, hframe⟩ := h.exists_queued hentry
    rw [Function.comp_apply, hnode, Option.map_some, Option.map_some, hpage, hframe]
    rfl
  frames_eq := by
    rw [h.links.frames_eq, PageSequence.slots, List.filterMap_map, ← List.filterMap_eq_map]
    refine List.filterMap_congr fun entry hentry => ?_
    rw [Function.comp_apply, h.queued entry hentry]
    rfl
  length_eq := by
    rw [h.links.length_eq, PageSequence.slots, List.length_map]
  nodup := h.links.nodup
  linked_iff := h.links.linked_iff
  idle_eq := h.idle_eq
  vacant_nodup := h.links.vacant_nodup
  mem_vacant_iff := h.links.mem_vacant_iff

end Shows

/-! ### Calls on the list itself -/

/-- Something that is done to a list itself. What was done before a fault stays done, so a call that
failed halfway would leave a list that is neither the one before nor the one after. -/
abbrev InPlace := ExceptT Fault (StateM PageList)

open Fault (run_bind_of_ok run_bind_of_error)

namespace InPlace

/-- Changes what a slot holds; it must not be vacant. It is looked up each time, as in a list
whose slots are checked on every access. -/
def changeNode (slot : Nat) (f : ListNode → ListNode) : InPlace Unit := do
  let list ← get
  let _ ← list.node slot
  set (list.modifyNode slot f)

/-- Queues a page at the newest end: its own entry changes, then the one before it, then the ends. -/
def pushBack (slot : Nat) (frame : FrameId) : InPlace Unit := do
  let list ← get
  let node ← list.node slot
  Fault.require (!node.linked) (.alreadyQueued node.page)
  changeNode slot fun node =>
    { node with frame? := some frame, prev? := list.tail?, next? := none, linked := true }
  match list.tail? with
  | some last => changeNode last ({ · with next? := some slot })
  | none => modify ({ · with head? := some slot })
  modify fun list => { list with tail? := some slot, length := list.length + 1 }

/-- Takes a page out of the queue: its own entry changes, then the one before it and the one after. -/
def unlink (slot : Nat) : InPlace Unit := do
  let list ← get
  let node ← list.node slot
  Fault.require node.linked (.notQueued node.page)
  changeNode slot ({ · with prev? := none, next? := none, linked := false })
  match node.prev? with
  | some before => changeNode before ({ · with next? := node.next? })
  | none => modify ({ · with head? := node.next? })
  match node.next? with
  | some after => changeNode after ({ · with prev? := node.prev? })
  | none => modify ({ · with tail? := node.prev? })
  modify fun list => { list with length := list.length - 1 }

/-- Carries out a call on the list itself. The parts that can fail for a caller all come before
the first change. -/
def perform : ListCall → InPlace ListAnswer
  | .alloc page => do
    let (slot, list) := (← get).alloc page
    set list
    return .slot slot
  | .pushBack slot frame => do pushBack slot frame; return .done
  | .unlink slot => do unlink slot; return .done
  | .moveToBack slot => do
    let list ← get
    let node ← list.node slot
    let frame ← Fault.demand node.frame? (.neverLoaded node.page)
    unlink slot
    pushBack slot frame
    return .done
  | .popFront => do
    let list ← get
    match list.head? with
    | none => return .frame none
    | some slot =>
      let node ← list.node slot
      unlink slot
      return .frame node.frame?
  | .release slot => do
    let list ← get
    let node ← list.node slot
    if node.linked then unlink slot
    modify fun list => { list with
      slots := list.slots.setIfInBounds slot none
      vacant := slot :: list.vacant }
    return .done

/-- What comes of a change that is made whole or not at all: the list is replaced if it succeeds, and is
the one before if it fails. -/
def outcome (list : PageList) : Except Fault PageList → Except Fault Unit × PageList
  | .ok list' => (.ok (), list')
  | .error fault => (.error fault, list)

theorem changeNode_eq (h : (list.node? slot).isSome = true) (f : ListNode → ListNode) :
    (changeNode slot f).run list = (.ok (), list.modifyNode slot f) := by
  obtain ⟨node, hnode⟩ := Option.isSome_iff_exists.1 h
  have hread : (liftM (list.node slot) : InPlace ListNode).run list = (.ok node, list) := by
    rw [node_eq_ok hnode]
    rfl
  exact (run_bind_of_ok rfl).trans (run_bind_of_ok hread)

theorem isSome_modifyNode {f : ListNode → ListNode} (h : (list.node? other).isSome = true) :
    ((list.modifyNode slot f).node? other).isSome = true := by
  rw [node?_modifyNode]
  split
  · exact Option.isSome_map.trans h
  · exact h

theorem isSome_of_mem (h : list.Links order) (hmem : slot ∈ order) :
    (list.node? slot).isSome = true := by
  obtain ⟨before, after, horder⟩ := List.append_of_mem hmem
  obtain ⟨node, hnode, -⟩ := h.neighbours horder
  rw [hnode]
  rfl

/-- A page is queued by steps as it is at once. Both checks come before the first change, and the entry
that is changed after the page's own is that of the last page, which is in the list. -/
theorem pushBack_eq (h : list.Links order) (slot : Nat) (frame : FrameId) :
    (pushBack slot frame).run list = outcome list (list.pushBack slot frame) := by
  refine (run_bind_of_ok rfl).trans ?_
  -- an empty slot is refused by the first check
  cases hnode : list.node? slot with
  | none =>
    rw [PageList.pushBack, node_of_empty hnode]
    exact run_bind_of_error rfl
  | some node =>
    rw [node_eq_ok hnode]
    refine (run_bind_of_ok rfl).trans ?_
    -- a queued page by the second
    cases hlinked : node.linked with
    | true =>
      rw [pushBack_of_linked hnode hlinked]
      exact run_bind_of_error rfl
    | false =>
      refine (run_bind_of_ok rfl).trans ((run_bind_of_ok (changeNode_eq (hnode ▸ rfl) _)).trans ?_)
      rw [PageList.pushBack, node_eq_ok hnode]
      simp only [bind, Except.bind, hlinked, Fault.require]
      -- the newest page is queued, so its entry can be changed too
      cases hlast : list.tail? with
      | none => rfl
      | some last =>
        have hsome := isSome_of_mem h (List.mem_of_getLast? (h.tail_eq ▸ hlast))
        exact (run_bind_of_ok (changeNode_eq (isSome_modifyNode hsome) _)).trans rfl

/-- It is taken out by steps as it is at once. The entries that are changed after the page's own are
those of its neighbours, and these hold pages whatever has been changed before. -/
theorem unlink_eq (h : list.Links order) (slot : Nat) :
    (unlink slot).run list = outcome list (list.unlink slot) := by
  refine (run_bind_of_ok rfl).trans ?_
  -- the two checks come first, as above
  cases hnode : list.node? slot with
  | none =>
    rw [PageList.unlink, node_of_empty hnode]
    exact run_bind_of_error rfl
  | some node =>
    rw [node_eq_ok hnode]
    refine (run_bind_of_ok rfl).trans ?_
    cases hlinked : node.linked with
    | false =>
      rw [unlink_of_unlinked hnode hlinked]
      exact run_bind_of_error rfl
    | true =>
      refine (run_bind_of_ok rfl).trans ((run_bind_of_ok (changeNode_eq (hnode ▸ rfl) _)).trans ?_)
      rw [PageList.unlink, node_eq_ok hnode]
      simp only [bind, Except.bind, hlinked, Fault.require]
      -- the neighbours of a queued page are queued
      obtain ⟨before, after, rfl⟩ := List.append_of_mem (h.mem_of_linked hnode hlinked)
      obtain ⟨found, hfound, -, -, hprev, hnext⟩ := h.neighbours rfl
      cases hnode.symm.trans hfound
      have hbefore : ∀ other, node.prev? = some other → (list.node? other).isSome = true :=
        fun other heq => isSome_of_mem h
          (List.mem_append_left _ (List.mem_of_getLast? (hprev.symm.trans heq)))
      have hafter : ∀ other, node.next? = some other → (list.node? other).isSome = true :=
        fun other heq => isSome_of_mem h
          (List.mem_append_right _ (List.mem_cons_of_mem _ (List.mem_of_head? (hnext.symm.trans heq))))
      -- what is changed next depends on whether the page has neighbours on either side
      cases hp : node.prev? with
      | none =>
        refine (run_bind_of_ok rfl).trans ?_
        cases hn : node.next? with
        | none => rfl
        | some next =>
          refine (run_bind_of_ok (changeNode_eq ?_ _)).trans rfl
          exact isSome_modifyNode (hafter next hn)
      | some last =>
        refine (run_bind_of_ok (changeNode_eq (isSome_modifyNode (hbefore last hp)) _)).trans ?_
        cases hn : node.next? with
        | none => rfl
        | some next =>
          refine (run_bind_of_ok (changeNode_eq ?_ _)).trans rfl
          exact isSome_modifyNode (isSome_modifyNode (hafter next hn))

theorem run_unlink_of_ok (h : list.Links order) (hunlink : list.unlink slot = .ok list') :
    (unlink slot).run list = (.ok (), list') := by
  rw [unlink_eq h, hunlink]
  rfl

theorem run_unlink_of_error {fault : Fault} (h : list.Links order)
    (hunlink : list.unlink slot = .error fault) :
    (unlink slot).run list = (.error fault, list) := by
  rw [unlink_eq h, hunlink]
  rfl

/-- A used page is moved by steps as it is at once: what was just taken out can be queued again.
So the second half does not fail, and no half of a move is ever left behind. -/
theorem run_moveToBack (h : list.Links order) {node : ListNode}
    (hnode : list.node? slot = some node) :
    (perform (.moveToBack slot)).run list = list.serveOne (.moveToBack slot) := by
  have hmove : list.moveToBack slot = (do
      let frame ← Fault.demand node.frame? (.neverLoaded node.page)
      (← list.unlink slot).pushBack slot frame) := by
    rw [PageList.moveToBack, node_eq_ok hnode]
    rfl
  rw [PageList.serveOne, PageList.call, hmove]
  refine (run_bind_of_ok rfl).trans ?_
  rw [node_eq_ok hnode]
  refine (run_bind_of_ok rfl).trans ?_
  -- the two checks come before the page is taken out
  cases hframe : node.frame? with
  | none => exact run_bind_of_error rfl
  | some frame =>
    refine (run_bind_of_ok rfl).trans ?_
    -- a page that is not queued is refused before the list is changed
    cases hlinked : node.linked with
    | false =>
      have hunlink := unlink_of_unlinked hnode hlinked
      rw [hunlink]
      exact run_bind_of_error (run_unlink_of_error h hunlink)
    -- taking out succeeds, and then the slot is idle, so queuing succeeds too
    | true =>
      obtain ⟨before, after, rfl⟩ := List.append_of_mem (h.mem_of_linked hnode hlinked)
      obtain ⟨list₁, hunlink, hlinks₁, -, hnode₁⟩ := unlink_eq_ok h hnode
      obtain ⟨list', hpush, -⟩ := pushBack_eq_ok hlinks₁ hnode₁ rfl frame
      have hpushed : (pushBack slot frame).run list₁ = (.ok (), list') := by
        rw [pushBack_eq hlinks₁, hpush]
        rfl
      refine (run_bind_of_ok (run_unlink_of_ok h hunlink)).trans ((run_bind_of_ok hpushed).trans ?_)
      simp only [hunlink, Fault.demand, bind, Except.bind, hpush]
      rfl

theorem run_release (h : list.Links order) {node : ListNode} (hnode : list.node? slot = some node) :
    (perform (.release slot)).run list = list.serveOne (.release slot) := by
  rw [PageList.serveOne, PageList.call, PageList.release]
  refine (run_bind_of_ok rfl).trans ?_
  rw [node_eq_ok hnode]
  refine (run_bind_of_ok rfl).trans ?_
  cases hlinked : node.linked with
  -- an idle slot is emptied at once
  | false =>
    simp only [bind, Except.bind, hlinked]
    rfl
  -- a queued one is taken out of the queue first, which succeeds
  | true =>
    obtain ⟨before, after, rfl⟩ := List.append_of_mem (h.mem_of_linked hnode hlinked)
    obtain ⟨list', hunlink, -⟩ := unlink_eq_ok h hnode
    refine (run_bind_of_ok (run_unlink_of_ok h hunlink)).trans ?_
    simp only [bind, Except.bind, hlinked, hunlink]
    rfl

theorem run_popFront (h : list.Links order) :
    (perform .popFront).run list = list.serveOne .popFront := by
  refine (run_bind_of_ok rfl).trans ?_
  -- the first page is the one at the head of the links
  cases order with
  | nil =>
    have hhead : list.head? = none := h.head_eq
    rw [PageList.serveOne, PageList.call, PageList.popFront, hhead]
    rfl
  | cons slot rest =>
    have hhead : list.head? = some slot := h.head_eq
    have h : list.Links ([] ++ slot :: rest) := h
    obtain ⟨node, hnode, -⟩ := h.neighbours rfl
    obtain ⟨list', hunlink, -⟩ := unlink_eq_ok h hnode
    rw [PageList.serveOne, PageList.call, PageList.popFront, hhead]
    simp only [node_eq_ok hnode]
    refine (run_bind_of_ok rfl).trans ((run_bind_of_ok (run_unlink_of_ok h hunlink)).trans ?_)
    simp only [bind, Except.bind, hunlink]
    rfl

/-- **Calls on the list itself.** A call that is carried out by steps either comes to its end, and has
done what it does at once, or is refused before the list was changed. For this the links have to be those
of some queue: in a list with a link that leads nowhere the second change could fail. -/
theorem perform_eq (h : list.Links order) (call : ListCall) :
    (perform call).run list = list.serveOne call := by
  cases call with
  | alloc page => rfl
  | popFront => exact run_popFront h
  | pushBack slot frame =>
    rw [PageList.serveOne, PageList.call]
    -- whatever queuing answers, carrying it out by steps answers the same
    cases hpush : list.pushBack slot frame with
    | error fault => exact run_bind_of_error ((pushBack_eq h slot frame).trans (by rw [hpush]; rfl))
    | ok list' =>
      exact (run_bind_of_ok ((pushBack_eq h slot frame).trans (by rw [hpush]; rfl))).trans rfl
  | unlink slot =>
    rw [PageList.serveOne, PageList.call]
    cases hunlink : list.unlink slot with
    | error fault => exact run_bind_of_error (run_unlink_of_error h hunlink)
    | ok list' => exact (run_bind_of_ok (run_unlink_of_ok h hunlink)).trans rfl
  | moveToBack slot =>
    -- a slot that holds nothing is refused when it is looked at, before anything is done
    cases hnode : list.node? slot with
    | some node => exact run_moveToBack h hnode
    | none =>
      rw [serveOne_of_error (call_error_of_empty rfl hnode)]
      refine (run_bind_of_ok rfl).trans ?_
      rw [node_of_empty hnode]
      exact run_bind_of_error rfl
  | release slot =>
    cases hnode : list.node? slot with
    | some node => exact run_release h hnode
    | none =>
      rw [serveOne_of_error (call_error_of_empty rfl hnode)]
      refine (run_bind_of_ok rfl).trans ?_
      rw [node_of_empty hnode]
      exact run_bind_of_error rfl

end InPlace

/-- **A page list is a plain list.** Whatever a page list is asked for, beginning with none of its slots
given out, its answers are those of a plain list. Afterwards its links lead through the pages of that
list and back, its frames are theirs in order, and each of its slots is queued, idle or vacant as the
plain list says. A call that it is asked for next leaves it unchanged if it is refused, also where the
call is carried out on the list itself. -/
theorem serve_runs (calls : List ListCall) :
    ∃ seq, (∅ : PageSequence).Runs calls ((∅ : PageList).serve calls).1 seq ∧
      ((∅ : PageList).serve calls).2.Depicts seq ∧
      ∀ call, (InPlace.perform call).run ((∅ : PageList).serve calls).2 =
        ((∅ : PageList).serve calls).2.serveOne call := by
  obtain ⟨seq, hruns, hshows⟩ := shows_empty.serve calls
  exact ⟨seq, hruns, hshows.depicts, InPlace.perform_eq hshows.links⟩

/-- A page that is queued cannot be queued again, and a slot that was taken back is of no more use. -/
example (page : PageRef) :
    ((∅ : PageList).serve
        [.alloc page, .pushBack 0 3, .pushBack 0 4, .moveToBack 0, .release 0, .unlink 0]).1 =
      [.ok (.slot 0), .ok .done, .error (.breach (.alreadyQueued page)), .ok .done, .ok .done,
        .error (.breach (.staleSlot 0))] :=
  rfl

end PageList

end DemandPaging
