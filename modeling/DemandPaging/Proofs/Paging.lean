import DemandPaging.Simulator.Machine
import DemandPaging.Proofs.Queues
import DemandPaging.Proofs.Residency

/-!
# Pages in and out of memory

What the parts of a machine step do that bring pages into memory and take them out. While frames,
policy and pages are coherent, each of them succeeds and leaves them coherent:

* `makeRoom_eq_ok` and `loadPage_eq_ok`, and both of them one after the other, `pageIn_eq_ok`;
* `retire_eq_ok`, by which a process ends and gives up its pages.

A page that is in memory came there by a disk read, and leaves by an eviction or with its process. The
`balance` of a machine counts both ways out and the pages in between: a disk read adds one to it, and
nothing else changes it.
-/

namespace DemandPaging

/-- A reference as it was executed. Whether it was a hit is noted at that time; it cannot be
told from the trace. -/
structure Reference where
  /-- The line of its record. -/
  line : Nat
  /-- The page. -/
  page : PageRef
  /-- Whether the page was in memory. -/
  hit : Bool
  deriving DecidableEq, Repr

/-- The reference that an event tells of. -/
def Event.reference? : Event → Option Reference
  | referenced _ page line hit => some { line, page, hit }
  | _ => none

/-- The number of pages that left memory because their process ended. -/
def Event.released : Event → Nat
  | exited _ _ _ resident => resident
  | _ => 0

/-- The page that an event tells to have left for another one. -/
def Event.ousted? : Event → Option PageRef
  | evicted _ page _ => some page
  | _ => none

/-- The process that an event tells the end of, with the number of its pages that were in memory. -/
def Event.departure? : Event → Option (Pid × Nat)
  | exited _ pid _ resident => some (pid, resident)
  | _ => none

namespace PageMap

variable {pages : PageMap} {ref : PageRef} {refs : List PageRef}

/-- A family without some of its pages. -/
def without (pages : PageMap) (refs : List PageRef) : PageMap :=
  fun ref => if ref ∈ refs then none else pages ref

theorem without_nil : pages.without [] = pages := by
  funext ref
  exact if_neg List.not_mem_nil

theorem without_cons : pages.without (ref :: refs) =
    without (Function.update pages ref none) refs := by
  funext other
  simp only [without, Function.update_apply, List.mem_cons]
  by_cases hmem : other ∈ refs
  · rw [if_pos hmem, if_pos (.inr hmem)]
  · simp only [hmem, or_false, if_false]

/-- A page that is dropped leaves those with other names, so the next one is found as it was. -/
theorem update_none_eq_some {page : Page} {rest : List Page}
    (hpages : ∀ other ∈ page :: rest, pages other.ref = some other)
    (hnew : page.ref ∉ rest.map (·.ref)) :
    ∀ other ∈ rest, Function.update pages page.ref none other.ref = some other := by
  intro other hother
  rw [Function.update_of_ne, hpages other (List.mem_cons_of_mem _ hother)]
  intro heq
  exact hnew (List.mem_map.2 ⟨other, hother, heq⟩)

end PageMap

/-- What a process that ends takes with it are the pages that it has. The pages of a family are told by
name and those of a process are in a list, and this is where both are said to be the same. -/
theorem ProcessTable.page?_retired_eq_without {t : ProcessTable} {p : Process}
    (hp : t.get? p.pid = some p)
    (hnamed : ∀ {ref page}, t.page? ref = some page → page.ref = ref) :
    (t.retired p).page? = PageMap.without t.page? (p.pages.values.map (·.ref)) := by
  have hmem : ∀ page, page ∈ p.pages.values ↔ page.ref.pid = p.pid ∧ t.page? page.ref = some page :=
    fun page => mem_pages_iff hp hnamed
  rw [page?_retired hp]
  funext ref
  by_cases hpid : ref.pid = p.pid
  -- a page of the process is taken, if there is one
  · rw [if_pos hpid, PageMap.without]
    cases hpage : t.page? ref with
    | none => rw [ite_self]
    | some page =>
      have hname := hnamed hpage
      rw [if_pos]
      refine List.mem_map.2 ⟨page, (hmem page).2 ⟨?_, ?_⟩, hname⟩
      · rw [hname, hpid]
      · rw [hname, hpage]
  -- no page of another process is
  · rw [if_neg hpid, PageMap.without, if_neg]
    intro hin
    obtain ⟨page, hpage, rfl⟩ := List.mem_map.1 hin
    exact hpid ((hmem page).1 hpage).1

namespace Machine

variable {m m' : Machine} {pages : PageMap} {ref : PageRef} {page : Page} {frame : FrameId}
  {now : Nat} {pid : Pid} {p : Process} {event : Event} {α : Type} {select : Event → Option α}

/-- What the journal tells of some events, the first one first. The journal has the last one
first, so it is turned round before anything is picked from it. -/
def told (m : Machine) (select : Event → Option α) : List α := m.journal.reverse.filterMap select

theorem told_note : (m.note event).told select = m.told select ++ (select event).toList := by
  rw [told, note, List.reverse_cons, List.filterMap_append]
  cases hevent : select event with
  | none => rw [List.filterMap_cons_none hevent]; rfl
  | some found => rw [List.filterMap_cons_some hevent]; rfl

theorem told_note_of_none (h : select event = none) : (m.note event).told select = m.told select := by
  rw [told_note, h, Option.toList_none, List.append_nil]

/-- The pages that had to leave memory for others so far, the first one first. -/
def ousted (m : Machine) : List PageRef := m.told Event.ousted?

/-- The processes that have ended so far, the first one first, each with the number of its pages that
were in memory then. -/
def departures (m : Machine) : List (Pid × Nat) := m.told Event.departure?

/-- The references executed so far, the first one first. -/
def references (m : Machine) : List Reference := m.journal.reverse.filterMap Event.reference?

/-- The number of pages that left memory because their process ended. It is summed up over the
journal, as the totals do not count it. -/
def released (m : Machine) : Nat := m.journal.foldr (fun event rest => event.released + rest) 0

/-- The number of pages that were ever brought into memory: evicted, in memory, or given up. Each of the
three changes, and which one grows with a disk read depends on whether a frame was free; the sum does
not. -/
def balance (m : Machine) : Nat := m.stats.totals.evictions + m.frames.allocated + m.released

theorem references_note : (m.note event).references = m.references ++ event.reference?.toList := by
  rw [references, note, List.reverse_cons, List.filterMap_append]
  cases event <;> rfl

theorem released_note : (m.note event).released = event.released + m.released := rfl

/-! ### Bringing a page in -/

/-- Pages may have come into memory and left it; nothing else happened to the processes. It is
what the two halves of a move have in common, and is transitive. -/
structure Paged (m m' : Machine) : Prop where
  /-- Most of the machine is as it was. -/
  frame_eq : m' = { m with
    frames := m'.frames, processes := m'.processes, policy := m'.policy, stats := m'.stats
    journal := m'.journal }
  /-- The memory has the same size. -/
  size_eq : m'.frames.size = m.frames.size
  /-- The policy is of the same kind. -/
  kind_eq : m'.policy.kind = m.policy.kind
  /-- Frames, policy and pages agree. -/
  coherent : Coherent m'.frames m'.policy m'.processes.page?
  /-- The processes are the same but for their pages. -/
  bare_eq : m'.processes.bare? = m.processes.bare?
  /-- They are queued as they were. -/
  queues_eq : m'.processes.queues = m.processes.queues
  /-- They are queued in the same order. -/
  order_eq : m'.processes.order = m.processes.order
  /-- Nothing but evictions was counted. -/
  stats_eq : m'.stats =
    { m.stats with totals := { m.stats.totals with evictions := m'.stats.totals.evictions } }
  /-- No reference was executed. -/
  references_eq : m'.references = m.references

theorem Paged.trans {m₁ m₂ : Machine} (h₁ : m.Paged m₁) (h₂ : m₁.Paged m₂) : m.Paged m₂ where
  frame_eq := by rw [h₂.frame_eq, h₁.frame_eq]
  size_eq := h₂.size_eq.trans h₁.size_eq
  kind_eq := h₂.kind_eq.trans h₁.kind_eq
  coherent := h₂.coherent
  bare_eq := h₂.bare_eq.trans h₁.bare_eq
  queues_eq := h₂.queues_eq.trans h₁.queues_eq
  order_eq := h₂.order_eq.trans h₁.order_eq
  stats_eq := by rw [h₂.stats_eq, h₁.stats_eq]
  references_eq := h₂.references_eq.trans h₁.references_eq

/-- **Room for a page.** A frame is empty afterwards; at most one page had to leave memory for that.
Which one it is depends on the policy, and nothing more is said of it here. -/
theorem makeRoom_eq_ok (h : Coherent m.frames m.policy m.processes.page?)
    (hfit : m.stats.totals.evictions + 1 < 2 ^ 64) (now : Nat) :
    ∃ frame m', m.makeRoom now = .ok (frame, m') ∧ m.Paged m' ∧
      m'.frames.holders[frame]? = some none ∧ m'.balance = m.balance ∧
      (m'.processes.page? = m.processes.page? ∨
        ∃ owner page, m.processes.page? owner = some page ∧ m'.processes.page? =
          Function.update m.processes.page? owner (some { page with frame? := none })) := by
  obtain ⟨frame, owner?, policy, hclaim, hkind, hcases⟩ := h.claim_eq_ok
  unfold makeRoom
  rw [hclaim]
  rcases hcases with ⟨rfl, rfl, hfree⟩ | ⟨owner, page, rfl, hpage, hframe, hfollows⟩
  -- there was an empty frame
  · refine ⟨frame, m, rfl, ⟨rfl, rfl, rfl, h, rfl, rfl, rfl, rfl, rfl⟩, hfree, rfl, .inl rfl⟩
  -- a page has to leave, and stays known to its process
  · obtain ⟨frames, hevict, hfree, hsize, hallocated, hcoherent⟩ :=
      h.evict_eq_ok hpage hframe hfollows
    have hname := h.residency.named hpage
    have hupdate : (m.processes.putPage { page with frame? := none }).page? =
        Function.update m.processes.page? owner (some { page with frame? := none }) :=
      ProcessTable.page?_putPage_of_known hpage hname
    let totals := { m.stats.totals with evictions := m.stats.totals.evictions + 1 }
    have hcount : m.stats.noteEviction = .ok { m.stats with totals } := by
      simp only [Stats.noteEviction, Totals.addEviction, Fault.fit, hfit, if_true, bind, Except.bind]
      rfl
    let m₁ : Machine := { m with
      frames, policy, stats := { m.stats with totals }
      processes := m.processes.putPage { page with frame? := none } }
    refine ⟨frame, m₁.note (.evicted now owner frame), ?_, ?_, hfree, ?_, .inr ⟨owner, page, hpage, ?_⟩⟩
    · simp only [evict, hpage, hevict, hcount, Fault.demand, bind, Except.bind]
      rfl
    · refine ⟨rfl, hsize, hkind, ?_, ProcessTable.bare?_putPage, rfl, rfl, rfl, ?_⟩
      · show Coherent frames policy (m.processes.putPage { page with frame? := none }).page?
        rw [hupdate]
        exact hcoherent
      · exact references_note.trans (List.append_nil _)
    -- one eviction more, and one page less in memory
    · rw [balance, released_note]
      show m.stats.totals.evictions + 1 + frames.allocated + (0 + m.released) = m.balance
      rw [balance]
      omega
    · exact hupdate

/-- **Loading a page.** A page that is not in memory comes into an empty frame. The frames, the
page and the policy are told, in this order, and the balance grows by one. -/
theorem loadPage_eq_ok (h : Coherent m.frames m.policy m.processes.page?)
    (hpage : m.processes.page? ref = some page) (hframe : page.frame? = none)
    (hfree : m.frames.holders[frame]? = some none) (now : Nat) :
    ∃ m', m.loadPage now frame ref = .ok m' ∧ m.Paged m' ∧ m'.balance = m.balance + 1 ∧
      m'.processes.page? =
        Function.update m.processes.page? ref (some { page with frame? := some frame }) := by
  obtain ⟨frames, policy, hload, hnote, hsize, hkind, hallocated, hcoherent⟩ :=
    h.load_eq_ok hpage hframe hfree
  have hname := h.residency.named hpage
  have hupdate : (m.processes.putPage { page with frame? := some frame }).page? =
      Function.update m.processes.page? ref (some { page with frame? := some frame }) :=
    ProcessTable.page?_putPage_of_known hpage hname
  let m₁ : Machine := { m with
    frames, policy, processes := m.processes.putPage { page with frame? := some frame } }
  refine ⟨m₁.note (.pagedIn now ref frame), ?_, ?_, ?_, hupdate⟩
  · simp only [loadPage, hpage, hload, hnote, Fault.demand, bind, Except.bind]
    rfl
  · refine ⟨rfl, hsize, hkind, ?_, ProcessTable.bare?_putPage, rfl, rfl, rfl, ?_⟩
    · show Coherent frames policy (m.processes.putPage { page with frame? := some frame }).page?
      rw [hupdate]
      exact hcoherent
    · exact references_note.trans (List.append_nil _)
  · -- one page more in memory
    rw [balance, released_note]
    show m.stats.totals.evictions + frames.allocated + (0 + m.released) = m.balance + 1
    rw [balance]
    omega

/-- **A page comes in.** Every page is known afterwards as before, and those that were not in memory
are not, but for the one that came. -/
theorem pageIn_eq_ok (h : Coherent m.frames m.policy m.processes.page?)
    (hfit : m.stats.totals.evictions + 1 < 2 ^ 64) (hpage : m.processes.page? ref = some page)
    (hframe : page.frame? = none) (now : Nat) :
    ∃ frame m₁ m₂, m.makeRoom now = .ok (frame, m₁) ∧ m₁.loadPage now frame ref = .ok m₂ ∧
      m.Paged m₂ ∧ m₂.balance = m.balance + 1 ∧
      (∀ other, (m₂.processes.page? other).isSome = (m.processes.page? other).isSome) ∧
      ∀ other page, other ≠ ref → m.processes.page? other = some page → page.frame? = none →
        m₂.processes.page? other = some page := by
  obtain ⟨frame, m₁, hroom, hpaged₁, hfree, hbalance₁, hcases⟩ := makeRoom_eq_ok h hfit now
  -- making room leaves the pages alone that are not in memory
  have hkept : ∀ other page, m.processes.page? other = some page → page.frame? = none →
      m₁.processes.page? other = some page := by
    intro other found hfound hout
    rcases hcases with hsame | ⟨owner, left, hleft, hupdate⟩
    · rw [hsame, hfound]
    · rw [hupdate, Function.update_apply]
      split
      -- even if it is the page that left, it was in no frame and still is not
      · next heq =>
        cases hfound.symm.trans (heq ▸ hleft)
        rw [← hout]
      · exact hfound
  have hknown : ∀ other, (m₁.processes.page? other).isSome = (m.processes.page? other).isSome := by
    intro other
    rcases hcases with hsame | ⟨owner, left, hleft, hupdate⟩
    · rw [hsame]
    · rw [hupdate, Function.update_apply]
      split
      · next heq => rw [heq, hleft, Option.isSome_some, Option.isSome_some]
      · rfl
  obtain ⟨m₂, hload, hpaged₂, hbalance₂, hupdate⟩ :=
    loadPage_eq_ok hpaged₁.coherent (hkept ref page hpage hframe) hframe hfree now
  refine ⟨frame, m₁, m₂, hroom, hload, hpaged₁.trans hpaged₂, by rw [hbalance₂, hbalance₁], ?_, ?_⟩
  · -- loading a page that is known changes which pages are known no more than making room did
    intro other
    rw [← hknown, hupdate, Function.update_apply]
    split
    · next heq =>
      rw [heq, hkept ref page hpage hframe, Option.isSome_some, Option.isSome_some]
    · rfl
  · intro other found hne hfound hout
    rw [hupdate, Function.update_of_ne hne]
    exact hkept other found hfound hout

/-! ### Giving up pages -/

/-- A page is dropped wherever it is: the policy forgets it, and if it is in a frame the frame is empty
then. -/
theorem dropPage_eq_ok (h : Coherent m.frames m.policy pages) (hpage : pages ref = some page) :
    ∃ m', m.dropPage page = .ok m' ∧ m' = { m with frames := m'.frames, policy := m'.policy } ∧
      m'.frames.size = m.frames.size ∧ m'.policy.kind = m.policy.kind ∧
      Coherent m'.frames m'.policy (Function.update pages ref none) ∧
      m'.frames.allocated + page.isResident.toNat = m.frames.allocated := by
  obtain ⟨policy, hforget, hkind, hcases⟩ := h.forget_eq_ok hpage
  unfold dropPage
  rw [hforget]
  rcases hcases with ⟨hframe, hcoherent⟩ | ⟨frame, frames, hframe, hevict, hsize, hallocated, hcoherent⟩
  · rw [hframe]
    refine ⟨{ m with policy }, rfl, rfl, rfl, hkind, hcoherent, ?_⟩
    rw [Page.isResident, hframe]
    rfl
  · -- its frame is emptied as well
    rw [hframe]
    refine ⟨{ m with policy, frames }, ?_, rfl, hsize, hkind, hcoherent, ?_⟩
    · simp only [bind, Except.bind, hevict]
      rfl
    · rw [Page.isResident, hframe]
      exact hallocated

/-- By induction on the pages that are dropped, with the family without those that are gone already. -/
theorem foldlM_dropPage (dropped : List Page) (h : Coherent m.frames m.policy pages)
    (hpages : ∀ page ∈ dropped, pages page.ref = some page)
    (hnodup : (dropped.map (·.ref)).Nodup) :
    ∃ m', dropped.foldlM dropPage m = .ok m' ∧
      m' = { m with frames := m'.frames, policy := m'.policy } ∧
      m'.frames.size = m.frames.size ∧ m'.policy.kind = m.policy.kind ∧
      Coherent m'.frames m'.policy (pages.without (dropped.map (·.ref))) ∧
      m'.frames.allocated + dropped.countP (·.isResident) = m.frames.allocated := by
  induction dropped generalizing m pages with
  | nil => exact ⟨m, rfl, rfl, rfl, rfl, PageMap.without_nil.symm ▸ h, rfl⟩
  | cons page rest ih =>
    obtain ⟨hnew, hrest⟩ := List.nodup_cons.1 hnodup
    obtain ⟨m₁, hdrop, hm₁, hsize₁, hkind₁, h₁, hallocated₁⟩ :=
      dropPage_eq_ok h (hpages page List.mem_cons_self)
    obtain ⟨m', hfold, hm', hsize, hkind, h', hallocated⟩ :=
      ih h₁ (PageMap.update_none_eq_some hpages hnew) hrest
    refine ⟨m', ?_, ?_, hsize.trans hsize₁, hkind.trans hkind₁, ?_, ?_⟩
    · rw [List.foldlM_cons, hdrop]
      exact hfold
    · rw [hm', hm₁]
    · rw [List.map_cons, PageMap.without_cons]
      exact h'
    · -- one page less in memory, if it was there
      rw [List.countP_cons]
      cases hresident : page.isResident with
      | true =>
        rw [hresident, Bool.toNat_true] at hallocated₁
        rw [if_pos rfl]
        omega
      | false =>
        rw [hresident, Bool.toNat_false] at hallocated₁
        rw [if_neg Bool.false_ne_true]
        omega

/-- **The end of a process.** Its pages leave memory with it. They are taken out of the table before they
are dropped, but are found in frames and policy until then. -/
theorem retire_eq_ok (h : Coherent m.frames m.policy m.processes.page?) (hlined : m.processes.Lined)
    (hp : m.processes.get? p.pid = some p) (now : Nat) :
    ∃ m', m.retire now p.pid = .ok m' ∧
      m' = { m with
        frames := m'.frames, processes := m.processes.retired p, policy := m'.policy
        journal := m'.journal } ∧
      m'.frames.size = m.frames.size ∧ m'.policy.kind = m.policy.kind ∧
      Coherent m'.frames m'.policy m'.processes.page? ∧
      m'.references = m.references ∧ m'.balance = m.balance := by
  let ended : Process := { p with state := .finished }
  have hended : (m.processes.relocate p .finished).get? p.pid = some ended := by
    rw [ProcessTable.get?_relocate, if_pos rfl]
  have hnamed : ∀ {ref page}, m.processes.page? ref = some page → page.ref = ref :=
    h.residency.named
  obtain ⟨m₁, hfold, hm₁, hsize, hkind, h₁, hallocated⟩ :=
    foldlM_dropPage (m := { m with processes := m.processes.retired p }) p.pages.values h
      (fun page hpage => ((ProcessTable.mem_pages_iff hp hnamed).1 hpage).2)
      (ProcessTable.nodup_refs hp hnamed)
  have hpages : m₁.processes.page? =
      PageMap.without m.processes.page? (p.pages.values.map (·.ref)) := by
    rw [hm₁]
    exact ProcessTable.page?_retired_eq_without hp hnamed
  refine ⟨m₁.note (.exited now p.pid p.pages.values.length ended.residentCount), ?_, ?_, hsize, hkind,
    ?_, ?_, ?_⟩
  · simp only [retire, ProcessTable.setState_eq_ok hlined hp, ProcessTable.process_eq_ok hended,
      ProcessTable.releasePages_eq_ok hended, bind, Except.bind]
    rw [ProcessTable.retired] at hfold
    rw [hfold]
    rfl
  · -- frames and policy change, and the table is that of a process that has ended
    rw [hm₁]
    rfl
  · show Coherent m₁.frames m₁.policy m₁.processes.page?
    rw [hpages]
    exact h₁
  · refine references_note.trans ?_
    show m₁.references ++ [] = m.references
    rw [List.append_nil, hm₁]
    rfl
  -- the pages in memory that were dropped are counted by the note of the end
  · rw [balance, released_note, balance]
    show m₁.stats.totals.evictions + m₁.frames.allocated + (ended.residentCount + m₁.released) = _
    have hjournal : m₁.released = m.released := by
      rw [hm₁]
      rfl
    have hstats : m₁.stats = m.stats := by rw [hm₁]
    rw [hjournal, hstats]
    have hcount : ended.residentCount = p.pages.values.countP (·.isResident) := rfl
    have hallocated : m₁.frames.allocated + p.pages.values.countP (·.isResident) =
      m.frames.allocated := hallocated
    omega

end Machine

end DemandPaging
