import DemandPaging.Proofs.Renaming

/-!
# In the middle of a move

A completed disk read and an executed reference have in common that a process comes by a page, and then
goes on or ends. `Halfway` is what both say of the pages in between, when a process that ends has not
yet given up its own (`Completed.halfway`, `Executed.halfway`). Whatever is kept by it, and when time
passes, is preserved by each move (`preserved_of_halfway`).

Of the pages two things are kept: only those are known that some record names (`Asked`), and those of a
process that goes on are the ones that it has referred to (`Known`). And memory does not stay empty while
there is something to put into it: either each frame has a page, or each page is in memory, but for one
that is waited for (`PageMap.Packed`).
-/

namespace DemandPaging

variable {frames : FrameTable} {policy policy' : Policy} {pages pages' : PageMap} {ref other : PageRef}
  {page : Page} {total : Nat}

/-! ### Pages that come in, and pages that are met -/

/-- To make room is to move a page out, which stays known. -/
theorem Room.isSome_eq {frame : FrameId} (h : Room frames policy pages frame policy' pages')
    (other : PageRef) : (pages' other).isSome = (pages other).isSome := by
  cases h with
  | free => rfl
  | taken _ _ howner =>
    rw [Function.update_apply]
    split
    · next heq => rw [heq, howner, Option.isSome_some, Option.isSome_some]
    · rfl

/-- A page that comes in was known before, as those were that make room for it. -/
theorem Intake.isSome_eq (h : Intake frames policy pages ref policy' pages') (other : PageRef) :
    (pages' other).isSome = (pages other).isSome := by
  cases h with
  | load hpage _ hroom =>
    rw [Function.update_apply]
    split
    · next heq => rw [heq, hpage, Option.isSome_some, Option.isSome_some]
    · exact hroom.isSome_eq other

theorem Intake.exists_frame (h : Intake frames policy pages ref policy' pages') :
    ∃ frame, pages'.frame? ref = some frame := by
  cases h with
  | load => exact ⟨_, PageMap.frame?_update.trans (if_pos rfl)⟩

/-- The page that is met is known from then on, and it is the only one that may not have been. -/
theorem Meeting.isSome_iff (h : Meeting policy pages ref page policy' pages') :
    (pages' other).isSome = true ↔ (pages other).isSome = true ∨ other = ref := by
  cases h with
  | known hpage =>
    refine ⟨.inl, ?_⟩
    rintro (hsome | rfl)
    · exact hsome
    · rw [hpage, Option.isSome_some]
  | new =>
    rw [Function.update_apply]
    split
    · next heq => exact iff_of_true rfl (.inr heq)
    · next hne => rw [or_iff_left hne]

/-- A page that is met stays where it is. -/
theorem Meeting.frame?_eq (h : Meeting policy pages ref page policy' pages') :
    pages'.frame? = pages.frame? := by
  cases h with
  | known => rfl
  | new hnew =>
    funext other
    rw [PageMap.frame?_update]
    split
    · next heq =>
      rw [heq, PageMap.frame?, hnew]
      rfl
    · rfl

/-- Each frame has a page, or each page is in memory, but for one that is waited for. So a page is
evicted only to keep memory full. -/
def PageMap.Packed (pages : PageMap) (total : Nat) (awaited? : Option PageRef) : Prop :=
  (∀ frame < total, ∃ ref, pages.frame? ref = some frame) ∨
    ∀ ref page, pages ref = some page → page.frame? = none → awaited? = some ref

/-- If no frame was free, none is: the page that comes in takes the frame of the one that left.
The other frames hold the pages that they held. -/
theorem Intake.full (h : Intake frames policy pages ref policy' pages')
    (hcoherent : Coherent frames policy pages) (hfull : frames.hasFree = false) :
    ∀ frame < frames.size, ∃ other, pages'.frame? other = some frame := by
  intro place hplace
  cases h with
  | load hpage hout hroom =>
    cases hroom with
    | free hfree => cases hfull.symm.trans hfree
    | @taken owner _ _ _ _ howner hframe =>
      obtain ⟨holder, hholder⟩ := hcoherent.residency.full_of_not_hasFree hfull place hplace
      by_cases heq : holder = owner
      -- the frame that was given up has the new page
      · rw [heq, PageMap.frame?_of_page howner, hframe] at hholder
        cases hholder
        exact ⟨ref, PageMap.frame?_update.trans (if_pos rfl)⟩
      · have hne : holder ≠ ref := by
          rintro rfl
          rw [PageMap.frame?_of_page hpage, hout] at hholder
          cases hholder
        refine ⟨holder, ?_⟩
        rw [PageMap.frame?_update, if_neg hne, PageMap.frame?_update, if_neg heq, hholder]

/-- A page that was waited for comes in: into a frame that was free, or into that of another page. In the
first case there was a frame without a page, so it was the second half of `Packed` that held before. -/
theorem Intake.packed (h : Intake frames policy pages ref policy' pages')
    (hcoherent : Coherent frames policy pages) (hpacked : pages.Packed frames.size (some ref)) :
    pages'.Packed frames.size none := by
  cases hfree : frames.hasFree with
  | false => exact .inl (h.full hcoherent hfree)
  | true =>
    obtain ⟨page, hpage, -⟩ := h.exists_page
    obtain ⟨frame, rfl⟩ := h.eq_update hfree hpage
    -- not all frames have a page, so each page but this one was in memory
    obtain ⟨empty, -, hempty⟩ := hcoherent.residency.allocate_eq_ok hfree
    obtain hfull | honly := hpacked
    · obtain ⟨owner, howner⟩ := hfull empty (Array.getElem?_eq_some_iff.1 hempty).1
      cases hempty.symm.trans (hcoherent.residency.held_iff.2 howner)
    · -- the page that came in is in memory now, and it was the only one that was not
      refine .inr fun other found hfound hgone => ?_
      rw [Function.update_apply] at hfound
      split at hfound
      · cases hfound
        cases hgone
      · next hne => exact absurd (Option.some.inj (honly other found hfound hgone)).symm hne

/-- A page that is met is in memory, or waited for from then on. Until then no page was waited
for, so there can be no other that is out while a frame is free. -/
theorem Meeting.packed (h : Meeting policy pages ref page policy' pages')
    (hpacked : pages.Packed total none) :
    pages'.Packed total (if page.isResident then none else some ref) := by
  rcases hpacked with hfull | hall
  · -- no frame changes when a page is met
    refine .inl ?_
    rwa [h.frame?_eq]
  · -- a page that is known already and not in memory would have been waited for
    refine .inr fun other found hfound hgone => ?_
    rw [h.eq_update, Function.update_apply] at hfound
    split at hfound
    · next heq =>
      cases hfound
      rw [if_neg (by rw [Page.isResident, hgone]; exact Bool.false_ne_true), heq]
    · cases hall other found hfound hgone

/-! ### Moves -/

namespace Machine

variable {chart : Chart} {config : ValidConfig} {m m' : Machine} {pid : Pid} {q q' : Process}
  {met : List (Nat × PageRef)}

/-- The pages in the middle of a move, when a process has what it came by and has yet to give it up if it
ends. Both moves say the same of them, but for what was met: that is one reference for one of the moves,
and none for the other. -/
structure Halfway (chart : Chart) (m m' : Machine) (pid : Pid) (q q' : Process)
    (met : List (Nat × PageRef)) (pages : PageMap) : Prop where
  /-- The process is one of the machine. -/
  found : m.processes.bare? pid = some q
  /-- It has not ended before. -/
  alive : q.state ≠ .finished
  /-- No other process changes. -/
  bare_eq : m'.processes.bare? = Function.update m.processes.bare? pid (some q')
  /-- It goes on with these pages, or gives up its own. -/
  left : ∃ policy, m'.Left q' policy pages m.departures
  /-- A reference was executed if one was met. -/
  executed_eq : m'.executed = m.executed ++ met
  /-- It is one of the process. -/
  own : ∀ {line ref}, (line, ref) ∈ met → ref.pid = pid
  /-- The pages are those from before, and the one that was met. -/
  isSome_iff : ∀ {ref}, (pages ref).isSome = true ↔
    (m.processes.page? ref).isSome = true ∨ ∃ line, (line, ref) ∈ met
  /-- They are in frames of the memory, and no two in one. -/
  placed : pages.Placed m.frames.size
  /-- As many pages were noted to have left for others as were counted. -/
  ousted_eq : ∃ out, m'.ousted = m.ousted ++ out ∧
    m'.stats.totals.evictions = m.stats.totals.evictions + out.length
  /-- A process that ends has a page in memory. -/
  resident : q'.state = .finished → ∃ ref frame, ref.pid = pid ∧ pages.frame? ref = some frame
  /-- If all pages were in memory but for the one that the process waited for, so they are again. -/
  packed : PageMap.Packed m.processes.page? m.frames.size q.pending? →
    pages.Packed m.frames.size q'.pending?

/-- **A disk read**, half done: the page has come into memory. No reference is met by it. -/
theorem Completed.halfway (h : Completed chart m m' pid q q') (hsound : m.Sound chart) :
    ∃ pages, Halfway chart m m' pid q q' [] pages := by
  obtain ⟨ref, policy, pages, hpending, hintake, hleft⟩ := h.intake
  obtain ⟨-, hpid⟩ := hsound.pid_of_pending h.found hpending
  refine ⟨pages, h.found, h.alive, h.bare_eq, ⟨policy, hleft⟩, ?_, by simp, fun {other} => ?_,
    hintake.placed hsound.coherent, ?_, fun _ => ?_, fun hpacked => ?_⟩
  · rw [executed, executed, h.references_eq, List.append_nil]
  · simp [hintake.isSome_eq other]
  · -- one page has left if no frame was free, and none has otherwise
    rw [h.evictions_eq]
    rcases h.ousted_eq with ⟨hfree, housted⟩ | ⟨owner, frame, hfull, -, housted⟩
    · exact ⟨[], housted.trans (List.append_nil _).symm, by rw [if_pos hfree, List.length_nil]⟩
    · exact ⟨[owner], housted, by rw [hfull, if_neg Bool.false_ne_true, List.length_singleton]⟩
  · -- the page that came in is one of the process, and in memory
    obtain ⟨frame, hframe⟩ := hintake.exists_frame
    exact ⟨ref, frame, hpid, hframe⟩
  · rw [hpending] at hpacked
    rw [h.passes.idle.2]
    exact hintake.packed hsound.coherent hpacked

/-- **A reference**, half done: its page was met. If the process ends with it, the page is in memory. -/
theorem Executed.halfway {record : TraceRecord} {hit : Bool}
    (h : Executed chart m m' pid q q' record hit) (hsound : m.Sound chart) :
    ∃ pages, Halfway chart m m' pid q q' [(q.line, record.page)] pages := by
  have hstands := hsound.stands h.found
  have hpid : record.page.pid = pid :=
    (hstands.pid_of_record h.record_eq).trans (hsound.lined.keyed h.found)
  obtain ⟨page, policy, policy', pages, hmeeting, rfl, hmissed, hused, hleft⟩ := h.meeting
  refine ⟨pages, h.found, h.alive, h.bare_eq, ⟨policy', hleft⟩, ?_, fun hmem => ?_, fun {other} => ?_,
    hmeeting.placed hsound.coherent.residency.placed,
    ⟨[], h.ousted_eq.trans (List.append_nil _).symm, h.evictions_eq⟩, fun hfinished => ?_,
    fun hpacked => ?_⟩
  · rw [executed, h.references_eq, List.map_append]
    rfl
  · cases List.mem_singleton.1 hmem
    exact hpid
  · simp [hmeeting.isSome_iff]
  -- a process that misses does not end
  · cases hresident : page.isResident with
    | false => cases (hmissed hresident).1.symm.trans hfinished
    | true =>
      obtain ⟨frame, hframe⟩ := Page.isResident_iff.1 hresident
      refine ⟨record.page, frame, hpid, ?_⟩
      rw [hmeeting.eq_update, PageMap.frame?_update, if_pos rfl, Option.bind_some, hframe]
  · -- a process that can run waits for no page
    rw [(hstands.runnable h.runnable).1] at hpacked
    have hpacked' := hmeeting.packed hpacked
    cases hresident : page.isResident with
    | false =>
      rw [hresident] at hpacked'
      rw [(hmissed hresident).2.1]
      exact hpacked'
    | true =>
      rw [hresident] at hpacked'
      rw [(hused hresident).1.idle.2]
      exact hpacked'

/-- What is kept when time passes and by both other moves is preserved. With this an invariant
that looks at pages has two cases to show instead of three, and no end of a process to look
into. -/
theorem preserved_of_halfway {P : Machine → Prop}
    (hwait : ∀ {m : Machine} {stats : Stats} {elapsed : Nat},
      stats.totals.evictions = m.stats.totals.evictions → P m →
      P { m with stats, processes := m.processes.passTime elapsed })
    (hhalfway : ∀ {m m' pid q q' met pages}, m.Going chart config → m'.Going chart config →
      Halfway chart m m' pid q q' met pages → P m → P m') :
    Preserved chart config P := by
  intro m m' hgoing hgoing' hmoved h
  cases hmoved with
  | wait _ _ _ _ hevictions => exact hwait hevictions h
  | read hcompleted =>
    obtain ⟨pages, hread⟩ := hcompleted.halfway hgoing.sound
    exact hhalfway hgoing hgoing' hread h
  | refer hexecuted =>
    obtain ⟨pages, hrefer⟩ := hexecuted.halfway hgoing.sound
    exact hhalfway hgoing hgoing' hrefer h

/-- Only pages that some record names are known. It bounds what can be in memory by the trace,
where `Known` says more for a process that goes on. -/
def Asked (refs : List PageRef) (m : Machine) : Prop :=
  ∀ ⦃ref page⦄, m.processes.page? ref = some page → ref ∈ refs

/-- The pages of a process that has not ended are those that it has referred to. One that has ended has
none. -/
def Known (m : Machine) : Prop :=
  ∀ ⦃q ref⦄, m.processes.bare? ref.pid = some q → q.state ≠ .finished →
    ((m.processes.page? ref).isSome = true ↔ ∃ line, (line, ref) ∈ m.executed)

namespace Halfway

theorem self (h : Halfway chart m m' pid q q' met pages) : m'.processes.bare? pid = some q' := by
  rw [h.bare_eq, Function.update_self]

/-- In the middle of a move no other pages are known than those that some record names. -/
theorem mem_asked (h : Halfway chart m m' pid q q' met pages) (hreplays' : m'.Replays chart)
    (hasked : m.Asked (chart.records.map (·.page))) (hsome : (pages ref).isSome = true) :
    ref ∈ chart.records.map (·.page) := by
  rcases h.isSome_iff.1 hsome with hbefore | ⟨line, hmet⟩
  · obtain ⟨page, hpage⟩ := Option.isSome_iff_exists.1 hbefore
    exact hasked hpage
  -- the page that was met is that of a reference which was executed
  · have hexecuted : (line, ref) ∈ m'.executed := by
      rw [h.executed_eq]
      exact List.mem_append_right _ hmet
    obtain ⟨record, hrecord, rfl⟩ := Survey.mem_references_iff.1 (hreplays'.mem_references hexecuted)
    exact List.mem_map_of_mem (Survey.mem_of_record? hrecord)

theorem asked (h : Halfway chart m m' pid q q' met pages) (hreplays' : m'.Replays chart)
    (hasked : m.Asked (chart.records.map (·.page))) : m'.Asked (chart.records.map (·.page)) := by
  intro ref page hpage
  obtain ⟨policy, hleft⟩ := h.left
  exact h.mem_asked hreplays' hasked (by rw [hleft.left hpage, Option.isSome_some])

/-- The pages of its process are then those that it has referred to, even if it ends. -/
theorem isSome_iff_executed (h : Halfway chart m m' pid q q' met pages) (hknown : m.Known)
    (hpid : ref.pid = pid) :
    (pages ref).isSome = true ↔ ∃ line, (line, ref) ∈ m'.executed := by
  rw [h.isSome_iff, hknown (hpid ▸ h.found) h.alive, h.executed_eq, ← exists_or]
  simp only [List.mem_append]

/-- **What was referred to is known** after a move, if it was before. A process that ends with the move
has given its pages up, and nothing is said of it then. -/
theorem known (h : Halfway chart m m' pid q q' met pages) (hsound' : m'.Sound chart)
    (hknown : m.Known) : m'.Known := by
  intro q₁ ref hq₁ hstate
  obtain ⟨policy, hleft⟩ := h.left
  have hpid' : q'.pid = pid := hsound'.lined.keyed h.self
  by_cases heq : ref.pid = pid
  -- a process that goes on keeps its pages
  · rw [heq] at hq₁
    cases h.self.symm.trans hq₁
    rw [hleft.pages_eq hstate]
    exact h.isSome_iff_executed hknown heq
  · -- another process neither came by a page nor gave one up
    have hnone : ¬∃ line, (line, ref) ∈ met := fun ⟨_, hmem⟩ => heq (h.own hmem)
    rw [h.bare_eq, Function.update_of_ne heq] at hq₁
    rw [hleft.other (hpid'.symm ▸ heq), h.isSome_iff, or_iff_left hnone, hknown hq₁ hstate,
      h.executed_eq]
    simp only [List.mem_append, exists_or, or_iff_left hnone]

end Halfway

theorem Asked.wait {refs : List PageRef} {stats : Stats} {elapsed : Nat} (h : m.Asked refs) :
    Asked refs { m with stats, processes := m.processes.passTime elapsed } := by
  intro ref page hpage
  have hpage : (m.processes.passTime elapsed).page? ref = some page := hpage
  rw [ProcessTable.page?_passTime] at hpage
  exact h hpage

/-- **What is known was asked for.** No move brings up any other page. -/
theorem preserved_asked : Preserved chart config (Asked (chart.records.map (·.page))) :=
  preserved_of_halfway (fun _ hasked => hasked.wait) fun _ hgoing' h hasked =>
    h.asked hgoing'.replays hasked

theorem Known.wait {stats : Stats} {elapsed : Nat} (h : m.Known) :
    Known { m with stats, processes := m.processes.passTime elapsed } := by
  intro q ref hq hstate
  obtain ⟨p, hp, heq, -⟩ := ProcessTable.exists_of_bare?_passTime hq
  have hsame : q.state = p.state := (congrArg Process.state heq :)
  show ((m.processes.passTime elapsed).page? ref).isSome = true ↔ _
  rw [ProcessTable.page?_passTime]
  exact h hp (hsame ▸ hstate)

end Machine

end DemandPaging
