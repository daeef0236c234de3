import DemandPaging.Simulator.Agreement
import DemandPaging.Proofs.Steps

/-!
# Agreement of frames, pages and policy

The check that compares frames, pages and policy succeeds on every sound machine
(`Machine.Sound.checkAgreement_eq_ok`): the frames in use are just those that pages name
(`residentFrames_perm`), and the policy tracks the same ones, unless it tracks none
(`tracked_mergeSort`). So it succeeds after any number of steps, for every trace and all valid
parameters (`agreement_of_reaches`).
-/

namespace DemandPaging

namespace ProcessTable

variable {t : ProcessTable} {page : Page}

/-- The pages of the table are those that are found under their names. -/
theorem mem_pages (hnamed : ∀ {ref page}, t.page? ref = some page → page.ref = ref) :
    page ∈ t.pages ↔ t.page? page.ref = some page := by
  rw [pages, List.mem_flatMap]
  constructor
  · rintro ⟨p, hp, hpage⟩
    obtain ⟨pid, hp⟩ := OrderedMap.mem_values_iff.1 hp
    exact ((mem_pages_iff (t := t) hp hnamed).1 hpage).2
  -- a page is found with its process, under its number
  · intro hpage
    obtain ⟨p, hp, hvpn⟩ := page?_eq_some_iff.1 hpage
    exact ⟨p, OrderedMap.mem_values_iff.2 ⟨_, hp⟩, OrderedMap.mem_values_iff.2 ⟨_, hvpn⟩⟩

theorem pairwise_pages (hnamed : ∀ {ref page}, t.page? ref = some page → page.ref = ref) :
    t.pages.Pairwise fun a b => a.ref ≠ b.ref := by
  refine List.pairwise_flatMap.2 ⟨fun p hp => ?_, ?_⟩
  · obtain ⟨pid, hp⟩ := OrderedMap.mem_values_iff.1 hp
    exact List.pairwise_map.1 (nodup_refs (t := t) hp hnamed)
  -- pages of different processes
  · refine List.pairwise_map.2 (t.processes.ascending.imp_of_mem ?_)
    intro a b ha hb hlt page hpage other hother heq
    have hpid := ((mem_pages_iff (t := t) (OrderedMap.mem_entries_iff.1 ha) hnamed).1 hpage).1
    have hpid' := ((mem_pages_iff (t := t) (OrderedMap.mem_entries_iff.1 hb) hnamed).1 hother).1
    rw [← hpid, ← hpid', heq] at hlt
    exact Nat.lt_irrefl _ hlt

end ProcessTable

theorem forM_eq_ok {α : Type} {l : List α} {check : α → Except Fault Unit}
    (h : ∀ a ∈ l, check a = .ok ()) : l.forM check = .ok () := by
  induction l with
  | nil => rfl
  | cons a rest ih =>
    simp only [List.forM, h a List.mem_cons_self, bind, Except.bind]
    exact ih fun b hb => h b (List.mem_cons_of_mem _ hb)

/-- Frames in different orders are the same frames when sorted. -/
theorem mergeSort_eq_of_perm {frames others : List FrameId} (h : frames.Perm others) :
    frames.mergeSort = others.mergeSort := by
  have htrans : ∀ a b c : FrameId, decide (a ≤ b) = true → decide (b ≤ c) = true →
      decide (a ≤ c) = true := fun a b c hab hbc =>
    decide_eq_true (Nat.le_trans (of_decide_eq_true hab) (of_decide_eq_true hbc))
  have htotal : ∀ a b : FrameId, (decide (a ≤ b) || decide (b ≤ a)) = true := fun a b => by
    rw [Bool.or_eq_true, decide_eq_true_iff, decide_eq_true_iff]
    exact Nat.le_total a b
  -- two sorted lists of the same numbers are one list
  have hperm : frames.mergeSort.Perm others.mergeSort :=
    (List.mergeSort_perm _ _).trans (h.trans (List.mergeSort_perm _ _).symm)
  refine hperm.eq_of_pairwise (fun a b _ _ hab hba => ?_) (List.pairwise_mergeSort htrans htotal _)
    (List.pairwise_mergeSort htrans htotal _)
  exact Nat.le_antisymm (of_decide_eq_true hab) (of_decide_eq_true hba)

namespace Machine

/-- Frames, pages and policy agree on which pages are in memory, and in which frames. The first
clause is the check of the program; the others say in full what it stands for, frame by frame
and page by page. -/
structure Agrees (m : Machine) : Prop where
  /-- The check finds nothing to object to. -/
  checked : m.checkAgreement = .ok ()
  /-- A page that names a frame is the one that the frame holds. -/
  holder_of_page : ∀ {page frame}, page ∈ m.processes.pages → page.frame? = some frame →
    m.frames.holder? frame = .ok (some page.ref)
  /-- A page that a frame holds is there, and names the frame. -/
  page_of_holder : ∀ {frame owner}, m.frames.holder? frame = .ok (some owner) →
    ∃ page ∈ m.processes.pages, page.ref = owner ∧ page.frame? = some frame
  /-- As many frames are in use as there are pages in memory. -/
  allocated_eq : m.frames.allocated = m.residentFrames.length
  /-- No two pages are in one frame. -/
  nodup : m.residentFrames.Nodup
  /-- The policy tracks the frames of the pages in memory, unless it tracks none at all. -/
  tracked_eq : ∀ {tracked}, m.policy.tracked? = some tracked →
    tracked.mergeSort = m.residentFrames.mergeSort

namespace Sound

variable {chart : Chart} {m : Machine} {page : Page} {frame : FrameId} {owner : PageRef}

theorem mem_pages (h : m.Sound chart) :
    page ∈ m.processes.pages ↔ m.processes.page? page.ref = some page :=
  ProcessTable.mem_pages h.coherent.residency.named

theorem holder_of_page (h : m.Sound chart) (hpage : page ∈ m.processes.pages)
    (hframe : page.frame? = some frame) : m.frames.holder? frame = .ok (some page.ref) := by
  have hin : PageMap.frame? m.processes.page? page.ref = some frame :=
    PageMap.frame?_eq_some_iff.2 ⟨page, h.mem_pages.1 hpage, hframe⟩
  rw [FrameTable.holder?, h.coherent.residency.held_iff.2 hin]

theorem page_of_holder (h : m.Sound chart) (hholder : m.frames.holder? frame = .ok (some owner)) :
    ∃ page ∈ m.processes.pages, page.ref = owner ∧ page.frame? = some frame := by
  have hheld : m.frames.holders[frame]? = some (some owner) := by
    rw [FrameTable.holder?] at hholder
    split at hholder
    · next holder? hfound =>
      cases hholder
      exact hfound
    · cases hholder
  obtain ⟨page, hpage, hframe⟩ := PageMap.frame?_eq_some_iff.1 (h.coherent.residency.held_iff.1 hheld)
  have hname := h.coherent.residency.named hpage
  exact ⟨page, h.mem_pages.2 (hname ▸ hpage), hname, hframe⟩

theorem mem_residentFrames_iff (h : m.Sound chart) :
    frame ∈ m.residentFrames ↔ ∃ ref, PageMap.frame? m.processes.page? ref = some frame := by
  rw [residentFrames, List.mem_filterMap]
  constructor
  · rintro ⟨page, hpage, hframe⟩
    exact ⟨page.ref, PageMap.frame?_eq_some_iff.2 ⟨page, h.mem_pages.1 hpage, hframe⟩⟩
  · rintro ⟨ref, hin⟩
    obtain ⟨page, hpage, hframe⟩ := PageMap.frame?_eq_some_iff.1 hin
    have hname := h.coherent.residency.named hpage
    exact ⟨page, h.mem_pages.2 (hname ▸ hpage), hframe⟩

theorem nodup_residentFrames (h : m.Sound chart) : m.residentFrames.Nodup := by
  refine List.pairwise_filterMap.2 ?_
  -- pages of different names are in different frames
  refine (ProcessTable.pairwise_pages h.coherent.residency.named).imp_of_mem ?_
  rintro page other hpage hother hne frame hframe _ hframe' rfl
  have hin : PageMap.frame? m.processes.page? page.ref = some frame :=
    PageMap.frame?_eq_some_iff.2 ⟨page, h.mem_pages.1 hpage, hframe⟩
  have hin' : PageMap.frame? m.processes.page? other.ref = some frame :=
    PageMap.frame?_eq_some_iff.2 ⟨other, h.mem_pages.1 hother, hframe'⟩
  exact hne (h.coherent.residency.placed.exclusive hin hin')

/-- **The frames in use.** They are those that pages name. -/
theorem residentFrames_perm (h : m.Sound chart) :
    m.residentFrames.Perm m.frames.occupiedFrames := by
  -- neither list repeats a frame, so it is enough that they have the same ones
  refine (List.perm_ext_iff_of_nodup h.nodup_residentFrames FrameTable.nodup_occupiedFrames).2 ?_
  intro frame
  rw [h.mem_residentFrames_iff, h.coherent.residency.mem_occupiedFrames_iff]

theorem allocated_eq (h : m.Sound chart) : m.frames.allocated = m.residentFrames.length := by
  rw [FrameTable.allocated_eq h.coherent.residency.marked, h.residentFrames_perm.length_eq]

/-- **The tracked frames.** They are those that pages name as well. -/
theorem tracked_mergeSort (h : m.Sound chart) {tracked : List FrameId}
    (htracked : m.policy.tracked? = some tracked) :
    tracked.mergeSort = m.residentFrames.mergeSort := by
  refine mergeSort_eq_of_perm ?_
  have hnodup := Policy.nodup_tracked h.coherent.follows h.coherent.residency.placed htracked
  refine (List.perm_ext_iff_of_nodup hnodup h.nodup_residentFrames).2 fun frame => ?_
  rw [Policy.mem_tracked_iff h.coherent.follows htracked, h.mem_residentFrames_iff]

/-- **The check of a sound machine** succeeds. Each of its four parts goes over one of the
records, and has nothing to object to where pages, frames and policy agree. -/
theorem checkAgreement_eq_ok (h : m.Sound chart) : m.checkAgreement = .ok () := by
  have hpages : m.processes.pages.forM m.checkPage = .ok () := by
    refine forM_eq_ok fun page hpage => ?_
    unfold checkPage
    -- a page that is in no frame passes
    cases hframe : page.frame? with
    | none => rfl
    | some frame =>
      simp only [h.holder_of_page hpage hframe, bind, Except.bind, decide_true, Fault.require, if_true]
  have hframes : (List.range m.frames.size).forM m.checkFrame = .ok () := by
    refine forM_eq_ok fun frame hmem => ?_
    have hlt : frame < m.frames.holders.size := List.mem_range.1 hmem
    have hholder : m.frames.holder? frame = .ok m.frames.holders[frame] := by
      rw [FrameTable.holder?, Array.getElem?_eq_getElem hlt]
    unfold checkFrame
    rw [hholder]
    -- and so does a frame that holds no page
    cases howner : m.frames.holders[frame] with
    | none => rfl
    | some owner =>
      rw [howner] at hholder
      obtain ⟨page, hpage, hname, hframe⟩ := h.page_of_holder hholder
      have hrecorded : (m.processes.page? owner).bind (·.frame?) = some frame := by
        rw [← hname, h.mem_pages.1 hpage]
        exact hframe
      simp only [hrecorded, bind, Except.bind, decide_true, Fault.require, if_true]
  have htracking : m.checkTracking = .ok () := by
    unfold checkTracking
    -- random choice tracks nothing that could be wrong
    cases htracked : m.policy.tracked? with
    | none => rfl
    | some tracked =>
      simp only [h.tracked_mergeSort htracked, decide_true, Fault.require, if_true]
  simp only [checkAgreement, hpages, h.allocated_eq, hframes, htracking, bind, Except.bind,
    decide_true, Fault.require, if_true]

theorem agrees (h : m.Sound chart) : m.Agrees where
  checked := h.checkAgreement_eq_ok
  holder_of_page := h.holder_of_page
  page_of_holder := h.page_of_holder
  allocated_eq := h.allocated_eq
  nodup := h.nodup_residentFrames
  tracked_eq := h.tracked_mergeSort

end Sound

end Machine

namespace Simulator

/-- **Agreement at all times.** On a trace that the survey accepts, with all its bytes within reach, a
simulation begins, and whatever it reaches, frames, pages and policy agree; only random choice tracks no
frames. -/
theorem agreement_of_reaches {config : ValidConfig} {reader after : TraceReader} {stats : Stats}
    {survey : Survey} (hreach : reader.medium.bytes.size ≤ reader.medium.maxOffset)
    (hfresh : stats.totals = {})
    (hsurvey : reader.survey config.queueOrder = .ok (.ok survey, after)) :
    ∃ s, start config reader stats = .ok (.ok s) ∧ ∀ {n t}, s.Reaches n t →
      t.machine.Agrees ∧ (t.machine.policy.tracked?.isSome = true ↔ config.policy ≠ .random) := by
  obtain ⟨s, chart, hstart, hconfig, hsound, -, -⟩ := start_eq_ok hreach hfresh hsurvey
  refine ⟨s, hstart, fun {n t} hreaches => ?_⟩
  obtain ⟨hsound', hconfig'⟩ := hsound.of_reaches hreaches
  refine ⟨hsound'.machine.agrees, ?_⟩
  rw [Policy.isSome_tracked?_iff, hsound'.kind_eq, hconfig', hconfig]

/-- Two processes that take turns over one frame. -/
theorem agreement_of_turns : ∃ survey after,
    turns.survey cramped.queueOrder = .ok (.ok survey, after) ∧
      ∃ s, start cramped turns { totalFrames := 1 } = .ok (.ok s) ∧ ∀ {n t}, s.Reaches n t →
        t.machine.Agrees ∧ (t.machine.policy.tracked?.isSome = true ↔ cramped.policy ≠ .random) := by
  obtain ⟨survey, after, hsurvey, -⟩ :=
    exists_survey turns cramped.queueOrder (fun _ => true) (by decide +kernel)
  exact ⟨survey, after, hsurvey, agreement_of_reaches (by decide) rfl hsurvey⟩

end Simulator

end DemandPaging
