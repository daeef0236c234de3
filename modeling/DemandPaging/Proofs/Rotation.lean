import DemandPaging.Proofs.Bindings
import DemandPaging.Proofs.Scant
import DemandPaging.Proofs.Windows

/-!
# One frame after the other

As long as no page is used that is in memory, it does not matter whether the page that was loaded first,
that was unused for longest or that the hand of the clock comes to has to leave: it is the same one. For
then the frames of a process that is alone are filled from the first one on, and when all have pages they
are taken in turn, so that after `e` evictions it is the turn of frame `e` modulo the number of frames
(`Rotation`).

A list has the frames in the order of their turns, since each page that comes in is put at its end, and
none in it is moved. The clock has no such order. Its hand is at the frame whose turn it is, and the
frames behind it have marks, since the pages in them have come in after the hand was there
(`Clock.InPhase`). So the frame at the hand is without a mark and its page leaves, unless it is the first
one. When a round begins all frames have marks, and the hand goes round all of them and takes these away
before it comes to the first one again (`Clock.InPhase.exists_sweeps`).

That is kept by each move as long as there are no hits (`Machine.preserved_rotates`), under each of the
policies that are not random. Machines that are twins in all but their policies have evicted as many
pages, hence name the same victim and are twins again (`Reads.evicts`, `Twins.step_of_aligned`).
-/

namespace DemandPaging

/-! ### The hand of the clock -/

/-- A number goes round: it is one more each time, or zero again. Whenever it is zero a round begins. -/
theorem succ_mod_cases (evicted : Nat) {total : Nat} (hpos : 0 < total) :
    (evicted % total + 1 = total ∧ (evicted + 1) % total = 0) ∨
      (evicted % total + 1 < total ∧ (evicted + 1) % total = evicted % total + 1) := by
  have hlt := Nat.mod_lt evicted hpos
  rw [← Nat.mod_add_mod]
  rcases Nat.lt_or_eq_of_le (show evicted % total + 1 ≤ total from hlt) with hmore | hlast
  · exact .inr ⟨hmore, Nat.mod_eq_of_lt hmore⟩
  · exact .inl ⟨hlast, by rw [hlast, Nat.mod_self]⟩

namespace Clock

variable {clock clock' : Clock} {frame : FrameId} {page : Page} {evicted total : Nat}

/-- The hand has gone on by one frame at each eviction. In this round the frames behind it have been given
new pages, and those ahead of it have lost their marks. -/
structure InPhase (clock : Clock) (evicted : Nat) : Prop where
  /-- The hand is where it comes to by that. -/
  hand_eq : clock.hand = evicted % clock.size
  /-- Of the frames with pages those behind the hand have marks, and all of them have when a round
  begins. -/
  marks_iff : ∀ {frame}, clock.occupies frame = true →
    (clock.marks frame = true ↔ frame < evicted % clock.size ∨ evicted % clock.size = 0)

theorem inPhase_ofSize (h : ofSize total = .ok clock) : clock.InPhase 0 := by
  unfold ofSize at h
  split at h <;> cases h
  -- a new clock has no pages, so there is nothing to say of marks
  refine ⟨(Nat.zero_mod _).symm, fun {frame} hoccupied => ?_⟩
  rw [occupies, Array.getElem?_replicate] at hoccupied
  split at hoccupied <;> cases hoccupied

/-- **The sweep.** When all frames have pages it ends at the frame that the hand has come to: at once,
unless a round begins, for then the hand goes round all frames and takes their marks away. -/
theorem InPhase.exists_sweeps (h : clock.InPhase evicted)
    (hfull : ∀ frame < clock.size, clock.occupies frame = true) :
    ∃ examined passed clock', clock.Sweeps examined (evicted % clock.size) clock' ∧
      examined ≤ 2 * clock.size ∧ clock.Swept passed (evicted % clock.size) clock' ∧
      ∀ frame < clock.size, (clock'.marks frame = true ↔ frame < evicted % clock.size) := by
  have hpos : 0 < clock.size := Nat.zero_lt_of_lt clock.hand_lt
  have hoccupied := hfull _ (Nat.mod_lt evicted hpos)
  obtain ⟨rest, hround⟩ : ∃ rest, clock.round = [] ++ evicted % clock.size :: rest :=
    h.hand_eq ▸ clock.exists_round_eq
  -- when a round begins there is no candidate, and the sweep goes round once before it ends
  by_cases hbegin : evicted % clock.size = 0
  · have hmarks : ∀ other, clock.occupies other = true → clock.marks other = true :=
      fun other hother => (h.marks_iff hother).2 (.inr hbegin)
    obtain ⟨clock', hsweeps, hswept⟩ := exists_sweeps_of_marked hmarks hround
      (fun other hmem => absurd hmem List.not_mem_nil) hoccupied
    refine ⟨_, _, clock', hsweeps, ?_, hswept, fun frame hframe => ?_⟩
    · rw [List.length_nil, Nat.two_mul]
      exact Nat.add_le_add_left hpos _
    · rw [hswept.marks_iff, hbegin]
      exact iff_of_false (fun hleft => hleft.2 ⟨mem_round_iff.2 hframe, hfull frame hframe⟩)
        (Nat.not_lt_zero frame)
  · -- otherwise the frame at the hand is ahead of it and has no mark, so the sweep ends there
    have hcandidate : clock.candidate (evicted % clock.size) = true := by
      rw [candidate_iff, ← Bool.not_eq_true, h.marks_iff hoccupied]
      exact ⟨hoccupied, not_or.2 ⟨Nat.lt_irrefl _, hbegin⟩⟩
    obtain ⟨clock', hsweeps, hswept⟩ := exists_sweeps_of_candidate hround
      (fun other hmem => absurd hmem List.not_mem_nil) hcandidate
    refine ⟨_, _, clock', hsweeps, ?_, hswept, fun frame hframe => ?_⟩
    · rw [List.length_nil]
      exact Nat.mul_pos Nat.two_pos hpos
    · rw [hswept.marks_iff, and_iff_left fun hpassed => List.not_mem_nil hpassed.1,
        h.marks_iff (hfull frame hframe), or_iff_left hbegin]

/-- The hand goes on by one frame. Of the two places of the hand, the one that it leaves is that of the
victim. -/
theorem InPhase.victim (h : clock.InPhase evicted)
    (hfull : ∀ frame < clock.size, clock.occupies frame = true)
    (hvictim : clock.victim = .ok (frame, clock')) :
    frame = evicted % clock.size ∧ clock'.InPhase (evicted + 1) := by
  obtain ⟨examined, passed, left, hsweeps, hexamined, hswept, hmarks⟩ := h.exists_sweeps hfull
  cases (hsweeps.victim_eq hexamined).symm.trans hvictim
  refine ⟨rfl, ?_, fun {other} hother => ?_⟩
  · rw [hswept.hand_eq, hswept.size_eq, Nat.mod_add_mod]
  · obtain ⟨hother, hne⟩ := (hswept.occupies_iff other).1 hother
    have hlt := lt_size_of_occupies hother
    rw [hmarks other hlt, hswept.size_eq]
    -- the frame that has lost its page is the only one between the two places of the hand
    rcases succ_mod_cases evicted (Nat.zero_lt_of_lt hlt) with ⟨hlast, hnext⟩ | ⟨-, hnext⟩
    · rw [hnext]
      exact iff_of_true (Nat.lt_of_le_of_ne (Nat.le_of_lt_succ (hlt.trans_eq hlast.symm)) hne) (.inr rfl)
    · rw [hnext, or_iff_left (Nat.succ_ne_zero _), Nat.lt_succ_iff_lt_or_eq, or_iff_left hne]

/-- A page that comes in gives its frame a mark, which it has to have behind the hand. -/
theorem InPhase.noteLoad (h : clock.InPhase evicted)
    (hbehind : frame < evicted % clock.size ∨ evicted % clock.size = 0)
    (hload : clock.noteLoad { page with frame? := some frame } = .ok clock') :
    clock'.InPhase evicted := by
  have hmodify : clock.modifyFrame frame (fun _ => { occupied := true, referenced := true }) =
    .ok clock' := hload
  unfold modifyFrame at hmodify
  split at hmodify <;> cases hmodify
  have hsize : (clock.frames.modify frame fun _ => ⟨true, true⟩).size = clock.size := Array.size_modify
  refine ⟨h.hand_eq.trans (congrArg (evicted % ·) hsize.symm), fun {other} hother => ?_⟩
  rw [occupies, any_modify] at hother
  rw [marks, any_modify]
  show _ ↔ other < evicted % Array.size _ ∨ evicted % Array.size _ = 0
  rw [hsize]
  -- the frame that is loaded, and all others
  split
  · next heq =>
    rw [heq]
    rw [if_pos heq] at hother
    exact iff_of_true hother hbehind
  · next hne =>
    rw [if_neg hne] at hother
    exact h.marks_iff hother

end Clock

/-! ### The policies -/

variable {frames : FrameTable} {policy policy' : Policy} {pages pages' : PageMap} {ref : PageRef}
  {page : Page} {frame : FrameId} {total loaded evicted : Nat}

/-- The frame of a page that comes in is the last of the list, and no other page changes its frame by
that. -/
theorem PageList.Follows.frames_of_loaded {list list' : PageList} (h : list.Follows pages)
    (h' : list'.Follows (Function.update pages ref (some { page with frame? := some frame })))
    (hpage : pages ref = some page) (hout : page.frame? = none)
    (hrefs : list'.refs = list.refs ++ [ref]) :
    list'.frames = list.frames ++ [frame] := by
  -- the page was in no frame, so the list did not have it
  have hnew : ref ∉ list.refs := by
    rw [h.mem_refs_iff]
    rintro ⟨other, hframe⟩
    rw [PageMap.frame?_of_page hpage, hout] at hframe
    cases hframe
  rw [h'.frames_eq, hrefs, List.filterMap_append, h.frames_eq]
  -- the frames of the others, and then its own
  refine congrArg₂ (· ++ ·) (List.filterMap_congr fun other hmem => ?_) ?_
  · rw [PageMap.frame?_update, if_neg]
    rintro rfl
    exact hnew hmem
  · exact List.filterMap_cons_some (PageMap.frame?_update.trans (if_pos rfl))

namespace Policy

/-- A policy that gives frames up one after the other, when so many have pages and so many were given
up before: the list has the frames in this order, or the hand is at the first of them. -/
inductive InPhase (policy : Policy) (total loaded evicted : Nat) : Prop where
  /-- The policy keeps a list. -/
  | listed {kind : PolicyKind} {list : PageList} (hkeeps : policy.Keeps kind list)
    (hframes : list.frames = (List.range' evicted loaded).map (· % total))
  /-- The policy is the clock. -/
  | swept {circle : Clock} (hclock : policy = clock circle) (hphase : circle.InPhase evicted)

theorem inPhase_of_build {kind : PolicyKind} {seed : Nat} (h : build kind total seed = .ok policy)
    (hkind : kind ≠ .random) : policy.InPhase total 0 0 := by
  cases kind with
  | lru => exact .listed (keeps_of_build (.inl rfl) h) rfl
  | fifo => exact .listed (keeps_of_build (.inr rfl) h) rfl
  | clock =>
    simp only [build, Fault.bind_eq_ok_iff, Fault.pure_eq_ok_iff] at h
    obtain ⟨circle, hcircle, rfl⟩ := h
    exact .swept rfl (Clock.inPhase_ofSize hcircle)
  | random => exact absurd rfl hkind

/-- **A victim.** When all frames have pages it is the next one in turn. -/
theorem InPhase.victim (h : policy.InPhase total total evicted) (hfollows : policy.Follows total pages)
    (hpos : 0 < total) (hfull : ∀ frame < total, ∃ ref, pages.frame? ref = some frame)
    (hvictim : policy.victim = .ok (frame, policy')) :
    frame = evicted % total ∧ policy'.InPhase total (total - 1) (evicted + 1) := by
  cases h with
  -- the head of the list is the first frame in turn, and it leaves
  | listed hkeeps hframes =>
    have hlist := hkeeps.follows hfollows
    obtain ⟨more, rfl⟩ : ∃ more, total = more + 1 := Nat.exists_eq_succ_of_ne_zero hpos.ne'
    rw [List.range'_succ, List.map_cons] at hframes
    obtain ⟨left, hnamed, htracked⟩ := hkeeps.victim_eq_ok hlist hframes
    cases hvictim.symm.trans hnamed
    obtain ⟨list', -, hkeeps', -⟩ := hkeeps.victim hlist hvictim
    exact ⟨rfl, .listed hkeeps' (Option.some.inj (hkeeps'.tracked?_eq.symm.trans htracked))⟩
  -- the sweep of the clock ends where the hand is, as all frames have pages
  | swept hclock hphase =>
    subst hclock
    obtain ⟨rfl, hoccupies⟩ := hfollows
    simp only [Policy.victim, Fault.bind_eq_ok_iff, Fault.pure_eq_ok_iff, Prod.mk.injEq] at hvictim
    obtain ⟨⟨_, circle⟩, hvictim, rfl, rfl⟩ := hvictim
    obtain ⟨rfl, hphase'⟩ := hphase.victim (fun frame hlt => hoccupies.2 (hfull frame hlt)) hvictim
    exact ⟨rfl, .swept rfl hphase'⟩

/-- **A page that comes in.** It comes into the frame after the last one in turn, as long as frames that
were given up are used again at once. -/
theorem InPhase.noteLoad (h : policy.InPhase total loaded evicted) (hfollows : policy.Follows total pages)
    (hpage : pages ref = some page) (hout : page.frame? = none) (hlt : loaded < total)
    (hearly : loaded + 1 < total → evicted = 0)
    (hnote : policy.noteLoad { page with frame? := some ((evicted + loaded) % total) } = .ok policy') :
    policy'.InPhase total (loaded + 1) evicted := by
  have hpos : 0 < total := Nat.zero_lt_of_lt hlt
  cases h with
  -- the list gets the frame at its end, which is where its turn comes
  | listed hkeeps hframes =>
    obtain ⟨_, hnoted, -, hfollows'⟩ :=
      noteLoad_eq_ok hfollows hpage hout (Nat.mod_lt (evicted + loaded) hpos)
    cases hnote.symm.trans hnoted
    have hlist := hkeeps.follows hfollows
    obtain ⟨list', hkeeps', hrefs⟩ := hkeeps.noteLoad hlist hpage hnote
    refine .listed hkeeps' ?_
    rw [hlist.frames_of_loaded (hkeeps'.follows hfollows') hpage hout hrefs, hframes,
      List.range'_1_concat, List.map_append]
    rfl
  | swept hclock hphase =>
    subst hclock
    simp only [Policy.noteLoad, Fault.bind_eq_ok_iff, Fault.pure_eq_ok_iff] at hnote
    obtain ⟨circle, hload, rfl⟩ := hnote
    refine .swept rfl (hphase.noteLoad ?_ hload)
    rw [hfollows.size_eq]
    -- either no frame was given up yet, or it is the frame that was given up last
    rcases Nat.lt_or_eq_of_le hlt with hmore | rfl
    · exact .inr (by rw [hearly hmore, Nat.zero_mod])
    · have hround : (evicted + loaded + 1) % (loaded + 1) = evicted % (loaded + 1) :=
        Nat.add_mod_right evicted (loaded + 1)
      rcases succ_mod_cases (evicted + loaded) hpos with ⟨-, hnext⟩ | ⟨-, hnext⟩
      · exact .inr (hround.symm.trans hnext)
      · exact .inl (Nat.lt_of_succ_le (Nat.le_of_eq (hnext.symm.trans hround)))

/-- The frame that was given up last is the next one in turn again, since there is one turn for each
frame. -/
theorem InPhase.refill (h : policy.InPhase total (total - 1) (evicted + 1))
    (hfollows : policy.Follows total pages) (hpage : pages ref = some page) (hout : page.frame? = none)
    (hpos : 0 < total)
    (hnote : policy.noteLoad { page with frame? := some (evicted % total) } = .ok policy') :
    policy'.InPhase total total (evicted + 1) := by
  obtain ⟨more, rfl⟩ : ∃ more, total = more + 1 := Nat.exists_eq_succ_of_ne_zero hpos.ne'
  -- a whole round after its last turn it is the turn of the same frame
  have hround : (evicted + 1 + more) % (more + 1) = evicted % (more + 1) := by
    rw [Nat.add_assoc, Nat.add_comm 1, Nat.add_mod_right]
  rw [← hround] at hnote
  exact InPhase.noteLoad h hfollows hpage hout (Nat.lt_succ_self more)
    (fun hless => absurd hless (Nat.lt_irrefl _)) hnote

end Policy

/-! ### The pages -/

/-- Memory is filled from the first frame on, and when it is full its frames are taken in turn.
The two counts are all that is left of the past: how many frames have pages, and how many pages
had to leave. -/
structure Rotation (total loaded evicted : Nat) (policy : Policy) (pages : PageMap) : Prop where
  /-- The first frames have pages. -/
  used_iff : ∀ {frame}, (∃ ref, pages.frame? ref = some frame) ↔ frame < loaded
  /-- While there are other frames no page had to leave. -/
  early : loaded < total → evicted = 0
  /-- The policy gives frames up in turn. -/
  inPhase : policy.InPhase total loaded evicted

/-- The frame that is given out is the first one without a page, as free frames are given out from the
least one on. -/
theorem Residency.allocate_eq (h : Residency frames pages)
    (hused : ∀ {frame}, (∃ ref, pages.frame? ref = some frame) ↔ frame < loaded)
    (hframe : frames.allocate = .ok frame) : frame = loaded ∧ loaded < frames.size := by
  -- the frames that hold nothing are those from the first unused one on
  have hempty : ∀ {other}, frames.holder? other = .ok none ↔ other < frames.size ∧ loaded ≤ other := by
    intro other
    rw [FrameTable.holder?_eq_ok_iff, ← Nat.not_lt, ← hused]
    constructor
    · intro hholder
      refine ⟨(Array.getElem?_eq_some_iff.1 hholder).1, ?_⟩
      rintro ⟨ref, hin⟩
      cases hholder.symm.trans (h.held_iff.2 hin)
    · rintro ⟨hlt, hout⟩
      rw [Array.getElem?_eq_getElem hlt]
      cases hholder : frames.holders[other] with
      | none => rfl
      | some ref => exact absurd ⟨ref, h.held_iff.1 (Array.getElem?_eq_some_iff.2 ⟨hlt, hholder⟩)⟩ hout
  obtain ⟨hframe, hleast⟩ := (FrameTable.allocate_eq_ok_iff h).1 hframe
  obtain ⟨hlt, hge⟩ := hempty.1 hframe
  have hlt' : loaded < frames.size := hge.trans_lt hlt
  exact ⟨Nat.le_antisymm (hleast (hempty.2 ⟨hlt', Nat.le_refl _⟩)) hge, hlt'⟩

namespace Rotation

/-- When all frames have pages there are as many pages in memory as frames. They are neither fewer nor
more, as pages are in frames of the memory only. -/
theorem loaded_eq (h : Rotation total loaded evicted policy pages) (hplaced : pages.Placed total)
    (hfull : ∀ frame < total, ∃ ref, pages.frame? ref = some frame) : loaded = total := by
  rcases Nat.lt_trichotomy loaded total with hless | heq | hmore
  · exact absurd (h.used_iff.1 (hfull loaded hless)) (Nat.lt_irrefl loaded)
  · exact heq
  · obtain ⟨ref, hframe⟩ := h.used_iff.2 hmore
    exact absurd (hplaced.within hframe) (Nat.lt_irrefl total)

/-- **The victim.** It is the next frame in turn. -/
theorem victim (h : Rotation frames.size loaded evicted policy pages)
    (hcoherent : Coherent frames policy pages) (hfull : frames.hasFree = false)
    (hvictim : policy.victim = .ok (frame, policy')) :
    loaded = frames.size ∧ frame = evicted % frames.size ∧
      policy'.InPhase frames.size (frames.size - 1) (evicted + 1) := by
  have hall := hcoherent.residency.full_of_not_hasFree hfull
  obtain rfl := h.loaded_eq hcoherent.residency.placed hall
  exact ⟨rfl, h.inPhase.victim hcoherent.follows hcoherent.nonempty hall hvictim⟩

/-- **A free frame.** The page that comes into the first one is the last in turn. -/
theorem fill (h : Rotation total loaded evicted policy pages) (hfollows : policy.Follows total pages)
    (hpage : pages ref = some page) (hout : page.frame? = none) (hlt : loaded < total)
    (hnote : policy.noteLoad { page with frame? := some loaded } = .ok policy') :
    Rotation total (loaded + 1) evicted policy'
      (Function.update pages ref (some { page with frame? := some loaded })) where
  used_iff {frame} := by
    rw [PageMap.exists_frame?_update_iff hpage hout, h.used_iff, Nat.lt_succ_iff_lt_or_eq]
  early _ := h.early hlt
  inPhase := by
    refine h.inPhase.noteLoad hfollows hpage hout hlt (fun _ => h.early hlt) ?_
    rw [h.early hlt, Nat.zero_add, Nat.mod_eq_of_lt hlt]
    exact hnote

end Rotation

/-- **A page comes in.** It comes into the next frame in turn, which is the first unused one while there
are unused ones, and then the one that the policy gives up. -/
theorem Intake.rotation (h : Intake frames policy pages ref policy' pages')
    (hcoherent : Coherent frames policy pages)
    (hrotation : Rotation frames.size loaded evicted policy pages) :
    ∃ loaded', Rotation frames.size loaded' (evicted + if frames.hasFree then 0 else 1) policy'
      pages' := by
  have hplaced := h.placed hcoherent
  have hall := h.full hcoherent
  cases h with
  | load hpage hout hroom hkept hnote =>
    have hfollows := hroom.follows hcoherent
    cases hroom with
    -- a frame is free: no page had to leave so far, and the first unused one is filled
    | free hfree hframe =>
      obtain ⟨rfl, hlt⟩ := hcoherent.residency.allocate_eq hrotation.used_iff hframe
      rw [if_pos hfree, Nat.add_zero]
      exact ⟨_, hrotation.fill hfollows hpage hout hlt hnote⟩
    -- no frame is free: the next one in turn is given up and filled again
    | taken hfull hvictim =>
      obtain ⟨rfl, rfl, hphase⟩ := hrotation.victim hcoherent hfull hvictim
      rw [hfull, if_neg Bool.false_ne_true]
      refine ⟨frames.size, fun {other} => ⟨?_, hall hfull other⟩,
        fun hless => absurd hless (Nat.lt_irrefl _),
        hphase.refill hfollows hkept hout hcoherent.nonempty hnote⟩
      rintro ⟨name, hname⟩
      exact hplaced.within hname

/-- A page that is met changes nothing about that. The policy marks it, and it is in no frame,
so that neither the list nor the hand moves. -/
theorem Meeting.rotation (h : Meeting policy pages ref page policy' pages')
    (hcoherent : Coherent frames policy pages) (hrotation : Rotation total loaded evicted policy pages) :
    Rotation total loaded evicted policy' pages' := by
  have hframes := h.frame?_eq
  refine ⟨fun {frame} => ?_, hrotation.early, ?_⟩
  · rw [hframes]
    exact hrotation.used_iff
  · cases hrotation.inPhase with
    | listed hkeeps hlist =>
      obtain ⟨list', hkeeps', hrefs, hfollows, -⟩ := h.refs_eq hcoherent hkeeps
      refine .listed hkeeps' ?_
      rw [hfollows.frames_eq, hrefs, hframes, ← (hkeeps.follows hcoherent.follows).frames_eq, hlist]
    | swept hclock hphase =>
      subst hclock
      cases h with
      | known => exact .swept rfl hphase
      | new => exact .swept rfl hphase

/-! ### References that are not hits -/

namespace Machine

variable {c d chart : Chart} {config : ValidConfig} {m n m' n' : Machine} {pid own : Pid}
  {p q q' : Process} {now : Nat}

/-- No reference was a hit. A reference to a page in memory would let a list move it and a clock
mark it, which is where the policies part. -/
def Unhit (m : Machine) : Prop := ∀ r ∈ m.references, r.hit = false

theorem Replays.unhit (h : m.Replays chart) (hhits : m.stats.totals.hits = 0) : m.Unhit :=
  fun r hr => Bool.eq_false_iff.2 (List.countP_eq_zero.1 (h.hits_eq.symm.trans hhits) r hr)

/-- Under first in, first out there are no hits on pages of which none is among the last `k` before it.
That a window has pages that were missed only is what has to be shown along with it. -/
theorem Retains.unhit {k : Nat} {hpos : 0 < k} {pages : List PageRef} (h : m.Retains (.fifo hpos))
    (hpages : m.references.map (·.page) <+: pages)
    (hnew : ∀ i (hi : i < pages.length), pages[i] ∉ (pages.take i).rtake k) : m.Unhit := by
  suffices hprefix : ∀ references, references <+: m.references → ∀ r ∈ references, r.hit = false from
    hprefix _ List.prefix_rfl
  intro references
  -- by induction on the references so far, from their end, since each is judged by those before it
  induction references using List.reverseRecOn with
  | nil => exact fun _ r hr => absurd hr List.not_mem_nil
  | append_singleton before r ih =>
    intro hprefix
    have hbefore := ih ((List.prefix_append before [r]).trans hprefix)
    rw [List.forall_mem_append, List.forall_mem_singleton]
    refine ⟨hbefore, Bool.eq_false_iff.2 fun hhit => ?_⟩
    have hin := (h.judged hprefix).1 hhit
    -- all pages before it were missed
    have hmissed : before.filterMap Reference.missed? = before.map (·.page) := by
      rw [← List.filterMap_eq_map]
      exact List.filterMap_congr fun r hr => Reference.missed?_eq_some_iff.2 ⟨hbefore r hr, rfl⟩
    obtain ⟨rest, rfl⟩ := (List.IsPrefix.map (·.page) hprefix).trans hpages
    refine hnew before.length (by simp) ?_
    -- so the window of the hit is one of pages, and the page of the hit is not in it
    have hin : r.page ∈ (before.filterMap Reference.missed?).rtake k := hin
    rw [hmissed] at hin
    simpa using hin

/-! ### Moves -/

/-- Without hits the frames are taken in turn, as long as a process goes on. When it has ended its frames
are empty, and so is what is said of them. -/
def Rotates (m : Machine) : Prop :=
  m.Unhit → ∀ {pid q}, m.processes.bare? pid = some q → q.state ≠ .finished →
    ∃ loaded, Rotation m.frames.size loaded m.stats.totals.evictions m.policy m.processes.page?

theorem Rotates.wait {stats : Stats} {elapsed : Nat} (h : m.Rotates)
    (hevictions : stats.totals.evictions = m.stats.totals.evictions) :
    Rotates { m with stats, processes := m.processes.passTime elapsed } := by
  intro hunhit pid q hq hstate
  obtain ⟨p, hp, heq, -⟩ := ProcessTable.exists_of_bare?_passTime hq
  have hsame : q.state = p.state := (congrArg Process.state heq :)
  obtain ⟨loaded, hrotation⟩ := h hunhit hp (hsame ▸ hstate)
  refine ⟨loaded, ?_⟩
  show Rotation m.frames.size loaded stats.totals.evictions m.policy
    (m.processes.passTime elapsed).page?
  rw [hevictions, ProcessTable.page?_passTime]
  exact hrotation

/-- **A disk read.** The page comes into the next frame in turn. -/
theorem Rotates.read (h : m.Rotates) (hsound : m.Sound chart) (hsound' : m'.Sound chart)
    (hsize : m'.frames.size = m.frames.size) (hsingle : ∀ record ∈ chart.records, record.pid = own)
    (hcompleted : Completed chart m m' pid q q') : m'.Rotates := by
  intro hunhit other p hp hstate
  obtain rfl := hsound'.eq_of_single hsingle hcompleted.self hp
  obtain ⟨ref, policy, pages, -, hintake, hleft⟩ := hcompleted.intake
  rw [Unhit, hcompleted.references_eq] at hunhit
  obtain ⟨loaded, hrotation⟩ := h hunhit hcompleted.found hcompleted.alive
  -- its page is taken in by the same policy and for the same pages
  obtain ⟨loaded', hrotation'⟩ := hintake.rotation hsound.coherent hrotation
  refine ⟨loaded', ?_⟩
  rw [hcompleted.evictions_eq, hleft.policy_eq hstate, hleft.pages_eq hstate, hsize]
  exact hrotation'

/-- **A reference.** It is not a hit, so the policy does not hear of it, but for the mark on a page that
is met for the first time. -/
theorem Rotates.refer {record : TraceRecord} {hit : Bool} (h : m.Rotates) (hsound : m.Sound chart)
    (hsound' : m'.Sound chart) (hsize : m'.frames.size = m.frames.size)
    (hsingle : ∀ record ∈ chart.records, record.pid = own)
    (hexecuted : Executed chart m m' pid q q' record hit) : m'.Rotates := by
  intro hunhit other p hp hstate
  obtain rfl := hsound'.eq_of_single hsingle hexecuted.self hp
  obtain ⟨page, policy, policy', pages, hmeeting, -, hmissed, -, hleft⟩ := hexecuted.meeting
  -- neither this reference nor an earlier one is a hit
  rw [Unhit, hexecuted.references_eq, List.forall_mem_append, List.forall_mem_singleton] at hunhit
  obtain ⟨hunhit, rfl⟩ := hunhit
  obtain ⟨-, -, rfl⟩ := hmissed rfl
  obtain ⟨loaded, hrotation⟩ := h hunhit hexecuted.found hexecuted.alive
  refine ⟨loaded, ?_⟩
  rw [hexecuted.evictions_eq, hleft.policy_eq hstate, hleft.pages_eq hstate, hsize]
  exact hmeeting.rotation hsound.coherent hrotation

/-- **In turn.** It is preserved by each move, if all records are of one process. -/
theorem preserved_rotates (hsingle : ∀ record ∈ chart.records, record.pid = own) :
    Preserved chart config Rotates := by
  intro m m' hgoing hgoing' hmoved h
  have hsize : m'.frames.size = m.frames.size := hgoing'.size_eq.trans hgoing.size_eq.symm
  cases hmoved with
  | wait _ _ _ _ hevictions => exact h.wait hevictions
  | read hcompleted => exact h.read hgoing.sound hgoing'.sound hsize hsingle hcompleted
  | refer hexecuted => exact h.refer hgoing.sound hgoing'.sound hsize hsingle hexecuted

/-! ### Two machines -/

/-- Twins that have had no hits, and take their frames in turn. Each of the two goes on in its
own way, and it is shown that it is the same way. -/
structure Aligned (m n : Machine) : Prop where
  /-- They are twins, whatever their policies. -/
  twin : m.Twin .any n
  /-- The first one takes its frames in turn. -/
  left : m.Rotates
  /-- So does the second one. -/
  right : n.Rotates
  /-- The first one has had no hits. -/
  unhit : m.Unhit
  /-- Nor has the second one. -/
  unhit' : n.Unhit

/-- **The same victim.** As many pages had to leave, so it is the turn of the same frame. It does not
matter which of the policies it is, nor that the two are different. -/
theorem Reads.evicts (hread : Reads c now m m' pid p) (hread' : Reads d now n n' pid q)
    (h : m.Aligned n) (hfull : m.frames.hasFree = false) :
    Likeness.any.Evicts m.policy m.processes.page? n.policy n.processes.page? := by
  intro a b frame frame' hvictim hvictim'
  have halive : p.state ≠ .finished := hread.blocked ▸ ProcessState.noConfusion
  have halive' : q.state ≠ .finished := hread'.blocked ▸ ProcessState.noConfusion
  obtain ⟨loaded, hrotation⟩ := h.left h.unhit hread.found halive
  obtain ⟨loaded', hrotation'⟩ := h.right h.unhit' hread'.found halive'
  have hfull' : n.frames.hasFree = false := h.twin.frames_eq ▸ hfull
  obtain ⟨-, rfl, -⟩ := hrotation.victim hread.before.coherent hfull hvictim
  obtain ⟨-, rfl, -⟩ := hrotation'.victim hread'.before.coherent hfull' hvictim'
  refine ⟨?_, fun _ _ => trivial⟩
  rw [h.twin.frames_eq, h.twin.stats_eq]

/-- Both complete the disk read of the process. Each takes the next frame in turn, by its own
reasons, and that is the same frame. -/
theorem Reads.aligned (hread : Reads c now m m' pid p) (hread' : Reads d now n n' pid q)
    (hsingle : ∀ record ∈ c.records, record.pid = own) (hsingle' : ∀ record ∈ d.records, record.pid = own)
    (h : m.Aligned n) : m'.Aligned n' := by
  obtain ⟨_, hcompleted⟩ := hread.exists_completed
  obtain ⟨_, hcompleted'⟩ := hread'.exists_completed
  constructor
  · exact h.twin.completeRead (Likeness.kept_any []).toHeard
      (fun hfull _ _ => hread.evicts hread' h hfull) hread hread'
  · exact h.left.read hread.before hread.after hread.size_eq hsingle hcompleted
  · exact h.right.read hread'.before hread'.after hread'.size_eq hsingle' hcompleted'
  · rw [Unhit, hcompleted.references_eq]
    exact h.unhit
  · rw [Unhit, hcompleted'.references_eq]
    exact h.unhit'

end Machine

/-! ### Steps and runs -/

namespace Simulator

variable {c d chart : Chart} {s t s' t' : Simulator} {own : Pid}

/-- At the start no frame has a page. -/
theorem Fresh.rotates (h : s.Fresh) (hsound : s.Sound chart) (hkind : s.config.policy ≠ .random) :
    s.machine.Rotates := by
  intro _ _ _ _ _
  refine ⟨0, fun {frame} => ?_, fun _ => by rw [h.totals_eq], ?_⟩
  · rw [h.pages_eq]
    refine iff_of_false ?_ (Nat.not_lt_zero frame)
    rintro ⟨ref, hframe⟩
    cases hframe
  · rw [h.totals_eq, hsound.size_eq]
    exact Policy.inPhase_of_build h.policy_eq hkind

/-- **A step.** Twins that have had no hits stay twins, though it may be that they have one now. For the
policy hears of a hit only after it, and the disk reads that may name a victim come before. -/
theorem Twins.step_of_aligned (hsame : c.records = d.records)
    (hsingle : ∀ record ∈ c.records, record.pid = own) (h : Twins c d .any s t)
    (haligned : s.machine.Aligned t.machine) (hstep : s.step = .ok (.ok true, s'))
    (hstep' : t.step = .ok (.ok true, t')) : Twins c d .any s' t' := by
  obtain ⟨-, -, hwaited, hsettle⟩ := h.left.step_cases hstep
  obtain ⟨-, -, hwaited', hsettle'⟩ := h.right.step_cases hstep'
  rw [← h.elapsed_eq] at hwaited' hsettle'
  have htime : s.clock + s.elapsed = t.clock + s.elapsed := congrArg (· + s.elapsed) h.clock_eq
  have hpages := congrArg (List.map (·.page)) hsame
  have hsingle' : ∀ record ∈ d.records, record.pid = own := hsame ▸ hsingle
  have haligned' : (s.waited s.elapsed).machine.Aligned (t.waited s.elapsed).machine :=
    ⟨h.waited, haligned.left.wait rfl, haligned.right.wait rfl, haligned.unhit, haligned.unhit'⟩
  refine h.of_step hstep hstep' (hwaited.settle_of_both (f := id) hwaited' (fun hfold hfold' => ?_)
    (fun h => ?_) (fun h' hturn hturn' => ?_) hsettle hsettle')
  · -- the disk reads that are due name the same victims
    exact (hwaited.reads_of_both (T := Machine.Aligned) hwaited' htime h.waited.completed_eq
      (fun h hread hread' => hread.aligned hread' hsingle hsingle' h) haligned' hfold hfold').twin
  · rw [Option.map_id_fun, id, h.head?_eq]
  · -- the reference asks no policy for a victim
    exact hturn.twin hturn' (Likeness.kept_any _).toHeard hpages
      (fun record hrecord => List.mem_map_of_mem hrecord) htime h.penalty_eq h'

/-- Under first in, first out a process has no hits if none of its records has a page again that one of
the last `k` records before it has, where `k` is the number of frames. -/
theorem hits_eq_zero_of_records {config : ValidConfig} {reader after : TraceReader} {stats : Stats}
    {survey : Survey} {records : List TraceRecord}
    (hreach : reader.medium.bytes.size ≤ reader.medium.maxOffset) (hfresh : stats.totals = {})
    (hsurvey : reader.survey config.queueOrder = .ok (.ok survey, after))
    (hstart : start config reader stats = .ok (.ok s))
    (hrecords : reader.rewind.2.records.1 = .ok records)
    (hsingle : ∀ record ∈ records, record.pid = own) (hfifo : config.policy = .fifo)
    (hnew : ∀ i (hi : i < (records.map (·.page)).length),
      (records.map (·.page))[i] ∉ ((records.map (·.page)).take i).rtake config.totalFrames) {n : Nat}
    (hreaches : s.Reaches n t) : t.machine.stats.totals.hits = 0 := by
  obtain ⟨_, chart, hstart', rfl, hsound, hrecords', -⟩ := start_eq_ok hreach hfresh hsurvey
  cases hstart.symm.trans hstart'
  cases hrecords.symm.trans hrecords'
  have hretains := hsound.retains_of_reaches (fresh_of_start hreach hfresh hsurvey hstart) hsingle hfifo
    (.inr rfl) (.fifo s.config.totalFrames_pos) hreaches
  obtain ⟨hsound', -⟩ := hsound.of_reaches hreaches
  have hpages : t.machine.references.map (·.page) <+: chart.records.map (·.page) := by
    have hprefix := (hsound'.replays.executed_prefix_of_single hsingle).map Prod.snd
    rw [Survey.map_snd_references, Machine.executed, List.map_map] at hprefix
    exact hprefix
  -- each record is judged by its window, and none of them has its page there
  rw [hsound'.replays.hits_eq, List.countP_eq_zero]
  exact fun r hr => Bool.eq_false_iff.1 (hretains.unhit hpages hnew r hr)

/-- **Without hits** least recently used, first in first out and the clock do the same. On a trace of one
process, if there is no hit under one of them, then under each of the others a simulation makes the same
number of steps, after each of them it is the same time, the same was counted and the frames have the same
pages, and its run answers the same. -/
theorem policies_coincide {config : ValidConfig} {reader after : TraceReader} {stats : Stats}
    {survey : Survey} {records : List TraceRecord}
    (hreach : reader.medium.bytes.size ≤ reader.medium.maxOffset) (hfresh : stats.totals = {})
    (hsurvey : reader.survey config.queueOrder = .ok (.ok survey, after))
    (hrecords : reader.rewind.2.records.1 = .ok records)
    (hsingle : ∀ record ∈ records, record.pid = own) (hkind : config.policy ≠ .random) :
    ∃ s, start config reader stats = .ok (.ok s) ∧
      ((∀ {n s'}, s.Reaches n s' → s'.machine.stats.totals.hits = 0) →
        ∀ kind seed, kind ≠ .random → ∃ t, start (config.under kind seed) reader stats = .ok (.ok t) ∧
          (∀ n, (∀ s', s.Reaches n s' → ∃ t', t.Reaches n t' ∧ s'.Alike t') ∧
            ∀ t', t.Reaches n t' → ∃ s', s.Reaches n s' ∧ s'.Alike t') ∧
          s.run.map Prod.fst = t.run.map Prod.fst) := by
  obtain ⟨s, chart, hstart, hconfig, hsound, hrecords', -⟩ := start_eq_ok hreach hfresh hsurvey
  cases hrecords.symm.trans hrecords'
  refine ⟨s, hstart, fun hunhit kind seed hkind' => ?_⟩
  -- the survey does not depend on the policy, so both simulations begin alike
  have hsurvey' : reader.survey (config.under kind seed).queueOrder = .ok (.ok survey, after) := hsurvey
  obtain ⟨t, other, hstart', hconfig', hsound', hrecords', -⟩ := start_eq_ok hreach hfresh hsurvey'
  have hframes : config.totalFrames = (config.under kind seed).totalFrames := rfl
  have htwins : Twins chart other .any s t :=
    twins_of_start hframes rfl rfl rfl hsurvey hsurvey' rfl rfl hstart hstart' hsound hsound' trivial
  have hsame : chart.records = other.records := Except.ok.inj (hrecords.symm.trans hrecords')
  have hrotates : s.machine.Rotates :=
    (fresh_of_start hreach hfresh hsurvey hstart).rotates hsound (hconfig.symm ▸ hkind)
  have hrotates' : t.machine.Rotates :=
    (fresh_of_start hreach hfresh hsurvey' hstart').rotates hsound' (hconfig'.symm ▸ hkind')
  have hlockstep : Bisimulation fun u v => Twins chart other .any u v ∧
      (u.machine.Rotates ∧ v.machine.Rotates) ∧ ∃ n, s.Reaches n u := by
    refine Twins.bisimulation_of_step And.left fun {u v u' v'} h hstep hstep' => ?_
    obtain ⟨htwins, ⟨hu, hv⟩, n, hreaches⟩ := h
    -- no hits so far for the one, and the other has counted the same
    have hnone := hunhit hreaches
    have hnone' : v.machine.stats.totals.hits = 0 := htwins.machine.stats_eq ▸ hnone
    have haligned : u.machine.Aligned v.machine :=
      ⟨htwins.machine, hu, hv, htwins.left.replays.unhit hnone, htwins.right.replays.unhit hnone'⟩
    exact ⟨htwins.step_of_aligned hsame hsingle haligned hstep hstep',
      ⟨htwins.left.preserves_step (Machine.preserved_rotates hsingle) hu hstep,
        htwins.right.preserves_step (Machine.preserved_rotates (hsame ▸ hsingle)) hv hstep'⟩,
      n + 1, .step hreaches hstep⟩
  have hstarts : Twins chart other .any s t ∧
      (s.machine.Rotates ∧ t.machine.Rotates) ∧ ∃ n, s.Reaches n s :=
    ⟨htwins, ⟨hrotates, hrotates'⟩, 0, .start⟩
  exact ⟨t, hstart', hlockstep.reaches hstarts fun _ h => h.1.alike, hlockstep.run_eq hstarts⟩

/-- A trace in which one process uses pages 7, 8 and 9 twice, one after the other. -/
def rounds : TraceReader :=
  .ofBytes ⟨#[49, 32, 55, 10, 49, 32, 56, 10, 49, 32, 57, 10,
    49, 32, 55, 10, 49, 32, 56, 10, 49, 32, 57, 10]⟩

/-- Three pages take turns in two frames, and the hand goes round twice. -/
theorem policies_coincide_on_rounds : ∃ survey after records,
    rounds.survey queued.queueOrder = .ok (.ok survey, after) ∧
      rounds.rewind.2.records.1 = .ok records ∧ (∀ record ∈ records, record.pid = 1) ∧
      ∃ s, start queued rounds { totalFrames := 2 } = .ok (.ok s) ∧
        (∀ {n s'}, s.Reaches n s' → s'.machine.stats.totals.hits = 0) ∧
        ∀ kind seed, kind ≠ .random → ∃ t,
          start (queued.under kind seed) rounds { totalFrames := 2 } = .ok (.ok t) ∧
          (∀ n, (∀ s', s.Reaches n s' → ∃ t', t.Reaches n t' ∧ s'.Alike t') ∧
            ∀ t', t.Reaches n t' → ∃ s', s.Reaches n s' ∧ s'.Alike t') ∧
          s.run.map Prod.fst = t.run.map Prod.fst := by
  obtain ⟨survey, after, hsurvey, -⟩ :=
    exists_survey rounds queued.queueOrder (fun _ => true) (by decide +kernel)
  obtain ⟨records, hrecords, hsingle⟩ := exists_single_records rounds 1 (by decide +kernel)
  obtain ⟨_, hrecords', htest⟩ := exists_records rounds
    (fun records => records.map (·.page) = [⟨1, 7⟩, ⟨1, 8⟩, ⟨1, 9⟩, ⟨1, 7⟩, ⟨1, 8⟩, ⟨1, 9⟩])
    (by decide +kernel)
  cases hrecords.symm.trans hrecords'
  have hpages := of_decide_eq_true htest
  obtain ⟨s, hstart, hcoincide⟩ := @policies_coincide 1 queued rounds after { totalFrames := 2 }
    survey records (by decide) rfl hsurvey hrecords hsingle (by decide)
  have hunhit : ∀ {n s'}, s.Reaches n s' → s'.machine.stats.totals.hits = 0 := fun hreaches =>
    hits_eq_zero_of_records (by decide) rfl hsurvey hstart hrecords hsingle rfl
      (by rw [hpages]; decide) hreaches
  exact ⟨survey, after, records, hsurvey, hrecords, hsingle, s, hstart, hunhit, hcoincide hunhit⟩

end Simulator

end DemandPaging
