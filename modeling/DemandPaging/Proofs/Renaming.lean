import DemandPaging.Proofs.Effects
import DemandPaging.Proofs.Orders
import Mathlib.SetTheory.Cardinal.Arithmetic

/-!
# Other names for processes and pages

A `Renaming` gives each process another number, and each page number of a process another one, without
making two of them the same. What is told here is that nothing about frames and policies depends on the
names: families of pages that differ by a renaming (`PageMap.Renamed`), with policies that differ by it
(`Policy.Renamed`), still do so when a page has come in (`Intake.renamed`), was met (`Meeting.renamed`),
or has left with its process (`Left.renamed`), and the frames are those of the one side with other names
on them (`Residency.eq_rename`).

The slots that a list-keeping policy gives to the pages are not among what is compared, and neither is
the order in which a process that ends gives up its pages. Both follow the names. All that shows of the
slots is the sequence of the pages that are queued, and this does not depend on the order in which some
of them are taken out (`Policy.forgets_of_foldlM`).
-/

namespace DemandPaging

/-! ### Renamings -/

/-- Other names for processes and pages. That it tells all names apart, and not only those of a
trace, makes it possible to rename a family of pages back and forth. -/
structure Renaming where
  /-- The other number of a process. -/
  pid : Pid → Pid
  /-- The other number of a page, for each process. -/
  vpn : Pid → Vpn → Vpn
  /-- No two processes have the same number. -/
  pid_injective : pid.Injective
  /-- No two pages of a process have the same number. -/
  vpn_injective : ∀ p, (vpn p).Injective

namespace Renaming

variable {ρ : Renaming} {ref other : PageRef}

/-- The other name of a page. The number of the page changes by its process, as processes share
no pages. -/
def page (ρ : Renaming) (ref : PageRef) : PageRef where
  pid := ρ.pid ref.pid
  vpn := ρ.vpn ref.pid ref.vpn

@[simp] theorem pid_page : (ρ.page ref).pid = ρ.pid ref.pid := rfl

theorem page_injective : ρ.page.Injective := by
  rintro ⟨pid, vpn⟩ ⟨pid', vpn'⟩ h
  obtain ⟨hpid, hvpn⟩ := PageRef.mk.inj h
  obtain rfl : pid = pid' := ρ.pid_injective hpid
  obtain rfl : vpn = vpn' := ρ.vpn_injective pid hvpn
  rfl

theorem page_inj : ρ.page ref = ρ.page other ↔ ref = other := page_injective.eq_iff

/-- What is told apart on finitely many numbers can be told apart on all. There are more numbers than the
finitely many that are fixed, and so enough that are not taken to send the others to. -/
theorem exists_injective_of_injOn {f : Nat → Nat} {s : Set Nat} (hs : s.Finite) (hf : s.InjOn f) :
    ∃ g : Nat → Nat, g.Injective ∧ s.EqOn g f := by
  have hlt : Cardinal.mk s < Cardinal.mk Nat := by
    rw [Cardinal.mk_nat]
    exact hs.lt_aleph0
  obtain ⟨g, hg⟩ := Cardinal.extend_function_of_lt ⟨s.domRestrict f, hf.injective⟩ hlt ⟨Equiv.refl Nat⟩
  exact ⟨g, g.injective, fun n hn => hg ⟨n, hn⟩⟩

/-- Other names for the processes and the pages of a trace are those of a renaming. A trace names
finitely many, so its names extend to all numbers, of processes and of the pages of each process. -/
theorem exists_of_injOn {refs : List PageRef} {r : Pid → Pid} {s : Pid → Vpn → Vpn}
    (hr : {pid | ∃ ref ∈ refs, ref.pid = pid}.InjOn r)
    (hs : ∀ pid, {vpn | ⟨pid, vpn⟩ ∈ refs}.InjOn (s pid)) :
    ∃ ρ : Renaming, ∀ ref ∈ refs, ρ.pid ref.pid = r ref.pid ∧
      ρ.page ref = { pid := r ref.pid, vpn := s ref.pid ref.vpn } := by
  have hpids : {pid | ∃ ref ∈ refs, ref.pid = pid}.Finite :=
    (refs.finite_toSet.image PageRef.pid).subset fun _ hpid => hpid
  have hvpns : ∀ pid, {vpn | (⟨pid, vpn⟩ : PageRef) ∈ refs}.Finite := fun pid =>
    (refs.finite_toSet.image PageRef.vpn).subset fun vpn hvpn => ⟨⟨pid, vpn⟩, hvpn, rfl⟩
  obtain ⟨g, hg, heq⟩ := exists_injective_of_injOn hpids hr
  choose h hh heq' using fun pid => exists_injective_of_injOn (hvpns pid) (hs pid)
  refine ⟨⟨g, h, hg, hh⟩, fun ref href => ?_⟩
  have hpid : g ref.pid = r ref.pid := heq ⟨ref, href, rfl⟩
  have hvpn : h ref.pid ref.vpn = s ref.pid ref.vpn := heq' ref.pid href
  exact ⟨hpid, congrArg₂ PageRef.mk hpid hvpn⟩

end Renaming

variable {ρ : Renaming} {P Q P' Q' : PageMap} {a b a' b' : Policy} {frames frames' : FrameTable}
  {frame frame' : FrameId} {ref : PageRef} {page page' : Page} {pid : Pid} {total total' : Nat}

/-! ### Pages -/

/-- The pages of the second family have the other names of those of the first, and are where these are.
What else there is to a page, its slot, is left open. -/
structure PageMap.Renamed (ρ : Renaming) (P Q : PageMap) : Prop where
  /-- A page is there under its other name, and in the same frame. -/
  frames_eq : ∀ ref, (Q (ρ.page ref)).map (·.frame?) = (P ref).map (·.frame?)
  /-- There are no others. -/
  exists_ref : ∀ {other page}, Q other = some page → ∃ ref, ρ.page ref = other

namespace PageMap.Renamed

theorem exists_page (h : P.Renamed ρ Q) (hpage : P ref = some page) :
    ∃ page', Q (ρ.page ref) = some page' ∧ page'.frame? = page.frame? := by
  have hframes := h.frames_eq ref
  rw [hpage] at hframes
  exact Option.map_eq_some_iff.1 hframes

theorem page_frame_eq (h : P.Renamed ρ Q) (hpage : P ref = some page)
    (hpage' : Q (ρ.page ref) = some page') : page'.frame? = page.frame? := by
  obtain ⟨_, hfound, hframe⟩ := h.exists_page hpage
  cases hpage'.symm.trans hfound
  exact hframe

theorem isSome_eq (h : P.Renamed ρ Q) : (Q (ρ.page ref)).isSome = (P ref).isSome := by
  rw [← Option.isSome_map (f := fun page : Page => page.frame?), h.frames_eq, Option.isSome_map]

theorem frame?_eq (h : P.Renamed ρ Q) : Q.frame? (ρ.page ref) = P.frame? ref := by
  have hbind : ∀ page? : Option Page, page?.bind (·.frame?) = (page?.map (·.frame?)).join := by
    intro page?
    cases page? <;> rfl
  rw [frame?, frame?, hbind, hbind, h.frames_eq]

/-- A frame has a page on one side if and only if it has one on the other. -/
theorem frame?_eq_some_iff (h : P.Renamed ρ Q) {other : PageRef} :
    Q.frame? other = some frame ↔ ∃ ref, ρ.page ref = other ∧ P.frame? ref = some frame := by
  constructor
  · intro hframe
    obtain ⟨page, hpage, -⟩ := PageMap.frame?_eq_some_iff.1 hframe
    obtain ⟨ref, rfl⟩ := h.exists_ref hpage
    exact ⟨ref, rfl, h.frame?_eq ▸ hframe⟩
  · rintro ⟨ref, rfl, hframe⟩
    rw [h.frame?_eq, hframe]

/-- A page may change, or come or go, on both sides: all that is asked of the two that are put in is that
both are in the same frame, or in none. -/
theorem update {left left' : Option Page} (h : P.Renamed ρ Q)
    (hleft : left'.map (·.frame?) = left.map (·.frame?)) :
    PageMap.Renamed ρ (Function.update P ref left) (Function.update Q (ρ.page ref) left') where
  frames_eq other := by
    -- at the page itself both are as given, and elsewhere they are what they were
    simp only [Function.update_apply, Renaming.page_inj]
    split
    · exact hleft
    · exact h.frames_eq other
  exists_ref {other page} hpage := by
    rw [Function.update_apply] at hpage
    split at hpage
    · next heq => exact ⟨ref, heq.symm⟩
    · exact h.exists_ref hpage

/-- The pages of a process may go, on both sides. -/
theorem drop (h : P.Renamed ρ Q) :
    PageMap.Renamed ρ (fun ref => if ref.pid = pid then none else P ref)
      (fun ref => if ref.pid = ρ.pid pid then none else Q ref) where
  frames_eq ref := by
    simp only [Renaming.pid_page, ρ.pid_injective.eq_iff]
    split
    · rfl
    · exact h.frames_eq ref
  exists_ref hpage := by
    split at hpage
    · cases hpage
    · exact h.exists_ref hpage

end PageMap.Renamed

/-- A page may change, come or go, as long as no other page is where it is afterwards. One that leaves
memory is nowhere, so for it there is nothing to show. -/
theorem PageMap.Placed.update {left : Option Page} (h : P.Placed total)
    (hleft : ∀ {frame}, left.bind (·.frame?) = some frame →
      frame < total ∧ ∀ other, P.frame? other ≠ some frame) :
    PageMap.Placed (Function.update P ref left) total where
  within {other frame} hframe := by
    rw [PageMap.frame?_update] at hframe
    split at hframe
    · exact (hleft hframe).1
    · exact h.within hframe
  exclusive {one other frame} hone hother := by
    rw [PageMap.frame?_update] at hone hother
    -- of two pages in one frame, each is the one that changed or one that did not
    split at hone
    · next heq =>
      split at hother
      · next heq' => rw [heq, heq']
      · exact absurd hother ((hleft hone).2 other)
    · split at hother
      · exact absurd hone ((hleft hother).2 one)
      · exact h.exclusive hone hother

/-! ### Frames -/

/-- The frames with other names on the pages that they hold. Which frames are free does not
depend on the names. -/
def FrameTable.rename (ρ : Renaming) (frames : FrameTable) : FrameTable where
  holders := frames.holders.map (·.map ρ.page)
  free := frames.free

@[simp] theorem FrameTable.allocated_rename : (frames.rename ρ).allocated = frames.allocated := rfl

/-- **The frames.** They hold what the pages say, so they hold the same under other names. Which frames
are used follows from what they hold, and which is the first free one follows from that. -/
theorem Residency.eq_rename (h : Residency frames P) (h' : Residency frames' Q)
    (hsize : frames'.size = frames.size) (hpages : P.Renamed ρ Q) : frames' = frames.rename ρ := by
  have hholders : frames'.holders = frames.holders.map (·.map ρ.page) := by
    have hlen : frames'.holders.size = frames.holders.size := hsize
    refine Array.ext (by rw [Array.size_map, hlen]) fun frame hlt hlt' => ?_
    have hlt₀ : frame < frames.holders.size := hlen ▸ hlt
    have hholder : frames'.holders[frame]? = some frames'.holders[frame] :=
      Array.getElem?_eq_getElem hlt
    have hholder₀ : frames.holders[frame]? = some frames.holders[frame] :=
      Array.getElem?_eq_getElem hlt₀
    rw [Array.getElem_map]
    -- the page in the frame, if there is one, has the frame on both sides
    refine Option.ext fun other => ?_
    rw [Option.map_eq_some_iff]
    constructor
    · intro hother
      rw [hother] at hholder
      obtain ⟨ref, rfl, hframe⟩ := hpages.frame?_eq_some_iff.1 (h'.held_iff.1 hholder)
      exact ⟨ref, Option.some.inj (hholder₀.symm.trans (h.held_iff.2 hframe)), rfl⟩
    · rintro ⟨ref, href, rfl⟩
      rw [href] at hholder₀
      have hframe := hpages.frame?_eq.trans (h.held_iff.1 hholder₀)
      exact Option.some.inj (hholder.symm.trans (h'.held_iff.2 hframe))
  -- a frame is used if it holds a page, whatever the name of it
  refine FrameTable.ext hholders (FreeFrames.ext ?_)
  show frames'.free.used = frames.free.used
  rw [h'.marked, h.marked, hholders, Array.map_map]
  refine congrArg (fun f => Array.map f frames.holders) (funext fun holder? => ?_)
  exact Option.isSome_map

/-! ### Policies -/

/-- The second policy knows by other names what the first one knows. The slots of a list do not
matter, as long as the same pages are queued. -/
inductive Policy.Renamed (ρ : Renaming) : Policy → Policy → Prop where
  /-- Least recently used. -/
  | lru {list list' : PageList} (h : list'.refs = list.refs.map ρ.page) :
    Renamed ρ (.lru list) (.lru list')
  /-- First in first out. -/
  | fifo {list list' : PageList} (h : list'.refs = list.refs.map ρ.page) :
    Renamed ρ (.fifo list) (.fifo list')
  /-- The clock knows frames only. -/
  | clock (clock : Clock) : Renamed ρ (.clock clock) (.clock clock)
  /-- Random choice knows nothing. -/
  | random (total : Nat) (stream : RandomStream) :
    Renamed ρ (.random total stream) (.random total stream)

/-- A policy that is new knows nothing by any name. Built from the same seed, both are even the same. -/
theorem Policy.renamed_of_build {kind : PolicyKind} {seed : Nat} (ha : build kind total seed = .ok a)
    (hb : build kind total seed = .ok b) : a.Renamed ρ b := by
  cases ha.symm.trans hb
  cases kind with
  | lru | fifo =>
    cases ha
    constructor
    rfl
  | clock | random =>
    simp only [build, Fault.bind_eq_ok_iff, Fault.pure_eq_ok_iff] at ha
    obtain ⟨_, _, rfl⟩ := ha
    constructor

namespace PageList

variable {left right left' right' : PageList} {slot slot' : Nat}

theorem renamed_alloc {other : PageRef} (h : right.refs = left.refs.map ρ.page) (hleft : left.Follows P)
    (hright : right.Follows Q) :
    (right.alloc other).2.refs = (left.alloc ref).2.refs.map ρ.page := by
  rw [refs_alloc hright, refs_alloc hleft, h]

theorem renamed_pushBack (h : right.refs = left.refs.map ρ.page) (hleft : left.Follows P)
    (hright : right.Follows Q) (hpage : P ref = some page) (hpage' : Q (ρ.page ref) = some page')
    (hslot : page.slot = .ok slot) (hslot' : page'.slot = .ok slot')
    (hpush : left.pushBack slot frame = .ok left') (hpush' : right.pushBack slot' frame' = .ok right') :
    right'.refs = left'.refs.map ρ.page := by
  rw [refs_pushBack hleft hpage (Page.overhead_of_slot hslot) hpush,
    refs_pushBack hright hpage' (Page.overhead_of_slot hslot') hpush', h, List.map_append]
  rfl

theorem renamed_moveToBack (h : right.refs = left.refs.map ρ.page) (hleft : left.Follows P)
    (hright : right.Follows Q) (hpage : P ref = some page) (hpage' : Q (ρ.page ref) = some page')
    (hframe : page.frame? = some frame) (hframe' : page'.frame? = some frame')
    (hslot : page.slot = .ok slot) (hslot' : page'.slot = .ok slot')
    (hmove : left.moveToBack slot = .ok left') (hmove' : right.moveToBack slot' = .ok right') :
    right'.refs = left'.refs.map ρ.page := by
  rw [refs_moveToBack hleft hpage (Page.overhead_of_slot hslot) hframe hmove,
    refs_moveToBack hright hpage' (Page.overhead_of_slot hslot') hframe' hmove', h, List.map_append,
    List.map_erase Renaming.page_injective]
  rfl

/-- The oldest entries are of one page, so they have one frame. The slots at the front may differ; the
pages that stand there do not. -/
theorem renamed_oldest {kind kind' : PolicyKind} (h : right.refs = left.refs.map ρ.page)
    (hleft : left.Follows P) (hright : right.Follows Q) (hpages : P.Renamed ρ Q)
    (holdest : left.oldest kind = .ok (frame, left'))
    (holdest' : right.oldest kind' = .ok (frame', right')) :
    frame' = frame ∧ right'.refs = left'.refs.map ρ.page := by
  obtain ⟨ref, hrefs, hframe⟩ := refs_oldest hleft holdest
  obtain ⟨other, hrefs', hframe'⟩ := refs_oldest hright holdest'
  -- the first of the renamed queue is the renamed first of the queue
  rw [h, hrefs, List.map_cons] at hrefs'
  obtain ⟨rfl, htail⟩ := List.cons.inj hrefs'
  rw [hpages.frame?_eq, hframe] at hframe'
  exact ⟨(Option.some.inj hframe').symm, htail.symm⟩

end PageList

namespace Policy.Renamed

theorem track {other : PageRef} (h : a.Renamed ρ b) (ha : a.Follows total P) (hb : b.Follows total' Q) :
    (a.track ref).2.Renamed ρ (b.track other).2 := by
  cases h with
  -- a page that is new has a slot, and is not queued yet
  | lru h => exact .lru (PageList.renamed_alloc h ha hb)
  | fifo h => exact .fifo (PageList.renamed_alloc h ha hb)
  | clock clock => exact .clock clock
  | random total stream => exact .random total stream

theorem noteLoad (h : a.Renamed ρ b) (ha : a.Follows total P) (hb : b.Follows total' Q)
    (hpage : P ref = some page) (hpage' : Q (ρ.page ref) = some page')
    (hload : a.noteLoad { page with frame? := some frame } = .ok a')
    (hload' : b.noteLoad { page' with frame? := some frame } = .ok b') : a'.Renamed ρ b' := by
  cases h with
  | lru h | fifo h =>
    -- the page is queued last, and on both sides behind the same pages
    simp only [Policy.noteLoad, Fault.bind_eq_ok_iff, Fault.pure_eq_ok_iff] at hload hload'
    obtain ⟨slot, hslot, _, -, left, hpush, rfl⟩ := hload
    obtain ⟨slot', hslot', _, -, right, hpush', rfl⟩ := hload'
    constructor
    exact PageList.renamed_pushBack h ha hb hpage hpage' hslot hslot' hpush hpush'
  | clock clock =>
    -- the frame is the same, so the clock marks the same one
    cases hload.symm.trans hload'
    simp only [Policy.noteLoad, Fault.bind_eq_ok_iff, Fault.pure_eq_ok_iff] at hload
    obtain ⟨clock', -, rfl⟩ := hload
    exact .clock clock'
  | random total stream =>
    cases hload
    cases hload'
    exact .random total stream

theorem noteAccess (h : a.Renamed ρ b) (ha : a.Follows total P) (hb : b.Follows total' Q)
    (hpage : P ref = some page) (hpage' : Q (ρ.page ref) = some page')
    (hframe : page.frame? = some frame) (hframe' : page'.frame? = some frame)
    (haccess : a.noteAccess page = .ok a') (haccess' : b.noteAccess page' = .ok b') :
    a'.Renamed ρ b' := by
  cases h with
  | lru h =>
    -- the page goes to the end, and is the only one that moves
    simp only [Policy.noteAccess, Fault.bind_eq_ok_iff, Fault.pure_eq_ok_iff] at haccess haccess'
    obtain ⟨slot, hslot, left, hmove, rfl⟩ := haccess
    obtain ⟨slot', hslot', right, hmove', rfl⟩ := haccess'
    constructor
    exact PageList.renamed_moveToBack h ha hb hpage hpage' hframe hframe' hslot hslot' hmove hmove'
  | fifo h =>
    -- the order of loading is not changed by a use
    cases haccess
    cases haccess'
    exact .fifo h
  | clock clock =>
    simp only [Policy.noteAccess, Clock.noteAccess, Clock.frameOf, hframe, hframe',
      Fault.bind_eq_ok_iff, Fault.demand_eq_ok_iff, Fault.pure_eq_ok_iff] at haccess haccess'
    obtain ⟨clock', ⟨_, hsame, hmodify⟩, rfl⟩ := haccess
    obtain ⟨_, ⟨_, hsame', hmodify'⟩, rfl⟩ := haccess'
    cases hsame
    cases hsame'
    cases hmodify.symm.trans hmodify'
    exact .clock clock'
  | random total stream =>
    cases haccess
    cases haccess'
    exact .random total stream

/-- **Victims.** Both name the same frame: that of the first page in the queue, that at which the hand
stops, or that which is drawn. -/
theorem victim (h : a.Renamed ρ b) (ha : a.Follows total P) (hb : b.Follows total' Q)
    (hpages : P.Renamed ρ Q) (hvictim : a.victim = .ok (frame, a'))
    (hvictim' : b.victim = .ok (frame', b')) : frame' = frame ∧ a'.Renamed ρ b' := by
  cases h with
  | lru h | fifo h =>
    simp only [Policy.victim, Fault.bind_eq_ok_iff, Fault.pure_eq_ok_iff, Prod.mk.injEq]
      at hvictim hvictim'
    obtain ⟨⟨_, left⟩, holdest, rfl, rfl⟩ := hvictim
    obtain ⟨⟨_, right⟩, holdest', rfl, rfl⟩ := hvictim'
    obtain ⟨hframe, hrefs⟩ := PageList.renamed_oldest h ha hb hpages holdest holdest'
    exact ⟨hframe, by constructor; exact hrefs⟩
  | clock clock =>
    cases hvictim.symm.trans hvictim'
    simp only [Policy.victim, Fault.bind_eq_ok_iff, Fault.pure_eq_ok_iff, Prod.mk.injEq] at hvictim
    obtain ⟨⟨_, clock'⟩, -, rfl, rfl⟩ := hvictim
    exact ⟨rfl, .clock clock'⟩
  | random total stream =>
    cases hvictim
    cases hvictim'
    exact ⟨rfl, .random _ _⟩

end Policy.Renamed

/-! ### Forgetting pages -/

/-- The second policy is what the first one is when it has forgotten some pages: they are taken out of
a list, and their frames are empty on the clock. -/
inductive Policy.Forgets (owned : List Page) : Policy → Policy → Prop where
  /-- Least recently used. -/
  | lru {list list' : PageList} (h : list'.refs = list.refs.filter (· ∉ owned.map (·.ref))) :
    Forgets owned (.lru list) (.lru list')
  /-- First in first out. -/
  | fifo {list list' : PageList} (h : list'.refs = list.refs.filter (· ∉ owned.map (·.ref))) :
    Forgets owned (.fifo list) (.fifo list')
  /-- The hand of the clock stays where it is. -/
  | clock {clock clock' : Clock} (hhand : clock'.hand = clock.hand)
    (hframes : ∀ frame : FrameId, clock'.frames[frame]? =
      if frame ∈ owned.filterMap (·.frame?) then clock.frames[frame]?.map fun _ => {}
      else clock.frames[frame]?) :
    Forgets owned (.clock clock) (.clock clock')
  /-- Random choice knows nothing that it could forget. -/
  | random (total : Nat) (stream : RandomStream) :
    Forgets owned (.random total stream) (.random total stream)

namespace Policy

variable {owned : List Page}

theorem forgets_nil (a : Policy) : a.Forgets [] a := by
  cases a with
  | lru | fifo =>
    constructor
    simp
  | clock => exact .clock rfl fun _ => rfl
  | random total stream => exact .random total stream

/-- One page more, which is forgotten first. Of a queue it is taken out before the others, and on the
clock its frame is emptied before theirs. -/
theorem Forgets.cons {a₁ : Policy} (h : a₁.Forgets owned a') (ha : a.Follows total P)
    (hpage : P page.ref = some page) (hforget : a.forget page = .ok a₁) :
    a.Forgets (page :: owned) a' := by
  cases a with
  | lru list | fifo list =>
    simp only [forget, Fault.bind_eq_ok_iff, Fault.pure_eq_ok_iff] at hforget
    obtain ⟨slot, hslot, list₁, hrelease, rfl⟩ := hforget
    have hlist : list.Follows P := ha
    cases h
    next h =>
    -- taken out of the queue one after the other, or all at once
    constructor
    rw [h, PageList.refs_release hlist hpage (Page.overhead_of_slot hslot) hrelease,
      hlist.nodup_refs.erase_eq_filter, List.filter_filter]
    refine List.filter_congr fun ref _ => ?_
    rw [Bool.eq_iff_iff]
    simp only [List.map_cons, List.mem_cons, Bool.and_eq_true, decide_eq_true_eq, bne_iff_ne, not_or,
      ne_eq, and_comm]
  | clock clock =>
    simp only [forget, Fault.bind_eq_ok_iff, Fault.pure_eq_ok_iff] at hforget
    obtain ⟨clock₁, hforget, rfl⟩ := hforget
    cases h
    next clock' hhand hframes =>
    rw [Clock.forget] at hforget
    split at hforget
    · next frame hframe =>
      rw [Clock.modifyFrame] at hforget
      split at hforget
      · cases hforget
        refine .clock hhand fun other => ?_
        simp only [hframes, Array.getElem?_modify, List.filterMap_cons_some hframe, List.mem_cons]
        -- its own frame is empty now, whether it is among those of the others or not
        by_cases hsame : other = frame
        · subst hsame
          simp only [if_true, true_or, Option.map_map]
          exact ite_self _
        · simp only [hsame, Ne.symm hsame, if_false, false_or]
      · cases hforget
    · next hframe =>
      cases hforget
      refine .clock hhand fun other => ?_
      -- a page that is not in memory has no mark on the clock
      rw [hframes, List.filterMap_cons_none hframe]
  | random total stream =>
    cases hforget
    cases h
    exact .random total stream

/-- **Forgetting pages one after the other.** What is left does not depend on their order. By induction
on the pages: after one of them is forgotten the policy follows the pages without it. -/
theorem forgets_of_foldlM (ha : a.Follows total P) (hplaced : P.Placed total)
    (hpages : ∀ page ∈ owned, P page.ref = some page) (hnodup : (owned.map (·.ref)).Nodup)
    (hfold : owned.foldlM forget a = .ok a') : a.Forgets owned a' := by
  induction owned generalizing a P with
  | nil =>
    cases hfold
    exact forgets_nil _
  | cons page rest ih =>
    obtain ⟨hnew, hrest⟩ := List.nodup_cons.1 hnodup
    have hpage := hpages page List.mem_cons_self
    rw [List.foldlM_cons] at hfold
    obtain ⟨a₁, hforget, hfold⟩ := Fault.bind_eq_ok_iff.1 hfold
    obtain ⟨_, hforget', -, ha₁⟩ := forget_eq_ok ha hplaced hpage
    cases hforget.symm.trans hforget'
    -- the pages that are left are in frames of their own
    have hplaced₁ : PageMap.Placed (Function.update P page.ref none) total :=
      hplaced.update fun hframe => by cases hframe
    exact (ih ha₁ hplaced₁ (PageMap.update_none_eq_some hpages hnew) hrest hfold).cons ha hpage hforget

/-- Policies that forget the same pages, by whatever names, still differ by the names only: `Forgets`
says what is left without saying in which order it was reached. -/
theorem Forgets.renamed {owned' : List Page} (h : a.Renamed ρ b) (ha : a.Forgets owned a')
    (hb : b.Forgets owned' b') (hrefs : ∀ ref, ρ.page ref ∈ owned'.map (·.ref) ↔ ref ∈ owned.map (·.ref))
    (hframes : ∀ frame, frame ∈ owned'.filterMap (·.frame?) ↔ frame ∈ owned.filterMap (·.frame?)) :
    a'.Renamed ρ b' := by
  cases h with
  | lru h | fifo h =>
    cases ha
    next hleft =>
    cases hb
    next hright =>
    constructor
    -- what is kept under the other name is what was kept
    rw [hright, hleft, h, List.filter_map]
    refine congrArg (List.map ρ.page) (List.filter_congr fun ref _ => ?_)
    exact decide_eq_decide.2 (not_congr (hrefs ref))
  | clock clock =>
    cases ha
    next left hhand hleft =>
    cases hb
    next right hhand' hright =>
    -- both clocks empty the same frames, and neither moves its hand
    have hsame : right.frames = left.frames := Array.ext_getElem? fun frame => by
      rw [hright, hleft]
      simp only [hframes]
    obtain ⟨leftFrames, leftHand, hlt⟩ := left
    obtain ⟨rightFrames, rightHand, hlt'⟩ := right
    obtain rfl : rightFrames = leftFrames := hsame
    obtain rfl : rightHand = leftHand := hhand'.trans hhand.symm
    exact .clock _
  | random total stream =>
    cases ha
    cases hb
    exact .random total stream

end Policy

/-- The frames of the pages of a process, by the pages instead of by the list of them. -/
theorem PageMap.Owned.mem_frames_iff {owned : List Page} (h : P.Owned pid owned) :
    frame ∈ owned.filterMap (·.frame?) ↔ ∃ ref, ref.pid = pid ∧ P.frame? ref = some frame := by
  rw [List.mem_filterMap]
  constructor
  · rintro ⟨page, hpage, hframe⟩
    have hpid := ((h.mem_iff page.ref).1 (List.mem_map_of_mem hpage)).1
    exact ⟨page.ref, hpid, PageMap.frame?_eq_some_iff.2 ⟨page, h.page_eq page hpage, hframe⟩⟩
  · rintro ⟨ref, hpid, hframe⟩
    obtain ⟨page, hpage, hframe⟩ := PageMap.frame?_eq_some_iff.1 hframe
    have hmem := (h.mem_iff ref).2 ⟨hpid, by rw [hpage, Option.isSome_some]⟩
    obtain ⟨found, hfound, rfl⟩ := List.mem_map.1 hmem
    obtain rfl : found = page := Option.some.inj ((h.page_eq found hfound).symm.trans hpage)
    exact ⟨found, hfound, hframe⟩

/-! ### Pages that come and go -/

/-- The frame that was found is one of the memory, be it the first free one or that of the victim. -/
theorem Room.lt_size (h : Room frames a P frame a' P') (hP : Coherent frames a P) :
    frame < frames.size := by
  cases h with
  | free hfree hframe =>
    obtain ⟨_, hallocate, hempty⟩ := hP.residency.allocate_eq_ok hfree
    cases hframe.symm.trans hallocate
    exact (Array.getElem?_eq_some_iff.1 hempty).1
  | taken _ _ howner hframe =>
    exact hP.residency.placed.within (PageMap.frame?_eq_some_iff.2 ⟨_, howner, hframe⟩)

/-- No page is in the frame then, and the others are where they were. -/
theorem Room.placed (h : Room frames a P frame a' P') (hP : Coherent frames a P) :
    P'.Placed frames.size ∧ ∀ other, P'.frame? other ≠ some frame := by
  have hplaced := hP.residency.placed
  cases h with
  | free hfree hframe =>
    obtain ⟨_, hallocate, hempty⟩ := hP.residency.allocate_eq_ok hfree
    cases hframe.symm.trans hallocate
    refine ⟨hplaced, fun other hother => ?_⟩
    -- a frame that is free holds no page
    cases hempty.symm.trans (hP.residency.held_iff.2 hother)
  | taken _ _ howner hframe =>
    refine ⟨hplaced.update fun hframe => (by cases hframe), fun other hother => ?_⟩
    rw [PageMap.frame?_update] at hother
    split at hother
    · cases hother
    · next hne =>
      -- the victim was the only page in its frame
      exact hne (hplaced.exclusive hother (PageMap.frame?_eq_some_iff.2 ⟨_, howner, hframe⟩))

/-- Room is made in the same frame. Either both have a frame free, and it is the first one of the same
frames, or both evict, and then the victims are in one frame. -/
theorem Room.renamed (hroom : Room frames a P frame a' P')
    (hroom' : Room (frames.rename ρ) b Q frame' b' Q') (hP : Coherent frames a P)
    (hQ : Coherent (frames.rename ρ) b Q) (h : a.Renamed ρ b) (hpages : P.Renamed ρ Q) :
    frame' = frame ∧ a'.Renamed ρ b' ∧ P'.Renamed ρ Q' := by
  cases hroom with
  | free hfree hframe =>
    cases hroom' with
    | free _ hframe' =>
      cases hframe.symm.trans hframe'
      exact ⟨rfl, h, hpages⟩
    | taken hfull => cases hfree.symm.trans hfull
  | taken hfull hvictim howner hframe =>
    cases hroom' with
    | free hfree => cases hfree.symm.trans hfull
    | taken _ hvictim' howner' hframe' =>
      obtain ⟨rfl, h'⟩ := h.victim hP.follows hQ.follows hpages hvictim hvictim'
      -- one page is in that frame, and has the other name there
      obtain ⟨ref, rfl, hin⟩ :=
        hpages.frame?_eq_some_iff.1 (PageMap.frame?_eq_some_iff.2 ⟨_, howner', hframe'⟩)
      obtain rfl := hP.residency.placed.exclusive hin
        (PageMap.frame?_eq_some_iff.2 ⟨_, howner, hframe⟩)
      exact ⟨rfl, h', hpages.update rfl⟩

theorem Intake.follows (h : Intake frames a P ref a' P') (hP : Coherent frames a P) :
    a'.Follows frames.size P' := by
  cases h with
  | load _ hout hroom hkept hnote =>
    obtain ⟨_, hnote', -, hfollows⟩ :=
      Policy.noteLoad_eq_ok (hroom.follows hP) hkept hout (hroom.lt_size hP)
    cases hnote.symm.trans hnote'
    exact hfollows

theorem Intake.placed (h : Intake frames a P ref a' P') (hP : Coherent frames a P) :
    P'.Placed frames.size := by
  cases h with
  | load _ _ hroom =>
    obtain ⟨hplaced, hempty⟩ := hroom.placed hP
    refine hplaced.update fun hframe => ?_
    cases hframe
    exact ⟨hroom.lt_size hP, hempty⟩

/-- **A page comes in** on both sides. -/
theorem Intake.renamed (hin : Intake frames a P ref a' P')
    (hin' : Intake (frames.rename ρ) b Q (ρ.page ref) b' Q') (hP : Coherent frames a P)
    (hQ : Coherent (frames.rename ρ) b Q) (h : a.Renamed ρ b) (hpages : P.Renamed ρ Q) :
    a'.Renamed ρ b' ∧ P'.Renamed ρ Q' := by
  cases hin with
  | load _ _ hroom hkept hnote =>
    cases hin' with
    | load _ _ hroom' hkept' hnote' =>
      -- room is made first, and the page comes in where it was made
      obtain ⟨rfl, h₁, hpages₁⟩ := hroom.renamed hroom' hP hQ h hpages
      exact ⟨h₁.noteLoad (hroom.follows hP) (hroom'.follows hQ) hkept hkept' hnote hnote',
        hpages₁.update rfl⟩

theorem Meeting.follows (h : Meeting a P ref page a' P') (ha : a.Follows total P) :
    a'.Follows total P' := by
  cases h with
  | known => exact ha
  | new hnew => exact Policy.track_follows ha hnew

theorem Meeting.placed (h : Meeting a P ref page a' P') (hP : P.Placed total) : P'.Placed total := by
  cases h with
  | known => exact hP
  | new => exact hP.update fun hframe => by cases hframe

/-- **A page is met** on both sides. It is known on both or new on both; a new one gets a slot, which
need not be the same. -/
theorem Meeting.renamed (hmeet : Meeting a P ref page a' P')
    (hmeet' : Meeting b Q (ρ.page ref) page' b' Q') (ha : a.Follows total P) (hb : b.Follows total' Q)
    (h : a.Renamed ρ b) (hpages : P.Renamed ρ Q) :
    page'.frame? = page.frame? ∧ a'.Renamed ρ b' ∧ P'.Renamed ρ Q' := by
  have hsome : (Q (ρ.page ref)).isSome = (P ref).isSome := hpages.isSome_eq
  cases hmeet with
  | known hpage =>
    cases hmeet' with
    | known hpage' => exact ⟨hpages.page_frame_eq hpage hpage', h, hpages⟩
    | new hnew =>
      rw [hpage, hnew] at hsome
      cases hsome
  | new hnew =>
    cases hmeet' with
    | known hpage' =>
      rw [hpage', hnew] at hsome
      cases hsome
    | new => exact ⟨rfl, h.track ha hb, hpages.update rfl⟩

/-- **A process goes on or ends** on both sides, and in the latter case takes its pages with it.
The two give their pages up in different orders, but a policy that has forgotten the same pages
is the same. -/
theorem Machine.Left.renamed {m n : Machine} {p q : Process} {gone gone' : List (Pid × Nat)}
    (hleft : m.Left p a P gone) (hleft' : n.Left q b Q gone') (hpid : q.pid = ρ.pid p.pid)
    (hstate : q.state = p.state) (ha : a.Follows total P) (hb : b.Follows total' Q)
    (hP : P.Placed total) (hQ : Q.Placed total') (h : a.Renamed ρ b) (hpages : P.Renamed ρ Q) :
    m.policy.Renamed ρ n.policy ∧ PageMap.Renamed ρ m.processes.page? n.processes.page? := by
  -- a process that goes on takes nothing with it, and one that ends does so on both sides
  by_cases hend : p.state = .finished
  · have hend' : q.state = .finished := hstate.trans hend
    obtain ⟨owned, howned, hfold⟩ := hleft.forgotten hend
    obtain ⟨owned', howned', hfold'⟩ := hleft'.forgotten hend'
    rw [hpid] at howned'
    refine ⟨?_, ?_⟩
    · -- it takes the same pages with it on both sides, in whatever order
      have hforgets := Policy.forgets_of_foldlM ha hP howned.page_eq howned.nodup hfold
      have hforgets' := Policy.forgets_of_foldlM hb hQ howned'.page_eq howned'.nodup hfold'
      refine Policy.Forgets.renamed h hforgets hforgets' (fun ref => ?_) fun frame => ?_
      · -- these are the pages of the process, under its other number
        rw [howned'.mem_iff, howned.mem_iff, hpages.isSome_eq, Renaming.pid_page, ρ.pid_injective.eq_iff]
      · -- and these are the frames that they were in
        rw [howned'.mem_frames_iff, howned.mem_frames_iff]
        constructor
        · rintro ⟨other, hother, hframe⟩
          obtain ⟨ref, rfl, hin⟩ := hpages.frame?_eq_some_iff.1 hframe
          exact ⟨ref, ρ.pid_injective hother, hin⟩
        · rintro ⟨ref, hpid, hframe⟩
          exact ⟨ρ.page ref, congrArg ρ.pid hpid, hpages.frame?_eq.trans hframe⟩
    · rw [hleft.dropped hend, hleft'.dropped hend', hpid]
      exact hpages.drop
  · have hend' : q.state ≠ .finished := hstate ▸ hend
    rw [hleft.policy_eq hend, hleft'.policy_eq hend', hleft.pages_eq hend, hleft'.pages_eq hend']
    exact ⟨h, hpages⟩

end DemandPaging
