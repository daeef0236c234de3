import DemandPaging.Proofs.Effects
import DemandPaging.Proofs.Veils

/-!
# Machines that do the same

Two machines are twins if they look the same under the veil, have the same frames and totals, and have
policies that are alike. What alike means is open: it may be any relation that the policies keep as
long as both hear of the same (`Likeness.Heard`). Whatever twins do, they are twins afterwards, if their
traces have the same pages in the same order and their policies name the same victims, as they do where
that follows from their being alike (`Likeness.Kept`).

The marks that a policy leaves on the pages, and the offsets of the records, are hidden by the veil.
That is why two machines with different policies can be twins, and two with different traces.
-/

namespace DemandPaging

/-! ### Policies that are alike -/

/-- A relation between policies, each of them with the pages that it knows. The pages are part of it, as
a policy alone does not tell which of its marks are those of which page. -/
abbrev Likeness := Policy → PageMap → Policy → PageMap → Prop

/-- Policies that are alike stay so as long as both hear of the same, and no other pages than those asked
for are met. Nothing is said here of victims. -/
structure Likeness.Heard (R : Likeness) (asked : List PageRef) : Prop where
  /-- A page is met. -/
  track : ∀ {a b P Q ref}, R a P b Q → ref ∈ asked →
    R (a.track ref).2 (Function.update P ref (some { ref, overhead := (a.track ref).1 }))
      (b.track ref).2 (Function.update Q ref (some { ref, overhead := (b.track ref).1 }))
  /-- A page comes into memory. -/
  noteLoad : ∀ {a b a' b' P Q ref page page' frame}, R a P b Q → P ref = some page →
    Q ref = some page' → a.noteLoad { page with frame? := some frame } = .ok a' →
    b.noteLoad { page' with frame? := some frame } = .ok b' →
    R a' (Function.update P ref (some { page with frame? := some frame }))
      b' (Function.update Q ref (some { page' with frame? := some frame }))
  /-- A page is used. -/
  noteAccess : ∀ {a b a' b' P Q ref page page'}, R a P b Q → P ref = some page → Q ref = some page' →
    a.noteAccess page = .ok a' → b.noteAccess page' = .ok b' → R a' P b' Q
  /-- A page is dropped. -/
  forget : ∀ {a b a' b' P Q ref page page'}, R a P b Q → P ref = some page → Q ref = some page' →
    a.forget page = .ok a' → b.forget page' = .ok b' →
    R a' (Function.update P ref none) b' (Function.update Q ref none)

/-- Both policies name the same victim, and are alike when its page has left. This is asked for apart,
since it may depend on what has happened before. -/
def Likeness.Evicts (R : Likeness) (a : Policy) (P : PageMap) (b : Policy) (Q : PageMap) : Prop :=
  ∀ {a' b' frame frame'}, a.victim = .ok (frame, a') → b.victim = .ok (frame', b') →
    frame = frame' ∧ ∀ {owner left left'}, P owner = some left → Q owner = some left' →
      R a' (Function.update P owner (some { left with frame? := none }))
        b' (Function.update Q owner (some { left' with frame? := none }))

/-- Policies that are alike stay so in a memory of `total` frames whatever happens, as long as no other
pages than those asked for are met. -/
structure Likeness.Kept (R : Likeness) (asked : List PageRef) (total : Nat) : Prop
    extends R.Heard asked where
  /-- A page has to leave for one that is not in memory. -/
  victim : ∀ {frames a b P Q ref page}, R a P b Q → Coherent frames a P → Coherent frames b Q →
    frames.size = total → frames.hasFree = false → P ref = some page → page.frame? = none →
    R.Evicts a P b Q

/-! ### Frames -/

namespace FrameTable

variable {frames f f' : FrameTable} {frame : FrameId} {page page' p p' : Page}

/-- Marks do not matter to frames, which know a page by its name. -/
theorem eq_of_load (h : page.unmarked = page'.unmarked) (hload : frames.load frame page = .ok (f, p))
    (hload' : frames.load frame page' = .ok (f', p')) : f = f' := by
  obtain ⟨-, -, free, hfree, rfl⟩ := load_cases hload
  obtain ⟨-, -, free', hfree', rfl⟩ := load_cases hload'
  cases hfree.symm.trans hfree'
  rw [(Page.eq_of_unmarked h).1]

theorem eq_of_evict (hevict : frames.evict frame page = .ok (f, p))
    (hevict' : frames.evict frame page' = .ok (f', p')) : f = f' := by
  obtain ⟨-, -, free, hfree, rfl⟩ := evict_cases hevict
  obtain ⟨-, -, free', hfree', rfl⟩ := evict_cases hevict'
  cases hfree.symm.trans hfree'
  rfl

end FrameTable

/-- Traces with the same pages have the same page on each line. -/
theorem Chart.page_eq {c d : Chart} {line : Nat} {record record' : TraceRecord}
    (hpages : c.records.map (·.page) = d.records.map (·.page)) (h : c.record? line = some record)
    (h' : d.record? line = some record') : record.page = record'.page := by
  cases line with
  | zero => cases h
  | succ line =>
    -- the pages on a line are those at one place of the two lists
    have hleft : (c.records.map (·.page))[line]? = some record.page := by
      rw [List.getElem?_map, show c.records[line]? = some record from h, Option.map_some]
    rw [hpages, List.getElem?_map, show d.records[line]? = some record' from h'] at hleft
    exact (Option.some.inj hleft).symm

/-! ### Machines -/

namespace Machine

variable {R : Likeness} {asked : List PageRef} {total now : Nat} {c d : Chart} {pid : Pid}
  {m n m' n' before before' : Machine} {p p₁ q q₁ : Process} {page page' : Page} {ref : PageRef}
  {frame frame' : FrameId}

/-- Machines that look the same under the veil. What is hidden may differ: marks, offsets and the
journal. -/
structure Twin (R : Likeness) (m n : Machine) : Prop where
  /-- They have the same frames. -/
  frames_eq : m.frames = n.frames
  /-- The processes look the same. -/
  veil_eq : m.processes.veil = n.processes.veil
  /-- The lines look the same. -/
  index_eq : m.index.veil = n.index.veil
  /-- They have counted the same. -/
  stats_eq : m.stats = n.stats
  /-- The policies are alike. -/
  alike : R m.policy m.processes.page? n.policy n.processes.page?

/-- The processes may change as long as they look the same and keep their pages. -/
theorem Twin.recast {t u : ProcessTable} (h : Twin R m n) (hveil : t.veil = u.veil)
    (ht : t.page? = m.processes.page?) (hu : u.page? = n.processes.page?) :
    Twin R { m with processes := t } { n with processes := u } where
  frames_eq := h.frames_eq
  veil_eq := hveil
  index_eq := h.index_eq
  stats_eq := h.stats_eq
  -- the policies know the same pages as before
  alike := by
    show R m.policy t.page? n.policy u.page?
    rw [ht, hu]
    exact h.alike

/-- The same disk reads are complete. -/
theorem Twin.completed_eq (h : Twin R m n) : m.processes.completed = n.processes.completed := by
  rw [← ProcessTable.completed_veil, h.veil_eq, ProcessTable.completed_veil]

/-- The same process is the first one in each state. -/
theorem Twin.head?_eq (h : Twin R m n) (state : ProcessState) :
    m.processes.head? state = n.processes.head? state := by
  rw [ProcessTable.head?, ProcessTable.head?, ProcessTable.queue_eq_of_veil h.veil_eq]

theorem Twin.note {event event' : Event} (h : Twin R m n) : Twin R (m.note event) (n.note event') :=
  ⟨h.frames_eq, h.veil_eq, h.index_eq, h.stats_eq, h.alike⟩

/-- A page may come in or leave, as long as both do the same with the page of that name. Its frame is the
only thing that is written of it. -/
theorem Twin.putPage {a b : Policy} {frames frames' : FrameTable} {stats stats' : Stats}
    {frame? : Option FrameId} (h : Twin R m n) (hframes : frames = frames') (hstats : stats = stats')
    (hpage : m.processes.page? ref = some page) (hname : page.ref = ref)
    (hpage' : n.processes.page? ref = some page') (hname' : page'.ref = ref)
    (halike : R a (Function.update m.processes.page? ref (some { page with frame? }))
      b (Function.update n.processes.page? ref (some { page' with frame? }))) :
    Twin R { m with frames, stats, policy := a, processes := m.processes.putPage { page with frame? } }
      { n with
        frames := frames', stats := stats', policy := b,
        processes := n.processes.putPage { page' with frame? } } where
  frames_eq := hframes
  veil_eq := by
    have hveil := ProcessTable.unmarked_eq_of_page? h.veil_eq hpage hpage'
    show (m.processes.putPage _).veil = (n.processes.putPage _).veil
    rw [ProcessTable.veil_putPage, ProcessTable.veil_putPage, h.veil_eq]
    exact congrArg (fun page : Page => n.processes.veil.putPage { page with frame? }) hveil
  index_eq := h.index_eq
  stats_eq := hstats
  alike := by
    have hpages : (m.processes.putPage { page with frame? }).page? =
        Function.update m.processes.page? ref (some { page with frame? }) :=
      ProcessTable.page?_putPage_of_known hpage hname
    have hpages' : (n.processes.putPage { page' with frame? }).page? =
        Function.update n.processes.page? ref (some { page' with frame? }) :=
      ProcessTable.page?_putPage_of_known hpage' hname'
    show R a (m.processes.putPage _).page? b (n.processes.putPage _).page?
    rw [hpages, hpages']
    exact halike

/-! ### A page comes in -/

/-- Both make room in the same frame: there is a free one for both, or the policies name it. In
the second case the same page has to leave it, since the frames of both hold the same. -/
theorem Twin.makeRoom (h : Twin R m n) (hm : Coherent m.frames m.policy m.processes.page?)
    (hn : Coherent n.frames n.policy n.processes.page?)
    (hevicts : m.frames.hasFree = false →
      R.Evicts m.policy m.processes.page? n.policy n.processes.page?)
    (hroom : m.makeRoom now = .ok (frame, m')) (hroom' : n.makeRoom now = .ok (frame', n')) :
    frame = frame' ∧ Twin R m' n' := by
  rcases makeRoom_cases hroom with ⟨hfree, hframe, rfl⟩ | ⟨owner, a, hfull, hvictim, hholder, hevict⟩
  · -- if the first one has a free frame, so has the second, and the least one is the same
    rcases makeRoom_cases hroom' with ⟨-, hframe', rfl⟩ | ⟨-, -, hfull, -⟩
    · rw [h.frames_eq] at hframe
      cases hframe.symm.trans hframe'
      exact ⟨rfl, h⟩
    · rw [← h.frames_eq] at hfull
      cases hfree.symm.trans hfull
  · -- otherwise both name a victim, and it is the same
    rcases makeRoom_cases hroom' with ⟨hfree, -⟩ | ⟨owner', b, -, hvictim', hholder', hevict'⟩
    · rw [← h.frames_eq] at hfree
      cases hfree.symm.trans hfull
    obtain ⟨rfl, hleave⟩ := hevicts hfull hvictim hvictim'
    -- one page is in that frame
    rw [h.frames_eq] at hholder
    cases hholder.symm.trans hholder'
    -- the page in it leaves both, and the same is counted
    obtain ⟨left, frames, stats, hleft, -, hframes, hstats, rfl⟩ := evict_cases hevict
    obtain ⟨left', frames', stats', hleft', -, hframes', hstats', rfl⟩ := evict_cases hevict'
    have hframes : m.frames.evict frame left = .ok (frames, { left with frame? := none }) := hframes
    have hstats : m.stats.noteEviction = .ok stats := hstats
    rw [h.frames_eq] at hframes
    rw [h.stats_eq] at hstats
    cases hstats.symm.trans hstats'
    exact ⟨rfl, (h.putPage (FrameTable.eq_of_evict hframes hframes') rfl hleft
      (hm.residency.named hleft) hleft' (hn.residency.named hleft') (hleave hleft hleft')).note⟩

/-- Both load the page that they wait for. -/
theorem Twin.loadPage (hR : R.Heard asked) (h : Twin R m n)
    (hpage : m.processes.page? ref = some page) (hname : page.ref = ref)
    (hpage' : n.processes.page? ref = some page') (hname' : page'.ref = ref)
    (hload : m.loadPage now frame ref = .ok m') (hload' : n.loadPage now frame ref = .ok n') :
    Twin R m' n' := by
  obtain ⟨_, frames, a, hfound, -, hframes, hnote, rfl⟩ := loadPage_cases hload
  obtain ⟨_, frames', b, hfound', -, hframes', hnote', rfl⟩ := loadPage_cases hload'
  cases hpage.symm.trans hfound
  cases hpage'.symm.trans hfound'
  have hveil := ProcessTable.unmarked_eq_of_page? h.veil_eq hpage hpage'
  rw [h.frames_eq] at hframes
  exact (h.putPage (FrameTable.eq_of_load hveil hframes hframes') h.stats_eq hpage hname hpage' hname'
    (hR.noteLoad h.alike hpage hpage' hnote hnote')).note

/-! ### The end of a process -/

/-- Both drop a page. It is in the same frame for both, or in none. The marks that the two
policies left on it may differ, and each policy hears of its own. -/
theorem alike_of_dropPage {P Q : PageMap} (hR : R.Heard asked) (hframes : m.frames = n.frames)
    (halike : R m.policy P n.policy Q) (hveil : page.unmarked = page'.unmarked)
    (hpage : P page.ref = some page) (hpage' : Q page'.ref = some page')
    (hdrop : m.dropPage page = .ok m') (hdrop' : n.dropPage page' = .ok n') :
    m'.frames = n'.frames ∧ R m'.policy (Function.update P page.ref none) n'.policy
      (Function.update Q page'.ref none) := by
  obtain ⟨href, hframe⟩ := Page.eq_of_unmarked hveil
  rw [← href] at hpage' ⊢
  obtain ⟨a, hforget, hcases⟩ := dropPage_cases hdrop
  obtain ⟨b, hforget', hcases'⟩ := dropPage_cases hdrop'
  have halike := hR.forget halike hpage hpage' hforget hforget'
  -- out of memory it is only forgotten; in memory its frame is emptied, too
  rcases hcases with ⟨hout, rfl⟩ | ⟨frame, frames, hin, hevict, rfl⟩
  · rcases hcases' with ⟨-, rfl⟩ | ⟨frame', frames', hin', -, rfl⟩
    · exact ⟨hframes, halike⟩
    · cases hin'.symm.trans (hframe.symm.trans hout)
  · rcases hcases' with ⟨hout', rfl⟩ | ⟨frame', frames', hin', hevict', rfl⟩
    · cases hout'.symm.trans (hframe.symm.trans hin)
    · cases hin'.symm.trans (hframe.symm.trans hin)
      rw [hframes] at hevict
      exact ⟨FrameTable.eq_of_evict hevict hevict', halike⟩

/-- Both drop the same pages, one after the other. The marks of a page that was dropped are gone, and the
others have names of their own, so that they are still found. -/
theorem alike_of_foldlM_dropPage {P Q : PageMap} {dropped dropped' : List Page}
    (hR : R.Heard asked) (hframes : m.frames = n.frames) (halike : R m.policy P n.policy Q)
    (hsame : dropped.map Page.unmarked = dropped'.map Page.unmarked)
    (hP : ∀ page ∈ dropped, P page.ref = some page) (hQ : ∀ page ∈ dropped', Q page.ref = some page)
    (hnodup : (dropped.map (·.ref)).Nodup) (hnodup' : (dropped'.map (·.ref)).Nodup)
    (hdrop : dropped.foldlM dropPage m = .ok m') (hdrop' : dropped'.foldlM dropPage n = .ok n') :
    m'.frames = n'.frames ∧ R m'.policy (P.without (dropped.map (·.ref))) n'.policy
      (Q.without (dropped'.map (·.ref))) := by
  induction dropped generalizing dropped' m n P Q with
  | nil =>
    obtain rfl := List.map_eq_nil_iff.1 hsame.symm
    cases hdrop
    cases hdrop'
    rw [List.map_nil, PageMap.without_nil, PageMap.without_nil]
    exact ⟨hframes, halike⟩
  | cons page rest ih =>
    obtain ⟨page', rest', rfl, hveil, hrest⟩ := List.map_eq_cons_iff.1 hsame.symm
    obtain ⟨hnew, hnodup⟩ := List.nodup_cons.1 hnodup
    obtain ⟨hnew', hnodup'⟩ := List.nodup_cons.1 hnodup'
    rw [List.foldlM_cons] at hdrop hdrop'
    obtain ⟨m₁, hdrop, hdrops⟩ := Fault.bind_eq_ok_iff.1 hdrop
    obtain ⟨n₁, hdrop', hdrops'⟩ := Fault.bind_eq_ok_iff.1 hdrop'
    obtain ⟨hframes₁, halike₁⟩ := alike_of_dropPage hR hframes halike hveil.symm
      (hP page List.mem_cons_self) (hQ page' List.mem_cons_self) hdrop hdrop'
    rw [List.map_cons, List.map_cons, PageMap.without_cons, PageMap.without_cons]
    exact ih hframes₁ halike₁ hrest.symm (PageMap.update_none_eq_some hP hnew)
      (PageMap.update_none_eq_some hQ hnew') hnodup hnodup' hdrops hdrops'

/-- A process ends on both sides. Its pages are those that both processes have, in the same order. -/
theorem Twin.retire (hR : R.Heard asked) (h : Twin R m n)
    (hm : ∀ {ref page}, m.processes.page? ref = some page → page.ref = ref)
    (hn : ∀ {ref page}, n.processes.page? ref = some page → page.ref = ref)
    (hp : m.processes.get? p.pid = some p) (hq : n.processes.get? q.pid = some q)
    (hveil : p.veil = q.veil) (hretire : m.retire now p.pid = .ok m')
    (hretire' : n.retire now q.pid = .ok n') : Twin R m' n' := by
  obtain ⟨m₁, hdrop, rfl⟩ := exists_of_retire hp hretire
  obtain ⟨n₁, hdrop', rfl⟩ := exists_of_retire hq hretire'
  have hm₁ := eq_of_foldlM_dropPage hdrop
  have hn₁ := eq_of_foldlM_dropPage hdrop'
  have hsame : p.pages.values.map Page.unmarked = q.pages.values.map Page.unmarked := by
    rw [← OrderedMap.values_map, ← OrderedMap.values_map]
    exact congrArg OrderedMap.values (congrArg Process.pages hveil :)
  obtain ⟨hframes, halike⟩ := alike_of_foldlM_dropPage (m := { m with
    processes := m.processes.retired p }) (n := { n with processes := n.processes.retired q })
    hR h.frames_eq h.alike hsame (fun page hpage => ((ProcessTable.mem_pages_iff hp hm).1 hpage).2)
    (fun page hpage => ((ProcessTable.mem_pages_iff hq hn).1 hpage).2)
    (ProcessTable.nodup_refs hp hm) (ProcessTable.nodup_refs hq hn) hdrop hdrop'
  -- the rest of the machines is not touched by dropping pages
  refine ⟨hframes, ?_, ?_, ?_, ?_⟩
  · show m₁.processes.veil = n₁.processes.veil
    rw [hm₁, hn₁]
    exact ProcessTable.veil_retired h.veil_eq hveil
  · show m₁.index.veil = n₁.index.veil
    rw [hm₁, hn₁]
    exact h.index_eq
  · show m₁.stats = n₁.stats
    rw [hm₁, hn₁]
    exact h.stats_eq
  · show R m₁.policy m₁.processes.page? n₁.policy n₁.processes.page?
    -- what is left are the pages of the others
    have hpages : m₁.processes.page? =
        PageMap.without m.processes.page? (p.pages.values.map (·.ref)) := by
      rw [hm₁]
      exact ProcessTable.page?_retired_eq_without hp hm
    have hpages' : n₁.processes.page? =
        PageMap.without n.processes.page? (q.pages.values.map (·.ref)) := by
      rw [hn₁]
      exact ProcessTable.page?_retired_eq_without hq hn
    rw [hpages, hpages']
    exact halike

/-! ### Completing a disk read -/

/-- What a process in the middle of its turn is put back as. Its cursor has moved, and nothing else. -/
theorem Midway.put {step : CursorStep} {nextOffset : Nat} (h : Midway c before m p)
    (hadvance : p.advance m.index nextOffset = .ok (step, p₁)) :
    p₁.pid = p.pid ∧ (m.processes.put p₁).get? p₁.pid = some p₁ ∧ (m.processes.put p₁).Lined ∧
      (m.processes.put p₁).page? = m.processes.page? := by
  obtain ⟨hcursor, -⟩ := Process.advance_cases hadvance
  have hpid : p₁.pid = p.pid := by rw [hcursor]
  have hstate : p₁.state = p.state := by rw [hcursor]
  have hpages : p₁.pages = p.pages := by rw [hcursor]
  have hfound : m.processes.get? p₁.pid = some p := hpid ▸ h.found
  refine ⟨hpid, ?_, h.lined.put hfound hstate, ProcessTable.page?_put hfound hpages⟩
  rw [ProcessTable.get?_put, if_pos rfl]

/-- The cursors move alike, since they look at the lines and not at the offsets. -/
theorem Twin.advance {step step' : CursorStep} {nextOffset nextOffset' : Nat} (h : Twin R m n)
    (hm : Midway c before m p) (hn : Midway d before' n q) (hpid : p.pid = q.pid)
    (hadvance : p.advance m.index nextOffset = .ok (step, p₁))
    (hadvance' : q.advance n.index nextOffset' = .ok (step', q₁)) :
    step = step' ∧ p₁.veil = q₁.veil ∧
      Twin R { m with processes := m.processes.put p₁ } { n with processes := n.processes.put q₁ } := by
  -- the process looks the same before, and so does the index, which is all that decides
  have hveil : p.veil = q.veil := ProcessTable.veil_eq_of_get? h.veil_eq hm.found (hpid ▸ hn.found)
  obtain ⟨hstep, hveil₁⟩ := Process.veil_advance hveil h.index_eq hadvance hadvance'
  obtain ⟨-, -, -, hpages⟩ := hm.put hadvance
  obtain ⟨-, -, -, hpages'⟩ := hn.put hadvance'
  exact ⟨hstep, hveil₁, h.recast (ProcessTable.veil_eq_put h.veil_eq hveil₁) hpages hpages'⟩

/-- When the page that it waited for is loaded, a process is in the middle of its turn. The machine goes
through it in one way only, so the process is the one that is known to be there. -/
theorem Sound.midway_of_loadPage {p₂ : Process} {m₁ m₂ : Machine} (h : m.Sound c)
    (hp : m.processes.get? p.pid = some p) (hblocked : p.state = .blocked)
    (hfit : m.stats.totals.misses < 2 ^ 64) (hpending : p.pending? = some ref)
    (hroom : makeRoom { m with processes := m.processes.put { p with pending? := none } } now =
      .ok (frame, m₁))
    (hload : m₁.loadPage now frame ref = .ok m₂) (hp₂ : m₂.processes.get? p.pid = some p₂) :
    Midway c m m₂ p₂ := by
  obtain ⟨record, _, _, _, p₃, hpending', hroom', hload', hmid, hunpaged, -⟩ :=
    h.exists_midway hp hblocked hfit now
  cases hroom.symm.trans hroom'
  rw [← Option.some.inj (hpending.symm.trans hpending')] at hload'
  cases hload.symm.trans hload'
  have hpid : p₃.pid = p.pid := (congrArg Process.pid hunpaged :)
  cases hp₂.symm.trans (hpid ▸ hmid.found)
  exact hmid

/-- Both complete the disk read of a process, if they name the same victim should they need one. The
proof follows the operation: room, load, cursor, and then the end or the queue. -/
theorem Twin.completeRead (hR : R.Heard asked) (h : Twin R m n)
    (hevicts : ∀ {ref page}, m.frames.hasFree = false → m.processes.page? ref = some page →
      page.frame? = none → R.Evicts m.policy m.processes.page? n.policy n.processes.page?)
    (hread : Reads c now m m' pid p) (hread' : Reads d now n n' pid q) : Twin R m' n' := by
  obtain ⟨hm, hm', hfound, hblocked, hfit, hcomplete⟩ := hread
  obtain ⟨hn, hn', -, -, hfit', hcomplete'⟩ := hread'
  obtain ⟨p, hp, rfl⟩ := ProcessTable.bare?_eq_some_iff.1 hfound
  obtain rfl := hm.lined.pid_of_get? hp
  have hblocked : p.state = .blocked := hblocked
  obtain ⟨_, ref, frame, m₁, m₂, p₂, step, p₃, hp₀, hpending, hroom, hload, hp₂, hadvance, hend⟩ :=
    completeRead_cases hcomplete
  obtain ⟨q, ref', frame', n₁, n₂, q₂, step', q₃, hq, hpending', hroom', hload', hq₂, hadvance', hend'⟩ :=
    completeRead_cases hcomplete'
  cases hp.symm.trans hp₀
  have hveil : p.veil = q.veil := ProcessTable.veil_eq_of_get? h.veil_eq hp hq
  have hpid : q.pid = p.pid := hn.lined.pid_of_get? hq
  have hblocked' : q.state = .blocked := (congrArg Process.state hveil :).symm.trans hblocked
  -- they wait for the same page
  obtain rfl : ref = ref' := by
    have hsame : p.pending? = q.pending? := (congrArg Process.pending? hveil :)
    rw [hpending, hpending'] at hsame
    exact Option.some.inj hsame
  rw [← hpid] at hq hq₂ hend'
  obtain ⟨page, hpage, hout, hname, hcoherent, -, hkept⟩ := hm.exists_awaited hp hpending hroom
  obtain ⟨page', -, -, hname', hcoherent', -, hkept'⟩ := hn.exists_awaited hq hpending' hroom'
  have hput : (m.processes.put { p with pending? := none }).page? = m.processes.page? :=
    ProcessTable.page?_put hp rfl
  have hput' : (n.processes.put { q with pending? := none }).page? = n.processes.page? :=
    ProcessTable.page?_put hq rfl
  have h₀ := h.recast (ProcessTable.veil_eq_put h.veil_eq
    (congrArg (fun r : Process => { r with pending? := none }) hveil)) hput hput'
  -- room is made with the processes put back, which does not change what the policies are asked
  obtain ⟨rfl, h₁⟩ := h₀.makeRoom hcoherent hcoherent' (fun hfull => by
    show R.Evicts m.policy (m.processes.put _).page? n.policy (n.processes.put _).page?
    rw [hput, hput']
    exact hevicts hfull hpage hout) hroom hroom'
  have h₂ := h₁.loadPage hR hkept hname hkept' hname' hload hload'
  -- both are in the middle of the turn now
  have hmid := hm.midway_of_loadPage hp hblocked hfit hpending hroom hload hp₂
  have hmid' := hn.midway_of_loadPage hq hblocked' hfit' hpending' hroom' hload' hq₂
  have hpid₂ : p₂.pid = p.pid := hmid.lined.pid_of_get? hp₂
  have hpid₂' : q₂.pid = q.pid := hmid'.lined.pid_of_get? hq₂
  have hsame : p₂.pid = q₂.pid := hpid₂.trans (hpid.symm.trans hpid₂'.symm)
  obtain ⟨rfl, hveil₃, h₃⟩ := h₂.advance hmid hmid' hsame hadvance hadvance'
  obtain ⟨hpid₃, hself, hlined, hpages⟩ := hmid.put hadvance
  obtain ⟨hpid₃', hself', hlined', hpages'⟩ := hmid'.put hadvance'
  -- both have come to their end, or both go on
  rcases hend with ⟨rfl, hretire⟩ | ⟨hgoes, t, ht, rfl⟩
  · rcases hend' with ⟨-, hretire'⟩ | ⟨hgoes, -⟩
    · rw [← hpid₂, ← hpid₃] at hretire
      rw [← hpid₂', ← hpid₃'] at hretire'
      exact h₃.retire hR (hpages ▸ hmid.coherent.residency.named)
        (hpages' ▸ hmid'.coherent.residency.named) hself hself' hveil₃ hretire hretire'
    · exact absurd rfl hgoes
  · rcases hend' with ⟨hends, -⟩ | ⟨-, u, hu, rfl⟩
    · exact absurd hends hgoes
    · rw [hpid] at hu
      have hveil₄ := ProcessTable.veil_setState h₃.veil_eq ht hu
        (fun _ => hm'.lined.stationed hm'.stands) fun _ => hn'.lined.stationed hn'.stands
      exact h₃.recast hveil₄ (hlined.page?_setState ht) (hlined'.page?_setState hu)

/-- Both complete the disk read of a process, under policies that name the same victims. -/
theorem Reads.twin (hR : R.Kept asked total) (hread : Reads c now m m' pid p)
    (hread' : Reads d now n n' pid q) (h : Twin R m n) (hsize : m.frames.size = total) : Twin R m' n' := by
  -- this is where the frames are as many as the likeness is kept for
  have hsame : Coherent m.frames n.policy n.processes.page? := h.frames_eq ▸ hread'.before.coherent
  exact h.completeRead hR.toHeard (hR.victim h.alike hread.before.coherent hsame hsize) hread hread'

/-! ### Executing a reference -/

/-- Both meet a page. It is known to both or to neither, and a new one is marked by each policy
in its own way. -/
theorem Twin.meetPage (hR : R.Heard asked) (h : Twin R m n) (hasked : ref ∈ asked)
    (hmeet : m.meetPage ref = .ok (page, m')) (hmeet' : n.meetPage ref = .ok (page', n')) :
    page.unmarked = page'.unmarked ∧ Twin R m' n' := by
  have hsome : (m.processes.page? ref).isSome = (n.processes.page? ref).isSome :=
    ProcessTable.isSome_page?_of_veil h.veil_eq
  -- both know the page, or both meet it for the first time
  rcases meetPage_cases hmeet with ⟨hpage, rfl⟩ | ⟨hnew, ⟨p, hp⟩, rfl, rfl⟩
  · rcases meetPage_cases hmeet' with ⟨hpage', rfl⟩ | ⟨hnew', -⟩
    · exact ⟨ProcessTable.unmarked_eq_of_page? h.veil_eq hpage hpage', h⟩
    · rw [hpage, hnew'] at hsome
      cases hsome
  · rcases meetPage_cases hmeet' with ⟨hpage', -⟩ | ⟨hnew', ⟨q, hq⟩, rfl, rfl⟩
    · rw [hpage', hnew] at hsome
      cases hsome
    refine ⟨rfl, h.frames_eq, ?_, h.index_eq, h.stats_eq, ?_⟩
    · -- the new page is the same under the veil, and the policies have tracked it
      show (m.processes.putPage _).veil = (n.processes.putPage _).veil
      rw [ProcessTable.veil_putPage, ProcessTable.veil_putPage, h.veil_eq]
      rfl
    · show R _ (m.processes.putPage _).page? _ (n.processes.putPage _).page?
      rw [ProcessTable.page?_putPage _ hp, ProcessTable.page?_putPage _ hq]
      exact hR.track h.alike hasked

/-- Both use a page that is in memory. The policies hear of it, and the cursors move. Where they
move to is the same line, as both traces have the same records. -/
theorem Twin.hit {nextOffset nextOffset' : Nat} (hR : R.Heard asked) (h : Twin R m n)
    (hm : Midway c before m p) (hn : Midway d before' n q)
    (hpage : m.processes.page? ref = some page) (hpage' : n.processes.page? ref = some page')
    (hpid : page.ref.pid = p.pid) (hpid' : page'.ref.pid = q.pid) (hveil : page.unmarked = page'.unmarked)
    (hhit : m.hit now page nextOffset = .ok m') (hhit' : n.hit now page' nextOffset' = .ok n')
    (hm' : m'.Sound c) (hn' : n'.Sound d) : Twin R m' n' := by
  obtain ⟨a, stats, p₀, step, p₁, hnote, hstats, hp₀, hadvance, hend⟩ := hit_cases hhit
  obtain ⟨b, stats', q₀, step', q₁, hnote', hstats', hq₀, hadvance', hend'⟩ := hit_cases hhit'
  rw [hpid] at hp₀ hend
  rw [hpid'] at hq₀ hend'
  cases hm.found.symm.trans hp₀
  cases hn.found.symm.trans hq₀
  rw [h.stats_eq] at hstats
  cases hstats.symm.trans hstats'
  have hsame : p.pid = q.pid := by rw [← hpid, ← hpid', (Page.eq_of_unmarked hveil).1]
  obtain ⟨rfl, hveil₁, h₁⟩ := h.advance hm hn hsame hadvance hadvance'
  obtain ⟨hpid₁, hself, hlined, hpages⟩ := hm.put hadvance
  obtain ⟨hpid₁', hself', hlined', hpages'⟩ := hn.put hadvance'
  -- the cursor has moved and the policy has heard; neither depends on the other
  have h₂ : Twin R { m with policy := a, stats, processes := m.processes.put p₁ }
      { n with policy := b, stats, processes := n.processes.put q₁ } := by
    refine ⟨h₁.frames_eq, h₁.veil_eq, h₁.index_eq, rfl, ?_⟩
    show R a (m.processes.put p₁).page? b (n.processes.put q₁).page?
    rw [hpages, hpages']
    exact hR.noteAccess h.alike hpage hpage' hnote hnote'
  -- both have come to their end, or both take their place in the queue
  rcases hend with ⟨rfl, hretire⟩ | ⟨hgoes, t, ht, rfl⟩
  · rcases hend' with ⟨-, hretire'⟩ | ⟨hgoes, -⟩
    · rw [← hpid₁] at hretire
      rw [← hpid₁'] at hretire'
      exact h₂.retire hR (hpages ▸ hm.coherent.residency.named)
        (hpages' ▸ hn.coherent.residency.named) hself hself' hveil₁ hretire hretire'
    · exact absurd rfl hgoes
  · rcases hend' with ⟨hends, -⟩ | ⟨-, u, hu, rfl⟩
    · exact absurd hends hgoes
    · have hveil₂ := ProcessTable.veil_requeueHead h₂.veil_eq ht hu (hm'.lined.stationed hm'.stands)
        (hn'.lined.stationed hn'.stands)
      exact h₂.recast hveil₂ (hlined.page?_requeueHead ht) (hlined'.page?_requeueHead hu)

/-- Both begin to wait for a page that is not in memory. No policy hears of it until the page is loaded.
-/
theorem Twin.miss {nextOffset nextOffset' diskPenalty : Nat} (h : Twin R m n)
    (hm : Midway c before m p) (hn : Midway d before' n q) (hpid : page.ref.pid = p.pid)
    (hpid' : page'.ref.pid = q.pid) (hveil : page.unmarked = page'.unmarked)
    (hmiss : m.miss now diskPenalty page nextOffset = .ok m')
    (hmiss' : n.miss now diskPenalty page' nextOffset' = .ok n') : Twin R m' n' := by
  obtain ⟨stats, p₀, head, t, hstats, hp₀, ht, rfl⟩ := miss_cases hmiss
  obtain ⟨stats', q₀, head', u, hstats', hq₀, hu, rfl⟩ := miss_cases hmiss'
  rw [hpid] at hp₀
  rw [hpid'] at hq₀
  cases hm.found.symm.trans hp₀
  cases hn.found.symm.trans hq₀
  rw [h.stats_eq] at hstats
  cases hstats.symm.trans hstats'
  obtain ⟨href, -⟩ := Page.eq_of_unmarked hveil
  have hsame : p.pid = q.pid := by rw [← hpid, ← hpid', href]
  have hprocess : p.veil = q.veil :=
    ProcessTable.veil_eq_of_get? h.veil_eq hm.found (hsame ▸ hn.found)
  let p₁ : Process := { p with pending? := some page.ref, wait := diskPenalty, position := nextOffset }
  let q₁ : Process := { q with pending? := some page'.ref, wait := diskPenalty, position := nextOffset' }
  -- both wait for the same page and as long, which is not hidden
  have hveil₁ : p₁.veil = q₁.veil := by
    show ({ p.veil with pending? := some page.ref, wait := diskPenalty } : Process) =
      { q.veil with pending? := some page'.ref, wait := diskPenalty }
    rw [hprocess, href]
  have hlined : (m.processes.put p₁).Lined := hm.lined.put hm.found rfl
  have hlined' : (n.processes.put q₁).Lined := hn.lined.put hn.found rfl
  have hpages : (m.processes.put p₁).page? = m.processes.page? := ProcessTable.page?_put hm.found rfl
  have hpages' : (n.processes.put q₁).page? = n.processes.page? := ProcessTable.page?_put hn.found rfl
  have hveil₂ : t.veil = u.veil :=
    ProcessTable.veil_switchHead (ProcessTable.veil_eq_put h.veil_eq hveil₁) ht hu
      (fun heq => by cases heq) fun heq => by cases heq
  have h₁ := h.recast hveil₂ ((hlined.page?_switchHead ht).trans hpages)
    ((hlined'.page?_switchHead hu).trans hpages')
  exact ⟨h₁.frames_eq, h₁.veil_eq, h₁.index_eq, rfl, h₁.alike⟩

/-- When it has met the page of its record, a process is in the middle of its turn. The page belongs to
it, as the record does. -/
theorem Sound.midway_of_met {record : TraceRecord} {m₁ : Machine} {event : Event} (h : m.Sound c)
    (hquiet : event.released = 0) (hp : m.processes.get? p.pid = some p) (hrunnable : p.state = .runnable)
    (hrecord : c.record? p.line = some record) (hmeet : m.meetPage record.page = .ok (page, m₁)) :
    ∃ p₁, Midway c m (m₁.note event) p₁ ∧ page.ref.pid = p₁.pid ∧
      m₁.processes.page? record.page = some page := by
  -- the record on its line is one of its own
  have hpid : record.pid = p.pid :=
    (h.stands (ProcessTable.bare?_of_get? hp)).toPlaced.of_unpaged.pid_of_record hrecord
  have howner : m.processes.get? record.page.pid = some p := by
    rw [← hpid] at hp
    exact hp
  obtain ⟨_, _, hmeet', hpaged, hm₁, hname, hpages⟩ := meetPage_eq_ok h.coherent howner
  cases hmeet.symm.trans hmeet'
  obtain ⟨p₁, hmid, hunpaged⟩ :=
    h.midway_of_meetPage hp hrunnable hpid hpaged hm₁ hpages hquiet
  have hpid₁ : p₁.pid = p.pid := (congrArg Process.pid hunpaged :)
  refine ⟨p₁, hmid, ?_, ?_⟩
  · rw [hname, hpid₁]
    exact hpid
  · rw [hpages, Function.update_self]

/-- Both execute a record with the same page. As the page looks the same, it is a hit for both or for
neither. -/
theorem Twin.execute {record record' : TraceRecord} {diskPenalty : Nat} (hR : R.Heard asked)
    (h : Twin R m n) (hm : m.Sound c) (hn : n.Sound d) (hp : m.processes.get? p.pid = some p)
    (hq : n.processes.get? q.pid = some q) (hrunnable : p.state = .runnable)
    (hrunnable' : q.state = .runnable) (hrecord : c.record? p.line = some record)
    (hrecord' : d.record? q.line = some record') (hsame : record.page = record'.page)
    (hasked : record.page ∈ asked) (hexecute : m.execute now diskPenalty p.line record = .ok m')
    (hexecute' : n.execute now diskPenalty q.line record' = .ok n') (hm' : m'.Sound c)
    (hn' : n'.Sound d) : Twin R m' n' := by
  obtain ⟨page, m₁, event, hmeet, hevent, hcases⟩ := execute_cases hexecute
  obtain ⟨page', n₁, event', hmeet', hevent', hcases'⟩ := execute_cases hexecute'
  have hquiet : event.released = 0 := hevent ▸ rfl
  have hquiet' : event'.released = 0 := hevent' ▸ rfl
  obtain ⟨p₁, hmid, hpid, hpage⟩ := hm.midway_of_met hquiet hp hrunnable hrecord hmeet
  obtain ⟨q₁, hmid', hpid', hpage'⟩ := hn.midway_of_met hquiet' hq hrunnable' hrecord' hmeet'
  rw [← hsame] at hmeet' hpage'
  obtain ⟨hveil, h₁⟩ := h.meetPage hR hasked hmeet hmeet'
  obtain ⟨-, hframe⟩ := Page.eq_of_unmarked hveil
  have hresident : page.isResident = page'.isResident := congrArg Option.isSome hframe
  -- a hit for both, or a miss for both
  rcases hcases with ⟨hin, hhit⟩ | ⟨hout, hmiss⟩
  · rcases hcases' with ⟨-, hhit'⟩ | ⟨hout', -⟩
    · exact h₁.note.hit hR hmid hmid' hpage hpage' hpid hpid' hveil hhit hhit' hm' hn'
    · cases hin.symm.trans (hresident.trans hout')
  · rcases hcases' with ⟨hin', -⟩ | ⟨-, hmiss'⟩
    · cases hout.symm.trans (hresident.trans hin')
    · exact h₁.note.miss hmid hmid' hpid hpid' hveil hmiss hmiss'

/-- Both let the process that can run first execute its next reference. What they fetch may stand
elsewhere in the trace. -/
theorem Twin.runReference {diskPenalty : Nat} (hR : R.Heard asked)
    (hpages : c.records.map (·.page) = d.records.map (·.page))
    (hasked : ∀ record ∈ c.records, record.page ∈ asked) (h : Twin R m n) (hm : m.Sound c)
    (hn : n.Sound d) (hp : m.processes.get? p.pid = some p) (hrunnable : p.state = .runnable)
    (hrun : m.runReference now diskPenalty p.pid = .ok (.ok (), m'))
    (hrun' : n.runReference now diskPenalty p.pid = .ok (.ok (), n')) (hm' : m'.Sound c)
    (hn' : n'.Sound d) : Twin R m' n' := by
  obtain ⟨_, record, m₀, hp₀, hfetch, hexecute⟩ := runReference_cases hrun
  obtain ⟨q, record', n₀, hq₀, hfetch', hexecute'⟩ := runReference_cases hrun'
  have hq : n.processes.get? p.pid = some q := by
    rw [switchTo_eq] at hq₀
    exact hq₀
  have hveil : p.veil = q.veil := ProcessTable.veil_eq_of_get? h.veil_eq hp hq
  have hpid : q.pid = p.pid := hn.lined.pid_of_get? hq
  have hrunnable' : q.state = .runnable := (congrArg Process.state hveil :).symm.trans hrunnable
  have hline : p.line = q.line := (congrArg Process.line hveil :)
  rw [← hpid] at hq hq₀ hfetch'
  -- both fetch the record on the line, wherever it is in the trace
  obtain ⟨_, _, hrecord, hp₁, hfetch₁, hm₀, hm₀eq, -⟩ := hm.exists_fetched hp hrunnable now
  obtain ⟨_, _, hrecord', hq₁, hfetch₁', hn₀, hn₀eq, -⟩ := hn.exists_fetched hq hrunnable' now
  cases hp₀.symm.trans hp₁
  cases hfetch.symm.trans hfetch₁
  cases hfetch'.symm.trans hfetch₁'
  -- fetching has changed the readers only, which are not compared
  have h₀ : Twin R m₀ n₀ := by
    rw [hm₀eq, hn₀eq]
    exact ⟨h.frames_eq, h.veil_eq, h.index_eq, h.stats_eq, h.alike⟩
  have hp' : m₀.processes.get? p.pid = some p := by
    rw [hm₀eq]
    exact hp
  have hq' : n₀.processes.get? q.pid = some q := by
    rw [hn₀eq]
    exact hq
  have hsame : record.page = record'.page := Chart.page_eq hpages hrecord (hline ▸ hrecord')
  exact h₀.execute hR hm₀ hn₀ hp' hq' hrunnable hrunnable' hrecord hrecord' hsame
    (hasked record (Survey.mem_of_record? hrecord)) hexecute hexecute' hm' hn'

end Machine

end DemandPaging
