import DemandPaging.Proofs.Moves
import DemandPaging.Proofs.Steps

/-!
# What a move does to the pages

A machine moves in three ways: time passes, a disk read is completed, a reference is executed
(`Machine.Moved`). For the last two it is told here what becomes of the pages and of the policy: what
`Completed` and `Executed` say of a move is all that a replacement policy can see of it.

Whatever holds of the machine that a simulation starts with and is preserved by each move holds of all
that the simulation reaches (`Simulator.Sound.preserves`).
-/

namespace DemandPaging

/-! ### Making room, and using it -/

variable {frames : FrameTable} {policy policy' : Policy} {pages pages' : PageMap} {ref : PageRef}

/-- How a frame is found, and what becomes of policy and pages by that. The frames themselves are not
told of: they hold what the pages say (`Residency`). -/
inductive Room (frames : FrameTable) (policy : Policy) (pages : PageMap) :
    FrameId → Policy → PageMap → Prop where
  /-- The first free frame is taken. -/
  | free {frame : FrameId} (hfree : frames.hasFree = true) (hframe : frames.allocate = .ok frame) :
    Room frames policy pages frame policy pages
  /-- No frame is free, and the page in the one that the policy names has to leave. -/
  | taken {frame : FrameId} {owner : PageRef} {left : Page} {policy' : Policy}
    (hfull : frames.hasFree = false) (hvictim : policy.victim = .ok (frame, policy'))
    (howner : pages owner = some left) (hframe : left.frame? = some frame) :
    Room frames policy pages frame policy'
      (Function.update pages owner (some { left with frame? := none }))

/-- A page that is not in memory is not the one that leaves, since that one is in the frame of the
victim. -/
theorem Room.page_eq {page : Page} {frame : FrameId} (h : Room frames policy pages frame policy' pages')
    (hpage : pages ref = some page) (hout : page.frame? = none) : pages' ref = some page := by
  cases h with
  | free => exact hpage
  | taken _ _ howner hframe =>
    rw [Function.update_of_ne, hpage]
    rintro rfl
    cases hpage.symm.trans howner
    cases hout.symm.trans hframe

/-- The policy goes on to know the pages, the one that leaves included: it is known still, and is in no
frame. -/
theorem Room.follows {frame : FrameId} (h : Room frames policy pages frame policy' pages')
    (hcoherent : Coherent frames policy pages) : policy'.Follows frames.size pages' := by
  cases h with
  | free => exact hcoherent.follows
  | taken hfull hvictim howner hframe =>
    have hplaced := hcoherent.residency.placed
    -- the frame that the policy names has a page in it, and then the policy follows the pages without it
    obtain ⟨other, page, frame', policy'', hother, hframe', hvictim', -, hfollows⟩ :=
      Policy.victim_eq_ok hcoherent.follows hplaced hcoherent.nonempty
        (hcoherent.residency.full_of_not_hasFree hfull)
    cases hvictim.symm.trans hvictim'
    -- there is one page only in the frame of the victim
    have hsame := hplaced.exclusive (PageMap.frame?_eq_some_iff.2 ⟨_, howner, hframe⟩)
      (PageMap.frame?_eq_some_iff.2 ⟨_, hother, hframe'⟩)
    subst hsame
    cases howner.symm.trans hother
    exact hfollows

/-- A page comes into memory. It is not the one that had to leave for it, so it is found as it was when
room has been made. -/
inductive Intake (frames : FrameTable) (policy : Policy) (pages : PageMap) (ref : PageRef) :
    Policy → PageMap → Prop where
  /-- Room is made, and the policy hears that the page is loaded. -/
  | load {page : Page} {frame : FrameId} {policy₁ policy' : Policy} {pages₁ : PageMap}
    (hpage : pages ref = some page) (hout : page.frame? = none)
    (hroom : Room frames policy pages frame policy₁ pages₁) (hkept : pages₁ ref = some page)
    (hnote : policy₁.noteLoad { page with frame? := some frame } = .ok policy') :
    Intake frames policy pages ref policy'
      (Function.update pages₁ ref (some { page with frame? := some frame }))

theorem Intake.exists_page (h : Intake frames policy pages ref policy' pages') :
    ∃ page, pages ref = some page ∧ page.frame? = none := by
  cases h with
  | load hpage hout => exact ⟨_, hpage, hout⟩

/-- While a frame is free no other page changes, as no victim is asked for. -/
theorem Intake.eq_update {page : Page} (h : Intake frames policy pages ref policy' pages')
    (hfree : frames.hasFree = true) (hpage : pages ref = some page) :
    ∃ frame, pages' = Function.update pages ref (some { page with frame? := some frame }) := by
  cases h with
  | load hfound hout hroom =>
    cases hpage.symm.trans hfound
    cases hroom with
    | free => exact ⟨_, rfl⟩
    | taken hfull => cases hfull.symm.trans hfree

/-- A page is met: it is known already, or the policy marks it. Only from then on does the table of its
process have it. -/
inductive Meeting (policy : Policy) (pages : PageMap) (ref : PageRef) :
    Page → Policy → PageMap → Prop where
  /-- Nothing changes. -/
  | known {page : Page} (hpage : pages ref = some page) : Meeting policy pages ref page policy pages
  /-- The page is known from now on. -/
  | new (hnew : pages ref = none) : Meeting policy pages ref { ref, overhead := (policy.track ref).1 }
      (policy.track ref).2
      (Function.update pages ref (some { ref, overhead := (policy.track ref).1 }))

theorem Meeting.eq_update {page : Page} (h : Meeting policy pages ref page policy' pages') :
    pages' = Function.update pages ref (some page) := by
  cases h with
  | known hpage => rw [← hpage, Function.update_eq_self]
  | new => rfl

theorem Meeting.ref_eq {page : Page} (h : Meeting policy pages ref page policy' pages')
    (hnamed : ∀ {page}, pages ref = some page → page.ref = ref) : page.ref = ref := by
  cases h with
  | known hpage => exact hnamed hpage
  | new => rfl

/-- Pages have their own names when one more was met. -/
theorem Meeting.named {page : Page} (h : Meeting policy pages ref page policy' pages')
    (hnamed : ∀ ref page, pages ref = some page → page.ref = ref) :
    ∀ ref page, pages' ref = some page → page.ref = ref := by
  intro other found hfound
  rw [h.eq_update, Function.update_apply] at hfound
  split at hfound
  · next heq =>
    cases hfound
    rw [heq]
    exact h.ref_eq (hnamed _ _)
  · exact hnamed _ _ hfound

/-- The pages of a process, each once. Their order is that of its table, and nothing told of them depends
on it. -/
structure PageMap.Owned (pages : PageMap) (pid : Pid) (owned : List Page) : Prop where
  /-- All of them are there. -/
  mem_iff : ∀ ref, ref ∈ owned.map (·.ref) ↔ ref.pid = pid ∧ (pages ref).isSome = true
  /-- Each is what is found under its name. -/
  page_eq : ∀ page ∈ owned, pages page.ref = some page
  /-- No two have the same name. -/
  nodup : (owned.map (·.ref)).Nodup

/-- A process that has moved past a record waits for nothing. -/
theorem Process.Passes.idle {chart : Chart} {p p' : Process} (h : p.Passes chart p') :
    p'.state ≠ .blocked ∧ p'.pending? = none := by
  cases h <;> exact ⟨ProcessState.noConfusion, rfl⟩

namespace ProcessTable

variable {t t' : ProcessTable} {pid : Pid} {state target : ProcessState}

/-- The list of a process's table has each page that is found under its number, and no other. -/
theorem owned_values {p : Process} (hp : t.get? p.pid = some p)
    (hnamed : ∀ ref page, t.page? ref = some page → page.ref = ref) :
    PageMap.Owned t.page? p.pid p.pages.values where
  mem_iff ref := by
    rw [List.mem_map]
    constructor
    · rintro ⟨page, hpage, rfl⟩
      obtain ⟨hpid, hfound⟩ := (mem_pages_iff hp (hnamed _ _)).1 hpage
      exact ⟨hpid, by rw [hfound, Option.isSome_some]⟩
    · rintro ⟨hpid, hsome⟩
      obtain ⟨page, hpage⟩ := Option.isSome_iff_exists.1 hsome
      obtain rfl := hnamed _ _ hpage
      exact ⟨page, (mem_pages_iff hp (hnamed _ _)).2 ⟨hpid, hpage⟩, rfl⟩
  page_eq _ hpage := ((mem_pages_iff hp (hnamed _ _)).1 hpage).2
  nodup := nodup_refs hp (hnamed _ _)

/-! A process that goes on takes its pages with it. -/

theorem Lined.page?_setState (h : t.Lined) (hset : t.setState pid state = .ok t') :
    t'.page? = t.page? := by
  obtain ⟨p, hp, -, rfl⟩ := setState_cases hset
  obtain rfl := h.pid_of_get? hp
  exact page?_put hp rfl

theorem Lined.page?_switchHead {head : Pid} (h : t.Lined)
    (hswitch : t.switchHead state target = .ok (head, t')) : t'.page? = t.page? := by
  obtain ⟨rest, p, -, hp, rfl⟩ := switchHead_cases hswitch
  obtain rfl := h.pid_of_get? hp
  exact page?_put hp rfl

theorem Lined.page?_requeueHead (h : t.Lined) (hrequeue : t.requeueHead = .ok t') :
    t'.page? = t.page? := by
  rcases requeueHead_cases hrequeue with ⟨-, -, head, hswitch⟩ | ⟨-, rfl⟩
  · exact h.page?_switchHead hswitch
  · rfl

end ProcessTable

/-! ### Moves of the machine -/

namespace Machine

variable {chart : Chart} {m m' : Machine} {pid : Pid} {p q q' : Process} {now : Nat}

/-- Policy and pages as a process leaves them at the end of a move, when so many have gone before. Here
the two ways in which a move ends meet: the process goes on, or it has passed its last record and is
retired. -/
structure Left (m' : Machine) (q' : Process) (policy : Policy) (pages : PageMap)
    (gone : List (Pid × Nat)) : Prop where
  /-- The policy, unless the process has ended. -/
  policy_eq : q'.state ≠ .finished → m'.policy = policy
  /-- The pages, unless the process has ended. -/
  pages_eq : q'.state ≠ .finished → m'.processes.page? = pages
  /-- A process that ends takes its pages with it. -/
  dropped : q'.state = .finished →
    m'.processes.page? = fun ref => if ref.pid = q'.pid then none else pages ref
  /-- The policy forgets these, one after the other. -/
  forgotten : q'.state = .finished → ∃ owned, pages.Owned q'.pid owned ∧
    owned.foldlM Policy.forget policy = .ok m'.policy
  /-- Nobody goes, unless the process has ended. -/
  gone_eq : q'.state ≠ .finished → m'.departures = gone
  /-- A process that ends goes with as many frames as it has. -/
  departed : q'.state = .finished → ∃ owned, pages.Owned q'.pid owned ∧
    m'.departures = gone ++ [(q'.pid, owned.countP (·.isResident))]

namespace Left

variable {policy : Policy} {pages : PageMap} {ref : PageRef} {page : Page} {gone : List (Pid × Nat)}

/-- A process that goes on takes nothing with it. -/
theorem of_going (hgoing : q'.state ≠ .finished) (hpolicy : m'.policy = policy)
    (hpages : m'.processes.page? = pages) (hgone : m'.departures = gone) :
    m'.Left q' policy pages gone where
  policy_eq _ := hpolicy
  pages_eq _ := hpages
  dropped hfinished := absurd hfinished hgoing
  forgotten hfinished := absurd hfinished hgoing
  gone_eq _ := hgone
  departed hfinished := absurd hfinished hgoing

/-- The pages of the other processes are left alone, whether the process ends or not. -/
theorem other (h : m'.Left q' policy pages gone) (hother : ref.pid ≠ q'.pid) :
    m'.processes.page? ref = pages ref := by
  by_cases hstate : q'.state = .finished
  · rw [h.dropped hstate]
    exact if_neg hother
  · rw [h.pages_eq hstate]

/-- No page that is left was changed. Some may be gone. -/
theorem left (h : m'.Left q' policy pages gone) (hpage : m'.processes.page? ref = some page) :
    pages ref = some page := by
  by_cases hstate : q'.state = .finished
  · rw [h.dropped hstate] at hpage
    dsimp only at hpage
    split at hpage
    · cases hpage
    · exact hpage
  · rwa [h.pages_eq hstate] at hpage

end Left

/-- A disk read was completed. This is the whole of what a replacement policy, an invariant or a count
can learn of it; the functions that make up the move are not opened again after `Sound.completed`. -/
structure Completed (chart : Chart) (m m' : Machine) (pid : Pid) (q q' : Process) : Prop where
  /-- The process waited for it. -/
  found : m.processes.bare? pid = some q
  /-- It was blocked. -/
  blocked : q.state = .blocked
  /-- It goes on or ends. -/
  passes : q.Passes chart q'
  /-- No other process changed. -/
  bare_eq : m'.processes.bare? = Function.update m.processes.bare? pid (some q')
  /-- The page that it waited for came into memory. -/
  intake : ∃ ref policy pages, q.pending? = some ref ∧
    Intake m.frames m.policy m.processes.page? ref policy pages ∧
    m'.Left q' policy pages m.departures
  /-- No reference was executed. -/
  references_eq : m'.references = m.references
  /-- A page was evicted if no frame was free. -/
  evictions_eq : m'.stats.totals.evictions =
    m.stats.totals.evictions + if m.frames.hasFree then 0 else 1
  /-- It was one that was in memory. -/
  ousted_eq : (m.frames.hasFree = true ∧ m'.ousted = m.ousted) ∨
    ∃ owner frame, m.frames.hasFree = false ∧ PageMap.frame? m.processes.page? owner = some frame ∧
      m'.ousted = m.ousted ++ [owner]

/-- A reference was executed. If it was a hit, the policy heard of it and the process went on; if not,
the process waits, and the policy has heard no more than that the page is known. -/
structure Executed (chart : Chart) (m m' : Machine) (pid : Pid) (q q' : Process)
    (record : TraceRecord) (hit : Bool) : Prop where
  /-- It is one of the process. -/
  found : m.processes.bare? pid = some q
  /-- The process could run. -/
  runnable : q.state = .runnable
  /-- The record was the one on its line. -/
  record_eq : chart.record? q.line = some record
  /-- No other process changed. -/
  bare_eq : m'.processes.bare? = Function.update m.processes.bare? pid (some q')
  /-- The page was met, and used if it was in memory; otherwise it is waited for. -/
  meeting : ∃ page policy policy' pages,
    Meeting m.policy m.processes.page? record.page page policy pages ∧ hit = page.isResident ∧
    (hit = false → q'.state = .blocked ∧ q'.pending? = some record.page ∧ policy' = policy) ∧
    (hit = true → q.Passes chart q' ∧ policy.noteAccess page = .ok policy') ∧
    m'.Left q' policy' pages m.departures
  /-- It was noted. -/
  references_eq : m'.references = m.references ++ [{ line := q.line, page := record.page, hit }]
  /-- No page was evicted. -/
  evictions_eq : m'.stats.totals.evictions = m.stats.totals.evictions
  /-- None was noted to be. -/
  ousted_eq : m'.ousted = m.ousted

namespace Completed

theorem self (h : Completed chart m m' pid q q') : m'.processes.bare? pid = some q' := by
  rw [h.bare_eq, Function.update_self]

theorem alive (h : Completed chart m m' pid q q') : q.state ≠ .finished := by
  rw [h.blocked]
  exact ProcessState.noConfusion

end Completed

namespace Executed

variable {record : TraceRecord} {hit : Bool}

theorem self (h : Executed chart m m' pid q q' record hit) : m'.processes.bare? pid = some q' := by
  rw [h.bare_eq, Function.update_self]

theorem alive (h : Executed chart m m' pid q q' record hit) : q.state ≠ .finished := by
  rw [h.runnable]
  exact ProcessState.noConfusion

theorem awake (h : Executed chart m m' pid q q' record hit) : q.state ≠ .blocked := by
  rw [h.runnable]
  exact ProcessState.noConfusion

end Executed

/-- Dropping pages concerns frames and policy only. By induction on the pages. -/
theorem eq_of_foldlM_dropPage {dropped : List Page} (h : dropped.foldlM dropPage m = .ok m') :
    m' = { m with frames := m'.frames, policy := m'.policy } := by
  induction dropped generalizing m with
  | nil =>
    cases h
    rfl
  | cons page rest ih =>
    rw [List.foldlM_cons] at h
    obtain ⟨m₁, hdrop, hrest⟩ := Fault.bind_eq_ok_iff.1 h
    have hm₁ : m₁ = { m with frames := m₁.frames, policy := m₁.policy } := by
      obtain ⟨policy, -, ⟨-, rfl⟩ | ⟨frame, frames, -, -, rfl⟩⟩ := dropPage_cases hdrop <;> rfl
    have hm' := ih hrest
    rw [hm₁] at hm'
    exact hm'

/-! What each part of a move notes in the journal. -/

section
variable {α : Type} {select : Event → Option α} {frame : FrameId} {ref : PageRef}

theorem told_of_makeRoom (hnone : ∀ owner, select (.evicted now owner frame) = none)
    (h : m.makeRoom now = .ok (frame, m')) : m'.told select = m.told select := by
  rcases makeRoom_cases h with ⟨-, -, rfl⟩ | ⟨owner, policy, -, -, -, hevict⟩
  · rfl
  · obtain ⟨page, frames, stats, -, -, -, -, rfl⟩ := evict_cases hevict
    exact told_note_of_none (hnone owner)

theorem told_of_loadPage (hnone : select (.pagedIn now ref frame) = none)
    (h : m.loadPage now frame ref = .ok m') : m'.told select = m.told select := by
  obtain ⟨page, frames, policy, -, -, -, -, rfl⟩ := loadPage_cases h
  exact told_note_of_none hnone

theorem told_of_retire (hnone : ∀ pages resident, select (.exited now pid pages resident) = none)
    (h : m.retire now pid = .ok m') : m'.told select = m.told select := by
  obtain ⟨t, p, m₁, -, -, hdrop, rfl⟩ := retire_cases h
  rw [told_note_of_none (hnone _ _), eq_of_foldlM_dropPage hdrop]
  rfl

theorem told_of_hit {page : Page} {nextOffset : Nat}
    (hnone : ∀ pages resident, select (.exited now page.ref.pid pages resident) = none)
    (h : m.hit now page nextOffset = .ok m') : m'.told select = m.told select := by
  obtain ⟨policy, stats, p, step, p₁, -, -, -, -, hend⟩ := hit_cases h
  rcases hend with ⟨-, hretire⟩ | ⟨-, t, -, rfl⟩
  · have htold := told_of_retire hnone hretire
    exact htold
  · rfl

theorem told_of_miss {page : Page} {nextOffset diskPenalty : Nat}
    (hnone : select (.blocked now page.ref) = none)
    (h : m.miss now diskPenalty page nextOffset = .ok m') : m'.told select = m.told select := by
  obtain ⟨stats, p, head, t, -, -, -, rfl⟩ := miss_cases h
  exact told_note_of_none hnone

theorem told_of_switchTo (hnone : ∀ other, select (.switched now other pid) = none) :
    (m.switchTo now pid).told select = m.told select := by
  unfold switchTo
  split
  · split
    · rfl
    · exact told_note_of_none (hnone _)
  · rfl
end

/-- The policy forgets the pages that are dropped, in the order in which they are. What happens
to the frames in between is not looked at. -/
theorem foldlM_forget_of_dropPage {dropped : List Page} (h : dropped.foldlM dropPage m = .ok m') :
    dropped.foldlM Policy.forget m.policy = .ok m'.policy := by
  induction dropped generalizing m with
  | nil =>
    cases h
    rfl
  | cons page rest ih =>
    rw [List.foldlM_cons] at h
    obtain ⟨m₁, hdrop, hrest⟩ := Fault.bind_eq_ok_iff.1 h
    obtain ⟨policy, hforget, hm₁⟩ := dropPage_cases hdrop
    -- whether the page was in memory makes a difference to the frames only
    have hpolicy : m₁.policy = policy := by
      rcases hm₁ with ⟨-, rfl⟩ | ⟨frame, frames, -, -, rfl⟩ <;> rfl
    rw [List.foldlM_cons, hforget, ← hpolicy]
    exact ih hrest

/-- A process that ends is done, and its pages are dropped one by one. -/
theorem exists_of_retire (hp : m.processes.get? p.pid = some p) (h : m.retire now p.pid = .ok m') :
    ∃ m₁, p.pages.values.foldlM dropPage { m with processes := m.processes.retired p } = .ok m₁ ∧
      m' = m₁.note (.exited now p.pid p.pages.values.length p.residentCount) := by
  obtain ⟨t, p₂, m₁, hstate, hp₂, hdrop, rfl⟩ := retire_cases h
  -- the process whose pages are dropped is the one that was found, with another state
  obtain ⟨p₃, hp₃, -, rfl⟩ := ProcessTable.setState_cases hstate
  cases hp.symm.trans hp₃
  have hp₂ : (m.processes.relocate p .finished).get? p.pid = some p₂ := hp₂
  rw [ProcessTable.get?_relocate, if_pos rfl] at hp₂
  cases hp₂
  exact ⟨m₁, hdrop, rfl⟩

/-- A process that ends changes the table by that, and counts nothing. -/
theorem processes_of_retire {p₁ : Process}
    (h : retire { m with processes := m.processes.put p₁ } now p₁.pid = .ok m') :
    m'.processes = (m.processes.put p₁).retired p₁ ∧ m'.stats = m.stats := by
  have hself : (m.processes.put p₁).get? p₁.pid = some p₁ := by
    rw [ProcessTable.get?_put, if_pos rfl]
  obtain ⟨m₁, hdrop, rfl⟩ := exists_of_retire hself h
  have hm₁ := eq_of_foldlM_dropPage hdrop
  constructor
  · show m₁.processes = _
    rw [hm₁]
  · show m₁.stats = m.stats
    rw [hm₁]

/-- A process that ends leaves the pages of the others. It is given with its cursor moved on already,
which concerns no page. -/
theorem left_of_retire {p₁ : Process} (hp : m.processes.get? p₁.pid = some p)
    (hpages : p₁.pages = p.pages)
    (hnamed : ∀ ref page, m.processes.page? ref = some page → page.ref = ref)
    (h : retire { m with processes := m.processes.put p₁ } now p₁.pid = .ok m')
    (hq' : m'.processes.bare? p₁.pid = some q') :
    m'.Left q' m.policy m.processes.page? m.departures ∧ m'.stats = m.stats := by
  have hself : (m.processes.put p₁).get? p₁.pid = some p₁ := by
    rw [ProcessTable.get?_put, if_pos rfl]
  have hput : (m.processes.put p₁).page? = m.processes.page? := ProcessTable.page?_put hp hpages
  rw [← hput] at hnamed
  obtain ⟨hprocesses, hstats⟩ := processes_of_retire h
  rw [hprocesses, ProcessTable.bare?_retired, Function.update_self] at hq'
  cases hq'
  -- the pages that it takes with it are those that it has
  have howned : PageMap.Owned m.processes.page? p₁.pid p₁.pages.values :=
    hput ▸ ProcessTable.owned_values hself hnamed
  obtain ⟨m₁, hdrop, rfl⟩ := exists_of_retire hself h
  refine ⟨⟨fun hstate => absurd rfl hstate, fun hstate => absurd rfl hstate, fun _ => ?_, fun _ => ?_,
    fun hstate => absurd rfl hstate, fun _ => ⟨p₁.pages.values, howned, ?_⟩⟩, hstats⟩
  · -- its pages are gone with it
    rw [hprocesses, ProcessTable.page?_retired hself, hput]
    rfl
  · -- the policy has forgotten them
    have hforget := foldlM_forget_of_dropPage hdrop
    exact ⟨p₁.pages.values, howned, hforget⟩
  · -- and its departure is noted
    rw [departures, told_note, eq_of_foldlM_dropPage hdrop]
    rfl

theorem left_of_setState {p₁ : Process} {t : ProcessTable} (hp : m.processes.get? p₁.pid = some p)
    (hpages : p₁.pages = p.pages) (h : (m.processes.put p₁).setState p₁.pid .runnable = .ok t)
    (hq' : t.bare? p₁.pid = some q') :
    Left { m with processes := t } q' m.policy m.processes.page? m.departures := by
  obtain ⟨p₃, hp₃, -, rfl⟩ := ProcessTable.setState_cases h
  have hself : (m.processes.put p₁).get? p₁.pid = some p₁ := by
    rw [ProcessTable.get?_put, if_pos rfl]
  cases hself.symm.trans hp₃
  have hq' : ((m.processes.put p₁).relocate p₁ .runnable).bare? p₁.pid = some q' := hq'
  rw [ProcessTable.bare?_relocate, Function.update_self] at hq'
  cases hq'
  refine .of_going ProcessState.noConfusion rfl ?_ rfl
  show ((m.processes.put p₁).relocate p₁ .runnable).page? = _
  rw [ProcessTable.page?_relocate hself, ProcessTable.page?_put hp hpages]

/-- What making room did to pages, policy and the count of evictions. The pages are those of a table in
which the one that leaves has been put back without its frame. -/
theorem room_of_makeRoom {frame : FrameId} (h : Coherent m.frames m.policy m.processes.page?)
    (hroom : m.makeRoom now = .ok (frame, m')) :
    Room m.frames m.policy m.processes.page? frame m'.policy m'.processes.page? ∧
      m'.processes.bare? = m.processes.bare? ∧
      m'.stats.totals.evictions = m.stats.totals.evictions + if m.frames.hasFree then 0 else 1 := by
  rcases makeRoom_cases hroom with ⟨hfree, hframe, rfl⟩ | ⟨owner, policy, hfull, hvictim, -, hevict⟩
  · -- a frame was free
    refine ⟨.free hfree hframe, rfl, ?_⟩
    rw [hfree]
    rfl
  · -- the page in the frame of the victim is evicted
    obtain ⟨left, frames, stats, howner, hframe, -, hstats, rfl⟩ := evict_cases hevict
    have howner : m.processes.page? owner = some left := howner
    have hname := h.residency.named howner
    have hupdate : (m.processes.putPage { left with frame? := none }).page? =
        Function.update m.processes.page? owner (some { left with frame? := none }) :=
      ProcessTable.page?_putPage_of_known howner hname
    refine ⟨?_, ProcessTable.bare?_putPage, ?_⟩
    · show Room m.frames m.policy m.processes.page? frame policy
        (m.processes.putPage { left with frame? := none }).page?
      rw [hupdate]
      exact .taken hfull hvictim howner hframe
    · obtain rfl := Stats.noteEviction_cases hstats
      rw [hfull]
      rfl

/-- What making room notes: the page that had to leave, if there is one. -/
theorem ousted_of_makeRoom {frame : FrameId} (hroom : m.makeRoom now = .ok (frame, m')) :
    (m.frames.hasFree = true ∧ m'.ousted = m.ousted) ∨
      ∃ owner, m.frames.hasFree = false ∧ PageMap.frame? m.processes.page? owner = some frame ∧
        m'.ousted = m.ousted ++ [owner] := by
  rcases makeRoom_cases hroom with ⟨hfree, -, rfl⟩ | ⟨owner, policy, hfull, -, -, hevict⟩
  · exact .inl ⟨hfree, rfl⟩
  · obtain ⟨left, frames, stats, howner, hframe, -, -, rfl⟩ := evict_cases hevict
    exact .inr ⟨owner, hfull, PageMap.frame?_eq_some_iff.2 ⟨left, howner, hframe⟩, told_note⟩

/-- Loading a page leaves the processes with their pages but for that one. -/
theorem page?_of_loadPage {frame : FrameId} {ref : PageRef} {page : Page}
    (hpage : m.processes.page? ref = some page) (hname : page.ref = ref)
    (h : m.loadPage now frame ref = .ok m') :
    m.policy.noteLoad { page with frame? := some frame } = .ok m'.policy ∧
      m'.processes.page? =
        Function.update m.processes.page? ref (some { page with frame? := some frame }) ∧
      m'.processes.bare? = m.processes.bare? ∧ m'.stats = m.stats := by
  obtain ⟨found, frames, policy, hfound, -, -, hnote, rfl⟩ := loadPage_cases h
  cases hpage.symm.trans hfound
  exact ⟨hnote, ProcessTable.page?_putPage_of_known hpage hname, ProcessTable.bare?_putPage, rfl⟩

/-- The page that a process waits for is still there, and not in memory, when room was made for it. The
process has stopped waiting by then, so this is asked of the machine before (`Sound.awaited`). -/
theorem Sound.exists_awaited {frame : FrameId} {ref : PageRef} (h : m.Sound chart)
    (hp : m.processes.get? p.pid = some p) (hpending : p.pending? = some ref)
    (hroom : makeRoom { m with processes := m.processes.put { p with pending? := none } } now =
      .ok (frame, m')) :
    ∃ page, m.processes.page? ref = some page ∧ page.frame? = none ∧ page.ref = ref ∧
      Coherent m.frames m.policy (m.processes.put { p with pending? := none }).page? ∧
      Room m.frames m.policy m.processes.page? frame m'.policy m'.processes.page? ∧
      m'.processes.page? ref = some page := by
  obtain ⟨page, hpage, hout⟩ := h.awaited (ProcessTable.bare?_of_get? hp) hpending
  -- that the process no longer waits does not matter to its pages
  have hput : (m.processes.put { p with pending? := none }).page? = m.processes.page? :=
    ProcessTable.page?_put hp rfl
  have hcoherent : Coherent m.frames m.policy (m.processes.put { p with pending? := none }).page? :=
    hput ▸ h.coherent
  obtain ⟨hroom, -, -⟩ := room_of_makeRoom hcoherent hroom
  have hroom : Room m.frames m.policy m.processes.page? frame m'.policy m'.processes.page? :=
    hput ▸ hroom
  exact ⟨page, hpage, hout, h.coherent.residency.named hpage, hcoherent, hroom,
    hroom.page_eq hpage hout⟩

/-- **A completed disk read.** Room is made, the page is loaded into it, and the process moves past the
record that it waited at; then it goes on or ends. The first two change the pages, the last two the
process, and each is cited for what it leaves alone. -/
theorem Sound.completed (h : m.Sound chart) (hq : m.processes.bare? pid = some q)
    (hblocked : q.state = .blocked) (hfit : m.stats.totals.misses < 2 ^ 64)
    (hcomplete : completeRead now m pid = .ok m') : ∃ q', Completed chart m m' pid q q' := by
  -- that the move succeeds, and what becomes of the process, is known
  obtain ⟨_, q', hcomplete', -, hpasses, hbare, hstats, -, -, hreferences⟩ :=
    completeRead_eq_ok h hq hblocked hfit now
  cases hcomplete.symm.trans hcomplete'
  obtain ⟨p, hp, rfl⟩ := ProcessTable.bare?_eq_some_iff.1 hq
  obtain rfl := h.lined.pid_of_get? hp
  obtain ⟨p', ref, frame, m₁, m₂, p₂, step, p₃, hp', hpending, hroom, hload, hp₂, hadvance, hend⟩ :=
    completeRead_cases hcomplete
  cases hp.symm.trans hp'
  obtain ⟨page, hpage, hout, hname, hcoherent, hroom', hkept⟩ := h.exists_awaited hp hpending hroom
  obtain ⟨-, hbare₁, hevictions⟩ := room_of_makeRoom hcoherent hroom
  obtain ⟨hnote, hpages₂, hbare₂, hstats₂⟩ :=
    page?_of_loadPage hkept hname hload
  -- the process is found as it was, but for its pages
  have hunpaged : p₂.unpaged = { p.unpaged with pending? := none } := by
    have hself := ProcessTable.bare?_of_get? hp₂
    rw [hbare₂, hbare₁, ProcessTable.bare?_put, Function.update_self] at hself
    exact (Option.some.inj hself).symm
  obtain ⟨hcursor, -⟩ := Process.advance_cases hadvance
  have hpid₃ : p₃.pid = p.pid := by
    rw [hcursor]
    exact (congrArg Process.pid hunpaged :)
  have hpages₃ : p₃.pages = p₂.pages := by rw [hcursor]
  have hq' : m'.processes.bare? p₃.pid = some q' := by
    rw [hbare, hpid₃, Function.update_self]
  rw [← hpid₃] at hp₂ hend
  -- pages have their own names when the page is loaded, so the process's list of pages is what it owns
  have hnamed : ∀ other found, m₂.processes.page? other = some found → found.ref = other := by
    obtain ⟨record, _, _, _, _, hpending', hroom', hload', hmid, -⟩ :=
      h.exists_midway hp hblocked hfit now
    cases hpending.symm.trans hpending'
    cases hroom.symm.trans hroom'
    cases hload.symm.trans hload'
    exact fun _ _ => hmid.coherent.residency.named
  -- neither making room nor loading a page is the end of a process
  have hgone : m₂.departures = m.departures := by
    have hroomed : m₁.departures = m.departures :=
      told_of_makeRoom (m := { m with processes := m.processes.put _ }) (fun _ => rfl) hroom
    exact (told_of_loadPage rfl hload).trans hroomed
  obtain ⟨hleft, hstats'⟩ :
      m'.Left q' m₂.policy m₂.processes.page? m.departures ∧ m'.stats = m₂.stats := by
    rw [← hgone]
    rcases hend with ⟨-, hretire⟩ | ⟨-, t, ht, rfl⟩
    · exact left_of_retire hp₂ hpages₃ hnamed hretire hq'
    · exact ⟨left_of_setState hp₂ hpages₃ ht hq', rfl⟩
  refine ⟨q', hq, hblocked, hpasses, hbare, ⟨ref, m₂.policy, m₂.processes.page?, hpending, ?_, hleft⟩,
    hreferences, ?_, ?_⟩
  · -- how the page came in
    rw [hpages₂]
    exact .load hpage hout hroom' hkept hnote
  · -- one eviction was counted, if no frame was free
    rw [hstats', hstats₂]
    exact hevictions
  · -- the page that left was noted when room was made, and nothing after that
    have hended : m'.ousted = m₂.ousted := by
      rcases hend with ⟨-, hretire⟩ | ⟨-, t, -, rfl⟩
      · exact told_of_retire (m := { m₂ with processes := m₂.processes.put p₃ }) (fun _ _ => rfl) hretire
      · rfl
    rw [hended, show m₂.ousted = m₁.ousted from told_of_loadPage rfl hload]
    rcases ousted_of_makeRoom hroom with hnone | ⟨owner, hfull, hframe, hnoted⟩
    · exact .inl hnone
    · refine .inr ⟨owner, frame, hfull, ?_, hnoted⟩
      rwa [show (m.processes.put { p with pending? := none }).page? = m.processes.page? from
        ProcessTable.page?_put hp rfl] at hframe

/-- A page that is met is marked by the policy at most. -/
theorem meeting_of_meetPage {ref : PageRef} {page : Page} (h : m.meetPage ref = .ok (page, m')) :
    Meeting m.policy m.processes.page? ref page m'.policy m'.processes.page? ∧
      m'.processes.bare? = m.processes.bare? ∧ m'.processes.queue = m.processes.queue ∧
      m'.stats = m.stats := by
  rcases meetPage_cases h with ⟨hpage, rfl⟩ | ⟨hnew, ⟨p, hp⟩, rfl, rfl⟩
  · exact ⟨.known hpage, rfl, rfl, rfl⟩
  · refine ⟨?_, ProcessTable.bare?_putPage, rfl, rfl⟩
    -- a page that is new is put under its name
    show Meeting m.policy m.processes.page? ref _ _ (m.processes.putPage _).page?
    rw [ProcessTable.page?_putPage _ hp]
    exact .new hnew

/-- The process at the head of a queue is put at the end of one, and keeps its pages. The first
table may differ in the process itself, which is written just before. -/
theorem page?_of_switchHead {t t' : ProcessTable} {p₁ : Process} {source target : ProcessState}
    {head : Pid} {rest : List Pid} (hp : t.get? p₁.pid = some p) (hpages : p₁.pages = p.pages)
    (hqueue : t.queue source = p₁.pid :: rest)
    (h : (t.put p₁).switchHead source target = .ok (head, t')) :
    t'.page? = t.page? ∧ t'.bare? p₁.pid = some { p₁.unpaged with state := target } := by
  have hself : (t.put p₁).get? p₁.pid = some p₁ := by
    rw [ProcessTable.get?_put, if_pos rfl]
  obtain ⟨rest', p₂, hqueue', hp₂, rfl⟩ := ProcessTable.switchHead_cases h
  cases hqueue.symm.trans hqueue'
  cases hself.symm.trans hp₂
  constructor
  · exact (ProcessTable.page?_put (p := { p₁ with state := target }) hself rfl).trans
      (ProcessTable.page?_put hp hpages)
  · rw [ProcessTable.bare?_enter, Function.update_self]

theorem left_of_requeueHead {p₁ : Process} {t : ProcessTable} {rest : List Pid}
    (hp : m.processes.get? p₁.pid = some p) (hpages : p₁.pages = p.pages)
    (hrunnable : p₁.state = .runnable) (hqueue : m.processes.queue .runnable = p₁.pid :: rest)
    (h : (m.processes.put p₁).requeueHead = .ok t) (hq' : t.bare? p₁.pid = some q') :
    Left { m with processes := t } q' m.policy m.processes.page? m.departures := by
  -- by trace position the process is queued anew, otherwise nothing changes
  obtain ⟨hpage, hstate⟩ : t.page? = m.processes.page? ∧ q'.state = .runnable := by
    rcases ProcessTable.requeueHead_cases h with ⟨-, -, head, hswitch⟩ | ⟨-, rfl⟩
    · obtain ⟨hpage, hbare⟩ := page?_of_switchHead hp hpages hqueue hswitch
      cases hq'.symm.trans hbare
      exact ⟨hpage, rfl⟩
    · rw [ProcessTable.bare?_put, Function.update_self] at hq'
      cases hq'
      exact ⟨ProcessTable.page?_put hp hpages, hrunnable⟩
  have hgoing : q'.state ≠ .finished := fun hfinished => by cases hfinished.symm.trans hstate
  exact .of_going hgoing rfl hpage rfl

namespace Outcome

variable {diskPenalty : Nat} {record : TraceRecord} {totals totals' : Totals} {hit : Bool}

/-- A reference is a hit or a miss. -/
theorem eq_or (h : Outcome chart diskPenalty record q totals hit q' totals') :
    (hit = true ∧ q.Passes chart q' ∧ totals' = { totals with hits := totals.hits + 1 }) ∨
      (hit = false ∧
        q' = { q with
          state := .blocked, pending? := some record.page, wait := diskPenalty
          position := record.nextOffset } ∧
        totals' = { totals with misses := totals.misses + 1 }) := by
  cases h with
  | hit hpasses => exact .inl ⟨rfl, hpasses, rfl⟩
  | miss => exact .inr ⟨rfl, rfl, rfl⟩

theorem evictions_eq (h : Outcome chart diskPenalty record q totals hit q' totals') :
    totals'.evictions = totals.evictions := by
  cases h <;> rfl

theorem hits_eq (h : Outcome chart diskPenalty record q totals hit q' totals') :
    totals'.hits = totals.hits + hit.toNat := by
  cases h <;> rfl

theorem passes (h : Outcome chart diskPenalty record q totals true q' totals') :
    q.Passes chart q' := by
  cases h with
  | hit hpasses => exact hpasses

theorem waits (h : Outcome chart diskPenalty record q totals false q' totals') :
    q'.state = .blocked ∧ q'.pending? = some record.page := by
  cases h with
  | miss => exact ⟨rfl, rfl⟩

end Outcome

/-- What a hit did to pages and policy. The policy hears of the page before the process moves on, so a
process that ends has its pages forgotten by a policy that knows of the use. -/
theorem left_of_hit {page : Page} {nextOffset : Nat} {rest : List Pid}
    (hp : m.processes.get? p.pid = some p) (hrunnable : p.state = .runnable)
    (hqueue : m.processes.queue .runnable = p.pid :: rest) (hname : page.ref.pid = p.pid)
    (hnamed : ∀ ref page, m.processes.page? ref = some page → page.ref = ref)
    (h : m.hit now page nextOffset = .ok m') (hq' : m'.processes.bare? p.pid = some q') :
    (∃ policy, m.policy.noteAccess page = .ok policy ∧
        m'.Left q' policy m.processes.page? m.departures) ∧
      m'.stats.totals.hits = m.stats.totals.hits + 1 := by
  obtain ⟨policy, stats, p', step, p₁, haccess, hnote, hp', hadvance, hend⟩ := hit_cases h
  rw [hname] at hp' hend
  cases hp.symm.trans hp'
  obtain ⟨hcursor, -⟩ := Process.advance_cases hadvance
  have hpid : p₁.pid = p.pid := by rw [hcursor]
  have hpages : p₁.pages = p.pages := by rw [hcursor]
  have hstate : p₁.state = .runnable := by
    rw [hcursor]
    exact hrunnable
  rw [← hpid] at hp' hqueue hq' hend
  obtain ⟨hleft, hstats⟩ :
      m'.Left q' policy m.processes.page? m.departures ∧ m'.stats = stats := by
    -- a process that has more to read is queued again, and one that has not is retired
    rcases hend with ⟨-, hretire⟩ | ⟨-, t, ht, rfl⟩
    · exact left_of_retire (m := { m with policy, stats }) hp' hpages hnamed hretire hq'
    · exact ⟨left_of_requeueHead (m := { m with policy, stats }) hp' hpages hstate hqueue ht hq', rfl⟩
  refine ⟨⟨policy, haccess, hleft⟩, ?_⟩
  rw [hstats, Stats.noteHit_cases hnote]

/-- What a miss did to pages and policy, which is nothing: the page is awaited, and the policy is not
told before it is loaded. -/
theorem page?_of_miss {page : Page} {nextOffset diskPenalty : Nat} {rest : List Pid}
    (hp : m.processes.get? p.pid = some p) (hqueue : m.processes.queue .runnable = p.pid :: rest)
    (hname : page.ref.pid = p.pid) (h : m.miss now diskPenalty page nextOffset = .ok m') :
    m'.policy = m.policy ∧ m'.processes.page? = m.processes.page? ∧
      m'.stats.totals.hits = m.stats.totals.hits := by
  obtain ⟨stats, p', head, t, hnote, hp', hswitch, rfl⟩ := miss_cases h
  rw [hname] at hp'
  cases hp.symm.trans hp'
  let waiting : Process :=
    { p with pending? := some page.ref, wait := diskPenalty, position := nextOffset }
  have hwaiting : m.processes.get? waiting.pid = some p := hp
  obtain ⟨hpage, -⟩ := page?_of_switchHead hwaiting rfl hqueue hswitch
  obtain rfl := Stats.noteMiss_cases hnote
  exact ⟨rfl, hpage, rfl⟩

/-- A reference in the middle, when its record was read and its page met. What comes before is the same
for hits and misses, and what comes after is told by `done`. -/
structure Meets (chart : Chart) (now diskPenalty : Nat) (m m' : Machine) (p : Process)
    (record : TraceRecord) (page : Page) (m₁ : Machine) (p₁ : Process) : Prop where
  /-- The record is the one on the line of the process. -/
  record_eq : chart.record? p.line = some record
  /-- The page is the one that it names. -/
  ref_eq : page.ref = record.page
  /-- The process is in the table. -/
  found : m₁.processes.get? p₁.pid = some p₁
  /-- It is as it was, but for its pages. -/
  unpaged_eq : p₁.unpaged = p.unpaged
  /-- At most that page was added to the table. -/
  table : m₁.processes = m.processes ∨ m₁.processes = m.processes.putPage page
  /-- The page was marked if it is new. -/
  meeting : Meeting m.policy m.processes.page? record.page page m₁.policy m₁.processes.page?
  /-- Nothing was counted. -/
  stats_eq : m₁.stats = m.stats
  /-- At most that the process has its turn was noted. -/
  journal_eq : m₁.journal = (m.switchTo now p.pid).journal
  /-- The reference is a hit or a miss. -/
  done : (page.isResident = true ∧
      (m₁.note (.referenced now record.page p.line true)).hit now page record.nextOffset = .ok m') ∨
    (page.isResident = false ∧ (m₁.note (.referenced now record.page p.line false)).miss now
      diskPenalty page record.nextOffset = .ok m')

namespace Meets

variable {diskPenalty : Nat} {record : TraceRecord} {page : Page} {m₁ : Machine} {p₁ : Process}

theorem pid_eq (h : Meets chart now diskPenalty m m' p record page m₁ p₁) : p₁.pid = p.pid :=
  (congrArg Process.pid h.unpaged_eq :)

theorem state_eq (h : Meets chart now diskPenalty m m' p record page m₁ p₁) : p₁.state = p.state :=
  (congrArg Process.state h.unpaged_eq :)

/-- The processes are queued as before, by the same order. -/
theorem queue_eq (h : Meets chart now diskPenalty m m' p record page m₁ p₁) :
    m₁.processes.queue = m.processes.queue ∧ m₁.processes.order = m.processes.order := by
  rcases h.table with heq | heq <;> rw [heq] <;> exact ⟨rfl, rfl⟩

/-- Of other events than a change of turns nothing was told. -/
theorem told_eq {α : Type} {select : Event → Option α}
    (hnone : ∀ other, select (.switched now other p.pid) = none)
    (h : Meets chart now diskPenalty m m' p record page m₁ p₁) : m₁.told select = m.told select :=
  (congrArg (fun journal : List Event => journal.reverse.filterMap select) h.journal_eq).trans
    (told_of_switchTo hnone)

theorem ousted_eq (h : Meets chart now diskPenalty m m' p record page m₁ p₁) :
    m'.ousted = m.ousted := by
  have hfirst : m₁.ousted = m.ousted := h.told_eq fun _ => rfl
  rcases h.done with ⟨-, hhit⟩ | ⟨-, hmiss⟩
  · exact (told_of_hit (fun _ _ => rfl) hhit).trans ((told_note_of_none rfl).trans hfirst)
  · exact (told_of_miss rfl hmiss).trans ((told_note_of_none rfl).trans hfirst)

theorem lined (h : Meets chart now diskPenalty m m' p record page m₁ p₁) (hm : m.processes.Lined) :
    m₁.processes.Lined := by
  rcases h.table with heq | heq <;> rw [heq]
  · exact hm
  · exact hm.putPage

end Meets

theorem fetch_cases {record : TraceRecord} {m₀ : Machine} (h : m.fetch p = (.ok record, m₀)) :
    m₀ = { m with reader := m₀.reader } := by
  unfold fetch at h
  split at h
  · cases h
  split at h
  · cases h
  split at h
  · cases h
  · cases h
  -- only a record of the process itself is an answer
  split at h
  · cases h
    rfl
  · cases h

/-- A reference that was executed, taken apart. Fetching the record concerns the reader and the turn, and
meeting its page at most the pages of the process. -/
theorem Sound.exists_meets {diskPenalty : Nat} (h : m.Sound chart)
    (hp : m.processes.get? p.pid = some p) (hrunnable : p.state = .runnable)
    (hrun : m.runReference now diskPenalty p.pid = .ok (.ok (), m')) :
    ∃ record page m₁ p₁, Meets chart now diskPenalty m m' p record page m₁ p₁ := by
  have hq := ProcessTable.bare?_of_get? hp
  obtain ⟨record, m₀, hrecord, hp', hfetch, -, hm₀, -⟩ := h.exists_fetched hp hrunnable now
  obtain ⟨_, _, _, hp'', hfetch', hexecute⟩ := runReference_cases hrun
  cases hp'.symm.trans hp''
  cases hfetch.symm.trans hfetch'
  obtain ⟨page, m₁, event, hmeet, rfl, hexecute⟩ := execute_cases hexecute
  obtain ⟨hmeeting, hbare₁, -, hstats₁⟩ := meeting_of_meetPage hmeet
  -- fetching the record concerned neither pages nor policy
  have hprocesses : m₀.processes = m.processes := by rw [hm₀]
  have hpolicy : m₀.policy = m.policy := by rw [hm₀]
  have hstats : m₀.stats = m.stats := by rw [hm₀]
  rw [hprocesses, hpolicy] at hmeeting
  rw [hprocesses] at hbare₁
  rw [hstats] at hstats₁
  have hname := hmeeting.ref_eq h.coherent.residency.named
  -- the process is found as it was, but for its pages
  obtain ⟨p₁, hp₁, hunpaged⟩ : ∃ p₁, m₁.processes.get? p.pid = some p₁ ∧ p₁.unpaged = p.unpaged := by
    refine ProcessTable.bare?_eq_some_iff.1 ?_
    rw [hbare₁, hq]
  have hpid : p₁.pid = p.pid := (congrArg Process.pid hunpaged :)
  have hjournal : m₀.journal = (m.switchTo now p.pid).journal := by rw [fetch_cases hfetch]
  have htable : (m₁.processes = m₀.processes ∨ m₁.processes = m₀.processes.putPage page) ∧
      m₁.journal = m₀.journal := by
    -- the journal has no entry for a page that is met
    rcases meetPage_cases hmeet with ⟨-, rfl⟩ | ⟨-, -, -, rfl⟩
    · exact ⟨.inl rfl, rfl⟩
    · exact ⟨.inr rfl, rfl⟩
  rw [hprocesses, hjournal] at htable
  refine ⟨record, page, m₁, p₁, hrecord, hname, hpid.symm ▸ hp₁, hunpaged, htable.1, hmeeting, hstats₁,
    htable.2, ?_⟩
  rcases hexecute with ⟨hresident, hhit⟩ | ⟨hout, hmiss⟩
  · rw [hresident] at hhit
    exact .inl ⟨hresident, hhit⟩
  · rw [hout] at hmiss
    exact .inr ⟨hout, hmiss⟩

/-- **An executed reference.** What becomes of the process is known from the outcome; whether that is a
hit or a miss is read off the count of hits, which is how the outcome and the pages are found to speak of
the same reference. -/
theorem Sound.executed {diskPenalty : Nat} (h : m.Sound chart)
    (hhead : m.processes.head? .runnable = some pid) (hhits : m.stats.totals.hits + 1 < 2 ^ 64)
    (hmisses : m.stats.totals.misses + 1 < 2 ^ 64)
    (hrun : m.runReference now diskPenalty pid = .ok (.ok (), m')) :
    ∃ q q' record hit, Executed chart m m' pid q q' record hit := by
  obtain ⟨_, q, q', record, hit, hrun', -, hq, hrunnable, hrecord, hbare, houtcome, -, -, -,
    hreferences⟩ := runReference_eq_ok h hhead hhits hmisses now diskPenalty
  cases hrun.symm.trans hrun'
  obtain ⟨rest, hqueue⟩ : ∃ rest, m.processes.queue .runnable = pid :: rest :=
    List.head?_eq_some_iff.1 hhead
  obtain ⟨p, hp, rfl⟩ := ProcessTable.bare?_eq_some_iff.1 hq
  obtain rfl := h.lined.pid_of_get? hp
  obtain ⟨record', page, m₁, p₁, hmeets⟩ := h.exists_meets hp hrunnable hrun
  cases hrecord.symm.trans hmeets.record_eq
  refine ⟨_, q', record, hit, hq, hrunnable, hrecord, hbare, ?_, hreferences, houtcome.evictions_eq,
    hmeets.ousted_eq⟩
  have hp₁ := hmeets.found
  have hpid := hmeets.pid_eq
  have hstate := hmeets.state_eq.trans hrunnable
  have hname : page.ref.pid = p₁.pid := by
    rw [hmeets.ref_eq, hpid]
    exact (h.stands hq).pid_of_record hrecord
  have hq' : m'.processes.bare? p₁.pid = some q' := by rw [hbare, hpid, Function.update_self]
  rw [← hmeets.queue_eq.1, ← hpid] at hqueue
  -- so far nobody has gone
  have hgone : ∀ found, (m₁.note (.referenced now record.page p.line found)).departures =
      m.departures := fun _ =>
    (told_note_of_none rfl).trans (hmeets.told_eq fun _ => rfl)
  -- a hit counts one more and a miss none, so the count says which of them the outcome is
  rcases hmeets.done with ⟨hresident, hhit⟩ | ⟨hout, hmiss⟩
  · have hnamed := hmeets.meeting.named fun _ _ => h.coherent.residency.named
    obtain ⟨hleft, hcount⟩ := left_of_hit (m := m₁.note _) hp₁ hstate hqueue hname hnamed hhit hq'
    have htrue : hit = true := by
      have hsame : m₁.stats.totals.hits + 1 = m.stats.totals.hits + hit.toNat :=
        hcount.symm.trans houtcome.hits_eq
      rw [hmeets.stats_eq] at hsame
      exact Bool.toNat_eq_one.1 (by omega)
    subst htrue
    obtain ⟨policy, haccess, hleft⟩ := hleft
    rw [hgone] at hleft
    exact ⟨page, m₁.policy, policy, m₁.processes.page?, hmeets.meeting, hresident.symm, (by simp),
      fun _ => ⟨houtcome.passes, haccess⟩, hleft⟩
  · obtain ⟨hpolicy', hpages', hcount⟩ := page?_of_miss (m := m₁.note _) hp₁ hqueue hname hmiss
    have hfalse : hit = false := by
      have hsame : m₁.stats.totals.hits = m.stats.totals.hits + hit.toNat :=
        hcount.symm.trans houtcome.hits_eq
      rw [hmeets.stats_eq] at hsame
      exact Bool.toNat_eq_zero.1 (by omega)
    subst hfalse
    obtain ⟨hblocked, hpending⟩ := houtcome.waits
    have hgoing : q'.state ≠ .finished := fun hfinished => by cases hblocked.symm.trans hfinished
    exact ⟨page, m₁.policy, m₁.policy, m₁.processes.page?, hmeets.meeting, hout.symm,
      fun _ => ⟨hblocked, hpending, rfl⟩, (by simp),
      .of_going hgoing hpolicy' hpages' ((told_of_miss rfl hmiss).trans (hgone _))⟩

/-! ### What each move preserves -/

/-- A machine between two moves of a simulation. What holds of all of them may be used when it is shown
that a move preserves something. -/
structure Going (chart : Chart) (config : ValidConfig) (m : Machine) : Prop where
  /-- It is sound. -/
  sound : m.Sound chart
  /-- It replays the trace. -/
  replays : m.Replays chart
  /-- The memory has the size that was asked for. -/
  size_eq : m.frames.size = config.totalFrames
  /-- The policy is of the kind that was asked for. -/
  kind_eq : m.policy.kind = config.policy

/-- A machine moves. A step of a simulation is one wait, the disk reads that are due, and at most one
reference. -/
inductive Moved (chart : Chart) (m : Machine) : Machine → Prop where
  /-- Time passes, which counts no reference and no eviction. -/
  | wait (stats : Stats) (elapsed : Nat) (hhits : stats.totals.hits = m.stats.totals.hits)
    (hmisses : stats.totals.misses = m.stats.totals.misses)
    (hevictions : stats.totals.evictions = m.stats.totals.evictions) :
    Moved chart m { m with stats, processes := m.processes.passTime elapsed }
  /-- A disk read is completed. -/
  | read {m' : Machine} {pid : Pid} {q q' : Process} (h : Completed chart m m' pid q q') :
    Moved chart m m'
  /-- A reference is executed. -/
  | refer {m' : Machine} {pid : Pid} {q q' : Process} {record : TraceRecord} {hit : Bool}
    (h : Executed chart m m' pid q q' record hit) : Moved chart m m'

/-- A property that no move takes away. It need not hold of every machine, only be kept between those
that a simulation goes through. -/
def Preserved (chart : Chart) (config : ValidConfig) (P : Machine → Prop) : Prop :=
  ∀ {m m'}, m.Going chart config → m'.Going chart config → Moved chart m m' → P m → P m'

/-- A disk read that is due is completed, with what is asked of the machine for that to succeed. -/
structure Reads (chart : Chart) (now : Nat) (m m' : Machine) (pid : Pid) (q : Process) : Prop where
  /-- The machine is sound. -/
  before : m.Sound chart
  /-- It is so again. -/
  after : m'.Sound chart
  /-- The process waits. -/
  found : m.processes.bare? pid = some q
  /-- It is blocked. -/
  blocked : q.state = .blocked
  /-- The misses have been counted. -/
  misses_lt : m.stats.totals.misses < 2 ^ 64
  /-- Its disk read is completed. -/
  complete_eq : completeRead now m pid = .ok m'

namespace Reads

theorem exists_completed (h : Reads chart now m m' pid q) : ∃ q', Completed chart m m' pid q q' :=
  h.before.completed h.found h.blocked h.misses_lt h.complete_eq

theorem size_eq (h : Reads chart now m m' pid q) : m'.frames.size = m.frames.size := by
  obtain ⟨_, _, hcomplete, -, -, -, -, hsize, -⟩ :=
    completeRead_eq_ok h.before h.found h.blocked h.misses_lt now
  cases h.complete_eq.symm.trans hcomplete
  exact hsize

end Reads

/-- Of several disk reads the first one is completed, and those after it are still due. This is
the step of every induction over the disk reads of a step. -/
theorem Sound.exists_reads {due : List Pid} (h : m.Sound chart) (hnodup : (pid :: due).Nodup)
    (hdue : ∀ other ∈ pid :: due, ∃ q, m.processes.bare? other = some q ∧ q.state = .blocked)
    (hfit : m.stats.totals.misses < 2 ^ 64)
    (hfold : (pid :: due).foldlM (completeRead now) m = .ok m') :
    ∃ m₁ q, Reads chart now m m₁ pid q ∧ due.Nodup ∧
      (∀ other ∈ due, ∃ q, m₁.processes.bare? other = some q ∧ q.state = .blocked) ∧
      m₁.stats.totals.misses < 2 ^ 64 ∧ due.foldlM (completeRead now) m₁ = .ok m' := by
  obtain ⟨hnew, hrest⟩ := List.nodup_cons.1 hnodup
  obtain ⟨q, hq, hblocked⟩ := hdue pid List.mem_cons_self
  obtain ⟨m₁, q', hcomplete, h₁, -, hbare, hstats, -⟩ := completeRead_eq_ok h hq hblocked hfit now
  rw [List.foldlM_cons, hcomplete] at hfold
  refine ⟨m₁, q, ⟨h, h₁, hq, hblocked, hfit, hcomplete⟩, hrest, fun other hmem => ?_, ?_, hfold⟩
  · -- the other processes that are due are as they were
    have hne : other ≠ pid := fun heq => hnew (heq ▸ hmem)
    rw [hbare, Function.update_of_ne hne]
    exact hdue other (List.mem_cons_of_mem _ hmem)
  · rw [hstats]
    exact hfit

theorem Going.of_reads {config : ValidConfig} (h : m.Going chart config)
    (hread : Reads chart now m m' pid q) : m'.Going chart config := by
  obtain ⟨_, q', hcomplete, -, hpasses, hbare, hstats, hsize, hkind, hreferences⟩ :=
    completeRead_eq_ok h.sound hread.found hread.blocked hread.misses_lt now
  cases hread.complete_eq.symm.trans hcomplete
  refine ⟨hread.after, ?_, hsize.trans h.size_eq, hkind.trans h.kind_eq⟩
  refine h.replays.resume h.sound.lined hreferences (fun other => ?_) (by rw [hstats]) (by rw [hstats])
  -- the process that was read for has moved on, and no other has
  by_cases heq : other = pid
  · subst heq
    exact .inr ⟨q, q', hread.found, hread.blocked, hpasses, by rw [hbare, Function.update_self]⟩
  · exact .inl (by rw [hbare, Function.update_of_ne heq])

/-- What each move preserves is preserved by all disk reads that are due, one after the other.
By induction on the processes that are due, each of which is a move between two machines that go
on. -/
theorem Preserved.foldlM_completeRead {config : ValidConfig} {P : Machine → Prop}
    (hP : Preserved chart config P) {due : List Pid} (hgoing : m.Going chart config)
    (hnodup : due.Nodup) (hdue : ∀ pid ∈ due, ∃ q, m.processes.bare? pid = some q ∧ q.state = .blocked)
    (hfit : m.stats.totals.misses < 2 ^ 64) (hm : P m)
    (hfold : due.foldlM (completeRead now) m = .ok m') : P m' := by
  induction due generalizing m with
  | nil =>
    cases hfold
    exact hm
  | cons pid rest ih =>
    obtain ⟨m₁, q, hread, hrest, hleft, hfit₁, hfold⟩ :=
      hgoing.sound.exists_reads hnodup hdue hfit hfold
    obtain ⟨_, hcompleted⟩ := hread.exists_completed
    have hgoing₁ := hgoing.of_reads hread
    exact ih hgoing₁ hrest hleft hfit₁ (hP hgoing hgoing₁ (.read hcompleted) hm) hfold

/-- What two machines keep when each completes the disk read of a process, they keep when they complete
several. The processes are due in the same order, under numbers that may differ. -/
theorem foldlM_completeRead_of_both {c d : Chart} {n n' : Machine} {T : Machine → Machine → Prop}
    {f : Pid → Pid} (hf : f.Injective)
    (hT : ∀ {m n m' n' pid p q}, T m n → Reads c now m m' pid p → Reads d now n n' (f pid) q → T m' n')
    {due : List Pid} (h : T m n) (hm : m.Sound c) (hn : n.Sound d) (hnodup : due.Nodup)
    (hdue : ∀ pid ∈ due, ∃ q, m.processes.bare? pid = some q ∧ q.state = .blocked)
    (hdue' : ∀ pid ∈ due.map f, ∃ q, n.processes.bare? pid = some q ∧ q.state = .blocked)
    (hfit : m.stats.totals.misses < 2 ^ 64) (hfit' : n.stats.totals.misses < 2 ^ 64)
    (hfold : due.foldlM (completeRead now) m = .ok m')
    (hfold' : (due.map f).foldlM (completeRead now) n = .ok n') : T m' n' := by
  induction due generalizing m n with
  | nil =>
    cases hfold
    cases hfold'
    exact h
  -- each completes its first one, and the rest are due still
  | cons pid rest ih =>
    obtain ⟨m₁, p, hread, hrest, hleft, hfit₁, hfold⟩ := hm.exists_reads hnodup hdue hfit hfold
    obtain ⟨n₁, q, hread', -, hleft', hfit₁', hfold'⟩ :=
      hn.exists_reads (hnodup.map hf) hdue' hfit' hfold'
    exact ih (hT h hread hread') hread.after hread'.after hrest hleft hleft' hfit₁ hfit₁' hfold hfold'

end Machine

namespace Simulator

variable {chart : Chart} {s t : Simulator} {P : Machine → Prop} {n : Nat}

theorem Consistent.going (h : s.Consistent chart) : s.machine.Going chart s.config :=
  ⟨h.machine, h.replays, h.size_eq, h.kind_eq⟩

/-- **The rest of a step.** The disk reads that are due are completed, and then the first process that
can run, if there is one, executes its next reference. -/
theorem Underway.settle_cases (h : s.Underway chart) (hsettle : s.settle = .ok (.ok true, t)) :
    ∃ m, s.machine.processes.completed.foldlM (Machine.completeRead s.clock) s.machine = .ok m ∧
      m.Going chart s.config ∧
      ((m.processes.head? .runnable = none ∧ t = { s with machine := m }) ∨
        ∃ pid m', m.processes.head? .runnable = some pid ∧
          m.runReference s.clock s.config.diskPenalty pid = .ok (.ok (), m') ∧
          m.stats.totals.hits + 1 < 2 ^ 64 ∧ m.stats.totals.misses + 1 < 2 ^ 64 ∧
          m'.Going chart s.config ∧ t = { s with machine := m' }) := by
  obtain ⟨m, hcomplete, hunder, hpending⟩ := h.completeReads_eq_ok
  have hfold := hcomplete
  simp only [completeReads, Fault.bind_eq_ok_iff, Fault.pure_eq_ok_iff] at hfold
  obtain ⟨_, hfold, heq⟩ := hfold
  cases heq
  refine ⟨m, hfold, hunder.going, ?_⟩
  rw [settle, hcomplete] at hsettle
  cases hhead : m.processes.head? .runnable with
  -- nobody can run, and the step is over
  | none =>
    simp only [bind, Except.bind, hhead] at hsettle
    cases hsettle
    exact .inl ⟨rfl, rfl⟩
  -- the first of those that can run has its turn, and the counts have room for its reference
  | some pid =>
    obtain ⟨m', hrun, hsound⟩ := hunder.runReference_eq_ok hpending hhead
    have hrun : m.runReference s.clock s.config.diskPenalty pid = .ok (.ok (), m') := hrun
    simp only [bind, Except.bind, hhead, hrun] at hsettle
    cases hsettle
    have hfit : m.stats.totals.hits + m.stats.totals.misses + 1 < 2 ^ 64 := hunder.references_lt
    exact .inr ⟨pid, m', rfl, hrun, by omega, by omega, hsound.going, rfl⟩

/-- The processes that a disk read is complete for are blocked. -/
theorem Underway.blocked_of_completed (h : s.Underway chart) :
    ∀ pid ∈ s.machine.processes.completed,
      ∃ q, s.machine.processes.bare? pid = some q ∧ q.state = .blocked := by
  intro pid hpid
  obtain ⟨q, hq, hblocked, -⟩ := (ProcessTable.mem_completed_iff h.machine.lined).1 hpid
  exact ⟨q, hq, hblocked⟩

/-- What each move preserves is preserved when disk reads are completed and a reference is executed. -/
theorem Underway.preserves (h : s.Underway chart) (hP : Machine.Preserved chart s.config P)
    (hs : P s.machine) (hsettle : s.settle = .ok (.ok true, t)) : P t.machine := by
  have hfit := h.references_lt
  obtain ⟨m, hfold, hgoing, hcases⟩ := h.settle_cases hsettle
  have hm : P m := hP.foldlM_completeRead h.going (ProcessTable.nodup_completed h.machine.lined)
    h.blocked_of_completed (by omega) hs hfold
  rcases hcases with ⟨-, rfl⟩ | ⟨pid, m', hhead, hrun, hhits, hmisses, hgoing', rfl⟩
  · exact hm
  · obtain ⟨q, q', record, hit, hexecuted⟩ := hgoing.sound.executed hhead hhits hmisses hrun
    exact hP hgoing hgoing' (.refer hexecuted) hm

/-- What each move preserves is preserved by a step. -/
theorem Sound.preserves_step (h : s.Sound chart) (hP : Machine.Preserved chart s.config P)
    (hs : P s.machine) (hstep : s.step = .ok (.ok true, t)) : P t.machine := by
  obtain ⟨-, -, hwaited, hsettle⟩ := h.step_cases hstep
  exact hwaited.preserves hP (hP h.going hwaited.going (.wait _ _ rfl rfl rfl) hs) hsettle

/-- **What each move preserves** holds of all that a simulation reaches. By induction on the steps, with
the simulation sound before each of them. -/
theorem Sound.preserves (h : s.Sound chart) (hP : Machine.Preserved chart s.config P)
    (hs : P s.machine) (hreaches : s.Reaches n t) : P t.machine := by
  induction hreaches with
  | start => exact hs
  | step hreaches hstep ih =>
    obtain ⟨hsound, hconfig⟩ := h.of_reaches hreaches
    exact hsound.preserves_step (hconfig.symm ▸ hP) ih hstep

/-- A simulation at its start: what an invariant is shown of first, before it is shown that moves
preserve it. -/
structure Fresh (s : Simulator) : Prop where
  /-- No reference was executed. -/
  references_eq : s.machine.references = []
  /-- Nothing was counted. -/
  totals_eq : s.machine.stats.totals = {}
  /-- No page was met. -/
  pages_eq : s.machine.processes.page? = fun _ => none
  /-- Each process can run. -/
  ready : ∀ {pid p}, s.machine.processes.bare? pid = some p → p.state = .runnable
  /-- The policy is new. -/
  policy_eq : Policy.build s.config.policy s.config.totalFrames s.config.seed = .ok s.machine.policy
  /-- No page had to leave. -/
  ousted_eq : s.machine.ousted = []
  /-- No process has ended. -/
  departures_eq : s.machine.departures = []

theorem fresh_of_start {config : ValidConfig} {reader after : TraceReader} {stats : Stats}
    {survey : Survey} (hreach : reader.medium.bytes.size ≤ reader.medium.maxOffset)
    (hfresh : stats.totals = {})
    (hsurvey : reader.survey config.queueOrder = .ok (.ok survey, after))
    (h : start config reader stats = .ok (.ok s)) : s.Fresh := by
  obtain ⟨_, -, -, -, -, -, -, -, hmanned⟩ := TraceReader.survey_eq_ok hreach hsurvey
  obtain ⟨frames, policy, -, hpolicy, rfl⟩ := start_cases hsurvey h
  exact ⟨rfl, hfresh, hmanned.empty, hmanned.ready, hpolicy, rfl, rfl⟩

end Simulator

end DemandPaging
