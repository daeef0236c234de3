import DemandPaging.Simulator.Machine

/-!
# What was done

The operations of the machine, read backwards. From the answer of an operation one can tell what each
of its parts has answered, and so what it did (`…_cases`). Nothing is assumed of the machine here, so
that these statements can be used of two machines at the same time, and of one about which much is
known.
-/

namespace DemandPaging

/-! ### Processes -/

namespace Process

variable {p p' : Process} {index : IntervalIndex} {nextOffset : Nat} {step : CursorStep}

/-- Only the cursor of a process moves, and it stays where it is after the last line. -/
theorem advance_cases (h : p.advance index nextOffset = .ok (step, p')) :
    p' = { p with line := p'.line, interval := p'.interval, position := p'.position } ∧
      (step = .exhausted → p' = p) := by
  unfold advance at h
  -- on an interval that goes on, the line and the position are set, and the interval stays
  split at h
  · cases h
    exact ⟨rfl, fun heq => by cases heq⟩
  · -- at its end the process jumps to the next interval, if there is one
    simp only [Fault.bind_eq_ok_iff] at h
    obtain ⟨next?, hjump, h⟩ := h
    cases next? with
    | none =>
      cases h
      exact ⟨rfl, fun _ => rfl⟩
    | some p₁ =>
      cases h
      refine ⟨?_, fun heq => by cases heq⟩
      unfold jump? at hjump
      split at hjump
      · simp only [Fault.bind_eq_ok_iff, Fault.throw_ne_ok, false_and, and_false, exists_false] at hjump
      · simp only [Fault.pure_eq_ok_iff, Option.map_eq_some_iff] at hjump
        obtain ⟨interval, -, rfl⟩ := hjump
        rfl

end Process

namespace ProcessTable

variable {t t' : ProcessTable} {pid head : Pid} {page : Page} {ref : PageRef} {policy policy' : Policy}
  {state target : ProcessState} {pages : List Page}

theorem process_cases {p : Process} (h : t.process pid = .ok p) : t.get? pid = some p :=
  Fault.demand_eq_ok_iff.1 h

/-- A process changes its state by leaving the queue that it is in and entering another one. -/
theorem setState_cases (h : t.setState pid target = .ok t') :
    ∃ p, t.get? pid = some p ∧ pid ∈ t.queue p.state ∧
      t' = { t with queues := t.queues.set p.state ((t.queue p.state).erase pid) }.enter p target := by
  simp only [setState, Fault.bind_eq_ok_iff, Fault.pure_eq_ok_iff] at h
  obtain ⟨p, hp, _, hmem, rfl⟩ := h
  exact ⟨p, process_cases hp, by simpa using Fault.require_eq_ok_iff.1 hmem, rfl⟩

theorem switchHead_cases (h : t.switchHead state target = .ok (head, t')) :
    ∃ rest p, t.queue state = head :: rest ∧ t.get? head = some p ∧
      t' = { t with queues := t.queues.set state rest }.enter p target := by
  unfold switchHead at h
  -- an empty queue has no head
  split at h
  · cases h
  · next pid rest hqueue =>
    simp only [Fault.bind_eq_ok_iff, Fault.pure_eq_ok_iff, Prod.mk.injEq] at h
    obtain ⟨p, hp, rfl, rfl⟩ := h
    exact ⟨rest, p, hqueue, process_cases hp, rfl⟩

/-- The head of the queue of runnable processes is queued anew only if that queue is in order of the
trace; in order of arrival it keeps its place. -/
theorem requeueHead_cases (h : t.requeueHead = .ok t') :
    (t.order = .tracePosition ∧ t.queue .runnable ≠ [] ∧
      ∃ head, t.switchHead .runnable .runnable = .ok (head, t')) ∨
      (¬(t.order = .tracePosition ∧ t.queue .runnable ≠ []) ∧ t' = t) := by
  unfold requeueHead at h
  split at h
  · next hqueue =>
    simp only [Fault.bind_eq_ok_iff, Fault.pure_eq_ok_iff] at h
    obtain ⟨⟨head, t₁⟩, hswitch, rfl⟩ := h
    exact .inl ⟨hqueue.1, hqueue.2, head, hswitch⟩
  · next hqueue =>
    cases h
    exact .inr ⟨hqueue, rfl⟩

/-- A page becomes known as one that is not in memory, with what the policy has given it. -/
theorem addPage_cases (h : t.addPage ref policy = .ok (page, policy', t')) :
    (∃ p, t.get? ref.pid = some p) ∧ page = { ref, overhead := (policy.track ref).1 } ∧
      policy' = (policy.track ref).2 ∧ t' = t.putPage page := by
  simp only [addPage, Fault.bind_eq_ok_iff, Fault.pure_eq_ok_iff, Prod.mk.injEq] at h
  obtain ⟨p, hp, _, -, rfl, rfl, rfl⟩ := h
  exact ⟨⟨p, process_cases hp⟩, rfl, rfl, rfl⟩

theorem releasePages_cases (h : t.releasePages pid = .ok (pages, t')) :
    ∃ p, t.get? pid = some p ∧ pages = p.pages.values ∧ t' = t.put { p with pages := ∅ } := by
  simp only [releasePages, Fault.bind_eq_ok_iff, Fault.pure_eq_ok_iff, Prod.mk.injEq] at h
  obtain ⟨p, hp, rfl, rfl⟩ := h
  exact ⟨p, process_cases hp, rfl, rfl⟩

end ProcessTable

/-! ### Frames and the policy -/

namespace FrameTable

variable {frames frames' : FrameTable} {frame : FrameId} {page page' : Page}

theorem load_cases (h : frames.load frame page = .ok (frames', page')) :
    page.frame? = none ∧ page' = { page with frame? := some frame } ∧
      ∃ free, frames.free.occupy frame = .ok free ∧
        frames' = { holders := frames.holders.setIfInBounds frame (some page.ref), free } := by
  -- of the three ways in which a frame and a page can be found, only a free frame and a page outside can
  -- go on
  simp only [load, Fault.bind_eq_ok_iff] at h
  obtain ⟨holder?, -, h⟩ := h
  split at h
  · cases h
  · cases h
  · next hframe =>
    simp only [Fault.bind_eq_ok_iff, Fault.pure_eq_ok_iff, Prod.mk.injEq] at h
    obtain ⟨free, hfree, rfl, rfl⟩ := h
    exact ⟨hframe, rfl, free, hfree, rfl⟩

theorem evict_cases (h : frames.evict frame page = .ok (frames', page')) :
    page.frame? = some frame ∧ page' = { page with frame? := none } ∧
      ∃ free, frames.free.release frame = .ok free ∧
        frames' = { holders := frames.holders.setIfInBounds frame none, free } := by
  simp only [evict, Fault.bind_eq_ok_iff, Fault.pure_eq_ok_iff, Prod.mk.injEq] at h
  obtain ⟨_, -, _, -, _, hframe, free, hfree, rfl, rfl⟩ := h
  exact ⟨of_decide_eq_true (Fault.require_eq_ok_iff.1 hframe), rfl, free, hfree, rfl⟩

end FrameTable

namespace Policy

variable {policy policy' : Policy} {frames : FrameTable} {frame : FrameId} {owner? : Option PageRef}

/-- The frame for a page is free, or the policy has named it. In the second case it has an owner, which
has to leave. -/
theorem claim_cases (h : policy.claim frames = .ok (frame, owner?, policy')) :
    (frames.hasFree = true ∧ frames.allocate = .ok frame ∧ owner? = none ∧ policy' = policy) ∨
      ∃ owner, frames.hasFree = false ∧ policy.victim = .ok (frame, policy') ∧
        frames.holder? frame = .ok (some owner) ∧ owner? = some owner := by
  unfold claim at h
  -- a free frame is there, and the policy is not asked
  split at h
  · next hfree =>
    simp only [Fault.bind_eq_ok_iff, Fault.pure_eq_ok_iff, Prod.mk.injEq] at h
    obtain ⟨_, hallocate, rfl, rfl, rfl⟩ := h
    exact .inl ⟨hfree, hallocate, rfl, rfl⟩
  · next hfree =>
    simp only [Fault.bind_eq_ok_iff, Fault.pure_eq_ok_iff, Fault.demand_eq_ok_iff] at h
    obtain ⟨⟨_, _⟩, hvictim, _, hholder, owner, rfl, heq⟩ := h
    cases heq
    exact .inr ⟨owner, Bool.eq_false_iff.2 hfree, hvictim, hholder, rfl⟩

end Policy

/-! ### Statistics -/

namespace Stats

variable {s s' : Stats}

theorem noteHit_cases (h : s.noteHit = .ok s') :
    s' = { s with totals := { s.totals with hits := s.totals.hits + 1 } } := by
  simp only [noteHit, Totals.addHit, Fault.bind_eq_ok_iff, Fault.fit_eq_ok_iff,
    Fault.pure_eq_ok_iff] at h
  obtain ⟨_, ⟨_, ⟨-, rfl⟩, rfl⟩, rfl⟩ := h
  rfl

theorem noteMiss_cases (h : s.noteMiss = .ok s') :
    s' = { s with totals := { s.totals with misses := s.totals.misses + 1 } } := by
  simp only [noteMiss, Totals.addMiss, Fault.bind_eq_ok_iff, Fault.fit_eq_ok_iff,
    Fault.pure_eq_ok_iff] at h
  obtain ⟨_, ⟨_, ⟨-, rfl⟩, rfl⟩, rfl⟩ := h
  rfl

theorem noteEviction_cases (h : s.noteEviction = .ok s') :
    s' = { s with totals := { s.totals with evictions := s.totals.evictions + 1 } } := by
  simp only [noteEviction, Totals.addEviction, Fault.bind_eq_ok_iff, Fault.fit_eq_ok_iff,
    Fault.pure_eq_ok_iff] at h
  obtain ⟨_, ⟨_, ⟨-, rfl⟩, rfl⟩, rfl⟩ := h
  rfl

end Stats

/-! ### The machine -/

namespace Machine

variable {m m' : Machine} {now nextOffset diskPenalty line : Nat} {frame : FrameId}
  {owner ref : PageRef} {page : Page} {pid : Pid} {record : TraceRecord}

/-- A page that is dropped is forgotten by the policy, and leaves its frame if it has one. -/
theorem dropPage_cases (h : m.dropPage page = .ok m') :
    ∃ policy, m.policy.forget page = .ok policy ∧
      ((page.frame? = none ∧ m' = { m with policy }) ∨
        ∃ frame frames, page.frame? = some frame ∧
          m.frames.evict frame page = .ok (frames, { page with frame? := none }) ∧
          m' = { m with policy, frames }) := by
  simp only [dropPage, Fault.bind_eq_ok_iff] at h
  obtain ⟨policy, hforget, h⟩ := h
  refine ⟨policy, hforget, ?_⟩
  -- whether it is in memory decides whether a frame becomes free
  split at h
  · next frame hframe =>
    simp only [Fault.bind_eq_ok_iff, Fault.pure_eq_ok_iff] at h
    obtain ⟨⟨frames, page'⟩, hevict, rfl⟩ := h
    obtain ⟨-, rfl, -⟩ := FrameTable.evict_cases hevict
    exact .inr ⟨frame, frames, hframe, hevict, rfl⟩
  · next hframe =>
    cases h
    exact .inl ⟨hframe, rfl⟩

/-- A process that ends gives up all its pages, after it has left its queue. -/
theorem retire_cases (h : m.retire now pid = .ok m') :
    ∃ t p m₁, m.processes.setState pid .finished = .ok t ∧ t.get? pid = some p ∧
      p.pages.values.foldlM dropPage { m with processes := t.put { p with pages := ∅ } } = .ok m₁ ∧
      m' = m₁.note (.exited now pid p.pages.values.length p.residentCount) := by
  simp only [retire, Fault.bind_eq_ok_iff, Fault.pure_eq_ok_iff] at h
  obtain ⟨t, hstate, q, hq, ⟨pages, t'⟩, hrelease, m₁, hdrop, rfl⟩ := h
  obtain ⟨p, hp, rfl, rfl⟩ := ProcessTable.releasePages_cases hrelease
  cases hp.symm.trans (ProcessTable.process_cases hq)
  exact ⟨t, q, m₁, hstate, hp, hdrop, rfl⟩

/-- The owner of a frame leaves it: the eviction is counted and noted, and the page has no frame. -/
theorem evict_cases (h : m.evict now frame owner = .ok m') :
    ∃ page frames stats, m.processes.page? owner = some page ∧ page.frame? = some frame ∧
      m.frames.evict frame page = .ok (frames, { page with frame? := none }) ∧
      m.stats.noteEviction = .ok stats ∧
      m' = note { m with
        frames, processes := m.processes.putPage { page with frame? := none }, stats }
        (.evicted now owner frame) := by
  simp only [evict, Fault.bind_eq_ok_iff, Fault.pure_eq_ok_iff, Fault.demand_eq_ok_iff] at h
  obtain ⟨page, hpage, ⟨frames, page'⟩, hevict, stats, hstats, rfl⟩ := h
  obtain ⟨hframe, rfl, -⟩ := FrameTable.evict_cases hevict
  exact ⟨page, frames, stats, hpage, hframe, hevict, hstats, rfl⟩

/-- Room for a page: a frame that was free, or one whose owner had to leave. In the second case
the policy has let go of the frame before the page is taken out of it. -/
theorem makeRoom_cases (h : m.makeRoom now = .ok (frame, m')) :
    (m.frames.hasFree = true ∧ m.frames.allocate = .ok frame ∧ m' = m) ∨
      ∃ owner policy, m.frames.hasFree = false ∧ m.policy.victim = .ok (frame, policy) ∧
        m.frames.holder? frame = .ok (some owner) ∧
        evict { m with policy } now frame owner = .ok m' := by
  simp only [makeRoom, Fault.bind_eq_ok_iff] at h
  obtain ⟨⟨frame', owner?, policy⟩, hclaim, h⟩ := h
  -- the policy was asked only if no frame was free
  rcases Policy.claim_cases hclaim with ⟨hfree, hallocate, rfl, rfl⟩ |
    ⟨owner, hfull, hvictim, hholder, rfl⟩
  · cases h
    exact .inl ⟨hfree, hallocate, rfl⟩
  · simp only [Fault.bind_eq_ok_iff, Fault.pure_eq_ok_iff, Prod.mk.injEq] at h
    obtain ⟨_, hevict, rfl, rfl⟩ := h
    exact .inr ⟨owner, policy, hfull, hvictim, hholder, hevict⟩

/-- A page comes into a frame, which the frames, the table and the policy take note of. -/
theorem loadPage_cases (h : m.loadPage now frame ref = .ok m') :
    ∃ page frames policy, m.processes.page? ref = some page ∧ page.frame? = none ∧
      m.frames.load frame page = .ok (frames, { page with frame? := some frame }) ∧
      m.policy.noteLoad { page with frame? := some frame } = .ok policy ∧
      m' = note { m with
        frames, processes := m.processes.putPage { page with frame? := some frame }, policy }
        (.pagedIn now ref frame) := by
  simp only [loadPage, Fault.bind_eq_ok_iff, Fault.pure_eq_ok_iff, Fault.demand_eq_ok_iff] at h
  obtain ⟨page, hpage, ⟨frames, page'⟩, hload, policy, hnote, rfl⟩ := h
  obtain ⟨hframe, rfl, -⟩ := FrameTable.load_cases hload
  exact ⟨page, frames, policy, hpage, hframe, hload, hnote, rfl⟩

/-- A disk read that is completed, in its parts: the process waits no longer, there is room for the page,
the page comes in, and the cursor of the process moves on. It ends or is queued again, as the cursor
says. -/
theorem completeRead_cases (h : completeRead now m pid = .ok m') :
    ∃ p ref frame m₁ m₂ p₂ step p₃, m.processes.get? pid = some p ∧ p.pending? = some ref ∧
      makeRoom { m with processes := m.processes.put { p with pending? := none } } now =
        .ok (frame, m₁) ∧
      m₁.loadPage now frame ref = .ok m₂ ∧ m₂.processes.get? pid = some p₂ ∧
      p₂.advance m₂.index p₂.position = .ok (step, p₃) ∧
      ((step = .exhausted ∧ retire { m₂ with processes := m₂.processes.put p₃ } now pid = .ok m') ∨
        (step ≠ .exhausted ∧ ∃ t, (m₂.processes.put p₃).setState pid .runnable = .ok t ∧
          m' = { m₂ with processes := t })) := by
  simp only [completeRead, Fault.bind_eq_ok_iff, Fault.demand_eq_ok_iff] at h
  obtain ⟨p, hp, ref, hpending, ⟨frame, m₁⟩, hroom, m₂, hload, p₂, hp₂, ⟨step, p₃⟩, hadvance, h⟩ := h
  refine ⟨p, ref, frame, m₁, m₂, p₂, step, p₃, ProcessTable.process_cases hp, hpending, hroom, hload,
    ProcessTable.process_cases hp₂, hadvance, ?_⟩
  -- what is left to do depends on whether the cursor has found a record
  cases step with
  | exhausted => exact .inl ⟨rfl, h⟩
  | nextLine | nextInterval =>
    simp only [Fault.bind_eq_ok_iff, Fault.pure_eq_ok_iff] at h
    obtain ⟨t, ht, rfl⟩ := h
    exact .inr ⟨by decide, t, ht, rfl⟩

/-- The page of a reference is one that is known, or becomes known now. A page that becomes
known is in no frame. -/
theorem meetPage_cases (h : m.meetPage ref = .ok (page, m')) :
    (m.processes.page? ref = some page ∧ m' = m) ∨
      (m.processes.page? ref = none ∧ (∃ p, m.processes.get? ref.pid = some p) ∧
        page = { ref, overhead := (m.policy.track ref).1 } ∧
        m' = { m with
          policy := (m.policy.track ref).2, processes := m.processes.putPage page }) := by
  unfold meetPage at h
  split at h
  · next hpage =>
    cases h
    exact .inl ⟨hpage, rfl⟩
  · next hpage =>
    simp only [Fault.bind_eq_ok_iff, Fault.pure_eq_ok_iff, Prod.mk.injEq] at h
    obtain ⟨⟨page', policy, t⟩, hadd, rfl, rfl⟩ := h
    obtain ⟨hp, hpage', rfl, rfl⟩ := ProcessTable.addPage_cases hadd
    exact .inr ⟨hpage, hp, hpage', rfl⟩

/-- A hit: the policy takes note of the use, the hit is counted and the cursor moves on, as after a disk
read. A process that goes on may have to be queued anew. -/
theorem hit_cases (h : m.hit now page nextOffset = .ok m') :
    ∃ policy stats p step p₁, m.policy.noteAccess page = .ok policy ∧ m.stats.noteHit = .ok stats ∧
      m.processes.get? page.ref.pid = some p ∧ p.advance m.index nextOffset = .ok (step, p₁) ∧
      ((step = .exhausted ∧
        retire { m with policy, stats, processes := m.processes.put p₁ } now page.ref.pid = .ok m') ∨
        (step ≠ .exhausted ∧ ∃ t, (m.processes.put p₁).requeueHead = .ok t ∧
          m' = { m with policy, stats, processes := t })) := by
  simp only [hit, Fault.bind_eq_ok_iff] at h
  obtain ⟨policy, haccess, stats, hstats, p, hp, ⟨step, p₁⟩, hadvance, h⟩ := h
  refine ⟨policy, stats, p, step, p₁, haccess, hstats, ProcessTable.process_cases hp, hadvance, ?_⟩
  -- the same two endings as after a disk read
  cases step with
  | exhausted => exact .inl ⟨rfl, h⟩
  | nextLine | nextInterval =>
    simp only [Fault.bind_eq_ok_iff, Fault.pure_eq_ok_iff] at h
    obtain ⟨t, ht, rfl⟩ := h
    exact .inr ⟨by decide, t, ht, rfl⟩

/-- A miss: it is counted, and the process waits for the page, out of the queue of those that can run. -/
theorem miss_cases (h : m.miss now diskPenalty page nextOffset = .ok m') :
    ∃ stats p head t, m.stats.noteMiss = .ok stats ∧ m.processes.get? page.ref.pid = some p ∧
      (m.processes.put { p with
        pending? := some page.ref, wait := diskPenalty, position := nextOffset }).switchHead
        .runnable .blocked = .ok (head, t) ∧
      m' = note { m with stats, processes := t } (.blocked now page.ref) := by
  simp only [miss, Fault.bind_eq_ok_iff, Fault.pure_eq_ok_iff] at h
  obtain ⟨stats, hstats, p, hp, ⟨head, t⟩, hswitch, rfl⟩ := h
  exact ⟨stats, p, head, t, hstats, ProcessTable.process_cases hp, hswitch, rfl⟩

/-- A reference meets its page and is noted, and then it is a hit or a miss. -/
theorem execute_cases (h : m.execute now diskPenalty line record = .ok m') :
    ∃ page m₁ event, m.meetPage record.page = .ok (page, m₁) ∧
      event = Event.referenced now record.page line page.isResident ∧
      ((page.isResident = true ∧ (m₁.note event).hit now page record.nextOffset = .ok m') ∨
        (page.isResident = false ∧
          (m₁.note event).miss now diskPenalty page record.nextOffset = .ok m')) := by
  simp only [execute, Fault.bind_eq_ok_iff] at h
  obtain ⟨⟨page, m₁⟩, hmeet, h⟩ := h
  refine ⟨page, m₁, _, hmeet, rfl, ?_⟩
  split at h
  · next hresident => exact .inl ⟨hresident, h⟩
  · next hresident => exact .inr ⟨Bool.eq_false_iff.2 hresident, h⟩

/-- A turn that went well has fetched a record and executed it. The line that is passed on is
that of the process before its turn. -/
theorem runReference_cases (h : m.runReference now diskPenalty pid = .ok (.ok (), m')) :
    ∃ p record m₀, (m.switchTo now pid).processes.get? pid = some p ∧
      (m.switchTo now pid).fetch p = (.ok record, m₀) ∧
      m₀.execute now diskPenalty p.line record = .ok m' := by
  simp only [runReference, Fault.bind_eq_ok_iff] at h
  obtain ⟨p, hp, h⟩ := h
  refine ⟨p, ?_⟩
  -- a turn in which fetching fails does not go well
  split at h
  · next hfetch => cases h
  · next record m₀ hfetch =>
    simp only [Fault.bind_eq_ok_iff, Fault.pure_eq_ok_iff, Prod.mk.injEq, true_and] at h
    obtain ⟨_, hexecute, rfl⟩ := h
    exact ⟨record, m₀, ProcessTable.process_cases hp, hfetch, hexecute⟩

end Machine

end DemandPaging
