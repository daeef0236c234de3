import DemandPaging.Proofs.Charting
import DemandPaging.Proofs.Paging

/-!
# Turns of a machine

A machine does two things with a process: it completes a disk read that the process waited for, and it
lets the process execute a reference. `Machine.Sound` is the state in which both succeed and which both
keep: the processes are lined up and stand on lines of their own, frames, policy and pages are coherent,
a page that is waited for is known and not in memory, and the counters balance.

* `completeRead_eq_ok`: a blocked process comes to its next record, or to its end.
* `runReference_eq_ok`: the first runnable process executes the record on its line; it comes to its next
  record or to its end if the page was in memory, and is blocked otherwise.

Every other process stays as it is but for the pages that it has in memory.
-/

namespace DemandPaging

namespace Process

variable {chart : Chart} {p p' : Process}

/-- A process past the record on its line. It is ready for its next record if it has one, and done
otherwise; either way it waits for nothing. Both kinds of turn end so, unless the page of a reference is
not in memory. -/
inductive Passes (chart : Chart) (p : Process) : Process → Prop where
  /-- It comes to its next record. -/
  | on {p₁ : Process} (h : p.Follows chart p₁) :
    Passes chart p { p₁ with state := .runnable, pending? := none }
  /-- It had no other. -/
  | off (h : p.AtEnd chart) : Passes chart p { p with state := .finished, pending? := none }

/-- Whether the process waited for a page before does not matter. The cursor does not look at that, and
what comes out waits for nothing in any case. -/
theorem Passes.of_waiting (h : Passes chart { p with pending? := none } p') : p.Passes chart p' := by
  cases h with
  | @on p₁ h =>
    -- the cursor moves the same way, and what the process waited for is cleared anyway
    have hnext : p.Follows chart { p₁ with pending? := p.pending? } := {
      cursor := by
        conv_lhs => rw [h.cursor]
      placed := ⟨h.placed.interval_mem, h.placed.owner, h.placed.line_mem⟩
      later := h.later
      position_eq := h.position_eq
      reads := h.reads
      nearest := h.nearest }
    have hpasses := Passes.on hnext
    exact hpasses
  | off h => exact .off ⟨h.next_eq, h.line_eq, h.last⟩

theorem Placed.of_unpaged (h : p.unpaged.Placed chart) : p.Placed chart :=
  ⟨h.interval_mem, h.owner, h.line_mem⟩

theorem Placed.unpaged (h : p.Placed chart) : p.unpaged.Placed chart :=
  ⟨h.interval_mem, h.owner, h.line_mem⟩

theorem Follows.unpaged (h : p.Follows chart p') : p.unpaged.Follows chart p'.unpaged where
  cursor := by
    rw [h.cursor]
    rfl
  placed := h.placed.unpaged
  later := h.later
  position_eq := h.position_eq
  reads := h.reads
  nearest := h.nearest

theorem AtEnd.unpaged (h : p.AtEnd chart) : p.unpaged.AtEnd chart :=
  ⟨h.next_eq, h.line_eq, h.last⟩

end Process

namespace Machine

variable {chart : Chart} {m m' : Machine} {pid : Pid} {p q : Process} {ref : PageRef} {page : Page}

/-- What holds of a machine between the steps of a simulation of the trace. Each clause is one that some
part of a turn could break: the queues and the cursors when a process moves on, the coherence of frames,
policy and pages when a page comes in or goes, the count of misses when one is waited for. -/
structure Sound (chart : Chart) (m : Machine) : Prop where
  /-- The processes are lined up by their states. -/
  lined : m.processes.Lined
  /-- The intervals are those of the trace. -/
  index_eq : m.index = chart.index
  /-- The reader stands somewhere in the trace. -/
  reader_eq : ∃ offset, m.reader = chart.medium.readerAt offset
  /-- Each process stands where its state says. -/
  stands : ∀ {pid p}, m.processes.bare? pid = some p → p.Stands chart
  /-- Frames, policy and pages agree. -/
  coherent : Coherent m.frames m.policy m.processes.page?
  /-- A process that is done has no pages. -/
  alive : ∀ {ref page p}, m.processes.page? ref = some page →
    m.processes.bare? ref.pid = some p → p.state ≠ .finished
  /-- A page that is waited for is known, and not in memory. -/
  awaited : ∀ {pid p ref}, m.processes.bare? pid = some p → p.pending? = some ref →
    ∃ page, m.processes.page? ref = some page ∧ page.frame? = none
  /-- Every miss brought a page into memory or is waited for. -/
  accounted : m.stats.totals.misses = m.balance + (m.processes.queue .blocked).length

namespace Sound

/-- A process waits for a page of its own, and only while it is blocked. What it waits for is the page of
the record that it stands on, and a process stands on records of its own. -/
theorem pid_of_pending (h : m.Sound chart) (hp : m.processes.bare? pid = some p)
    (hpending : p.pending? = some ref) : p.state = .blocked ∧ ref.pid = pid := by
  have hstands := h.stands hp
  cases hstate : p.state with
  | runnable =>
    -- in the other states a process waits for nothing
    have := (hstands.runnable hstate).1
    cases hpending.symm.trans this
  | finished =>
    have := (hstands.finished hstate).1
    cases hpending.symm.trans this
  | blocked =>
    obtain ⟨record, hrecord, hpage, -⟩ := hstands.blocked hstate
    cases hpending.symm.trans hpage
    refine ⟨rfl, ?_⟩
    rw [← h.lined.keyed hp]
    exact hstands.pid_of_record hrecord

/-- The parts of a turn put together. One process changed, and the pages of the others changed only in
that some of them may have left memory: none of them became known or unknown, and none came into memory.
What is said of the other processes then carries over from the machine before. -/
theorem update (h : m.Sound chart) (hlined : m'.processes.Lined) (hindex : m'.index = m.index)
    (hreader : ∃ offset, m'.reader = chart.medium.readerAt offset)
    (hbare : m'.processes.bare? = Function.update m.processes.bare? pid (some q))
    (hstands : q.Stands chart) (hcoherent : Coherent m'.frames m'.policy m'.processes.page?)
    (hknown : ∀ ref, ref.pid ≠ pid →
      (m'.processes.page? ref).isSome = (m.processes.page? ref).isSome)
    (hkept : ∀ ref page, ref.pid ≠ pid → m.processes.page? ref = some page → page.frame? = none →
      m'.processes.page? ref = some page)
    (hown : q.state = .finished → ∀ ref, ref.pid = pid → m'.processes.page? ref = none)
    (hpending : ∀ ref, q.pending? = some ref →
      ∃ page, m'.processes.page? ref = some page ∧ page.frame? = none)
    (haccounted : m'.stats.totals.misses = m'.balance + (m'.processes.queue .blocked).length) :
    m'.Sound chart where
  lined := hlined
  index_eq := hindex.trans h.index_eq
  reader_eq := hreader
  stands {other p} hp := by
    -- the process that had its turn is sound by assumption, the others are as they were
    rw [hbare, Function.update_apply] at hp
    split at hp
    · cases hp
      exact hstands
    · exact h.stands hp
  coherent := hcoherent
  alive {ref page p} hpage hp := by
    rw [hbare, Function.update_apply] at hp
    split at hp
    · next heq =>
      cases hp
      intro hstate
      rw [hown hstate ref heq] at hpage
      cases hpage
    · next hne =>
      have hsome := hknown ref hne
      rw [hpage, Option.isSome_some] at hsome
      -- a process that did not have its turn had a page then if it has one now
      obtain ⟨before, hbefore⟩ := Option.isSome_iff_exists.1 hsome.symm
      exact h.alive hbefore hp
  awaited {other p ref} hp hwait := by
    rw [hbare, Function.update_apply] at hp
    split at hp
    · cases hp
      exact hpending ref hwait
    · next hne =>
      obtain ⟨page, hpage, hframe⟩ := h.awaited hp hwait
      -- its page was left alone, since no other process has it
      have hpid := (h.pid_of_pending hp hwait).2
      exact ⟨page, hkept ref page (hpid ▸ hne) hpage hframe, hframe⟩
  accounted := haccounted

/-- A blocked process is one of those that the misses count, so an eviction more can be counted. -/
theorem evictions_lt (h : m.Sound chart) (hp : m.processes.bare? pid = some p)
    (hblocked : p.state = .blocked) (hfit : m.stats.totals.misses < 2 ^ 64) :
    m.stats.totals.evictions + 1 < 2 ^ 64 := by
  have hmem : pid ∈ m.processes.queue .blocked := h.lined.queued.2 ⟨p, hp, hblocked⟩
  have hpos := List.length_pos_of_mem hmem
  have := h.accounted
  rw [balance] at this
  omega

end Sound

/-! ### The second half of a turn -/

/-- A turn of a process in which its reference is done, and the cursor still stands on it. `before` is
the machine at the start of the turn. Here the two kinds of turn meet: a disk read that was completed and
a hit go on from it in the same way. -/
structure Midway (chart : Chart) (before m : Machine) (p : Process) : Prop where
  /-- The process is in the table. -/
  found : m.processes.get? p.pid = some p
  /-- It is on a line of its own. -/
  placed : p.Placed chart
  /-- It waits for nothing. -/
  pending_eq : p.pending? = none
  /-- The processes are lined up. -/
  lined : m.processes.Lined
  /-- The intervals are the same. -/
  index_eq : m.index = before.index
  /-- The reader stands somewhere in the trace. -/
  reader_eq : ∃ offset, m.reader = chart.medium.readerAt offset
  /-- No other process changed. -/
  bare_eq : m.processes.bare? = Function.update before.processes.bare? p.pid (some p.unpaged)
  /-- Frames, policy and pages agree. -/
  coherent : Coherent m.frames m.policy m.processes.page?
  /-- The other processes have the pages they had. -/
  known : ∀ ref, ref.pid ≠ p.pid →
    (m.processes.page? ref).isSome = (before.processes.page? ref).isSome
  /-- None of these has come into memory. -/
  kept : ∀ ref page, ref.pid ≠ p.pid → before.processes.page? ref = some page → page.frame? = none →
    m.processes.page? ref = some page
  /-- The counters balance when the process is not counted as blocked. -/
  accounted : m.stats.totals.misses = m.balance + (m.processes.queueWithout p .blocked).length

namespace Midway

variable {before : Machine} {p₁ : Process}

/-- The process goes on, in the queue of runnable processes. After a disk read it is queued anew; after a
hit it is queued anew or keeps its place, as the order of the queue asks for. -/
theorem goOn (h : Midway chart before m p) (hbefore : before.Sound chart) (hnext : p.Follows chart p₁)
    {t : ProcessTable} (ht : t = (m.processes.put p₁).relocate p₁ .runnable ∨
      (p.state = .runnable ∧ t = m.processes.put p₁)) :
    Sound chart { m with processes := t } ∧
      t.bare? = Function.update before.processes.bare? p.pid
        (some { p₁.unpaged with state := .runnable, pending? := none }) := by
  -- the move of the cursor changes nothing of the process but its place in the trace
  have hpid : p₁.pid = p.pid := by rw [hnext.cursor]
  have hstate : p₁.state = p.state := by rw [hnext.cursor]
  have hpages : p₁.pages = p.pages := by rw [hnext.cursor]
  have hwaits : p₁.pending? = none := by rw [hnext.cursor, h.pending_eq]
  have hfound : m.processes.get? p₁.pid = some p := hpid ▸ h.found
  have hput : (m.processes.put p₁).Lined := h.lined.put hfound hstate
  have hself : (m.processes.put p₁).get? p₁.pid = some p₁ := by
    rw [ProcessTable.get?_put, if_pos rfl]
  have hwithout : (m.processes.put p₁).queueWithout p₁ .blocked =
      m.processes.queueWithout p .blocked := by
    rw [ProcessTable.queueWithout, ProcessTable.queueWithout, hstate, hpid]
    rfl
  -- either way the table says the same of the processes and of their pages
  have hviews : t.Lined ∧ t.page? = m.processes.page? ∧
      t.bare? = Function.update before.processes.bare? p.pid
        (some { p₁.unpaged with state := .runnable, pending? := none }) ∧
      (t.queue .blocked).length = (m.processes.queueWithout p .blocked).length := by
    -- the process is queued anew, or keeps its place at the head
    rcases ht with rfl | ⟨hrunnable, rfl⟩
    · refine ⟨hput.relocate hself, ?_, ?_, ?_⟩
      · -- being queued touches neither the pages nor what the table says of the processes
        rw [ProcessTable.page?_relocate hself, ProcessTable.page?_put hfound hpages]
      · rw [ProcessTable.bare?_relocate, ProcessTable.bare?_put, Function.update_idem, h.bare_eq, hpid,
          Function.update_idem, ← hwaits]
        rfl
      · rw [ProcessTable.queue_relocate_of_ne (by decide), hwithout]
    · refine ⟨hput, ProcessTable.page?_put hfound hpages, ?_, ?_⟩
      · rw [ProcessTable.bare?_put, h.bare_eq, hpid, Function.update_idem, ← hwaits, ← hrunnable,
          ← hstate]
        rfl
      · rw [ProcessTable.queueWithout, hrunnable, if_neg (by decide)]
        rfl
  obtain ⟨hlined, hpage, hbare, hlength⟩ := hviews
  have hready := hnext.unpaged
  refine ⟨hbefore.update hlined h.index_eq h.reader_eq hbare (hready.stands rfl) ?_ ?_ ?_ ?_ ?_ ?_,
    hbare⟩
  · rw [hpage]
    exact h.coherent
  · intro ref hne
    rw [hpage]
    exact h.known ref hne
  · intro ref page hne hold hframe
    rw [hpage]
    exact h.kept ref page hne hold hframe
  · intro hfinished
    cases hfinished
  · intro ref hwait
    cases hwait
  · rw [hlength]
    exact h.accounted

/-- The process ends, and its pages are given up: their frames are free again, the policy forgets them,
and the table no longer knows them. -/
theorem endUp (h : Midway chart before m p) (hbefore : before.Sound chart) (hend : p.AtEnd chart)
    (now : Nat) :
    ∃ m', retire { m with processes := m.processes.put p } now p.pid = .ok m' ∧ m'.Sound chart ∧
      m'.processes.bare? = Function.update before.processes.bare? p.pid
        (some { p.unpaged with state := .finished, pending? := none }) ∧
      m'.stats = m.stats ∧ m'.frames.size = m.frames.size ∧ m'.policy.kind = m.policy.kind ∧
      m'.references = m.references := by
  -- what is put into the table is there already
  have hfound : (m.processes.put p).get? p.pid = some p := by
    rw [ProcessTable.get?_put, if_pos rfl]
  have hlined : (m.processes.put p).Lined := h.lined.put h.found rfl
  have hpage : (m.processes.put p).page? = m.processes.page? := ProcessTable.page?_put h.found rfl
  have hcoherent : Coherent m.frames m.policy (m.processes.put p).page? := hpage.symm ▸ h.coherent
  obtain ⟨m', hretire, hm', hsize, hkind, hcoherent', hreferences, hbalance⟩ :=
    retire_eq_ok (m := { m with processes := m.processes.put p }) hcoherent hlined hfound now
  have htable : m'.processes = (m.processes.put p).retired p := by rw [hm']
  have hstats : m'.stats = m.stats := by rw [hm']
  have hbare : m'.processes.bare? = Function.update before.processes.bare? p.pid
      (some { p.unpaged with state := .finished, pending? := none }) := by
    rw [htable, ProcessTable.bare?_retired, ProcessTable.bare?_put, Function.update_idem, h.bare_eq,
      Function.update_idem, ← h.pending_eq]
    rfl
  have hpage' : m'.processes.page? = fun ref =>
      if ref.pid = p.pid then none else m.processes.page? ref := by
    -- the pages of the process are gone, and those of the others are not
    rw [htable, ProcessTable.page?_retired hfound, hpage]
  refine ⟨m', hretire, hbefore.update (htable ▸ hlined.retired hfound) ?_ ?_ hbare
    (hend.unpaged.stands h.placed.unpaged rfl) hcoherent'
    ?_ ?_ ?_ ?_ ?_, hbare, hstats, hsize, hkind, hreferences⟩
  · -- retiring touches only the table, the frames, the policy and the journal
    rw [hm']
    exact h.index_eq
  · rw [hm']
    exact h.reader_eq
  · -- another process keeps its pages
    intro ref hne
    rw [hpage']
    exact (congrArg Option.isSome (if_neg hne)).trans (h.known ref hne)
  · intro ref page hne hold hframe
    rw [hpage']
    exact (if_neg hne).trans (h.kept ref page hne hold hframe)
  · -- the one that ended has none left, and waits for none
    intro _ ref heq
    rw [hpage']
    exact if_pos heq
  · intro ref hwait
    cases hwait
  · -- it was not counted as blocked any more, so no miss loses its page
    have hqueue : m'.processes.queue .blocked = m.processes.queueWithout p .blocked := by
      rw [htable, ProcessTable.queue_retired, ProcessTable.queue_relocate_of_ne (by decide)]
      rfl
    rw [hqueue, hstats, hbalance]
    exact h.accounted

end Midway

/-! ### Completing a disk read -/

/-- The page that a blocked process waits for comes in, and the process waits no longer. The cursor has
not moved yet: what was read for the record that missed is still to be left behind. -/
theorem Sound.exists_midway (h : m.Sound chart) (hp : m.processes.get? p.pid = some p)
    (hblocked : p.state = .blocked) (hfit : m.stats.totals.misses < 2 ^ 64) (now : Nat) :
    ∃ record frame m₁ m₂ p₂, p.pending? = some record.page ∧
      makeRoom { m with processes := m.processes.put { p with pending? := none } } now =
        .ok (frame, m₁) ∧
      m₁.loadPage now frame record.page = .ok m₂ ∧ Midway chart m m₂ p₂ ∧
      p₂.unpaged = { p.unpaged with pending? := none } ∧
      chart.record? p.line = some record ∧ p.position = record.nextOffset ∧
      m₂.stats = { m.stats with
        totals := { m.stats.totals with evictions := m₂.stats.totals.evictions } } ∧
      m₂.frames.size = m.frames.size ∧ m₂.policy.kind = m.policy.kind ∧
      m₂.references = m.references := by
  have hq := ProcessTable.bare?_of_get? hp
  have hstands := h.stands hq
  obtain ⟨record, hrecord, hpending, hposition⟩ := hstands.blocked hblocked
  obtain ⟨page, hpage, hframe⟩ := h.awaited hq hpending
  let m₀ : Machine := { m with processes := m.processes.put { p with pending? := none } }
  -- that the process no longer waits changes neither pages nor queues
  have hpage₀ : m₀.processes.page? = m.processes.page? := ProcessTable.page?_put hp rfl
  have hlined₀ : m₀.processes.Lined := h.lined.put hp rfl
  have hcoherent₀ : Coherent m₀.frames m₀.policy m₀.processes.page? := hpage₀.symm ▸ h.coherent
  obtain ⟨frame, m₁, m₂, hroom, hload, hpaged, hbalance, hknown, hkept⟩ :=
    pageIn_eq_ok hcoherent₀ (h.evictions_lt hq hblocked hfit)
      (show m₀.processes.page? record.page = some page from hpage₀ ▸ hpage) hframe now
  -- the process is found with other pages, and otherwise as it was
  have hbare₂ : m₂.processes.bare? =
      Function.update m.processes.bare? p.pid (some { p.unpaged with pending? := none }) :=
    hpaged.bare_eq.trans ProcessTable.bare?_put
  obtain ⟨p₂, hp₂, hunpaged⟩ : ∃ p₂, m₂.processes.get? p.pid = some p₂ ∧
      p₂.unpaged = { p.unpaged with pending? := none } := by
    refine ProcessTable.bare?_eq_some_iff.1 ?_
    rw [hbare₂, Function.update_self]
  have hpid : p₂.pid = p.pid := (congrArg Process.pid hunpaged :)
  have hstate : p₂.state = .blocked := (congrArg Process.state hunpaged :).trans hblocked
  have hqueue : m₂.processes.queue = m.processes.queue := by
    funext state
    rw [ProcessTable.queue, hpaged.queues_eq]
    rfl
  have hmid : Midway chart m m₂ p₂ := {
    found := hpid.symm ▸ hp₂
    placed := by
      refine Process.Placed.of_unpaged ?_
      rw [hunpaged]
      exact ⟨hstands.interval_mem, hstands.owner, hstands.line_mem⟩
    pending_eq := (congrArg Process.pending? hunpaged :)
    lined := hlined₀.congr (fun pid => by rw [hpaged.bare_eq]) hqueue
    index_eq := by rw [hpaged.frame_eq]
    reader_eq := by
      rw [hpaged.frame_eq]
      exact h.reader_eq
    bare_eq := by rw [hbare₂, hpid, hunpaged]
    coherent := hpaged.coherent
    known := fun ref _ => by rw [hknown, hpage₀]
    -- the page of another process may have left memory, but it cannot have come in
    kept := fun ref page hne hold hout => by
      -- the page that came in is one of the process itself
      refine hkept ref page (fun heq => hne ?_) (hpage₀ ▸ hold) hout
      rw [heq, hpid]
      exact hstands.pid_of_record hrecord
    -- the miss is now counted by the page that came in
    accounted := by
      have hmem : p.pid ∈ m.processes.queue .blocked := h.lined.queued.2 ⟨_, hq, hblocked⟩
      have hpos := List.length_pos_of_mem hmem
      have hmisses : m₂.stats.totals.misses = m.stats.totals.misses := by rw [hpaged.stats_eq]
      have hbalance : m₂.balance = m.balance + 1 := hbalance
      rw [hmisses, hbalance, h.accounted, ProcessTable.queueWithout, if_pos hstate.symm, hqueue, hpid,
        List.length_erase_of_mem hmem]
      omega }
  exact ⟨record, frame, m₁, m₂, p₂, hpending, hroom, hload, hmid, hunpaged, hrecord, hposition,
    hpaged.stats_eq, hpaged.size_eq, hpaged.kind_eq, hpaged.references_eq⟩

/-- **A disk read is completed.** The process that waited for it comes to its next record or to its end,
and one page more has come into memory. Only the clock is not looked at: that the read takes its time is
a matter of the step that this is a part of. -/
theorem completeRead_eq_ok (h : m.Sound chart) (hq : m.processes.bare? pid = some q)
    (hblocked : q.state = .blocked) (hfit : m.stats.totals.misses < 2 ^ 64) (now : Nat) :
    ∃ m' q', completeRead now m pid = .ok m' ∧ m'.Sound chart ∧ q.Passes chart q' ∧
      m'.processes.bare? = Function.update m.processes.bare? pid (some q') ∧
      m'.stats = { m.stats with
        totals := { m.stats.totals with evictions := m'.stats.totals.evictions } } ∧
      m'.frames.size = m.frames.size ∧ m'.policy.kind = m.policy.kind ∧
      m'.references = m.references := by
  obtain ⟨p, hp, rfl⟩ := ProcessTable.bare?_eq_some_iff.1 hq
  obtain rfl := h.lined.pid_of_get? hp
  obtain ⟨record, frame, m₁, m₂, p₂, hpending, hroom, hload, hmid, hunpaged, hrecord, hposition,
    hstats, hsize, hkind, hreferences⟩ := h.exists_midway hp hblocked hfit now
  have hpid : p₂.pid = p.pid := (congrArg Process.pid hunpaged :)
  -- coming in is over, and the process stands where it stood before
  have hline : p₂.line = p.line := (congrArg Process.line hunpaged :)
  have hposition₂ : p₂.position = record.nextOffset :=
    (congrArg Process.position hunpaged :).trans hposition
  have hp₂ : m₂.processes.get? p.pid = some p₂ := hpid ▸ hmid.found
  have hindex : m₂.index = chart.index := hmid.index_eq.trans h.index_eq
  unfold completeRead
  simp only [ProcessTable.process_eq_ok hp, hpending, hroom, hload, ProcessTable.process_eq_ok hp₂,
    Fault.demand, hposition₂, bind, Except.bind]
  have hmoved := Process.advance_eq_ok hmid.placed (hline.symm ▸ hrecord)
  rw [← hindex] at hmoved
  rcases hmoved with ⟨step, p₃, hadvance, hstep, hnext⟩ | ⟨hadvance, hend⟩
  -- the process has a record left, and is queued for it
  · have hpid₃ : p₃.pid = p₂.pid := by rw [hnext.cursor]
    obtain ⟨hsound, hbare⟩ := hmid.goOn h hnext (.inl rfl)
    have hself : (m₂.processes.put p₃).get? p.pid = some p₃ := by
      rw [ProcessTable.get?_put, if_pos (hpid₃.trans hpid).symm]
    have hlined : (m₂.processes.put p₃).Lined := by
      refine hmid.lined.put (hpid₃.symm ▸ hmid.found) ?_
      rw [hnext.cursor]
    have hpasses := Process.Passes.on hnext.unpaged
    rw [hunpaged] at hpasses
    refine ⟨_, _, ?_, hsound, hpasses.of_waiting, hpid ▸ hbare, hstats, hsize, hkind, hreferences⟩
    rw [hadvance]
    cases step with
    -- the advance has found a record, so the intervals are not exhausted
    | exhausted => exact absurd rfl hstep
    | nextLine | nextInterval =>
      simp only [ProcessTable.setState_eq_ok hlined hself]
      rfl
  -- it has none left, and ends
  · obtain ⟨m', hretire, hsound, hbare, hstats', hsize', hkind', hreferences'⟩ := hmid.endUp h hend now
    have hpasses := Process.Passes.off hend.unpaged
    rw [hunpaged] at hpasses
    rw [hunpaged, hpid] at hbare
    refine ⟨m', _, ?_, hsound, hpasses.of_waiting, hbare, ?_, hsize'.trans hsize,
      hkind'.trans hkind, hreferences'.trans hreferences⟩
    · rw [hadvance]
      exact hpid ▸ hretire
    · rw [hstats']
      exact hstats

/-! ### Executing a reference -/

/-- What a reference does to its process and to the totals, by whether its page is in memory. After a
miss the cursor stays on the line, but the position is already that of the record after it, where reading
goes on when the page has come. -/
inductive Outcome (chart : Chart) (diskPenalty : Nat) (record : TraceRecord) (q : Process)
    (totals : Totals) : Bool → Process → Totals → Prop where
  /-- The process comes to its next record or to its end. -/
  | hit {q' : Process} (h : q.Passes chart q') :
    Outcome chart diskPenalty record q totals true q' { totals with hits := totals.hits + 1 }
  /-- The process waits for the disk. -/
  | miss : Outcome chart diskPenalty record q totals false
      { q with
        state := .blocked, pending? := some record.page, wait := diskPenalty
        position := record.nextOffset }
      { totals with misses := totals.misses + 1 }

theorem switchTo_eq (m : Machine) (now : Nat) (pid : Pid) : m.switchTo now pid =
    { m with
      lastRunning? := (m.switchTo now pid).lastRunning?
      journal := (m.switchTo now pid).journal } := by
  unfold switchTo
  -- a turn is noted only if another process had the one before
  split
  · split <;> rfl
  · rfl

theorem references_switchTo (m : Machine) (now : Nat) (pid : Pid) :
    (m.switchTo now pid).references = m.references ∧ (m.switchTo now pid).balance = m.balance := by
  unfold switchTo
  split
  · split
    · exact ⟨rfl, rfl⟩
    · refine ⟨references_note.trans (List.append_nil _), ?_⟩
      rw [balance, released_note]
      exact congrArg _ (Nat.zero_add _)
  · exact ⟨rfl, rfl⟩

/-- **Fetching.** A runnable process finds the record on its line. The reader may stand anywhere, as
another process may have had its turn in between: it is moved to the position of the process. -/
theorem fetch_eq_ok (hindex : m.index = chart.index)
    (hreader : ∃ offset, m.reader = chart.medium.readerAt offset) (hplaced : p.Placed chart)
    {record : TraceRecord} (hrecord : chart.record? p.line = some record)
    (hreads : chart.medium.Reads p.position record) :
    m.fetch p = (.ok record, { m with reader := chart.medium.readerAt record.nextOffset }) := by
  obtain ⟨offset, hoffset⟩ := hreader
  -- the interval of the process has its line, so the index finds it
  have hfind : m.index.find? p.pid p.line = some p.interval := by
    rw [hindex, ← hplaced.owner]
    exact IntervalIndex.find?_eq_some_of_mem chart.ordered hplaced.interval_mem hplaced.line_mem
  -- wherever the last turn left the reader, it is moved to the record
  have hseek : m.reader.seek p.position = (.ok (), chart.medium.readerAt p.position) := by
    rw [hoffset]
    exact Medium.seek_readerAt chart.steady (Nat.le_of_lt hreads.lt_size)
  -- the record that is read there is one of the process
  have hnext : (chart.medium.readerAt p.position).next =
      (.ok (some record), chart.medium.readerAt record.nextOffset) := hreads
  unfold fetch
  simp only [hfind, hseek, hnext, hplaced.pid_of_record hrecord, if_true]

/-- The page of a reference is known, or becomes it. A page that becomes known is not in memory, and the
policy gives it a place of its own at once. -/
theorem meetPage_eq_ok (h : Coherent m.frames m.policy m.processes.page?)
    (hp : m.processes.get? ref.pid = some p) :
    ∃ page m', m.meetPage ref = .ok (page, m') ∧ m.Paged m' ∧
      m' = { m with processes := m'.processes, policy := m'.policy } ∧ page.ref = ref ∧
      m'.processes.page? = Function.update m.processes.page? ref (some page) := by
  unfold meetPage
  cases hpage : m.processes.page? ref with
  | some page =>
    -- the page is known already, and nothing changes
    refine ⟨page, m, rfl, ⟨rfl, rfl, rfl, h, rfl, rfl, rfl, rfl, rfl⟩, rfl, h.residency.named hpage, ?_⟩
    rw [← hpage, Function.update_eq_self]
  | none =>
    -- a new page has no frame, so frames and policy follow it as they are
    let page : Page := { ref, overhead := (m.policy.track ref).1 }
    have hupdate : (m.processes.putPage page).page? =
        Function.update m.processes.page? ref (some page) := ProcessTable.page?_putPage page hp
    refine ⟨page, { m with processes := m.processes.putPage page, policy := (m.policy.track ref).2 },
      ?_, ⟨rfl, rfl, Policy.kind_track, ?_, ProcessTable.bare?_putPage, rfl, rfl, rfl, rfl⟩, rfl, rfl,
      hupdate⟩
    · simp only [ProcessTable.addPage_eq_ok hp hpage, bind, Except.bind]
      rfl
    · show Coherent m.frames (m.policy.track ref).2 (m.processes.putPage page).page?
      rw [hupdate]
      exact h.track hpage

/-- The reader, the journal and the process that had its turn last do not matter for soundness, as long
as the reader stands somewhere in the trace and the journal tells of no page that was given up. -/
theorem Sound.congr (h : m.Sound chart)
    (hm' : m' = { m with
      reader := m'.reader, lastRunning? := m'.lastRunning?, journal := m'.journal })
    (hreader : ∃ offset, m'.reader = chart.medium.readerAt offset) (hbalance : m'.balance = m.balance) :
    m'.Sound chart where
  lined := by
    rw [hm']
    exact h.lined
  index_eq := by
    rw [hm']
    exact h.index_eq
  reader_eq := hreader
  stands := by
    rw [hm']
    exact h.stands
  coherent := by
    rw [hm']
    exact h.coherent
  alive := by
    rw [hm']
    exact h.alive
  awaited := by
    rw [hm']
    exact h.awaited
  accounted := by
    rw [hbalance, hm']
    exact h.accounted

/-- When the page of its reference is known, a runnable process is in the middle of its turn. That the
reference was noted releases nothing, so the balance is the one before. -/
theorem Sound.midway_of_meetPage (h : m.Sound chart) (hp : m.processes.get? p.pid = some p)
    (hrunnable : p.state = .runnable) {record : TraceRecord} (hpid : record.pid = p.pid)
    {m₁ : Machine} (hpaged : m.Paged m₁)
    (hm₁ : m₁ = { m with processes := m₁.processes, policy := m₁.policy })
    (hpages : m₁.processes.page? = Function.update m.processes.page? record.page (some page))
    {event : Event} (hquiet : event.released = 0) :
    ∃ p₁, Midway chart m (m₁.note event) p₁ ∧ p₁.unpaged = p.unpaged := by
  -- the process is found as before, but perhaps with a page more
  have hq := ProcessTable.bare?_of_get? hp
  have hstands := h.stands hq
  obtain ⟨p₁, hp₁, hunpaged⟩ : ∃ p₁, m₁.processes.get? p.pid = some p₁ ∧ p₁.unpaged = p.unpaged := by
    refine ProcessTable.bare?_eq_some_iff.1 ?_
    rw [hpaged.bare_eq, hq]
  have hpid₁ : p₁.pid = p.pid := (congrArg Process.pid hunpaged :)
  have hstate : p₁.state = .runnable := (congrArg Process.state hunpaged :).trans hrunnable
  have hother : ∀ ref, ref.pid ≠ p₁.pid → m₁.processes.page? ref = m.processes.page? ref := by
    intro ref hne
    -- the page met is one of the process itself
    rw [hpages, Function.update_of_ne]
    rintro rfl
    exact hne (hpid₁.symm ▸ hpid)
  have hqueue : m₁.processes.queue = m.processes.queue := by
    funext state
    rw [ProcessTable.queue, hpaged.queues_eq]
    rfl
  refine ⟨p₁, {
    found := hpid₁.symm ▸ hp₁
    placed := by
      refine Process.Placed.of_unpaged ?_
      rw [hunpaged]
      exact hstands.toPlaced
    pending_eq := (congrArg Process.pending? hunpaged :).trans (hstands.runnable hrunnable).1
    lined := h.lined.congr (fun pid => congrArg (Option.map _) (congrFun hpaged.bare_eq pid)) hqueue
    index_eq := by
      rw [hm₁]
      rfl
    reader_eq := by
      rw [hm₁]
      exact h.reader_eq
    bare_eq := by
      refine hpaged.bare_eq.trans ?_
      rw [hunpaged, hpid₁, ← hq, Function.update_eq_self]
    coherent := hpaged.coherent
    known := fun ref hne => congrArg Option.isSome (hother ref hne)
    kept := fun ref page hne hold _ => (hother ref hne).trans hold
    accounted := by
      have hbalance : (m₁.note event).balance = m.balance := by
        rw [balance, released_note, hquiet, Nat.zero_add, hm₁]
        rfl
      -- a runnable process is not in the queue of blocked ones, so nothing is left out of it
      have hwithout : (m₁.note event).processes.queueWithout p₁ .blocked =
          m.processes.queue .blocked := by
        rw [ProcessTable.queueWithout, if_neg (by rw [hstate]; decide)]
        exact congrFun hqueue _
      have hstats : (m₁.note event).stats = m.stats := by
        rw [hm₁]
        rfl
      rw [hbalance, hwithout, hstats]
      exact h.accounted }, hunpaged⟩

/-- **A hit.** The policy takes note of the use, the hit is counted, and the process comes to its next
record or to its end. -/
theorem Midway.hit_eq_ok {before : Machine} (h : Midway chart before m p) (hbefore : before.Sound chart)
    (hpage : m.processes.page? page.ref = some page) (hpid : page.ref.pid = p.pid)
    (hresident : page.isResident = true) {record : TraceRecord}
    (hrecord : chart.record? p.line = some record) {rest : List Pid}
    (hrunnable : p.state = .runnable) (hqueue : m.processes.queue .runnable = p.pid :: rest)
    (hfit : m.stats.totals.hits + 1 < 2 ^ 64) (now : Nat) :
    ∃ m' q', m.hit now page record.nextOffset = .ok m' ∧ m'.Sound chart ∧ p.unpaged.Passes chart q' ∧
      m'.processes.bare? = Function.update before.processes.bare? p.pid (some q') ∧
      m'.stats = { m.stats with totals := { m.stats.totals with hits := m.stats.totals.hits + 1 } } ∧
      m'.frames.size = m.frames.size ∧ m'.policy.kind = m.policy.kind ∧
      m'.references = m.references := by
  -- the policy takes note of the use, whichever place the page has in its order
  obtain ⟨frame, hframe⟩ := Page.isResident_iff.1 hresident
  obtain ⟨policy, haccess, hkind, hfollows⟩ :=
    Policy.noteAccess_eq_ok h.coherent.follows hpage hframe
  let stats := { m.stats with totals := { m.stats.totals with hits := m.stats.totals.hits + 1 } }
  have hcount : m.stats.noteHit = .ok stats := by
    simp only [Stats.noteHit, Totals.addHit, Fault.fit, hfit, if_true, bind, Except.bind]
    rfl
  -- the policy and the count of hits change nothing that matters for the rest of the turn
  have hmid : Midway chart before { m with policy, stats } p := {
    found := h.found
    placed := h.placed
    pending_eq := h.pending_eq
    lined := h.lined
    index_eq := h.index_eq
    reader_eq := h.reader_eq
    bare_eq := h.bare_eq
    coherent := ⟨h.coherent.residency, hfollows, h.coherent.nonempty⟩
    known := h.known
    kept := h.kept
    accounted := h.accounted }
  -- the cursor moves as it does after a disk read
  have hindex : m.index = chart.index := h.index_eq.trans hbefore.index_eq
  unfold hit
  simp only [haccess, hcount, hpid, ProcessTable.process_eq_ok h.found, bind, Except.bind]
  have hmoved := Process.advance_eq_ok h.placed hrecord
  rw [← hindex] at hmoved
  rcases hmoved with ⟨step, p₁, hadvance, hstep, hnext⟩ | ⟨hadvance, hend⟩
  · -- the process has a record left, and its place in the queue is a matter of the order
    have hpid₁ : p₁.pid = p.pid := by rw [hnext.cursor]
    have hself : (m.processes.put p₁).get? p.pid = some p₁ := by
      rw [ProcessTable.get?_put, if_pos hpid₁.symm]
    have hlined : (m.processes.put p₁).Lined := by
      refine h.lined.put (hpid₁.symm ▸ h.found) ?_
      rw [hnext.cursor]
    have hrequeue := ProcessTable.requeueHead_eq_ok hlined hqueue hself
    let t := if (m.processes.put p₁).order = .tracePosition then
      (m.processes.put p₁).relocate p₁ .runnable else m.processes.put p₁
    have htable : t = (m.processes.put p₁).relocate p₁ .runnable ∨
        (p.state = .runnable ∧ t = m.processes.put p₁) := by
      -- by trace position it is queued anew, and in order of arrival it stays at the head
      by_cases horder : (m.processes.put p₁).order = .tracePosition
      · exact .inl (if_pos horder)
      · exact .inr ⟨hrunnable, if_neg horder⟩
    obtain ⟨hsound, hbare⟩ := hmid.goOn hbefore hnext htable
    refine ⟨_, _, ?_, hsound, .on hnext.unpaged, hbare, rfl, rfl, hkind, rfl⟩
    rw [hadvance]
    cases step with
    -- an advance that finds a record is not the end
    | exhausted => exact absurd rfl hstep
    | nextLine | nextInterval =>
      simp only [hrequeue]
      rfl
  · -- it has none left, and ends
    obtain ⟨m', hretire, hsound, hbare, hstats, hsize, hkind', hreferences⟩ :=
      hmid.endUp hbefore hend now
    refine ⟨m', _, ?_, hsound, .off hend.unpaged, hbare, hstats, hsize, hkind'.trans hkind,
      hreferences⟩
    rw [hadvance]
    exact hretire

/-- **A miss.** The miss is counted, and the process is put from the head of the queue of runnable
processes into that of blocked ones. It waits for the page that it asked for, as long as a disk read
takes. -/
theorem Midway.miss_eq_ok {before : Machine} (h : Midway chart before m p)
    (hbefore : before.Sound chart) (hpage : m.processes.page? page.ref = some page)
    (hout : page.isResident = false) {record : TraceRecord}
    (hrecord : chart.record? p.line = some record) (hname : page.ref = record.page) {rest : List Pid}
    (hqueue : m.processes.queue .runnable = p.pid :: rest)
    (hfit : m.stats.totals.misses + 1 < 2 ^ 64) (now diskPenalty : Nat) :
    ∃ m', m.miss now diskPenalty page record.nextOffset = .ok m' ∧ m'.Sound chart ∧
      m'.processes.bare? = Function.update before.processes.bare? p.pid (some { p.unpaged with
        state := .blocked, pending? := some record.page, wait := diskPenalty
        position := record.nextOffset }) ∧
      m'.stats =
        { m.stats with totals := { m.stats.totals with misses := m.stats.totals.misses + 1 } } ∧
      m'.frames.size = m.frames.size ∧ m'.policy.kind = m.policy.kind ∧
      m'.references = m.references := by
  have hpid : page.ref.pid = p.pid := by
    rw [hname]
    exact h.placed.pid_of_record hrecord
  -- the cursor stays, and the position is that of the record after it
  let stats := { m.stats with totals := { m.stats.totals with misses := m.stats.totals.misses + 1 } }
  have hcount : m.stats.noteMiss = .ok stats := by
    simp only [Stats.noteMiss, Totals.addMiss, Fault.fit, hfit, if_true, bind, Except.bind]
    rfl
  let waiting : Process := { p with
    pending? := some page.ref, wait := diskPenalty, position := record.nextOffset }
  have hself : (m.processes.put waiting).get? p.pid = some waiting := by
    rw [ProcessTable.get?_put, if_pos rfl]
  have hput : (m.processes.put waiting).Lined := h.lined.put h.found rfl
  have hswitch := ProcessTable.switchHead_eq_ok hput hqueue hself .blocked
  let t := (m.processes.put waiting).relocate waiting .blocked
  -- being moved to another queue does not touch the pages
  have hpageEq : t.page? = m.processes.page? := by
    rw [ProcessTable.page?_relocate hself]
    exact ProcessTable.page?_put h.found rfl
  have hbare : t.bare? = Function.update before.processes.bare? p.pid (some { p.unpaged with
      state := .blocked, pending? := some record.page, wait := diskPenalty
      position := record.nextOffset }) := by
    rw [ProcessTable.bare?_relocate, ProcessTable.bare?_put, Function.update_idem, h.bare_eq,
      Function.update_idem, ← hname]
    rfl
  let m' : Machine := Machine.note { m with stats, processes := t } (.blocked now page.ref)
  refine ⟨m', ?_, hbefore.update (hput.relocate hself) h.index_eq h.reader_eq hbare
    (h.placed.unpaged.stands_blocked hrecord rfl) ?_ ?_ ?_ ?_ ?_ ?_, hbare, rfl, rfl, rfl, ?_⟩
  · -- the three steps of the turn succeed one after the other
    simp only [miss, hcount, hpid, ProcessTable.process_eq_ok h.found, bind, Except.bind]
    simp only [waiting] at hswitch
    rw [hswitch]
    rfl
  · -- frames, policy and pages are those of the machine in which the page was met
    show Coherent m.frames m.policy t.page?
    rw [hpageEq]
    exact h.coherent
  · intro ref hne
    show (t.page? ref).isSome = _
    rw [hpageEq]
    exact h.known ref hne
  · intro ref found hne hold hframe
    show t.page? ref = _
    rw [hpageEq]
    exact h.kept ref found hne hold hframe
  · -- it is blocked, and not done
    intro hfinished
    cases hfinished
  · rintro ref ⟨⟩
    -- the page that is waited for is the one that was met, and it is not in memory
    refine ⟨page, ?_, Option.not_isSome_iff_eq_none.1 (by rw [← Page.isResident, hout]; decide)⟩
    show t.page? record.page = some page
    rw [hpageEq, ← hname, hpage]
  -- one miss more, and one blocked process more
  · have hlength : (t.queue .blocked).length = (m.processes.queueWithout p .blocked).length + 1 := by
      rw [ProcessTable.queue_relocate_perm.length_eq, List.length_cons]
      rfl
    have hbalance : m'.balance = m.balance := by
      rw [balance, released_note]
      exact congrArg _ (Nat.zero_add _)
    show m.stats.totals.misses + 1 = m'.balance + (t.queue .blocked).length
    rw [hlength, hbalance, h.accounted]
    rfl
  · exact references_note.trans (List.append_nil _)

/-- A runnable process has its turn noted and finds the record on its line. Of the machine only the
reader, the journal and the note of who had the last turn are changed by that. -/
theorem Sound.exists_fetched (h : m.Sound chart) (hp : m.processes.get? p.pid = some p)
    (hrunnable : p.state = .runnable) (now : Nat) :
    ∃ record m₀, chart.record? p.line = some record ∧
      (m.switchTo now p.pid).processes.get? p.pid = some p ∧
      (m.switchTo now p.pid).fetch p = (.ok record, m₀) ∧ m₀.Sound chart ∧
      m₀ = { m with
        reader := m₀.reader, lastRunning? := m₀.lastRunning?, journal := m₀.journal } ∧
      m₀.references = m.references := by
  have hstands := h.stands (ProcessTable.bare?_of_get? hp)
  -- the record on its line is read at its position
  obtain ⟨-, record, hrecord, hreads⟩ := hstands.runnable hrunnable
  obtain ⟨hreferences, hbalance⟩ := references_switchTo m now p.pid
  have hswitch : m.switchTo now p.pid = { m with
      lastRunning? := (m.switchTo now p.pid).lastRunning?
      journal := (m.switchTo now p.pid).journal } := switchTo_eq m now p.pid
  -- the reader stands behind the record that was read
  let m₀ : Machine :=
    { m.switchTo now p.pid with reader := chart.medium.readerAt record.nextOffset }
  have hm₀ : m₀ = { m with
      reader := m₀.reader, lastRunning? := m₀.lastRunning?, journal := m₀.journal } := by
    show { m.switchTo now p.pid with reader := m₀.reader } = _
    rw [hswitch]
  have hindex : (m.switchTo now p.pid).index = chart.index := by
    rw [hswitch]
    exact h.index_eq
  have hreader : ∃ offset, (m.switchTo now p.pid).reader = chart.medium.readerAt offset := by
    rw [hswitch]
    exact h.reader_eq
  refine ⟨record, m₀, hrecord, ?_,
    fetch_eq_ok hindex hreader hstands.toPlaced.of_unpaged hrecord hreads,
    h.congr hm₀ ⟨_, rfl⟩ hbalance, hm₀, hreferences⟩
  rw [hswitch]
  exact hp

/-- **A record is executed.** The first runnable process executes the record on its line: the page is
met, the reference is noted, and then it is a hit or a miss, as the page is in memory or not. The journal
tells which of the two it was. -/
theorem execute_eq_ok (h : m.Sound chart) (hp : m.processes.get? p.pid = some p)
    (hrunnable : p.state = .runnable) {rest : List Pid}
    (hqueue : m.processes.queue .runnable = p.pid :: rest) {record : TraceRecord}
    (hrecord : chart.record? p.line = some record)
    (hhits : m.stats.totals.hits + 1 < 2 ^ 64) (hmisses : m.stats.totals.misses + 1 < 2 ^ 64)
    (now diskPenalty : Nat) :
    ∃ m' q' hit, m.execute now diskPenalty p.line record = .ok m' ∧ m'.Sound chart ∧
      m'.processes.bare? = Function.update m.processes.bare? p.pid (some q') ∧
      Outcome chart diskPenalty record p.unpaged m.stats.totals hit q' m'.stats.totals ∧
      m'.stats = { m.stats with totals := m'.stats.totals } ∧
      m'.frames.size = m.frames.size ∧ m'.policy.kind = m.policy.kind ∧
      m'.references = m.references ++ [{ line := p.line, page := record.page, hit }] := by
  -- the record is one of the process, so it is the process that knows the page
  have hpid : record.pid = p.pid :=
    (h.stands (ProcessTable.bare?_of_get? hp)).toPlaced.of_unpaged.pid_of_record hrecord
  have howner : m.processes.get? record.page.pid = some p := by
    show m.processes.get? record.pid = some p
    rw [hpid, hp]
  -- from here on the machine is the one in which the page is known
  obtain ⟨page, m₁, hmeet, hpaged, hm₁, hname, hpages⟩ := meetPage_eq_ok h.coherent howner
  let event := Event.referenced now record.page p.line page.isResident
  have hquiet : event.released = 0 := rfl
  obtain ⟨p₁, hmid, hunpaged⟩ :=
    h.midway_of_meetPage hp hrunnable hpid hpaged hm₁ hpages hquiet
  have hpid₁ : p₁.pid = p.pid := (congrArg Process.pid hunpaged :)
  have hline₁ : p₁.line = p.line := (congrArg Process.line hunpaged :)
  have hstate₁ : p₁.state = .runnable := (congrArg Process.state hunpaged :).trans hrunnable
  -- meeting a page leaves the cursor, the queues, the counters and the size of the memory alone
  have hrecord₁ : chart.record? p₁.line = some record := hline₁.symm ▸ hrecord
  have hpage₁ : (m₁.note event).processes.page? page.ref = some page := by
    show m₁.processes.page? page.ref = some page
    rw [hpages, hname, Function.update_self]
  have hqueue₁ : (m₁.note event).processes.queue .runnable = p₁.pid :: rest := by
    show m₁.processes.queues.get .runnable = _
    rw [hpaged.queues_eq, hpid₁, ← hqueue]
    rfl
  have hstats₁ : (m₁.note event).stats = m.stats := by
    rw [hm₁]
    rfl
  have hsize₁ : (m₁.note event).frames.size = m.frames.size := hpaged.size_eq
  have hkind₁ : (m₁.note event).policy.kind = m.policy.kind := hpaged.kind_eq
  have hreferences₁ : (m₁.note event).references =
      m.references ++ [{ line := p.line, page := record.page, hit := page.isResident }] := by
    rw [references_note, hpaged.references_eq]
    rfl
  unfold execute
  simp only [hmeet, bind, Except.bind]
  cases hresident : page.isResident with
  -- the page is in memory: the counter of hits has room, and the process moves on
  | true =>
    rw [← hstats₁] at hhits
    obtain ⟨m', q', hhit, hsound, hpasses, hbare, hstats, hsize, hkind, hreferences⟩ :=
      hmid.hit_eq_ok h hpage₁ (by rw [hname, hpid₁]; exact hpid) hresident hrecord₁ hstate₁ hqueue₁
        hhits now
    refine ⟨m', q', true, ?_, hsound, hpid₁ ▸ hbare, ?_, ?_, hsize.trans hsize₁, hkind.trans hkind₁, ?_⟩
    · rw [if_pos rfl, ← hresident]
      exact hhit
    · rw [hstats, hstats₁]
      exact .hit (hunpaged ▸ hpasses)
    · rw [hstats, hstats₁]
    · rw [hreferences, hreferences₁, hresident]
  -- the page is not in memory: the process is still the head of its queue, and leaves it
  | false =>
    rw [← hstats₁] at hmisses
    obtain ⟨m', hmiss, hsound, hbare, hstats, hsize, hkind, hreferences⟩ :=
      hmid.miss_eq_ok h hpage₁ hresident hrecord₁ hname hqueue₁ hmisses now diskPenalty
    rw [hunpaged, hpid₁] at hbare
    refine ⟨m', _, false, ?_, hsound, hbare, ?_, ?_, hsize.trans hsize₁, hkind.trans hkind₁, ?_⟩
    · rw [if_neg Bool.false_ne_true, ← hresident]
      exact hmiss
    · rw [hstats, hstats₁]
      exact .miss
    · rw [hstats, hstats₁]
    · rw [hreferences, hreferences₁, hresident]

/-- **A reference is executed.** The first runnable process reads the record on its line and executes it.
That the process stands at the head of its queue is all that is asked for: its line and its position
follow from its state. -/
theorem runReference_eq_ok (h : m.Sound chart) (hhead : m.processes.head? .runnable = some pid)
    (hhits : m.stats.totals.hits + 1 < 2 ^ 64) (hmisses : m.stats.totals.misses + 1 < 2 ^ 64)
    (now diskPenalty : Nat) :
    ∃ m' q q' record hit, m.runReference now diskPenalty pid = .ok (.ok (), m') ∧ m'.Sound chart ∧
      m.processes.bare? pid = some q ∧ q.state = .runnable ∧ chart.record? q.line = some record ∧
      m'.processes.bare? = Function.update m.processes.bare? pid (some q') ∧
      Outcome chart diskPenalty record q m.stats.totals hit q' m'.stats.totals ∧
      m'.stats = { m.stats with totals := m'.stats.totals } ∧
      m'.frames.size = m.frames.size ∧ m'.policy.kind = m.policy.kind ∧
      m'.references = m.references ++ [{ line := q.line, page := record.page, hit }] := by
  obtain ⟨rest, hqueue⟩ : ∃ rest, m.processes.queue .runnable = pid :: rest :=
    List.head?_eq_some_iff.1 hhead
  have hmem : pid ∈ m.processes.queue .runnable := by
    rw [hqueue]
    exact List.mem_cons_self
  -- the process at the head is one that can run
  obtain ⟨q, hq, hrunnable⟩ := h.lined.queued.1 hmem
  obtain ⟨p, hp, rfl⟩ := ProcessTable.bare?_eq_some_iff.1 hq
  obtain rfl := h.lined.pid_of_get? hp
  obtain ⟨record, m₀, hrecord, hp', hfetch, h₀, hm₀, hreferences₀⟩ :=
    h.exists_fetched hp hrunnable now
  -- fetching has moved the reader and added to the journal, and no more
  have hprocesses : m₀.processes = m.processes := by rw [hm₀]
  have hstats₀ : m₀.stats = m.stats := by rw [hm₀]
  have hsize₀ : m₀.frames.size = m.frames.size := by rw [hm₀]
  have hkind₀ : m₀.policy.kind = m.policy.kind := by rw [hm₀]
  rw [← hprocesses] at hp hqueue ⊢
  rw [← hstats₀] at hhits hmisses ⊢
  obtain ⟨m', q', hit, hexecute, hsound, hbare, houtcome, hstats, hsize, hkind, hreferences⟩ :=
    execute_eq_ok h₀ hp hrunnable hqueue hrecord hhits hmisses now diskPenalty
  refine ⟨m', p.unpaged, q', record, hit, ?_, hsound, ProcessTable.bare?_of_get? hp, hrunnable, hrecord,
    hbare, houtcome, hstats, hsize.trans hsize₀, hkind.trans hkind₀, ?_⟩
  · -- fetching has succeeded with the record, and execution goes on from there
    unfold runReference
    simp only [ProcessTable.process_eq_ok hp', hfetch, hexecute, bind, Except.bind]
    rfl
  · rw [hreferences, hreferences₀]
    rfl

end Machine

end DemandPaging
