import DemandPaging.Proofs.Ample
import DemandPaging.Proofs.Recency
import DemandPaging.Proofs.Waiting
import Mathlib.Algebra.BigOperators.Group.List.Lemmas
import Mathlib.Algebra.Order.BigOperators.Group.List

/-!
# Pages that leave memory

A page leaves memory in one of two ways, and only the first one is counted as an eviction: it has to make
room for another page, or its process ends. So each miss is accounted for by an eviction, by a page in
memory, by a process that waits, or by a page that was in memory when its process ended
(`Conserves.misses_eq`).

The journal tells of the ends of processes (`Machine.departures`). Each process that has ended is there
once, with at least one page, the last one that it referred to, and with no more pages than the trace
names for it (`Machine.Departed`). When every process has ended this bounds the misses that were no
evictions by the numbers of processes and of pages. A process that is alone has as many pages in memory
at its end as fit into it, since memory does not stay empty while a page is out (`Machine.Solitary`).
-/

namespace DemandPaging

/-! ### The pages of a process -/

namespace PageMap.Owned

variable {pages : PageMap} {pid : Pid} {owned : List Page} {asked : List PageRef} {ref : PageRef}
  {frame : FrameId} {total : Nat}

theorem length_frames : (owned.filterMap (·.frame?)).length = owned.countP (·.isResident) := by
  rw [List.length_filterMap_eq_countP]
  rfl

theorem nodup_frames (h : pages.Owned pid owned) (hplaced : pages.Placed total) :
    (owned.filterMap (·.frame?)).Nodup := by
  refine List.pairwise_filterMap.2 ((List.pairwise_map.1 h.nodup).imp_of_mem ?_)
  rintro page other hpage hother hne frame hframe _ hframe' rfl
  -- two pages in one frame would be the same
  exact hne (hplaced.exclusive (PageMap.frame?_eq_some_iff.2 ⟨page, h.page_eq page hpage, hframe⟩)
    (PageMap.frame?_eq_some_iff.2 ⟨other, h.page_eq other hother, hframe'⟩))

theorem countP_pos (h : pages.Owned pid owned) (hpid : ref.pid = pid)
    (hframe : pages.frame? ref = some frame) : 0 < owned.countP (·.isResident) := by
  rw [← length_frames]
  exact List.length_pos_of_mem (h.mem_frames_iff.2 ⟨ref, hpid, hframe⟩)

/-- A process has no more pages than were asked for, as each of its pages has a name of its own. -/
theorem length_le (h : pages.Owned pid owned)
    (hasked : ∀ {ref}, (pages ref).isSome = true → ref ∈ asked) :
    owned.length ≤ asked.dedup.countP (·.pid = pid) := by
  have hsubset : owned.map (·.ref) ⊆ asked.dedup.filter (·.pid = pid) := by
    intro ref hmem
    obtain ⟨hpid, hsome⟩ := (h.mem_iff ref).1 hmem
    exact List.mem_filter.2 ⟨List.mem_dedup.2 (hasked hsome), decide_eq_true hpid⟩
  have hle := (List.subperm_of_subset h.nodup hsubset).length_le
  rwa [List.length_map, ← List.countP_eq_length_filter] at hle

/-- **Memory is made use of.** If the pages of a process are all that there are, as many of them are in
memory as fit into it. Either all frames are in use, or no page is out. -/
theorem countP_eq_min (h : pages.Owned pid owned) (hplaced : pages.Placed total)
    (hsole : ∀ {ref}, (pages ref).isSome = true → ref.pid = pid) (hpacked : pages.Packed total none) :
    owned.countP (·.isResident) = min owned.length total := by
  -- at any rate they are no more than the frames
  have hsubset : owned.filterMap (·.frame?) ⊆ List.range total := fun frame hmem => by
    obtain ⟨ref, -, hframe⟩ := h.mem_frames_iff.1 hmem
    exact List.mem_range.2 (hplaced.within hframe)
  have hle := (List.subperm_of_subset (h.nodup_frames hplaced) hsubset).length_le
  rw [length_frames, List.length_range] at hle
  rcases hpacked with hfull | hall
  -- each frame is that of a page of the process
  · have hcover : List.range total ⊆ owned.filterMap (·.frame?) := by
      intro frame hmem
      obtain ⟨ref, hframe⟩ := hfull frame (List.mem_range.1 hmem)
      obtain ⟨page, hpage, -⟩ := PageMap.frame?_eq_some_iff.1 hframe
      exact h.mem_frames_iff.2 ⟨ref, hsole (by rw [hpage, Option.isSome_some]), hframe⟩
    have hge := (List.subperm_of_subset List.nodup_range hcover).length_le
    rw [length_frames, List.length_range] at hge
    have hbound : owned.countP (·.isResident) ≤ owned.length := List.countP_le_length
    omega
  -- each page of the process is in a frame
  · have hresident : owned.countP (·.isResident) = owned.length := by
      refine List.countP_eq_length.2 fun page hpage => ?_
      by_contra hout
      cases hall page.ref page (h.page_eq page hpage) (Option.not_isSome_iff_eq_none.1 hout)
    omega

end PageMap.Owned

namespace ProcessTable

variable {t : ProcessTable} {pid : Pid} {elapsed : Nat}

/-- The queue of a state has as many processes as there are in that state, which it has once each. -/
theorem Lined.length_queue (h : t.Lined) (state : ProcessState) :
    (t.queue state).length = t.processes.values.countP (·.state = state) := by
  -- no two processes have one number
  have hnodup : (t.processes.values.map (·.pid)).Nodup := by
    refine List.pairwise_map.2 (List.pairwise_map.2 (t.processes.ascending.imp_of_mem ?_))
    intro a b ha hb hlt heq
    rw [h.pid_of_get? (OrderedMap.mem_entries_iff.1 ha),
      h.pid_of_get? (OrderedMap.mem_entries_iff.1 hb)] at heq
    exact Nat.ne_of_lt hlt heq
  let inState := t.processes.values.filter (·.state = state)
  have hmem : ∀ pid, pid ∈ t.queue state ↔ pid ∈ inState.map (·.pid) := by
    intro pid
    rw [h.queued, List.mem_map]
    constructor
    · rintro ⟨q, hq, hstate⟩
      obtain ⟨p, hp, rfl⟩ := bare?_eq_some_iff.1 hq
      exact ⟨p, List.mem_filter.2 ⟨OrderedMap.mem_values_iff.2 ⟨pid, hp⟩, decide_eq_true hstate⟩,
        h.pid_of_get? hp⟩
    · rintro ⟨p, hmem, rfl⟩
      obtain ⟨hvalue, hstate⟩ := List.mem_filter.1 hmem
      obtain ⟨pid, hp⟩ := OrderedMap.mem_values_iff.1 hvalue
      obtain rfl := h.pid_of_get? hp
      exact ⟨p.unpaged, bare?_of_get? hp, of_decide_eq_true hstate⟩
  -- neither list has a process twice
  have hfiltered : (inState.map (·.pid)).Nodup := hnodup.sublist (List.filter_sublist.map _)
  have hperm := (List.perm_ext_iff_of_nodup (h.nodup state) hfiltered).2 hmem
  rw [hperm.length_eq, List.length_map, List.countP_eq_length_filter]

theorem finished_passTime_iff :
    (∃ q, (t.passTime elapsed).bare? pid = some q ∧ q.state = .finished) ↔
      ∃ q, t.bare? pid = some q ∧ q.state = .finished := by
  rw [bare?_passTime]
  constructor
  · -- time that passes leaves everyone in the state that it has
    rintro ⟨_, hq, hfinished⟩
    obtain ⟨p, hp, rfl⟩ := Option.map_eq_some_iff.1 hq
    refine ⟨p, hp, ?_⟩
    split at hfinished <;> exact hfinished
  · rintro ⟨q, hq, hfinished⟩
    refine ⟨_, congrArg _ hq, ?_⟩
    dsimp only
    split <;> exact hfinished

end ProcessTable

namespace Machine

variable {chart : Chart} {config : ValidConfig} {m m' : Machine} {pid own : Pid} {q q' : Process}
  {met : List (Nat × PageRef)} {pages : PageMap}

/-- The pages that were in memory when their processes ended. -/
theorem released_eq : m.released = (m.departures.map Prod.snd).sum := by
  -- event by event; only the end of a process tells of pages that were released
  have hsum : ∀ journal : List Event,
      (journal.foldr (fun event rest => event.released + rest) 0) =
        ((journal.reverse.filterMap Event.departure?).map Prod.snd).sum := by
    intro journal
    induction journal with
    | nil => rfl
    | cons event rest ih =>
      rw [List.foldr_cons, ih, List.reverse_cons, List.filterMap_append, List.map_append,
        List.sum_append, Nat.add_comm]
      cases event <;> rfl
  exact hsum m.journal

/-! ### The ends of processes -/

/-- What the journal tells of pages and processes that have gone. It is kept by each move, whatever the
policy and however many processes there are. -/
structure Departed (chart : Chart) (m : Machine) : Prop where
  /-- Only pages that some record names are known. -/
  asked : m.Asked (chart.records.map (·.page))
  /-- Each eviction was noted. -/
  ousted_length : m.ousted.length = m.stats.totals.evictions
  /-- No process has ended twice. -/
  nodup : (m.departures.map Prod.fst).Nodup
  /-- The processes that have ended are those that are done. -/
  mem_iff : ∀ {pid}, pid ∈ m.departures.map Prod.fst ↔
    ∃ q, m.processes.bare? pid = some q ∧ q.state = .finished
  /-- Each had a page in memory, and no more pages than the trace names for it. -/
  bounds : ∀ {pid resident}, (pid, resident) ∈ m.departures →
    0 < resident ∧ resident ≤ (chart.records.map (·.page)).dedup.countP (·.pid = pid)

theorem Halfway.departures_cases (h : Halfway chart m m' pid q q' met pages)
    (hsound' : m'.Sound chart) :
    (q'.state ≠ .finished ∧ m'.departures = m.departures) ∨
      (q'.state = .finished ∧ ∃ owned, pages.Owned pid owned ∧
        m'.departures = m.departures ++ [(pid, owned.countP (·.isResident))]) := by
  obtain ⟨policy, hleft⟩ := h.left
  obtain rfl : q'.pid = pid := hsound'.lined.keyed h.self
  -- the process that moves has come to its end, or goes on
  by_cases hfinished : q'.state = .finished
  · exact .inr ⟨hfinished, hleft.departed hfinished⟩
  · exact .inl ⟨hfinished, hleft.gone_eq hfinished⟩

/-- The processes that are done after a move are those from before, and the one that ends. No other one
has changed. -/
theorem Halfway.finished_iff (h : Halfway chart m m' pid q q' met pages) {other : Pid} :
    (∃ p, m'.processes.bare? other = some p ∧ p.state = .finished) ↔
      (∃ p, m.processes.bare? other = some p ∧ p.state = .finished) ∨
        (other = pid ∧ q'.state = .finished) := by
  by_cases heq : other = pid
  · subst heq
    -- the process that moves was not done before
    have hbefore : ¬∃ p, m.processes.bare? other = some p ∧ p.state = .finished := by
      rintro ⟨p, hp, hfinished⟩
      cases h.found.symm.trans hp
      exact h.alive hfinished
    rw [or_iff_right hbefore, h.self]
    simp
  · rw [h.bare_eq, Function.update_of_ne heq, or_iff_left fun hsame => heq hsame.1]

/-- **An end.** A move ends the process that makes it, or none. It is noted with the number of
its pages in memory, which is not zero: the page that it came by last is one of them. -/
theorem Halfway.departed (h : Halfway chart m m' pid q q' met pages) (hsound' : m'.Sound chart)
    (hreplays' : m'.Replays chart) (hm : m.Departed chart) : m'.Departed chart := by
  have hasked : m'.Asked (chart.records.map (·.page)) := h.asked hreplays' hm.asked
  have housted : m'.ousted.length = m'.stats.totals.evictions := by
    obtain ⟨out, hnoted, hcounted⟩ := h.ousted_eq
    rw [hnoted, hcounted, List.length_append, hm.ousted_length]
  -- nobody has ended, or the process that moves has
  rcases h.departures_cases hsound' with ⟨halive, hsame⟩ | ⟨hfinished, owned, howned, hdepartures⟩
  · refine ⟨hasked, housted, hsame ▸ hm.nodup, fun {other} => ?_, fun hmem => hm.bounds (hsame ▸ hmem)⟩
    rw [hsame, hm.mem_iff, h.finished_iff, or_iff_left fun hended => halive hended.2]
  · have hpids : m'.departures.map Prod.fst = m.departures.map Prod.fst ++ [pid] := by
      rw [hdepartures, List.map_append]
      rfl
    -- it had not ended before
    have hnew : pid ∉ m.departures.map Prod.fst := fun hmem => by
      obtain ⟨found, hfound, hended⟩ := hm.mem_iff.1 hmem
      cases h.found.symm.trans hfound
      exact h.alive hended
    refine ⟨hasked, housted, ?_, fun {other} => ?_, fun {other resident} hmem => ?_⟩
    · rw [hpids]
      exact List.concat_eq_append ▸ hm.nodup.concat hnew
    · rw [hpids, List.mem_append, List.mem_singleton, hm.mem_iff, h.finished_iff,
        and_iff_left hfinished]
    · rw [hdepartures, List.mem_append, List.mem_singleton] at hmem
      rcases hmem with hmem | hlast
      · exact hm.bounds hmem
      · cases hlast
        -- the last page that it referred to is in memory still, and is its own
        obtain ⟨ref, frame, hpid, hframe⟩ := h.resident hfinished
        exact ⟨howned.countP_pos hpid hframe,
          Nat.le_trans List.countP_le_length (howned.length_le (h.mem_asked hreplays' hm.asked))⟩

/-- **Departures** are kept count of by each move. -/
theorem preserved_departed : Preserved chart config (Departed chart) :=
  preserved_of_halfway
    (fun hevictions h => ⟨h.asked.wait, h.ousted_length.trans hevictions.symm, h.nodup,
      h.mem_iff.trans ProcessTable.finished_passTime_iff.symm, h.bounds⟩)
    fun _ hgoing' hhalfway h => hhalfway.departed hgoing'.sound hgoing'.replays h

/-! ### A process that is alone -/

/-- How a process that is alone fills the memory. There may be free frames only while no page of it is
out, or while it waits for one. -/
structure Solitary (chart : Chart) (total : Nat) (m : Machine) : Prop where
  /-- Its pages are those that it has referred to. -/
  known : m.Known
  /-- While one of them is not in memory no frame is free, unless it waits for that one. -/
  packed : ∀ {pid q}, m.processes.bare? pid = some q → q.state ≠ .finished →
    PageMap.Packed m.processes.page? total q.pending?
  /-- When it has ended, as many were in memory as fit into it. -/
  filled : ∀ {pid resident}, (pid, resident) ∈ m.departures →
    resident = min (chart.records.map (·.page)).dedup.length total

/-- A process that is alone has all pages of the trace when it ends, as it has executed all
records, and the pages that it has are those that it referred to. -/
theorem Halfway.length_owned {owned : List Page} (h : Halfway chart m m' pid q q' met pages)
    (hsingle : ∀ record ∈ chart.records, record.pid = own) (hsound' : m'.Sound chart)
    (hreplays' : m'.Replays chart) (hknown : m.Known) (hfinished : q'.state = .finished)
    (howned : pages.Owned pid owned) :
    owned.length = (chart.records.map (·.page)).dedup.length := by
  have hmem : ∀ ref, ref ∈ owned.map (·.ref) ↔ ref ∈ (chart.records.map (·.page)).dedup := by
    intro ref
    rw [howned.mem_iff, List.mem_dedup, ← Survey.map_snd_references, List.mem_map]
    constructor
    · rintro ⟨hpid, hsome⟩
      obtain ⟨line, hexecuted⟩ := (h.isSome_iff_executed hknown hpid).1 hsome
      -- it has executed each record of the trace, and the page of it is one that it knows
      exact ⟨(line, ref), hreplays'.mem_references hexecuted, rfl⟩
    · rintro ⟨⟨line, page⟩, hentry, rfl⟩
      obtain ⟨record, hrecord, rfl⟩ := Survey.mem_references_iff.1 hentry
      have hpid : record.page.pid = pid :=
        (hsingle record (Survey.mem_of_record? hrecord)).trans (hsound'.pid_eq hsingle h.self).symm
      have hall := hreplays'.executed_of_finished h.self hsound'.lined (hsound'.stands h.self) hfinished
      have hexecuted : (line, record.page) ∈ ofProcess pid m'.executed :=
        hall ▸ List.mem_filter.2 ⟨hentry, decide_eq_true hpid⟩
      exact ⟨hpid, (h.isSome_iff_executed hknown hpid).2 ⟨line, List.mem_of_mem_filter hexecuted⟩⟩
  rw [← List.length_map (·.ref)]
  exact ((List.perm_ext_iff_of_nodup howned.nodup (List.nodup_dedup _)).2 hmem).length_eq

/-- **Alone.** A process that moves keeps the memory filled, and ends with it filled. While it
goes on, a page that comes in takes a free frame or that of another page, and none is given
back. -/
theorem Halfway.solitary (h : Halfway chart m m' pid q q' met pages)
    (hsingle : ∀ record ∈ chart.records, record.pid = own) (hsound : m.Sound chart)
    (hsound' : m'.Sound chart) (hreplays' : m'.Replays chart)
    (hm : m.Solitary chart m.frames.size) : m'.Solitary chart m.frames.size where
  known := h.known hsound' hm.known
  packed {other p} hp hstate := by
    -- the process that is looked at is the one that has moved
    obtain rfl : p = q' := hsound'.eq_of_single hsingle h.self hp
    obtain ⟨policy, hleft⟩ := h.left
    rw [hleft.pages_eq hstate]
    exact h.packed (hm.packed h.found h.alive)
  filled {other resident} hmem := by
    rcases h.departures_cases hsound' with ⟨-, hsame⟩ | ⟨hfinished, owned, howned, hdepartures⟩
    · exact hm.filled (hsame ▸ hmem)
    · rw [hdepartures, List.mem_append, List.mem_singleton] at hmem
      rcases hmem with hmem | hlast
      · exact hm.filled hmem
      · cases hlast
        have hpacked := h.packed (hm.packed h.found h.alive)
        rw [((hsound'.stands h.self).finished hfinished).1] at hpacked
        -- there is no page of another process
        have hsole : ∀ {ref}, (pages ref).isSome = true → ref.pid = pid := by
          intro ref hsome
          rcases h.isSome_iff.1 hsome with hbefore | ⟨line, hmet⟩
          · obtain ⟨page, hpage⟩ := Option.isSome_iff_exists.1 hbefore
            obtain ⟨p, hp, -⟩ := ProcessTable.page?_eq_some_iff.1 hpage
            rw [hsound.pid_eq hsingle (ProcessTable.bare?_of_get? hp), hsound.pid_eq hsingle h.found]
          · exact h.own hmet
        rw [howned.countP_eq_min h.placed hsole hpacked,
          h.length_owned hsingle hsound' hreplays' hm.known hfinished howned]

/-- **A filled memory** is preserved by each move, if all records are of one process. -/
theorem preserved_solitary (hsingle : ∀ record ∈ chart.records, record.pid = own) :
    Preserved chart config (Solitary chart config.totalFrames) := by
  refine preserved_of_halfway (fun {m stats elapsed} _ h => ?_)
    fun {m m' pid q q' met pages} hgoing hgoing' hhalfway h => ?_
  · refine ⟨h.known.wait, fun {pid q} hq hstate => ?_, h.filled⟩
    obtain ⟨p, hp, heq, -⟩ := ProcessTable.exists_of_bare?_passTime hq
    -- waiting changes neither the pages nor what is waited for
    have hsame : q.state = p.state ∧ q.pending? = p.pending? := by
      rw [heq]
      exact ⟨rfl, rfl⟩
    show PageMap.Packed (m.processes.passTime elapsed).page? _ _
    rw [ProcessTable.page?_passTime, hsame.2]
    exact h.packed hp (hsame.1 ▸ hstate)
  · rw [← hgoing.size_eq] at h ⊢
    exact hhalfway.solitary hsingle hgoing.sound hgoing'.sound hgoing'.replays h

end Machine

namespace Simulator

variable {chart : Chart} {s t : Simulator} {own : Pid}

theorem Fresh.departed (h : s.Fresh) : s.machine.Departed chart where
  asked {ref page} hpage := by
    rw [h.pages_eq] at hpage
    cases hpage
  ousted_length := by
    rw [h.ousted_eq, h.totals_eq]
    rfl
  nodup := by
    rw [h.departures_eq]
    exact List.nodup_nil
  mem_iff {pid} := by
    rw [h.departures_eq]
    refine iff_of_false List.not_mem_nil ?_
    rintro ⟨q, hq, hfinished⟩
    cases (h.ready hq).symm.trans hfinished
  bounds {pid resident} hmem := by
    rw [h.departures_eq] at hmem
    cases hmem

theorem Fresh.solitary (h : s.Fresh) (total : Nat) : s.machine.Solitary chart total where
  known := h.known
  packed {pid q} _ _ := .inr fun ref page hpage _ => by
    rw [h.pages_eq] at hpage
    cases hpage
  filled {pid resident} hmem := by
    rw [h.departures_eq] at hmem
    cases hmem

/-! ### Evictions -/

/-- A step takes a page out of memory for another one. It says what was noted, and what was the case
before. -/
structure Evicts (s t : Simulator) (owner ref : PageRef) : Prop where
  /-- The page that had to leave was noted. -/
  ousted_eq : t.machine.ousted = s.machine.ousted ++ [owner]
  /-- So was the one that came in. -/
  arrivals_eq : t.machine.arrivals = s.machine.arrivals ++ [(t.clock, ref)]
  /-- It is another page. -/
  ne : owner ≠ ref
  /-- All frames were in use. -/
  full : s.machine.frames.allocated = s.machine.frames.size
  /-- One of them had the page that had to leave. -/
  resident : ∃ frame, PageMap.frame? s.machine.processes.page? owner = some frame
  /-- The head of the queue waited for the other one. -/
  awaited : ∃ pid rest p, s.machine.processes.queue .blocked = pid :: rest ∧
    s.machine.processes.get? pid = some p ∧ p.pending? = some ref

/-- **Evictions.** A step evicts no page, or one page for another one. Only a disk read evicts, and a
step completes one at most. -/
theorem Sound.evicts_of_step (h : s.Sound chart)
    (hs : s.machine.Patient s.config.diskPenalty s.clock) (hstep : s.step = .ok (.ok true, t)) :
    t.machine.ousted = s.machine.ousted ∨ ∃ owner ref, s.Evicts t owner ref := by
  obtain ⟨-, -, hwaited, -, m, hsettled⟩ := h.settled_of_step hs hstep
  -- the reference of the step, if there is one, evicts nothing and brings nothing in
  have hturn : t.machine.ousted = m.ousted ∧ t.machine.arrivals = m.arrivals := by
    rcases hsettled.turn with ⟨-, rfl⟩ | ⟨pid, m', q, q', record, hit, -, hreferred, -, rfl⟩
    · exact ⟨rfl, rfl⟩
    · exact ⟨hreferred.ousted_eq, hreferred.arrivals_eq⟩
  rcases hsettled.read with rfl | ⟨_, _, q, q', -, -, hresumed⟩
  · exact .inl hturn.1
  -- the disk read has found a free frame, or a page had to leave
  obtain ⟨-, housted⟩ | ⟨owner, frame, hfull, hframe, housted⟩ := hresumed.ousted_eq
  · exact .inl (hturn.1.trans housted)
  obtain ⟨ref, hpending, harrivals⟩ := hresumed.arrivals_eq
  have hcame : t.machine.arrivals = s.machine.arrivals ++ [(t.clock, ref)] := by
    rw [hturn.2, hsettled.clock_eq.1]
    exact harrivals
  -- a page came in, so it is the one of the head
  obtain hnone | ⟨pid, rest, p, other, hqueue, hp, hpending', hcame'⟩ := (h.patient_step hs hstep).2
  · rw [hnone] at hcame
    exact absurd (congrArg List.length hcame) (by simp)
  obtain rfl : ref = other := by
    have hlast := hcame.symm.trans hcame'
    rw [List.append_cancel_left_eq] at hlast
    cases hlast
    rfl
  refine .inr ⟨owner, ref, hturn.1.trans housted, hcame, ?_, ?_, ?_, pid, rest, p, hqueue, hp, hpending'⟩
  · -- the page that came in was not in memory before, and the one that left was
    rintro rfl
    obtain ⟨page, hpage, hout⟩ := hwaited.machine.awaited hresumed.found hpending
    rw [PageMap.frame?_of_page hpage, hout] at hframe
    cases hframe
  · have hall := hwaited.machine.coherent.residency.allocated_eq_size hfull
    exact hall
  · have hframe : PageMap.frame? (s.machine.processes.passTime s.elapsed).page? owner = some frame :=
      hframe
    rw [ProcessTable.page?_passTime] at hframe
    exact ⟨frame, hframe⟩

/-! ### Each miss accounted for -/

/-- Where the pages are that came into memory, and those that are to come. The first clause is the
balance, and the others say what its terms are. -/
structure Conserves (records : List TraceRecord) (s : Simulator) : Prop where
  /-- Each miss belongs to a page that was evicted, is in memory, is waited for, or was in memory when its
  process ended. -/
  misses_eq : s.machine.stats.totals.misses =
    s.machine.stats.totals.evictions + s.machine.frames.allocated +
      s.machine.processes.processes.values.countP (·.state = .blocked) +
      (s.machine.departures.map Prod.snd).sum
  /-- Each eviction was noted. -/
  ousted_length : s.machine.ousted.length = s.machine.stats.totals.evictions
  /-- No process has ended twice. -/
  nodup : (s.machine.departures.map Prod.fst).Nodup
  /-- The processes that have ended are those that are done. -/
  departed_iff : ∀ {pid}, pid ∈ s.machine.departures.map Prod.fst ↔
    ∃ p, s.machine.processes.get? pid = some p ∧ p.state = .finished
  /-- Each had a page in memory at its end, and no more pages than the trace names for it. -/
  bounds : ∀ {pid resident}, (pid, resident) ∈ s.machine.departures →
    0 < resident ∧ resident ≤ (records.map (·.page)).dedup.countP (·.pid = pid)
  /-- The next step evicts no page, or one page for another one when all frames are in use. -/
  evicts : ∀ {t}, s.step = .ok (.ok true, t) →
    t.machine.ousted = s.machine.ousted ∨ ∃ owner ref, s.Evicts t owner ref

theorem Sound.conserves (h : s.Sound chart)
    (hs : s.machine.Patient s.config.diskPenalty s.clock) (hdeparted : s.machine.Departed chart) :
    s.Conserves chart.records where
  misses_eq := by
    -- the balance of the machine, with its terms written as counts
    rw [← h.machine.lined.length_queue, ← Machine.released_eq, h.machine.accounted, Machine.balance]
    omega
  ousted_length := hdeparted.ousted_length
  nodup := hdeparted.nodup
  departed_iff {pid} := by
    rw [hdeparted.mem_iff]
    constructor
    · rintro ⟨q, hq, hfinished⟩
      obtain ⟨p, hp, rfl⟩ := ProcessTable.bare?_eq_some_iff.1 hq
      exact ⟨p, hp, hfinished⟩
    · rintro ⟨p, hp, hfinished⟩
      exact ⟨p.unpaged, ProcessTable.bare?_of_get? hp, hfinished⟩
  bounds := hdeparted.bounds
  evicts := h.evicts_of_step hs

/-- When everything is done each process of the trace has ended, and is noted once; the
processes that are done are those of the trace. -/
theorem Sound.departures_perm (h : s.Sound chart) (hdeparted : s.machine.Departed chart)
    (hfinished : s.isFinished = true) :
    (s.machine.departures.map Prod.fst).Perm (chart.records.map (·.pid)).dedup := by
  -- both are lists without duplicates, so that it is enough to compare their members
  refine (List.perm_ext_iff_of_nodup hdeparted.nodup (List.nodup_dedup _)).2 fun pid => ?_
  rw [hdeparted.mem_iff, List.mem_dedup, List.mem_map]
  constructor
  · rintro ⟨q, hq, -⟩
    obtain ⟨record, hrecord, hpid⟩ := (h.machine.stands hq).exists_record
    exact ⟨record, Survey.mem_of_record? hrecord, hpid.trans (h.machine.lined.keyed hq)⟩
  · -- who has a record is there, and is done as all are
    rintro ⟨record, hmem, rfl⟩
    have hpage : record.page ∈ (Survey.references chart.records).map Prod.snd := by
      rw [Survey.map_snd_references]
      exact List.mem_map_of_mem hmem
    obtain ⟨⟨line, page⟩, hentry, hsame⟩ := List.mem_map.1 hpage
    obtain ⟨found, hfound, heq⟩ := Survey.mem_references_iff.1 hentry
    obtain ⟨q, hq⟩ := h.replays.present hfound
    have hpid : found.pid = record.pid := congrArg PageRef.pid (heq.trans hsame)
    exact ⟨q, hpid ▸ hq, h.finished hfinished hq⟩

/-- When everything is done the misses are the evictions, and the pages that were in memory when their
processes ended. -/
theorem Sound.misses_of_isFinished (h : s.Sound chart) (hfinished : s.isFinished = true) :
    s.machine.stats.totals.misses =
      s.machine.stats.totals.evictions + (s.machine.departures.map Prod.snd).sum := by
  -- nobody waits, and no page is in memory
  have haccounted := h.machine.accounted
  have hempty := h.machine.allocated_eq_zero (h.finished hfinished)
  rw [isFinished, Bool.and_eq_true, List.isEmpty_iff, List.isEmpty_iff] at hfinished
  rw [haccounted, Machine.balance, hempty, hfinished.2, Machine.released_eq]
  rfl

/-- Each process ends with a page in memory, so there are at least as many pages as processes. -/
theorem Sound.processes_le_departed (h : s.Sound chart) (hdeparted : s.machine.Departed chart)
    (hfinished : s.isFinished = true) :
    (chart.records.map (·.pid)).dedup.length ≤ (s.machine.departures.map Prod.snd).sum := by
  rw [← (h.departures_perm hdeparted hfinished).length_eq, List.length_map,
    ← List.length_map Prod.snd]
  refine List.length_le_sum_of_one_le _ fun resident hmem => ?_
  obtain ⟨⟨pid, _⟩, hentry, rfl⟩ := List.mem_map.1 hmem
  exact (hdeparted.bounds hentry).1

/-- No process ends with more pages in memory than the trace names for it. Summed up over the
processes this is at most the number of pages, as no two processes share one. -/
theorem Sound.departed_le_pages (h : s.Sound chart) (hdeparted : s.machine.Departed chart)
    (hfinished : s.isFinished = true) :
    (s.machine.departures.map Prod.snd).sum ≤ (chart.records.map (·.page)).dedup.length := by
  let owners := (chart.records.map (·.page)).dedup.map PageRef.pid
  -- the pages of the trace, counted by their processes
  have hcount : ∀ pid, (chart.records.map (·.page)).dedup.countP (·.pid = pid) = owners.count pid := by
    intro pid
    rw [List.count_eq_countP, List.countP_map]
    rfl
  have hperm : (s.machine.departures.map Prod.fst).Perm owners.dedup := by
    refine (h.departures_perm hdeparted hfinished).trans ?_
    refine (List.perm_ext_iff_of_nodup (List.nodup_dedup _) (List.nodup_dedup _)).2 fun pid => ?_
    simp only [owners, List.mem_dedup, List.mem_map, exists_exists_and_eq_and]
    rfl
  calc
    (s.machine.departures.map Prod.snd).sum
    _ ≤ (s.machine.departures.map fun departure => owners.count departure.1).sum := by
      refine List.sum_le_sum fun departure hmem => ?_
      rw [← hcount]
      exact (hdeparted.bounds hmem).2
    _ = (owners.dedup.map owners.count).sum := by
      rw [← (hperm.map owners.count).sum_eq, List.map_map]
      rfl
    _ = owners.length := List.sum_map_count_dedup_eq_length owners
    _ = (chart.records.map (·.page)).dedup.length := List.length_map _

/-- A process that is alone ends with as many pages in memory as fit into it. It is the only one
that ends, so its number is the whole sum. -/
theorem Sound.departed_of_single {total : Nat} (h : s.Sound chart)
    (hdeparted : s.machine.Departed chart) (hsolitary : s.machine.Solitary chart total)
    (hsingle : ∀ record ∈ chart.records, record.pid = own) (hfinished : s.isFinished = true) :
    (s.machine.departures.map Prod.snd).sum =
      min (chart.records.map (·.page)).dedup.length total := by
  have hperm := h.departures_perm hdeparted hfinished
  have hpids : chart.records.map (·.pid) = List.replicate chart.records.length own :=
    List.eq_replicate_iff.2 ⟨List.length_map _, fun pid hmem => by
      obtain ⟨record, hrecord, rfl⟩ := List.mem_map.1 hmem
      exact hsingle record hrecord⟩
  cases hrecords : chart.records with
  -- without records there are no ends, and no pages
  | nil =>
    rw [hrecords] at hperm
    rw [List.map_eq_nil_iff.1 hperm.eq_nil]
    exact (Nat.zero_min total).symm
  -- with records there is one end, that of the one process
  | cons first rest =>
    rw [hpids, hrecords, List.length_cons, List.replicate_dedup (Nat.succ_ne_zero _)] at hperm
    obtain ⟨⟨pid, resident⟩, hone, rfl⟩ := List.map_eq_singleton_iff.1 (List.perm_singleton.1 hperm)
    rw [hone, ← hrecords]
    exact (List.sum_singleton ..).trans (hsolitary.filled (hone ▸ List.mem_singleton_self _))

/-- **Each miss accounted for.** On a trace that the survey accepts, with all its bytes within reach, a
simulation begins, and in all that it reaches each miss belongs to a page that was evicted, is in memory,
is waited for, or was in memory when its process ended; a page is evicted for another one only, and only
when all frames are in use. A run that the clock can count returns, and counts at least as many misses
besides evictions as there are processes and at most as many as there are pages; if there is one process
only, it is the number of its pages, or of the frames if these are fewer. -/
theorem misses_accounted_for {config : ValidConfig} {reader after : TraceReader} {stats : Stats}
    {survey : Survey} {records : List TraceRecord}
    (hreach : reader.medium.bytes.size ≤ reader.medium.maxOffset) (hfresh : stats.totals = {})
    (hsurvey : reader.survey config.queueOrder = .ok (.ok survey, after))
    (hrecords : reader.rewind.2.records.1 = .ok records) :
    ∃ s, start config reader stats = .ok (.ok s) ∧
      (∀ {n t}, s.Reaches n t → t.Conserves records) ∧
      (s.run ≠ .error .overflow → ∃ report t, s.run = .ok (.ok report, t) ∧
        t.machine.references.length = records.length ∧
        report.evictions + (records.map (·.pid)).dedup.length ≤ report.misses ∧
        report.misses ≤ report.evictions + (records.map (·.page)).dedup.length ∧
        ∀ own, (∀ record ∈ records, record.pid = own) → report.misses =
          report.evictions + min (records.map (·.page)).dedup.length config.totalFrames) := by
  obtain ⟨s, chart, hstart, rfl, hsound, hrecords', -⟩ := start_eq_ok hreach hfresh hsurvey
  cases hrecords.symm.trans hrecords'
  have hsfresh := fresh_of_start hreach hfresh hsurvey hstart
  have hpatient := patient_of_start hfresh hsurvey hstart
  have hdeparted : ∀ {n t}, s.Reaches n t → t.machine.Departed chart := fun hreaches =>
    hsound.preserves Machine.preserved_departed hsfresh.departed hreaches
  refine ⟨s, hstart, fun {n t} hreaches => ?_, fun hclock => ?_⟩
  · obtain ⟨hsound', -⟩ := hsound.of_reaches hreaches
    exact hsound'.conserves (hsound.patient_of_reaches hpatient hreaches) (hdeparted hreaches)
  · obtain ⟨n, t, report, hreaches, hfinished, hreport, hrun⟩ := hsound.exists_run hclock
    obtain ⟨hsound', -⟩ := hsound.of_reaches hreaches
    obtain ⟨-, hmisses⟩ := report_counts hreport
    refine ⟨report, _, hrun, ?_⟩
    -- in terms of the ends, the misses are the evictions and what was in memory then
    rw [references_completed, hmisses, report_evictions hreport, hsound'.misses_of_isFinished hfinished]
    have hprocesses := hsound'.processes_le_departed (hdeparted hreaches) hfinished
    have hpages := hsound'.departed_le_pages (hdeparted hreaches) hfinished
    refine ⟨hsound'.length_references hfinished, Nat.add_le_add_left hprocesses _,
      Nat.add_le_add_left hpages _, fun own hsingle => ?_⟩
    have hsolitary := hsound.preserves (Machine.preserved_solitary hsingle)
      (hsfresh.solitary s.config.totalFrames) hreaches
    rw [hsound'.departed_of_single (hdeparted hreaches) hsolitary hsingle hfinished]

/-- One process with three pages, in a memory of two frames. -/
theorem misses_accounted_for_returns : ∃ survey after records,
    returns.survey paired.queueOrder = .ok (.ok survey, after) ∧
      returns.rewind.2.records.1 = .ok records ∧
      ∃ s, start paired returns { totalFrames := 2 } = .ok (.ok s) ∧
        (∀ {n t}, s.Reaches n t → t.Conserves records) ∧
        ∃ report t, s.run = .ok (.ok report, t) ∧ t.machine.references.length = records.length ∧
          report.evictions + 1 ≤ report.misses ∧ report.misses ≤ report.evictions + 3 ∧
          report.misses = report.evictions + 2 := by
  obtain ⟨survey, after, hsurvey, hbudget⟩ := exists_survey returns paired.queueOrder
    (fun survey => survey.records * (paired.clockTick + paired.diskPenalty) < 2 ^ 64) (by decide +kernel)
  obtain ⟨records, hrecords, htest⟩ := exists_records returns
    (fun records => (records.all fun record => record.pid = 1) ∧
      (records.map (·.pid)).dedup.length = 1 ∧ (records.map (·.page)).dedup.length = 3)
    (by decide +kernel)
  obtain ⟨hall, hprocesses, hpages⟩ := of_decide_eq_true htest
  have hfresh : Stats.totals { totalFrames := 2 } = {} := rfl
  obtain ⟨s, hstart, hconserves, hrun⟩ :=
    misses_accounted_for (by decide) hfresh hsurvey hrecords
  have hclock := run_ne_overflow (by decide) hfresh hsurvey (of_decide_eq_true hbudget) hstart
  obtain ⟨report, t, hrun, hlength, hprocesses', hpages', hsingle⟩ := hrun hclock
  rw [hprocesses] at hprocesses'
  rw [hpages] at hpages' hsingle
  exact ⟨survey, after, records, hsurvey, hrecords, s, hstart, hconserves, report, t, hrun, hlength,
    hprocesses', hpages',
    hsingle 1 fun record hmem => of_decide_eq_true (List.all_eq_true.1 hall record hmem)⟩

end Simulator

end DemandPaging
