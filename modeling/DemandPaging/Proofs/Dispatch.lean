import DemandPaging.Proofs.Progress

/-!
# First come, first served

With the processes lined up by arrival the queue of those that can run is a queue in the strict sense: a
process whose disk read is complete joins it at the back, and the head keeps its place for as long as its
references hit (`Requeued.queue_resumed`, `Requeued.queue_referred`). So whatever disk reads are
completed before it has its turn, the head of the queue is the one that runs (`Dispatched`), and it goes
on until it misses or ends.

Two things follow that are about whole runs. The queue is in the order of the times at which the
processes last became runnable, for which a run is taken with a note of these times (`ReadySince`,
`InTurn`). And the processes take turns no more often than they have to (`Thrifty`): each time that
another one than before runs, the one before has missed or ended, and the last one that runs need not
have done either.
-/

namespace DemandPaging

/-- How often a process differs from the one before it. A list of a single process has no such
place, and neither has the empty one. -/
def switches : List Pid → Nat
  | pid :: other :: rest => (if pid = other then 0 else 1) + switches (other :: rest)
  | _ => 0

theorem switches_concat (pids : List Pid) (pid : Pid) :
    switches (pids ++ [pid]) =
      switches pids + pids.getLast?.elim 0 fun last => if last = pid then 0 else 1 := by
  -- by induction on the list, of which the last entry is kept in sight by its second one
  induction pids with
  | nil => rfl
  | cons first rest ih =>
    cases rest with
    | nil => exact Nat.add_comm _ _
    | cons second rest =>
      have ih : switches (second :: (rest ++ [pid])) = _ := ih
      show _ + switches (second :: (rest ++ [pid])) = _
      rw [ih, List.getLast?_cons_cons, switches, Nat.add_assoc]

namespace ProcessTable

variable {t t' : ProcessTable} {pid : Pid} {source state : ProcessState}

/-! ### The queue in order of arrival -/

theorem joined_of_arrival {line : Pid → Nat} {pids : List Pid} :
    joined .arrival line pid state pids = pids ++ [pid] := by
  have hplace : ¬(state = .runnable ∧ QueueOrder.arrival = .tracePosition) := fun hand => nomatch hand.2
  rw [joined, if_neg hplace, List.drop_length]

/-- A process that has waited joins the others at the back, if it can run. It was not in the queue
before. -/
theorem Requeued.queue_resumed (h : t.Requeued t' pid .blocked state) (horder : t.order = .arrival)
    (hstate : state ≠ .blocked) :
    t'.queue .runnable = t.queue .runnable ++ if state = .runnable then [pid] else [] := by
  rw [h.queue_eq, horder, requeue]
  cases state with
  | runnable => exact joined_of_arrival
  | blocked => exact absurd rfl hstate
  | finished => exact (List.append_nil _).symm

/-- A process that had its turn keeps its place, if it can still run. This is where the order of arrival
differs from that by position. -/
theorem Requeued.queue_referred (h : t.Requeued t' pid .runnable state) (horder : t.order = .arrival) :
    t'.queue .runnable =
      if state = .runnable then t.queue .runnable else (t.queue .runnable).erase pid := by
  rw [h.queue_eq, horder, requeue]
  cases state with
  | runnable => rfl
  | blocked => rfl
  | finished => rfl

end ProcessTable

namespace Machine

variable {chart : Chart} {m m' : Machine} {pid : Pid} {q q' : Process} {record : TraceRecord}
  {hit : Bool} {now penalty : Nat} {r : Reference}

/-- How many times a process has missed or ended, which are the two ways to leave the queue. -/
def exits (m : Machine) : Nat :=
  m.stats.totals.misses + (m.processes.queue .finished).length

/-- What becomes of the head of the queue by a reference. Only in the first case does it keep the turn.
-/
inductive Serves (records : List TraceRecord) (m m' : Machine) (pid : Pid) (r : Reference) : Prop where
  /-- It has hit, and is still the head. -/
  | stays (hhit : r.hit = true) (hlast : ¬Survey.IsLast records pid r.line)
    (hqueue : m'.processes.queue .runnable = m.processes.queue .runnable) (hexits : m'.exits = m.exits)
  /-- It has hit with its last record, and is done. -/
  | ends (hhit : r.hit = true) (hlast : Survey.IsLast records pid r.line)
    (hqueue : m'.processes.queue .runnable = (m.processes.queue .runnable).erase pid)
    (hstate : pid ∈ m'.processes.queue .finished) (hexits : m'.exits = m.exits + 1)
  /-- It has missed, and waits for the disk. -/
  | faults (hmiss : r.hit = false)
    (hqueue : m'.processes.queue .runnable = (m.processes.queue .runnable).erase pid)
    (hstate : pid ∈ m'.processes.queue .blocked) (hexits : m'.exits = m.exits + 1)

theorem Referred.serves (h : Referred chart now penalty m m' pid q q' record hit)
    (hsound : m.Sound chart) (hsound' : m'.Sound chart) (horder : m.processes.order = .arrival) :
    Serves chart.records m m' pid { line := q.line, page := record.page, hit } := by
  have hstands := hsound.stands h.found
  have hpid : record.pid = q.pid := hstands.pid_of_record h.record_eq
  have hkeyed := hsound.lined.keyed h.found
  have hqueue := h.requeued.queue_referred horder
  have hfinished := h.requeued.length_finished (by decide)
  have hqueued : pid ∈ m'.processes.queue q'.state := hsound'.lined.queued.2 ⟨q', h.self, rfl⟩
  rcases h.outcome.eq_or with ⟨rfl, hpasses, htotals⟩ | ⟨rfl, hq', htotals⟩
  · -- a hit: the process is past its record, to a later one or at its end
    have hmisses : m'.stats.totals.misses = m.stats.totals.misses := by rw [htotals]
    cases hpasses with
    | @on p₁ hfollows =>
      refine .stays rfl (fun hlast => ?_) hqueue ?_
      -- the process goes on to a later record
      · obtain ⟨next, hnext, howner⟩ := hfollows.placed.exists_record
        have howner : next.pid = pid := by
          rw [howner, hfollows.cursor]
          exact hkeyed
        exact absurd (hlast.2 hnext howner) (Nat.not_le_of_lt hfollows.later)
      · rw [exits, exits, hmisses, hfinished]
        rfl
    | off hend =>
      refine .ends rfl ⟨⟨record, h.record_eq, hpid.trans hkeyed⟩, fun hother howner => ?_⟩ hqueue
        hqueued ?_
      · exact hend.last hother (howner.trans hkeyed.symm)
      · rw [exits, exits, hmisses, hfinished]
        rfl
  · -- a miss: the process waits, and is on its record still
    have hmisses : m'.stats.totals.misses = m.stats.totals.misses + 1 := by rw [htotals]
    subst hq'
    refine .faults rfl hqueue hqueued ?_
    rw [exits, exits, hmisses, hfinished]
    exact Nat.add_right_comm ..

theorem Serves.sublist {records : List TraceRecord} (h : m.Serves records m' pid r) :
    (m'.processes.queue .runnable).Sublist (m.processes.queue .runnable) := by
  cases h with
  | stays _ _ hqueue => exact hqueue ▸ .refl _
  | ends _ _ hqueue => exact hqueue ▸ List.erase_sublist
  | faults _ hqueue => exact hqueue ▸ List.erase_sublist

/-- There are no more processes that are done than processes, and fewer while one can run. Each of them
has a record in the trace. -/
theorem Sound.length_finished_le (h : m.Sound chart) {pids : List Pid}
    (hpids : ∀ record ∈ chart.records, record.pid ∈ pids) :
    (m.processes.queue .finished).length ≤ pids.length ∧
      ∀ pid ∈ m.processes.queue .runnable, (m.processes.queue .finished).length + 1 ≤ pids.length := by
  have hmem : ∀ {state other}, other ∈ m.processes.queue state → other ∈ pids := by
    intro state other hother
    obtain ⟨p, hp, -⟩ := h.lined.queued.1 hother
    obtain ⟨record, hrecord, hpid⟩ := (h.stands hp).exists_record
    rw [← h.lined.keyed hp, ← hpid]
    exact hpids record (Survey.mem_of_record? hrecord)
  have hnodup := h.lined.nodup .finished
  refine ⟨(List.subperm_of_subset hnodup fun _ => hmem).length_le, fun pid hrunnable => ?_⟩
  -- nobody is done and can run
  have hnew : pid ∉ m.processes.queue .finished := fun hdone => by
    obtain ⟨p, hp, hstate⟩ := h.lined.queued.1 hrunnable
    obtain ⟨p', hp', hstate'⟩ := h.lined.queued.1 hdone
    cases hp.symm.trans hp'
    cases hstate.symm.trans hstate'
  have hall : pid :: m.processes.queue .finished ⊆ pids :=
    List.cons_subset.2 ⟨hmem hrunnable, fun _ => hmem⟩
  exact (List.subperm_of_subset (List.nodup_cons.2 ⟨hnew, hnodup⟩) hall).length_le

end Machine

namespace Simulator

variable {chart : Chart} {records : List TraceRecord} {s t u : Simulator} {m : Machine} {pid : Pid}
  {n : Nat} {first since : Pid → Nat}

/-! ### Steps -/

/-- How a step lets a process run: the head of the queue after the disk reads, which is that of before if
there was one. -/
structure Dispatched (records : List TraceRecord) (s t : Simulator) (m : Machine) : Prop where
  /-- The processes are still lined up by arrival. -/
  order_eq : t.machine.processes.order = .arrival
  /-- At most one has joined the queue, at the back. -/
  joined : ∃ joining, m.processes.queue .runnable = s.machine.processes.queue .runnable ++ joining ∧
    joining.length ≤ 1 ∧ ∀ pid ∈ joining, pid ∉ s.machine.processes.queue .runnable
  /-- None has become less done. -/
  exits_le : s.machine.exits ≤ m.exits
  /-- Time has passed. -/
  clock_eq : t.clock = s.clock + s.elapsed
  /-- None can run, or the head has its turn. -/
  turn : (m.processes.queue .runnable = [] ∧ t.machine = m ∧
      t.machine.references = s.machine.references) ∨
    ∃ pid r, m.processes.head? .runnable = some pid ∧ r.page.pid = pid ∧
      t.machine.references = s.machine.references ++ [r] ∧ m.Serves records t.machine pid r

/-- Disk reads in order of arrival. At most one is due in a step, and the process that it
belongs to joins the queue at the back, or ends and joins none. -/
theorem Settled.joined (h : Settled chart s t m) (hs : s.machine.Sound chart)
    (horder : s.machine.processes.order = .arrival) :
    m.processes.order = .arrival ∧ s.machine.exits ≤ m.exits ∧
      ∃ joining, m.processes.queue .runnable = s.machine.processes.queue .runnable ++ joining ∧
        joining.length ≤ 1 ∧ ∀ pid ∈ joining, pid ∉ s.machine.processes.queue .runnable := by
  rcases h.read with rfl | ⟨pid, rest, q, q', -, -, hresumed⟩
  · -- no disk read was due
    exact ⟨horder, Nat.le_refl _, [], (List.append_nil _).symm, Nat.zero_le _, nofun⟩
  · refine ⟨hresumed.requeued.order_eq.trans horder, ?_, _,
      hresumed.requeued.queue_resumed horder hresumed.passes.idle.1, ?_, fun other hother hmem => ?_⟩
    · rw [Machine.exits, Machine.exits, hresumed.stats_eq,
        hresumed.requeued.length_finished (by decide)]
      exact Nat.add_le_add_left (Nat.le_add_right _ _) _
    · -- one process joins, or none if the one whose disk read was due has ended
      split
      · exact Nat.le_refl _
      · exact Nat.zero_le _
    -- it was blocked before
    · obtain ⟨p, hp, hrunnable⟩ := hs.lined.queued.1 hmem
      split at hother
      · cases List.mem_singleton.1 hother
        cases hresumed.found.symm.trans hp
        cases hresumed.blocked.symm.trans hrunnable
      · cases hother

theorem Sound.dispatched_step (h : s.Sound chart)
    (hs : s.machine.Patient s.config.diskPenalty s.clock)
    (horder : s.machine.processes.order = .arrival) (hstep : s.step = .ok (.ok true, t)) :
    ∃ m, Dispatched chart.records s t m := by
  obtain ⟨-, -, hunder, -, m, hsettled⟩ := h.settled_of_step hs hstep
  obtain ⟨horder', hexits, joining, hqueue, hone, hnew⟩ := hsettled.joined hunder.machine horder
  have hreferences : m.references = s.machine.references := hsettled.references_eq
  rcases hsettled.turn with ⟨hnone, ht⟩ | ⟨pid, m', q, q', record, hit, hhead, hreferred, hgoing, ht⟩
  · -- nobody can run after the disk reads
    have hmachine : t.machine = m := by rw [ht]
    refine ⟨m, ?_, ⟨joining, hqueue, hone, hnew⟩, hexits, hsettled.clock_eq.1,
      .inl ⟨List.head?_eq_none_iff.1 hnone, hmachine, ?_⟩⟩
    · rw [hmachine, horder']
    · rw [hmachine, hreferences]
  · -- the head has its turn, and what it leaves is told by its reference
    have hsound := hsettled.going.sound
    have hmachine : t.machine = m' := by rw [ht]
    refine ⟨m, ?_, ⟨joining, hqueue, hone, hnew⟩, hexits, hsettled.clock_eq.1,
      .inr ⟨pid, _, hhead, ?_, ?_, hmachine ▸ hreferred.serves hsound hgoing.sound horder'⟩⟩
    · rw [hmachine, hreferred.requeued.order_eq, horder']
    · exact ((hsound.stands hreferred.found).pid_of_record hreferred.record_eq).trans
        (hsound.lined.keyed hreferred.found)
    · rw [hmachine, hreferred.references_eq, hreferences]

/-- The head keeps its place until it has its turn. -/
theorem Dispatched.head_eq (h : Dispatched records s t m)
    (hhead : s.machine.processes.head? .runnable = some pid) :
    m.processes.head? .runnable = some pid := by
  obtain ⟨joining, hqueue, -, -⟩ := h.joined
  obtain ⟨rest, hrest⟩ := List.head?_eq_some_iff.1 hhead
  rw [ProcessTable.head?, hqueue, hrest]
  rfl

theorem Sound.arrival_of_reaches (h : s.Sound chart)
    (hs : s.machine.Patient s.config.diskPenalty s.clock)
    (horder : s.machine.processes.order = .arrival) (hreaches : s.Reaches n t) :
    t.machine.processes.order = .arrival := by
  refine h.kept (P := (·.machine.processes.order = .arrival)) hs (fun ht hpatient horder hstep => ?_)
    horder hreaches
  obtain ⟨m, hdispatched⟩ := ht.dispatched_step hpatient horder hstep
  exact hdispatched.order_eq

/-! ### Since when a process can run -/

/-- A run of steps, with the time at which each process that can run last came to be able to: the start,
or the end of the first step after which it was. For a process that cannot run the time says nothing. -/
inductive ReadySince (s : Simulator) : Nat → Simulator → (Pid → Nat) → Prop where
  /-- No step was made. -/
  | start : ReadySince s 0 s fun _ => s.clock
  /-- One step more was made. -/
  | step {n : Nat} {t u : Simulator} {since : Pid → Nat} (h : ReadySince s n t since)
    (hstep : t.step = .ok (.ok true, u)) :
    ReadySince s (n + 1) u fun pid =>
      if pid ∈ t.machine.processes.queue .runnable then since pid else u.clock

/-- One process comes before another: it has been able to run for longer, or both have since the
start and it appears first in the trace. No two came to be able to at the same later time, as at
most one does in a step. -/
def Before (first since : Pid → Nat) (pid other : Pid) : Prop :=
  since pid < since other ∨ since pid = 0 ∧ since other = 0 ∧ first pid < first other

/-- The processes that can run are lined up in the order in which they came to be able to. The
second clause is what lets a process that comes to be able to now join them at the back. -/
structure InTurn (first since : Pid → Nat) (s : Simulator) : Prop where
  /-- Along the queue each comes before those behind it. -/
  ascending : (s.machine.processes.queue .runnable).Pairwise (Before first since)
  /-- None of them came to be able to run after now. -/
  since_le : ∀ pid ∈ s.machine.processes.queue .runnable, since pid ≤ s.clock

/-- **A step.** Whoever joins the queue is the last one to come. Those that were in it keep their times,
and are still in their order. -/
theorem Dispatched.inTurn (h : Dispatched records s t m) (hs : s.InTurn first since) :
    t.InTurn first fun pid =>
      if pid ∈ s.machine.processes.queue .runnable then since pid else t.clock := by
  obtain ⟨joining, hqueue, hone, hnew⟩ := h.joined
  have hlater : s.clock < t.clock := by
    rw [h.clock_eq]
    exact Nat.lt_add_of_pos_right s.elapsed_pos
  -- whatever the reference does, it takes a process out of the queue at most
  have hsublist : (t.machine.processes.queue .runnable).Sublist
      (s.machine.processes.queue .runnable ++ joining) := by
    rw [← hqueue]
    rcases h.turn with ⟨-, ht, -⟩ | ⟨pid, r, -, -, -, hserves⟩
    · rw [ht]
    · exact hserves.sublist
  refine ⟨List.Pairwise.sublist hsublist
    (List.pairwise_append.2 ⟨?_, ?_, fun pid hpid other hother => ?_⟩),
    fun pid hpid => ?_⟩
  · -- two that were there before
    refine hs.ascending.imp_of_mem fun {pid other} hpid hother hbefore => ?_
    rw [Before, if_pos hpid, if_pos hother]
    exact hbefore
  -- there are no two that join
  · match joining, hone with
    | [], _ => exact .nil
    | [_], _ => exact List.pairwise_singleton _ _
  · -- one that was there before, and one that joins later than all of them
    rw [Before, if_pos hpid, if_neg (hnew other hother)]
    exact .inl (Nat.lt_of_le_of_lt (hs.since_le pid hpid) hlater)
  · -- nobody came to be able to run after the end of the step
    split
    · next hold => exact Nat.le_trans (hs.since_le pid hold) (Nat.le_of_lt hlater)
    · exact Nat.le_refl _

/-! ### Turns -/

/-- How many times another process than before had its turn. It is read off the references, so a
turn in which nothing was executed does not count. -/
def turnovers (s : Simulator) : Nat := switches (s.machine.references.map (·.page.pid))

/-- The processes have not taken turns more often than they missed or ended, and less often unless the
one that ran last can go on. The second clause is what pays for the next turn. -/
structure Thrifty (s : Simulator) : Prop where
  /-- Each turn but the first one was given up. -/
  turnovers_le : s.turnovers ≤ s.machine.exits
  /-- The last one too, or the process is still the head. -/
  last : ∀ {r}, s.machine.references.getLast? = some r →
    s.machine.processes.head? .runnable = some r.page.pid ∨ s.turnovers + 1 ≤ s.machine.exits

theorem turnovers_eq (h : t.machine.references = s.machine.references) : t.turnovers = s.turnovers := by
  rw [turnovers, turnovers, h]

/-- One reference more. -/
theorem turnovers_concat {r : Reference} (h : t.machine.references = s.machine.references ++ [r]) :
    t.turnovers = s.turnovers + s.machine.references.getLast?.elim 0 fun last =>
      if last.page.pid = r.page.pid then 0 else 1 := by
  rw [turnovers, h, List.map_append, List.map_singleton, switches_concat, List.getLast?_map]
  cases s.machine.references.getLast? <;> rfl

/-- **A step.** Another process has its turn only if the one before has given it up, which was counted
when it did. -/
theorem Dispatched.thrifty (h : Dispatched records s t m) (hs : s.Thrifty) : t.Thrifty := by
  rcases h.turn with ⟨hnone, ht, hreferences⟩ | ⟨pid, r, hhead, rfl, hreferences, hserves⟩
  · -- no reference: turns are as they were, and whoever ran last has given the turn up
    have hexits : s.machine.exits ≤ t.machine.exits := ht ▸ h.exits_le
    refine ⟨?_, fun {r} hlast => .inr ?_⟩
    · rw [turnovers_eq hreferences]
      exact Nat.le_trans hs.turnovers_le hexits
    · rw [turnovers_eq hreferences]
      rw [hreferences] at hlast
      refine Nat.le_trans ((hs.last hlast).resolve_left fun hhead => ?_) hexits
      -- a head would have had its turn
      have hhead' := h.head_eq hhead
      rw [ProcessTable.head?, hnone] at hhead'
      cases hhead'
  · -- a reference: its turn is one more only if it is another process
    have hle : t.turnovers ≤ m.exits := by
      rw [turnovers_concat hreferences]
      cases hend : s.machine.references.getLast? with
      | none => exact Nat.le_trans hs.turnovers_le h.exits_le
      | some last =>
        rcases hs.last hend with hsame | hgiven
        · have hpid : last.page.pid = r.page.pid := Option.some.inj ((h.head_eq hsame).symm.trans hhead)
          rw [Option.elim_some, if_pos hpid]
          exact Nat.le_trans hs.turnovers_le h.exits_le
        · refine Nat.le_trans (Nat.add_le_add_left ?_ _) (Nat.le_trans hgiven h.exits_le)
          rw [Option.elim_some]
          split
          · exact Nat.zero_le _
          · exact Nat.le_refl _
    have hlast : ∀ {found}, t.machine.references.getLast? = some found → found = r := by
      intro found hfound
      rw [hreferences, List.getLast?_concat] at hfound
      exact (Option.some.inj hfound).symm
    -- afterwards the process is still the head, or has just paid
    cases hserves with
    | stays hhit hnotLast hqueue hexits =>
      refine ⟨hexits ▸ hle, fun hfound => .inl ?_⟩
      rw [hlast hfound, ProcessTable.head?, hqueue]
      exact hhead
    | ends hhit hisLast hqueue hstate hexits =>
      exact ⟨by omega, fun _ => .inr (by omega)⟩
    | faults hmiss hqueue hstate hexits =>
      exact ⟨by omega, fun _ => .inr (by omega)⟩

/-- The first turn was given up by nobody, and the last one need not be. So there are fewer turnovers
than misses and ends, and the one that still can run has not ended. -/
theorem Sound.turnovers_le (h : s.Sound chart) (hs : s.Thrifty) {pids : List Pid}
    (hpids : ∀ record ∈ chart.records, record.pid ∈ pids) :
    s.turnovers ≤ s.machine.stats.totals.misses + pids.length - 1 := by
  obtain ⟨hfinished, hfewer⟩ := h.machine.length_finished_le hpids
  have hle := hs.turnovers_le
  rw [Machine.exits] at hle
  -- without references there are no turns at all
  cases hend : s.machine.references.getLast? with
  | none =>
    rw [turnovers, List.getLast?_eq_none_iff.1 hend]
    exact Nat.zero_le _
  | some r =>
    rcases hs.last hend with hhead | hgiven
    · have hrunnable : r.page.pid ∈ s.machine.processes.queue .runnable :=
        List.mem_of_mem_head? hhead
      have hfewer := hfewer _ hrunnable
      omega
    · rw [Machine.exits] at hgiven
      omega

/-! ### Runs -/

/-- How the processes run that are lined up by arrival. It is said of one state of a simulation
and of the steps that can be made from there, so that it holds along a whole run. -/
structure RunsInTurn (records : List TraceRecord) (s : Simulator) : Prop where
  /-- The first process that can run executes the next reference, one tick later. -/
  head : ∀ {t pid}, s.machine.processes.head? .runnable = some pid → s.step = .ok (.ok true, t) →
    t.clock = s.clock + s.config.clockTick ∧
      ∃ r, t.machine.references = s.machine.references ++ [r] ∧ r.page.pid = pid
  /-- The process that executes a reference is the first one then, unless it has missed, or has come to
  its end. -/
  leaves : ∀ {t r}, s.step = .ok (.ok true, t) →
    t.machine.references = s.machine.references ++ [r] →
    t.machine.processes.head? .runnable = some r.page.pid ∨
      r.hit = false ∧ r.page.pid ∈ t.machine.processes.queue .blocked ∨
      Survey.IsLast records r.page.pid r.line ∧ r.page.pid ∈ t.machine.processes.queue .finished
  /-- A process that has hit, and not with its last record, executes the next reference as well, one tick
  later, unless the clock has no room for it. -/
  goes_on : ∀ {t r}, s.step = .ok (.ok true, t) →
    t.machine.references = s.machine.references ++ [r] → r.hit = true →
    ¬Survey.IsLast records r.page.pid r.line → t.step ≠ .error .overflow →
    ∃ u r', t.step = .ok (.ok true, u) ∧ u.clock = t.clock + s.config.clockTick ∧
      u.machine.references = t.machine.references ++ [r'] ∧ r'.page.pid = r.page.pid

section

variable (h : s.Sound chart) (hs : s.machine.Patient s.config.diskPenalty s.clock)
  (horder : s.machine.processes.order = .arrival)

include h hs horder

theorem Sound.head_runs (hhead : s.machine.processes.head? .runnable = some pid)
    (hstep : s.step = .ok (.ok true, t)) :
    t.clock = s.clock + s.config.clockTick ∧
      ∃ r, t.machine.references = s.machine.references ++ [r] ∧ r.page.pid = pid := by
  obtain ⟨m, hdispatched⟩ := h.dispatched_step hs horder hstep
  -- a process that can run is a reason not to pass over time
  have hcan : s.machine.canRun = true := by
    rw [Machine.canRun, Bool.not_eq_true', List.isEmpty_eq_false_iff_exists_mem]
    exact ⟨pid, List.mem_of_mem_head? hhead⟩
  have hhead' := hdispatched.head_eq hhead
  refine ⟨by rw [hdispatched.clock_eq, elapsed_of_canRun hcan], ?_⟩
  rcases hdispatched.turn with ⟨hnone, -, -⟩ | ⟨_, r, hfirst, hpid, hreferences, -⟩
  · rw [ProcessTable.head?, hnone] at hhead'
    cases hhead'
  · cases hhead'.symm.trans hfirst
    exact ⟨r, hreferences, hpid⟩

theorem Sound.leaves_head {r : Reference} (hstep : s.step = .ok (.ok true, t))
    (hreferences : t.machine.references = s.machine.references ++ [r]) :
    t.machine.processes.head? .runnable = some r.page.pid ∨
      r.hit = false ∧ r.page.pid ∈ t.machine.processes.queue .blocked ∨
      Survey.IsLast chart.records r.page.pid r.line ∧
        r.page.pid ∈ t.machine.processes.queue .finished := by
  obtain ⟨m, hdispatched⟩ := h.dispatched_step hs horder hstep
  rcases hdispatched.turn with ⟨-, -, hsame⟩ | ⟨pid, r', hfirst, hpid, hsame, hserves⟩
  · -- a step with a reference is not one without
    rw [hreferences] at hsame
    exact absurd hsame (by simp)
  · obtain rfl : r = r' := by
      rw [hreferences] at hsame
      simpa using hsame
    subst hpid
    cases hserves with
    | stays _ _ hqueue _ =>
      refine .inl ?_
      rw [ProcessTable.head?, hqueue]
      exact hfirst
    | ends _ hlast _ hstate _ => exact .inr (.inr ⟨hlast, hstate⟩)
    | faults hmiss _ hstate _ => exact .inr (.inl ⟨hmiss, hstate⟩)

theorem Sound.runsInTurn : s.RunsInTurn chart.records := by
  refine ⟨fun hhead hstep => h.head_runs hs horder hhead hstep,
    fun hstep hreferences => h.leaves_head hs horder hstep hreferences,
    fun {t r} hstep hreferences hhit hlast hclock => ?_⟩
  -- it has hit, and not with its last record, so it is the head still
  obtain ⟨m, hdispatched⟩ := h.dispatched_step hs horder hstep
  obtain ⟨ht, hconfig⟩ := h.of_step hstep
  have hhead : t.machine.processes.head? .runnable = some r.page.pid := by
    rcases h.leaves_head hs horder hstep hreferences with hhead | ⟨hmiss, -⟩ | ⟨hlast', -⟩
    · exact hhead
    · cases hhit.symm.trans hmiss
    · exact absurd hlast' hlast
  -- hence the simulation is not finished, and its next step fails by the clock only
  have hrun : t.isFinished = false := by
    rw [isFinished, Bool.and_eq_false_iff]
    exact .inl (List.isEmpty_eq_false_iff_exists_mem.2 ⟨_, List.mem_of_mem_head? hhead⟩)
  have hroom : t.clock + t.elapsed < 2 ^ 64 := by
    by_contra hfull
    exact hclock (step_eq_overflow hrun hfull)
  obtain ⟨m', hnext, -⟩ := ht.step_eq_ok hrun hroom
  obtain ⟨hlater, r', hreferences', hpid'⟩ :=
    ht.head_runs (h.patient_step hs hstep).1 hdispatched.order_eq hhead hnext
  exact ⟨_, r', hnext, hconfig ▸ hlater, hreferences', hpid'⟩

/-- What a simulation reaches has its processes lined up in the order in which they came to be able to
run. -/
theorem Sound.inTurn_of_reaches (hstart : s.InTurn first fun _ => s.clock) (hreaches : s.Reaches n t) :
    ∃ since, s.ReadySince n t since ∧ t.InTurn first since := by
  induction hreaches with
  -- along the steps, each of which has one note more
  | start => exact ⟨_, .start, hstart⟩
  | step hreaches hstep ih =>
    obtain ⟨since, hready, hinTurn⟩ := ih
    obtain ⟨m, hdispatched⟩ := (h.of_reaches hreaches).1.dispatched_step
      (h.patient_of_reaches hs hreaches) (h.arrival_of_reaches hs horder hreaches) hstep
    exact ⟨_, .step hready hstep, hdispatched.inTurn hinTurn⟩

theorem Sound.thrifty_of_reaches (hstart : s.Thrifty) (hreaches : s.Reaches n t) : t.Thrifty := by
  induction hreaches with
  | start => exact hstart
  | step hreaches hstep ih =>
    obtain ⟨m, hdispatched⟩ := (h.of_reaches hreaches).1.dispatched_step
      (h.patient_of_reaches hs hreaches) (h.arrival_of_reaches hs horder hreaches) hstep
    exact hdispatched.thrifty ih

end

/-- **First come, first served.** On a trace that the survey accepts, with all its bytes within reach, a
simulation in order of arrival begins. In all that it reaches, the first process that can run has the
next turn and goes on until it misses or comes to its end; those that can run are lined up in the order
in which they last came to be able to, those that always could as they appear in the trace; and no more
references followed one of another process than there were misses, and processes but one. -/
theorem first_come_first_served {config : ValidConfig} {reader after : TraceReader} {stats : Stats}
    {survey : Survey} (hreach : reader.medium.bytes.size ≤ reader.medium.maxOffset)
    (hfresh : stats.totals = {}) (horder : config.queueOrder = .arrival)
    (hsurvey : reader.survey config.queueOrder = .ok (.ok survey, after)) :
    ∃ s records, start config reader stats = .ok (.ok s) ∧ reader.rewind.2.records.1 = .ok records ∧
      ∀ {n t}, s.Reaches n t → t.config = config ∧ t.RunsInTurn records ∧
        (∃ since, s.ReadySince n t since ∧ (t.machine.processes.queue .runnable).Pairwise
          (Before (fun pid => (records.map (·.pid)).idxOf pid) since)) ∧
        t.turnovers ≤ t.machine.stats.totals.misses + survey.processes.size - 1 := by
  obtain ⟨s, chart, hstart, hconfig, hsound, hrecords, -⟩ := start_eq_ok hreach hfresh hsurvey
  have hpatient := patient_of_start hfresh hsurvey hstart
  obtain ⟨records, hrecords', hfinds⟩ := TraceReader.finds_of_survey hsurvey
  cases hrecords.symm.trans hrecords'
  obtain ⟨frames, policy, -, -, hs⟩ := start_cases hsurvey hstart
  -- the processes are lined up as the survey has left them, in the order of their first records
  have harrival : s.machine.processes.order = .arrival := by
    rw [hs]
    exact hfinds.order_eq.trans horder
  have hinTurn : s.InTurn (fun pid => (chart.records.map (·.pid)).idxOf pid) fun _ => s.clock := by
    rw [hs]
    refine ⟨?_, fun _ _ => Nat.le_refl _⟩
    show (survey.processes.queue .runnable).Pairwise _
    rw [ProcessTable.queue, hfinds.queues_eq]
    exact (pairwise_idxOf_eraseDups _).imp fun hlt => .inr ⟨rfl, rfl, hlt⟩
  have hthrifty : s.Thrifty := by
    rw [hs]
    exact ⟨Nat.zero_le _, fun hlast => by cases hlast⟩
  -- the processes of the survey are those of the records, so there are as many
  have hpids : ∀ record ∈ chart.records, record.pid ∈ survey.processes.processes.keys := by
    intro record hrecord
    obtain ⟨p, hp⟩ := Option.isSome_iff_exists.1
      ((hfinds.isSome_get?_iff record.pid).2 (List.mem_map_of_mem hrecord))
    exact List.mem_map.2 ⟨_, OrderedMap.mem_entries_iff.2 hp, rfl⟩
  have hsize : survey.processes.processes.keys.length = survey.processes.size := List.length_map _
  refine ⟨s, chart.records, hstart, hrecords, fun {n t} hreaches => ?_⟩
  obtain ⟨ht, hconfig'⟩ := hsound.of_reaches hreaches
  obtain ⟨since, hready, hqueue⟩ := hsound.inTurn_of_reaches hpatient harrival hinTurn hreaches
  refine ⟨hconfig'.trans hconfig, ?_, ⟨since, hready, hqueue.ascending⟩, ?_⟩
  · exact ht.runsInTurn (hsound.patient_of_reaches hpatient hreaches)
      (hsound.arrival_of_reaches hpatient harrival hreaches)
  · rw [← hsize]
    exact ht.turnovers_le (hsound.thrifty_of_reaches hpatient harrival hthrifty hreaches) hpids

/-- Two processes that come to be able to run one after the other. -/
theorem first_come_first_served_on_turns : ∃ survey after,
    turns.survey cramped.queueOrder = .ok (.ok survey, after) ∧ survey.processes.size = 2 ∧
      ∃ s records, start cramped turns { totalFrames := 1 } = .ok (.ok s) ∧
        turns.rewind.2.records.1 = .ok records ∧
        ∀ {n t}, s.Reaches n t → t.config = cramped ∧ t.RunsInTurn records ∧
          (∃ since, s.ReadySince n t since ∧ (t.machine.processes.queue .runnable).Pairwise
            (Before (fun pid => (records.map (·.pid)).idxOf pid) since)) ∧
          t.turnovers ≤ t.machine.stats.totals.misses + 1 := by
  obtain ⟨survey, after, hsurvey, hsize⟩ :=
    exists_survey turns cramped.queueOrder (·.processes.size = 2) (by decide +kernel)
  have hsize : survey.processes.size = 2 := of_decide_eq_true hsize
  obtain ⟨s, records, hstart, hrecords, hruns⟩ :=
    @first_come_first_served cramped turns after { totalFrames := 1 } survey (by decide) rfl rfl hsurvey
  refine ⟨survey, after, hsurvey, hsize, s, records, hstart, hrecords, fun {n t} hreaches => ?_⟩
  obtain ⟨hconfig, hturns, hqueue, hturnovers⟩ := hruns hreaches
  rw [hsize] at hturnovers
  exact ⟨hconfig, hturns, hqueue, hturnovers⟩

end Simulator

end DemandPaging
