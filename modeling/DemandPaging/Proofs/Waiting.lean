import DemandPaging.Proofs.Findings
import DemandPaging.Proofs.Lineup

/-!
# Waiting for the disk

The queue of the processes that wait for the disk is a strict one: along it the times that are left
increase, since at most one process begins to wait in a step, each for the same time, and time has
passed for those before it. So at most one disk read is complete in a step, that of the head, and pages
come into memory in the order of their faults, each as long after its fault as a disk read takes.

`Machine.Patient` is what holds all the way. Time that passes keeps it (`Patient.wait`), as long as no
process waits for less; a completed disk read of the head does (`Patient.resume`), and an executed
reference does when every process has waited already (`Patient.refer`). In its last clause the journal
is balanced: the faults so far, each with the time at which its page is due, are the pages that came and
those that are still waited for.

With that a step is taken apart: time passes, and then at most one disk read is completed, that of the
head, and at most one reference executed (`Settled`, `Sound.settled_of_step`).
-/

namespace DemandPaging

/-- The fault that an event tells of: its time and the page. A process begins to wait at each
fault, so this is the event of a blocked process. -/
def Event.fault? : Event → Option (Nat × PageRef)
  | blocked time page => some (time, page)
  | _ => none

/-- The page that came into memory by an event, with the time. The frame that it came into is
left out. -/
def Event.arrival? : Event → Option (Nat × PageRef)
  | pagedIn time page _ => some (time, page)
  | _ => none

/-- A process that moves past a record keeps the time that it has left, which is none by then. -/
theorem Process.Passes.wait_eq {chart : Chart} {p p' : Process} (h : p.Passes chart p') :
    p'.wait = p.wait := by
  cases h with
  | on hnext =>
    have hcursor := congrArg Process.wait hnext.cursor
    exact hcursor
  | off => rfl

theorem Event.fault?_of_isAside {event : Event} (h : event.isAside = true) : event.fault? = none := by
  cases event <;> cases h <;> rfl

theorem Event.arrival?_of_isAside {event : Event} (h : event.isAside = true) :
    event.arrival? = none := by
  cases event <;> cases h <;> rfl

namespace ProcessTable

variable {t : ProcessTable} {p : Process} {pid : Pid} {now : Nat}

/-- The time left to the disk read of a process. Without such a process it is zero, as for one
that does not wait. -/
def waitOf (t : ProcessTable) (pid : Pid) : Nat := (t.bare? pid).elim 0 (·.wait)

/-- The page that a process waits for, with the time at which it is due. As long as the process waits,
time that passes does not change it. -/
def dueOf? (t : ProcessTable) (now : Nat) (pid : Pid) : Option (Nat × PageRef) :=
  (t.bare? pid).bind fun p => p.pending?.map fun ref => (now + p.wait, ref)

theorem waitOf_of_bare (h : t.bare? pid = some p) : t.waitOf pid = p.wait := by
  rw [waitOf, h]
  rfl

theorem dueOf?_of_bare (h : t.bare? pid = some p) :
    t.dueOf? now pid = p.pending?.map fun ref => (now + p.wait, ref) := by
  rw [dueOf?, h, Option.bind_some]

end ProcessTable

namespace Machine

variable {chart : Chart} {m m' : Machine} {pid : Pid} {p q q' : Process} {now penalty elapsed : Nat}
  {rest : List Pid} {stats : Stats} {record : TraceRecord} {hit : Bool}

/-- The faults so far, the first one first. The times in it do not decrease, since it is in the
order in which they were noted. -/
def faults (m : Machine) : List (Nat × PageRef) := m.told Event.fault?

/-- The pages that came into memory so far, the first one first. It is a first part of the
faults, each at a later time. -/
def arrivals (m : Machine) : List (Nat × PageRef) := m.told Event.arrival?

/-- The pages that are waited for, with the times at which they are due, in the order of the queue. These
are the faults whose pages have not come yet. -/
def due (m : Machine) (now : Nat) : List (Nat × PageRef) :=
  (m.processes.queue .blocked).filterMap (m.processes.dueOf? now)

/-- What holds of the processes that wait for the disk, all the way. The times that they have left are
different, which is why at most one of them is due. -/
structure Patient (penalty now : Nat) (m : Machine) : Prop where
  /-- The others have no time left. -/
  idle : ∀ {pid p}, m.processes.bare? pid = some p → p.state ≠ .blocked → p.wait = 0
  /-- No time left is longer than a disk read. -/
  short : ∀ {pid p}, m.processes.bare? pid = some p → p.state = .blocked → p.wait ≤ penalty
  /-- The times left increase along the queue. -/
  ascending : (m.processes.queue .blocked).Pairwise fun pid other =>
    m.processes.waitOf pid < m.processes.waitOf other
  /-- Each miss was noted as a fault. -/
  counted : m.faults.length = m.stats.totals.misses
  /-- Each fault brought its page into memory when it was due, or the page is waited for. -/
  balanced : m.faults.map (fun fault => (fault.1 + penalty, fault.2)) = m.arrivals ++ m.due now

/-- One process may change, if it has no time left unless it waits for the disk. The clauses about the
queue and the journal are left to what changes it. -/
theorem Patient.update (h : m.Patient penalty now)
    (hbare : m'.processes.bare? = Function.update m.processes.bare? pid (some q'))
    (hidle : q'.state ≠ .blocked → q'.wait = 0) (hshort : q'.state = .blocked → q'.wait ≤ penalty)
    (hascending : (m'.processes.queue .blocked).Pairwise fun pid other =>
      m'.processes.waitOf pid < m'.processes.waitOf other)
    (hcounted : m'.faults.length = m'.stats.totals.misses)
    (hbalanced : m'.faults.map (fun fault => (fault.1 + penalty, fault.2)) =
      m'.arrivals ++ m'.due now) : m'.Patient penalty now where
  -- the process itself, and all others
  idle {other p} hp hstate := by
    rw [hbare, Function.update_apply] at hp
    split at hp
    · cases hp
      exact hidle hstate
    · exact h.idle hp hstate
  short {other p} hp hstate := by
    rw [hbare, Function.update_apply] at hp
    split at hp
    · cases hp
      exact hshort hstate
    · exact h.short hp hstate
  ascending := hascending
  counted := hcounted
  balanced := hbalanced

/-- **Time passes.** It makes no difference to when a page is due: what has passed is added to
the clock and taken from what is left. -/
theorem Patient.wait (h : m.Patient penalty now) (hlined : m.processes.Lined)
    (hmisses : stats.totals.misses = m.stats.totals.misses)
    (helapsed : ∀ {pid p}, m.processes.bare? pid = some p → p.state = .blocked → elapsed ≤ p.wait) :
    Patient penalty (now + elapsed) { m with stats, processes := m.processes.passTime elapsed } where
  idle {pid p'} hp' hidle := by
    obtain ⟨p, hp, heq, -⟩ := ProcessTable.exists_of_bare?_passTime hp'
    have hstate : p'.state = p.state := by rw [heq]
    -- a process that does not wait is passed over
    have hp' : (m.processes.passTime elapsed).bare? pid = some p' := hp'
    rw [ProcessTable.bare?_passTime, hp, Option.map_some, if_neg (hstate ▸ hidle)] at hp'
    cases hp'
    exact h.idle hp hidle
  short {pid p'} hp' hblocked := by
    obtain ⟨p, hp, hblocked, hwait⟩ := ProcessTable.exists_of_blocked_passTime hp' hblocked
    have := h.short hp hblocked
    omega
  ascending := by
    -- all that wait have the same time less left, so their order stays
    refine List.Pairwise.imp_of_mem (fun {pid other} hpid hother hlt => ?_) h.ascending
    obtain ⟨p, hp, hblocked⟩ := hlined.queued.1 hpid
    obtain ⟨q, hq, hblocked'⟩ := hlined.queued.1 hother
    have hle := helapsed hp hblocked
    have hle' := helapsed hq hblocked'
    have hp' : (m.processes.passTime elapsed).bare? pid = some (p.passTime elapsed) := by
      rw [ProcessTable.bare?_passTime, hp, Option.map_some, if_pos hblocked]
    have hq' : (m.processes.passTime elapsed).bare? other = some (q.passTime elapsed) := by
      rw [ProcessTable.bare?_passTime, hq, Option.map_some, if_pos hblocked']
    rw [ProcessTable.waitOf_of_bare hp, ProcessTable.waitOf_of_bare hq] at hlt
    show (m.processes.passTime elapsed).waitOf pid < (m.processes.passTime elapsed).waitOf other
    rw [ProcessTable.waitOf_of_bare hp', ProcessTable.waitOf_of_bare hq']
    show p.wait - elapsed < q.wait - elapsed
    omega
  counted := h.counted.trans hmisses.symm
  balanced := by
    have hdue : (m.processes.queue .blocked).filterMap
          -- what is due is due at the same time: as much later now as there is less left
          ((m.processes.passTime elapsed).dueOf? (now + elapsed)) = m.due now := by
      refine List.filterMap_congr fun pid hpid => ?_
      obtain ⟨p, hp, hblocked⟩ := hlined.queued.1 hpid
      have hle := helapsed hp hblocked
      have hp' : (m.processes.passTime elapsed).bare? pid = some (p.passTime elapsed) := by
        rw [ProcessTable.bare?_passTime, hp, Option.map_some, if_pos hblocked]
      have htime : now + elapsed + (p.wait - elapsed) = now + p.wait := by omega
      rw [ProcessTable.dueOf?_of_bare hp', ProcessTable.dueOf?_of_bare hp]
      show p.pending?.map (fun ref => (now + elapsed + (p.wait - elapsed), ref)) = _
      rw [htime]
    show m.faults.map _ = m.arrivals ++ _
    rw [h.balanced]
    exact congrArg (m.arrivals ++ ·) hdue.symm

/-- At most one disk read is complete, that of the head, since the others have more time left
than it. So a step never has to choose between two. -/
theorem Patient.completed_cases (h : m.Patient penalty now) (hlined : m.processes.Lined) :
    m.processes.completed = [] ∨ ∃ pid rest q, m.processes.queue .blocked = pid :: rest ∧
      m.processes.completed = [pid] ∧ m.processes.bare? pid = some q ∧ q.state = .blocked ∧
      q.wait = 0 := by
  -- nobody waits, or somebody is at the head
  cases hqueue : m.processes.queue .blocked with
  | nil =>
    refine .inl (List.eq_nil_iff_forall_not_mem.2 fun pid hpid => ?_)
    obtain ⟨p, hp, hblocked, -⟩ := (ProcessTable.mem_completed_iff hlined).1 hpid
    have hmem := hlined.queued.2 ⟨p, hp, hblocked⟩
    rw [hqueue] at hmem
    cases hmem
  | cons pid rest =>
    have hascending := h.ascending
    rw [hqueue, List.pairwise_cons] at hascending
    -- whoever is behind the head has more time left than the head
    have hhead : ∀ other ∈ m.processes.completed, other = pid := by
      intro other hother
      obtain ⟨p, hp, hblocked, hzero⟩ := (ProcessTable.mem_completed_iff hlined).1 hother
      have hmem := hlined.queued.2 ⟨p, hp, hblocked⟩
      rw [hqueue] at hmem
      rcases List.mem_cons.1 hmem with heq | hlater
      · exact heq
      · have hlt := hascending.1 other hlater
        rw [ProcessTable.waitOf_of_bare hp, hzero] at hlt
        exact absurd hlt (Nat.not_lt_zero _)
    -- the head is due, and then it is the only one
    by_cases hmem : pid ∈ m.processes.completed
    · obtain ⟨q, hq, hblocked, hzero⟩ := (ProcessTable.mem_completed_iff hlined).1 hmem
      refine .inr ⟨pid, rest, q, rfl, ?_, hq, hblocked, hzero⟩
      have hperm : m.processes.completed.Perm [pid] := by
        refine (List.perm_ext_iff_of_nodup (ProcessTable.nodup_completed hlined)
          (List.nodup_singleton pid)).2 fun other => ?_
        rw [List.mem_singleton]
        exact ⟨hhead other, fun heq => heq ▸ hmem⟩
      exact List.perm_singleton.1 hperm
    · refine .inl (List.eq_nil_iff_forall_not_mem.2 fun other hother => hmem ?_)
      exact hhead other hother ▸ hother

/-- The page that was waited for comes in. -/
theorem Resumed.arrivals_eq (h : Resumed chart now m m' pid q q') :
    ∃ ref, q.pending? = some ref ∧ m'.arrivals = m.arrivals ++ [(now, ref)] := by
  obtain ⟨ref, frame, hpending, harrivals⟩ :=
    h.told_eq Event.arrival? fun _ => Event.arrival?_of_isAside
  exact ⟨ref, hpending, harrivals⟩

/-- **A disk read of the head.** Its page is the next one to come. It leaves the pages that are
due at their front, and joins those that came at their end. -/
theorem Patient.resume (h : m.Patient penalty now) (hlined : m.processes.Lined)
    (hqueue : m.processes.queue .blocked = pid :: rest) (hzero : q.wait = 0)
    (hresumed : Resumed chart now m m' pid q q') :
    ∃ ref, q.pending? = some ref ∧ m'.arrivals = m.arrivals ++ [(now, ref)] ∧
      m'.Patient penalty now := by
  obtain ⟨ref, hpending, harrivals⟩ := hresumed.arrivals_eq
  have hfaults : m'.faults = m.faults := by
    obtain ⟨_, _, -, hfaults⟩ := hresumed.told_eq Event.fault? fun _ => Event.fault?_of_isAside
    exact hfaults.trans (List.append_nil _)
  -- the head leaves the queue, and the others do not move
  have hleft : m'.processes.queue .blocked = rest := by
    rw [hresumed.requeued.queue_eq, ProcessTable.requeue_source hresumed.passes.idle.1.symm, hqueue,
      List.erase_cons_head]
  have hsame : ∀ other ∈ rest, m'.processes.bare? other = m.processes.bare? other := by
    intro other hother
    have hnodup := hlined.nodup .blocked
    rw [hqueue, List.nodup_cons] at hnodup
    rw [hresumed.bare_eq, Function.update_of_ne]
    rintro rfl
    exact hnodup.1 hother
  refine ⟨ref, hpending, harrivals, h.update hresumed.bare_eq
    (fun _ => hresumed.passes.wait_eq.trans hzero)
    (fun hblocked => absurd hblocked hresumed.passes.idle.1) ?_ ?_ ?_⟩
  · -- the rest of the queue is in order still
    rw [hleft]
    have hascending := h.ascending
    rw [hqueue] at hascending
    refine hascending.of_cons.imp_of_mem fun {one other} hone hother hlt => ?_
    rwa [ProcessTable.waitOf, ProcessTable.waitOf, hsame one hone, hsame other hother]
  · -- no fault was added
    rw [hfaults, hresumed.stats_eq]
    exact h.counted
  · -- the page of the head was the first one due, and is now the last that came
    have hdue : m.due now = (now, ref) :: m'.due now := by
      have hfirst : m.processes.dueOf? now pid = some (now, ref) := by
        rw [ProcessTable.dueOf?_of_bare hresumed.found, hpending, hzero]
        rfl
      rw [due, due, hqueue, hleft, List.filterMap_cons_some hfirst]
      refine congrArg ((now, ref) :: ·) (List.filterMap_congr fun other hother => ?_)
      rw [ProcessTable.dueOf?, ProcessTable.dueOf?, hsame other hother]
    rw [hfaults, h.balanced, hdue, harrivals, List.append_assoc]
    rfl

/-- No page comes in when a reference is executed. -/
theorem Referred.arrivals_eq (h : Referred chart now penalty m m' pid q q' record hit) :
    m'.arrivals = m.arrivals := by
  have htold := h.told_eq Event.arrival? fun _ => Event.arrival?_of_isAside
  -- the event of an arrival is not one that a reference leaves
  have hnone : (if hit then [] else (none : Option (Nat × PageRef)).toList) = [] := ite_self _
  exact htold.trans ((List.append_assoc ..).trans ((congrArg (m.arrivals ++ ·) hnone).trans
    (List.append_nil _)))

/-- **A reference.** If it misses its page is the last one to come, since each process before has waited
already. If it hits nobody begins to wait. -/
theorem Patient.refer (h : m.Patient penalty now) (hlined : m.processes.Lined)
    (hwaited : ∀ {pid p}, m.processes.bare? pid = some p → p.state = .blocked → p.wait < penalty)
    (hreferred : Referred chart now penalty m m' pid q q' record hit) :
    m'.arrivals = m.arrivals ∧ m'.Patient penalty now := by
  have harrivals := hreferred.arrivals_eq
  have hfaults : m'.faults = m.faults ++ if hit then [] else [(now, record.page)] := by
    have htold := hreferred.told_eq Event.fault? fun _ => Event.fault?_of_isAside
    rw [List.append_assoc] at htold
    exact htold
  have hself := hreferred.self
  -- the process of the reference was not among those that wait
  have hsame : ∀ other ∈ m.processes.queue .blocked,
      m'.processes.bare? other = m.processes.bare? other := by
    intro other hother
    obtain ⟨p, hp, hblocked⟩ := hlined.queued.1 hother
    rw [hreferred.bare_eq, Function.update_of_ne]
    rintro rfl
    cases hreferred.found.symm.trans hp
    exact hreferred.awake hblocked
  have hascending : (m.processes.queue .blocked).Pairwise fun pid other =>
      m'.processes.waitOf pid < m'.processes.waitOf other :=
    h.ascending.imp_of_mem fun {one other} hone hother hlt => by
      rwa [ProcessTable.waitOf, ProcessTable.waitOf, hsame one hone, hsame other hother]
  have hdue : (m.processes.queue .blocked).filterMap (m'.processes.dueOf? now) = m.due now :=
    List.filterMap_congr fun other hother => by
      rw [ProcessTable.dueOf?, ProcessTable.dueOf?, hsame other hother]
  have hzero : q.wait = 0 := h.idle hreferred.found hreferred.awake
  refine ⟨harrivals, ?_⟩
  -- a hit: queue, faults and arrivals are as they were
  rcases hreferred.outcome.eq_or with ⟨rfl, hpasses, htotals⟩ | ⟨rfl, rfl, htotals⟩
  · have hqueue : m'.processes.queue .blocked = m.processes.queue .blocked := by
      rw [hreferred.requeued.queue_eq, ProcessTable.requeue_of_ne (by decide) hpasses.idle.1.symm]
    refine h.update hreferred.bare_eq (fun _ => hpasses.wait_eq.trans hzero)
      (fun hblocked => absurd hblocked hpasses.idle.1) ?_ ?_ ?_
    · rw [hqueue]
      exact hascending
    · rw [hfaults, htotals]
      exact (congrArg List.length (List.append_nil _)).trans h.counted
    · rw [due, hqueue, hdue, hfaults, harrivals]
      exact (congrArg _ (List.append_nil _)).trans h.balanced
  · -- a miss: the process is queued last, with a fault of its own
    have hqueue : m'.processes.queue .blocked = m.processes.queue .blocked ++ [pid] := by
      rw [hreferred.requeued.queue_eq, ProcessTable.requeue_blocked (by decide)]
    refine h.update hreferred.bare_eq (fun hidle => absurd rfl hidle) (fun _ => Nat.le_refl _) ?_ ?_
      ?_
    -- the new one has all the time left, and the others less than that
    · rw [hqueue, List.pairwise_append]
      refine ⟨hascending, List.pairwise_singleton _ _, fun other hother last hlast => ?_⟩
      obtain rfl := List.mem_singleton.1 hlast
      obtain ⟨p, hp, hblocked⟩ := hlined.queued.1 hother
      have hp' := (hsame other hother).trans hp
      rw [ProcessTable.waitOf_of_bare hself, ProcessTable.waitOf_of_bare hp']
      exact hwaited hp hblocked
    · rw [hfaults, htotals]
      exact List.length_append.trans (congrArg (· + 1) h.counted)
    · -- its page is due a whole disk read from now, after all others
      have hlast : m'.processes.dueOf? now pid = some (now + penalty, record.page) :=
        ProcessTable.dueOf?_of_bare hself
      rw [due, hqueue, List.filterMap_append, hdue, List.filterMap_cons_some hlast, hfaults, harrivals,
        List.map_append, h.balanced, List.append_assoc]
      rfl

end Machine

namespace Simulator

variable {chart : Chart} {s t : Simulator} {n : Nat}

/-- What a step brings into memory: nothing, or the page that the head of the queue waited for. The head
is that of before the step. -/
def Brings (s t : Simulator) : Prop :=
  t.machine.arrivals = s.machine.arrivals ∨
    ∃ pid rest p ref, s.machine.processes.queue .blocked = pid :: rest ∧
      s.machine.processes.get? pid = some p ∧ p.pending? = some ref ∧
      t.machine.arrivals = s.machine.arrivals ++ [(t.clock, ref)]

/-- What a step does once time has passed: at most one disk read, that of the head of the queue, and at
most one reference, that of the first process that can then run. All later invariants are proved along
these two. -/
structure Settled (chart : Chart) (s t : Simulator) (m : Machine) : Prop where
  /-- The disk reads that are due have been completed. -/
  reads_eq : s.completeReads = .ok { s with machine := m }
  /-- The machine goes on. -/
  going : m.Going chart s.config
  /-- None was due, or that of the head. -/
  read : m = s.machine ∨ ∃ pid rest q q', s.machine.processes.queue .blocked = pid :: rest ∧
    q.wait = 0 ∧ Machine.Resumed chart s.clock s.machine m pid q q'
  /-- None can run, or the first one that can executes its next reference. -/
  turn : (m.processes.head? .runnable = none ∧ t = { s with machine := m }) ∨
    ∃ pid m' q q' record hit, m.processes.head? .runnable = some pid ∧
      Machine.Referred chart s.clock s.config.diskPenalty m m' pid q q' record hit ∧
      m'.Going chart s.config ∧ t = { s with machine := m' }

/-- Neither takes time. -/
theorem Settled.clock_eq {m : Machine} (h : Settled chart s t m) :
    t.clock = s.clock ∧ t.config = s.config := by
  rcases h.turn with ⟨-, rfl⟩ | ⟨_, _, _, _, _, _, -, -, -, rfl⟩
  · exact ⟨rfl, rfl⟩
  · exact ⟨rfl, rfl⟩

/-- **The rest of a step**, while the processes wait in line. Of the disk reads that may be due only that
of the head can be. -/
theorem Underway.settled (h : s.Underway chart)
    (hs : s.machine.Patient s.config.diskPenalty s.clock) (hsettle : s.settle = .ok (.ok true, t)) :
    ∃ m, Settled chart s t m := by
  have hfit := h.references_lt
  obtain ⟨m, hfold, hgoing, hcases⟩ := h.settle_cases hsettle
  refine ⟨m, ?_, hgoing, ?_, ?_⟩
  · rw [completeReads, hfold]
    rfl
  · -- the fold over the disk reads that are due has no step or one
    rcases hs.completed_cases h.machine.lined with
      hnone | ⟨pid, rest, q, hqueue, hone, hq, hblocked, hzero⟩
    · rw [hnone] at hfold
      cases hfold
      exact .inl rfl
    · rw [hone, List.foldlM_cons] at hfold
      obtain ⟨_, hread, hfold⟩ := Fault.bind_eq_ok_iff.1 hfold
      cases hfold
      obtain ⟨q', hresumed⟩ := h.machine.resumed hq hblocked (by omega) hread
      exact .inr ⟨pid, rest, q, q', hqueue, hzero, hresumed⟩
  · -- the reference, if there is a process to execute it
    rcases hcases with hnone | ⟨pid, m', hhead, hrun, hhits, hmisses, hgoing', ht⟩
    · exact .inl hnone
    · obtain ⟨q, q', record, hit, hreferred⟩ := hgoing.sound.referred hhead hhits hmisses hrun
      exact .inr ⟨pid, m', q, q', record, hit, hhead, hreferred, hgoing', ht⟩

/-- Disk reads that are due and a reference keep the queue in order. A process that begins to
wait has a whole disk read left, more than any that waited before. -/
theorem Underway.patient {m : Machine} (h : s.Underway chart)
    (hs : s.machine.Patient s.config.diskPenalty s.clock)
    (hwaited : ∀ {pid p}, s.machine.processes.bare? pid = some p → p.state = .blocked →
      p.wait < s.config.diskPenalty) (hsettled : Settled chart s t m) :
    t.machine.Patient s.config.diskPenalty s.clock ∧ s.Brings t := by
  -- after the disk reads: in order, with what came in, and nobody with all the time left
  have hm : m.Patient s.config.diskPenalty s.clock ∧ s.Brings { s with machine := m } ∧
      ∀ {pid p}, m.processes.bare? pid = some p → p.state = .blocked →
        p.wait < s.config.diskPenalty := by
    rcases hsettled.read with rfl | ⟨pid, rest, q, q', hqueue, hzero, hresumed⟩
    · exact ⟨hs, .inl rfl, hwaited⟩
    · obtain ⟨ref, hpendingRef, harrivals, hpatient⟩ :=
        hs.resume h.machine.lined hqueue hzero hresumed
      obtain ⟨p, hp, rfl⟩ := ProcessTable.bare?_eq_some_iff.1 hresumed.found
      -- the head does not wait any more, and the others have waited as before
      refine ⟨hpatient, .inr ⟨pid, rest, p, ref, hqueue, hp, hpendingRef, harrivals⟩, ?_⟩
      intro other r hr hstate
      rw [hresumed.bare_eq, Function.update_apply] at hr
      split at hr
      · cases hr
        exact absurd hstate hresumed.passes.idle.1
      · exact hwaited hr hstate
  obtain ⟨hpatient, hbrings, hwaited'⟩ := hm
  rcases hsettled.turn with ⟨-, rfl⟩ | ⟨pid, m', q, q', record, hit, -, hreferred, -, rfl⟩
  · exact ⟨hpatient, hbrings⟩
  · obtain ⟨harrivals, hpatient'⟩ := hpatient.refer hsettled.going.sound.lined hwaited' hreferred
    refine ⟨hpatient', ?_⟩
    rw [Brings, harrivals]
    exact hbrings

/-- **A step, taken apart.** Time passes, and the processes wait in line all the while. This is what the
proofs about steps begin with. -/
theorem Sound.settled_of_step (h : s.Sound chart)
    (hs : s.machine.Patient s.config.diskPenalty s.clock) (hstep : s.step = .ok (.ok true, t)) :
    s.isFinished = false ∧ s.passTime = .ok (s.waited s.elapsed) ∧
      (s.waited s.elapsed).Underway chart ∧
      (s.waited s.elapsed).machine.Patient s.config.diskPenalty (s.clock + s.elapsed) ∧
      ∃ m, Settled chart (s.waited s.elapsed) t m := by
  obtain ⟨hrun, hclock, hwaited, hsettle⟩ := h.step_cases hstep
  have hpatient : (s.waited s.elapsed).machine.Patient s.config.diskPenalty (s.clock + s.elapsed) :=
    hs.wait h.machine.lined rfl (h.elapsed_spec hrun).2.2
  exact ⟨hrun, h.passTime_eq_ok hrun hclock, hwaited, hpatient, hwaited.settled hpatient hsettle⟩

/-- **A step.** It keeps the queue in order, and brings at most one page into memory. Time
passes first, which no process has less of left than the step takes. -/
theorem Sound.patient_step (h : s.Sound chart)
    (hs : s.machine.Patient s.config.diskPenalty s.clock) (hstep : s.step = .ok (.ok true, t)) :
    t.machine.Patient t.config.diskPenalty t.clock ∧ s.Brings t := by
  obtain ⟨hrun, -, hwaited, hpatient, m, hsettled⟩ := h.settled_of_step hs hstep
  obtain ⟨-, -, hleast⟩ := h.elapsed_spec hrun
  obtain ⟨hclock, hconfig⟩ := hsettled.clock_eq
  -- now each has waited, so a new one has more time left than any other
  have hwaits : ∀ {pid p}, (s.waited s.elapsed).machine.processes.bare? pid = some p →
      p.state = .blocked → p.wait < s.config.diskPenalty := by
    intro pid p hp hblocked
    obtain ⟨q, hq, hblocked', hwait⟩ := ProcessTable.exists_of_blocked_passTime hp hblocked
    have hle := hleast hq hblocked'
    have hshort := hs.short hq hblocked'
    have hpos := s.elapsed_pos
    omega
  obtain ⟨hpatient', hbrings⟩ := hwaited.patient hpatient hwaits hsettled
  rw [hclock, hconfig]
  refine ⟨hpatient', ?_⟩
  -- what came in for the head after time has passed came in for the head of before
  rcases hbrings with hnone | ⟨pid, rest, p, ref, hqueue, hp, hpending, harrivals⟩
  · exact .inl hnone
  · have hp : (s.machine.processes.passTime s.elapsed).get? pid = some p := hp
    rw [ProcessTable.get?_passTime] at hp
    obtain ⟨q, hq, rfl⟩ := Option.map_eq_some_iff.1 hp
    refine .inr ⟨pid, rest, q, ref, hqueue, hq, ?_, harrivals⟩
    rw [← hpending]
    split <;> rfl

/-- All that a simulation reaches has its queue in order. -/
theorem Sound.patient_of_reaches (h : s.Sound chart)
    (hs : s.machine.Patient s.config.diskPenalty s.clock) (hreaches : s.Reaches n t) :
    t.machine.Patient t.config.diskPenalty t.clock := by
  induction hreaches with
  | start => exact hs
  | step hreaches hstep ih => exact ((h.of_reaches hreaches).1.patient_step ih hstep).1

/-- What each step keeps while the processes wait in line holds of all that a simulation reaches. It is
the induction of all run lemmas about invariants that a move alone does not keep. -/
theorem Sound.kept {P : Simulator → Prop} (h : s.Sound chart)
    (hs : s.machine.Patient s.config.diskPenalty s.clock)
    (hkeeps : ∀ {t u}, t.Sound chart → t.machine.Patient t.config.diskPenalty t.clock → P t →
      t.step = .ok (.ok true, u) → P u) (hP : P s) (hreaches : s.Reaches n t) : P t := by
  induction hreaches with
  | start => exact hP
  | step hreaches hstep ih =>
    exact hkeeps (h.of_reaches hreaches).1 (h.patient_of_reaches hs hreaches) ih hstep

/-- Nothing waits at the start. -/
theorem patient_of_start {config : ValidConfig} {reader after : TraceReader} {stats : Stats}
    {survey : Survey} (hfresh : stats.totals = {})
    (hsurvey : reader.survey config.queueOrder = .ok (.ok survey, after))
    (hstart : start config reader stats = .ok (.ok s)) :
    s.machine.Patient s.config.diskPenalty s.clock := by
  obtain ⟨records, -, hfinds⟩ := TraceReader.finds_of_survey hsurvey
  obtain ⟨frames, policy, -, -, rfl⟩ := start_cases hsurvey hstart
  -- no process of the survey waits for anything
  have hbegins : ∀ {pid p}, survey.processes.bare? pid = some p → p.state = .runnable ∧ p.wait = 0 := by
    intro pid p hp
    obtain ⟨q, hq, rfl⟩ := ProcessTable.bare?_eq_some_iff.1 hp
    have hbegin := hfinds.begins hq
    exact ⟨hbegin.state_eq, hbegin.idle.1⟩
  have hqueue : survey.processes.queue .blocked = [] := by
    rw [ProcessTable.queue, hfinds.queues_eq]
    rfl
  refine ⟨fun hp _ => (hbegins hp).2, fun hp hblocked => ?_, ?_, ?_, ?_⟩
  · cases (hbegins hp).1.symm.trans hblocked
  · show (survey.processes.queue .blocked).Pairwise _
    rw [hqueue]
    exact .nil
  · exact (congrArg Totals.misses hfresh :).symm
  · show [] = [] ++ (survey.processes.queue .blocked).filterMap _
    rw [hqueue]
    rfl

end Simulator

end DemandPaging
