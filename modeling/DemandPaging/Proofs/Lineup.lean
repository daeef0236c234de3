import DemandPaging.Proofs.Effects
import DemandPaging.Proofs.Veils

/-!
# Leaving one queue and joining another

What the moves of a machine do to its queues and to its journal. A process that goes from one state to
another leaves the queue of the first one and joins that of the second one; what the queues are then
(`ProcessTable.requeue`) depends on the queues before, on their order and on the lines of the processes.
The positions that the program compares do not matter, since they are in the order of the lines.

`Machine.Resumed` is a completed disk read and `Machine.Referred` an executed reference, each with all
that it does but for the reader: to the processes, the pages and the policy, to the queues, the
statistics and the journal. Both are what an operation that was called for comes to (`Sound.resumed`,
`Sound.referred`).
-/

namespace DemandPaging

namespace ProcessTable

variable {t t' u : ProcessTable} {p q : Process} {pid other : Pid} {state source target : ProcessState}
  {order : QueueOrder} {line : Pid → Nat} {queue : ProcessState → List Pid} {pids : List Pid}

/-! ### Queues by line -/

/-- The line of a process, which its pages do not matter to. Without such a process it is zero,
which is no line of a trace. -/
def lineOf (t : ProcessTable) (pid : Pid) : Nat := (t.bare? pid).elim 0 (·.line)

/-- A queue with a process more: at the back, or before those that stand on later lines. The lines are
given apart, so that no table is asked. -/
def joined (order : QueueOrder) (line : Pid → Nat) (pid : Pid) (state : ProcessState)
    (pids : List Pid) : List Pid :=
  let ahead :=
    if state = .runnable ∧ order = .tracePosition then pids.takeWhile (line · ≤ line pid) else pids
  ahead ++ pid :: pids.drop ahead.length

/-- The queues when a process has gone from one state to another. One that can run and goes on running
keeps its place in order of arrival. By trace position it is queued anew even then, as it is on another
line. -/
def requeue (order : QueueOrder) (line : Pid → Nat) (pid : Pid) (source target : ProcessState)
    (queue : ProcessState → List Pid) (state : ProcessState) : List Pid :=
  if source = target ∧ order = .arrival then queue state
  else
    let others := if state = source then (queue state).erase pid else queue state
    if state = target then joined order line pid state others else others

/-- Only processes that can run are queued by line. -/
theorem joined_of_ne (h : state ≠ .runnable) : joined order line pid state pids = pids ++ [pid] := by
  rw [joined, if_neg fun hand => h hand.1, List.drop_length]

/-- In a queue in order a process has those on the same line in front of it, and behind it only those
on later lines. -/
theorem exists_joined_split (pid : Pid)
    (h : pids.Pairwise fun other later => line other ≤ line later) :
    ∃ ahead behind, pids = ahead ++ behind ∧
      joined .tracePosition line pid .runnable pids = ahead ++ pid :: behind ∧
      (∀ other ∈ ahead, line other ≤ line pid) ∧ ∀ other ∈ behind, line pid < line other := by
  let ahead := pids.takeWhile (line · ≤ line pid)
  let behind := pids.dropWhile (line · ≤ line pid)
  -- those that are passed over come first
  have hsplit : ahead ++ behind = pids := List.takeWhile_append_dropWhile
  refine ⟨ahead, behind, hsplit.symm, ?_, fun other hother => ?_, ?_⟩
  · rw [joined, if_pos ⟨rfl, rfl⟩]
    show ahead ++ pid :: pids.drop ahead.length = _
    rw [← hsplit, List.drop_left]
  · -- a process that was passed over is not on a later line
    have htaken := List.mem_takeWhile_imp hother
    exact of_decide_eq_true htaken
  · cases hcase : behind with
    | nil => exact fun _ hother => absurd hother List.not_mem_nil
    | cons first rest =>
      -- the first one behind is on a later line, and none of the others is on an earlier one
      have hfirst : line pid < line first := by
        have hnot := List.head?_dropWhile_not (line · ≤ line pid) pids
        have hhead : (pids.dropWhile (line · ≤ line pid)).head? = some first :=
          congrArg List.head? hcase
        rw [hhead] at hnot
        exact Nat.lt_of_not_le (of_decide_eq_false hnot)
      rw [← hsplit, hcase] at h
      obtain ⟨-, hbehind, -⟩ := List.pairwise_append.1 h
      intro other hother
      rcases List.mem_cons.1 hother with rfl | hother
      · exact hfirst
      · exact Nat.lt_of_lt_of_le hfirst ((List.pairwise_cons.1 hbehind).1 other hother)

theorem requeue_of_ne (hsource : state ≠ source) (htarget : state ≠ target) :
    requeue order line pid source target queue state = queue state := by
  simp only [requeue, if_neg hsource, if_neg htarget, ite_self]

theorem requeue_source (h : source ≠ target) :
    requeue order line pid source target queue source = (queue source).erase pid := by
  rw [requeue, if_neg fun hand => h hand.1, if_neg h, if_pos rfl]

/-- Processes that wait for the disk line up in the order in which they began to. -/
theorem requeue_blocked (h : source ≠ .blocked) :
    requeue order line pid source .blocked queue .blocked = queue .blocked ++ [pid] := by
  rw [requeue, if_neg fun hand => h hand.1, if_pos rfl, if_neg h.symm, joined_of_ne (by decide)]

/-- A process has gone from one state to another. The queues after it are told from those before, by the
lines that the processes have afterwards. -/
structure Requeued (t t' : ProcessTable) (pid : Pid) (source target : ProcessState) : Prop where
  /-- The queues are lined up as before. -/
  order_eq : t'.order = t.order
  /-- It has left one queue and joined another. -/
  queue_eq : t'.queue = requeue t.order t'.lineOf pid source target t.queue

theorem Requeued.of_queues (h : t.Requeued t' pid source target) (hqueue : u.queue = t.queue)
    (horder : u.order = t.order) : u.Requeued t' pid source target where
  order_eq := h.order_eq.trans horder.symm
  queue_eq := by rw [h.queue_eq, hqueue, horder]

/-- Runnable processes are in the order of their lines, so that a queue may be compared by the lines
instead of the offsets. -/
theorem Stationed.lineOf_le_iff (h : t.Stationed) (hpid : pid ∈ t.queue .runnable)
    (hother : other ∈ t.queue .runnable) :
    t.positionOf other ≤ t.positionOf pid ↔ t.lineOf other ≤ t.lineOf pid := by
  obtain ⟨p, q, hp, hq, hle⟩ := h.positionOf_le_iff hpid hother
  rw [hle, lineOf, lineOf, bare?_of_get? hp, bare?_of_get? hq]
  rfl

/-- **Moving to another queue.** The program compares positions, of the table in which the process has
left its queue already; of the processes compared there, each stands at a record of its own. -/
theorem requeued_relocate (hstationed : target = .runnable → (t.relocate p target).Stationed)
    (hmoves : p.state = target → t.order = .tracePosition) :
    t.Requeued (t.relocate p target) p.pid p.state target where
  order_eq := rfl
  queue_eq := by
    -- queued anew in its own state it is by trace position only
    have hmoved : ¬(p.state = target ∧ t.order = .arrival) := by
      rintro ⟨hstate, harrival⟩
      cases (hmoves hstate).symm.trans harrival
    funext state
    rw [requeue, if_neg hmoved]
    by_cases hstate : state = target
    · subst hstate
      let left : ProcessTable :=
        ({ t with queues := t.queues.set p.state ((t.queue p.state).erase p.pid) }).put { p with state }
      have hleft : left.queue state = t.queueWithout p state := queue_leave state
      have hjoined : (t.relocate p state).queue state =
          joined t.order left.positionOf p.pid state (t.queueWithout p state) := by
        rw [← hleft]
        exact Queues.get_set.trans (if_pos rfl)
      rw [if_pos rfl, hjoined]
      show joined t.order left.positionOf p.pid state _ =
        joined t.order (t.relocate p state).lineOf p.pid state (t.queueWithout p state)
      -- only runnable processes are compared, and these are in the order of their lines
      rw [joined, joined]
      by_cases hplace : state = .runnable ∧ t.order = .tracePosition
      · obtain ⟨rfl, horder⟩ := hplace
        have hqueue : ∀ {other}, other ∈ p.pid :: t.queueWithout p .runnable →
            other ∈ (t.relocate p .runnable).queue .runnable := fun hmem =>
          queue_relocate_perm.mem_iff.2 hmem
        rw [if_pos ⟨rfl, horder⟩, if_pos ⟨rfl, horder⟩]
        have hahead : (t.queueWithout p .runnable).takeWhile
              (fun other => left.positionOf other ≤ left.positionOf p.pid) =
            (t.queueWithout p .runnable).takeWhile fun other =>
              (t.relocate p .runnable).lineOf other ≤ (t.relocate p .runnable).lineOf p.pid := by
          refine takeWhile_congr fun other hmem => decide_eq_decide.2 ?_
          exact (hstationed rfl).lineOf_le_iff (hqueue List.mem_cons_self)
            (hqueue (List.mem_cons_of_mem _ hmem))
        rw [hahead]
      · rw [if_neg hplace, if_neg hplace]
    · -- a queue that it does not join has at most lost it
      rw [if_neg hstate, queue_relocate_of_ne hstate, queueWithout]

/-- A process that can still run keeps its place in order of arrival. -/
theorem requeued_of_arrival (horder : t.order = .arrival) : t.Requeued t pid source source where
  order_eq := rfl
  queue_eq := by
    funext state
    rw [requeue, if_pos ⟨rfl, horder⟩]

/-- A process that ends has left its queue. That its pages go as well does not concern the queues. -/
theorem requeued_retired (h : p.state ≠ .finished) :
    t.Requeued (t.retired p) p.pid p.state .finished where
  order_eq := rfl
  queue_eq := by
    have hrelocate : t.Requeued (t.relocate p .finished) p.pid p.state .finished :=
      requeued_relocate (fun heq => by cases heq) fun heq => absurd heq h
    have hline : (t.retired p).lineOf = (t.relocate p .finished).lineOf := by
      funext pid
      rw [lineOf, lineOf, bare?_retired, bare?_relocate]
    rw [queue_retired, hrelocate.queue_eq, hline]

end ProcessTable

/-! ### What the journal tells -/

/-- Whether an event is told of besides what moves a process: that another one has its turn, and what
becomes of pages that make room or whose process ends. A policy can make a difference to these. -/
def Event.isAside : Event → Bool
  | switched .. => true
  | evicted .. => true
  | exited .. => true
  | _ => false

namespace Machine

variable {α : Type} {select : Event → Option α} {chart : Chart} {m m' : Machine} {pid : Pid}
  {p q q' : Process} {now diskPenalty : Nat} {frame : FrameId} {page : Page} {record : TraceRecord}
  {hit : Bool}

/-- A completed disk read is told of as such, between an eviction and an end that are told of
besides. A selection that leaves these two out sees one event. -/
theorem told_completeRead (haside : ∀ event, event.isAside = true → select event = none)
    (h : completeRead now m pid = .ok m') :
    ∃ p ref frame, m.processes.get? pid = some p ∧ p.pending? = some ref ∧
      m'.told select = m.told select ++ (select (.pagedIn now ref frame)).toList := by
  obtain ⟨p, ref, frame, m₁, m₂, p₂, step, p₃, hp, hpending, hroom, hload, -, -, hend⟩ :=
    completeRead_cases h
  obtain ⟨page, frames, policy, -, -, -, -, rfl⟩ := loadPage_cases hload
  have hloaded := told_of_makeRoom (fun _ => haside _ rfl) hroom
  refine ⟨p, ref, frame, hp, hpending, ?_⟩
  -- the process has ended, or can run again; neither is told of
  rcases hend with ⟨-, hretire⟩ | ⟨-, t, -, rfl⟩
  · rw [told_of_retire (fun _ _ => haside _ rfl) hretire]
    exact told_note.trans (congrArg (· ++ _) hloaded)
  · exact told_note.trans (congrArg (· ++ _) hloaded)

/-! ### Moves -/

/-- A disk read was completed, and its process resumed. To what `Completed` says of pages this adds the
queues, the counts and the journal. -/
structure Resumed (chart : Chart) (now : Nat) (m m' : Machine) (pid : Pid) (q q' : Process) : Prop
    extends Completed chart m m' pid q q' where
  /-- It has left the queue of those that wait for the disk. -/
  requeued : m.processes.Requeued m'.processes pid .blocked q'.state
  /-- At most an eviction was counted. -/
  stats_eq : m'.stats =
    { m.stats with totals := { m.stats.totals with evictions := m'.stats.totals.evictions } }
  /-- The page that came in was noted. -/
  told_eq : ∀ {α : Type} (select : Event → Option α),
    (∀ event, event.isAside = true → select event = none) →
    ∃ ref frame, q.pending? = some ref ∧
      m'.told select = m.told select ++ (select (.pagedIn now ref frame)).toList

/-- A reference was executed at a time. To what `Executed` says of pages this adds the same. -/
structure Referred (chart : Chart) (now diskPenalty : Nat) (m m' : Machine) (pid : Pid)
    (q q' : Process) (record : TraceRecord) (hit : Bool) : Prop
    extends Executed chart m m' pid q q' record hit where
  /-- What it did to its process and to the totals. -/
  outcome : Outcome chart diskPenalty record q m.stats.totals hit q' m'.stats.totals
  /-- The process has left its queue, or stays in it. -/
  requeued : m.processes.Requeued m'.processes pid .runnable q'.state
  /-- A hit or a miss was counted. -/
  stats_eq : m'.stats = { m.stats with totals := m'.stats.totals }
  /-- It was noted, and so was that the process waits if it does. -/
  told_eq : ∀ {α : Type} (select : Event → Option α),
    (∀ event, event.isAside = true → select event = none) →
    m'.told select = m.told select ++ (select (.referenced now record.page q.line hit)).toList ++
      if hit then [] else (select (.blocked now record.page)).toList

/-- Making room for a page does not concern the queues, though a page of another process may leave. -/
theorem queue_of_makeRoom (h : m.makeRoom now = .ok (frame, m')) :
    m'.processes.queue = m.processes.queue ∧ m'.processes.order = m.processes.order := by
  rcases makeRoom_cases h with ⟨-, -, rfl⟩ | ⟨owner, policy, -, -, -, hevict⟩
  · exact ⟨rfl, rfl⟩
  · obtain ⟨page, frames, stats, -, -, -, -, rfl⟩ := evict_cases hevict
    exact ⟨rfl, rfl⟩

/-- A process that ends has left its queue, whatever becomes of its pages. -/
theorem requeued_of_retire {p₁ : Process} (halive : p₁.state ≠ .finished)
    (h : retire { m with processes := m.processes.put p₁ } now p₁.pid = .ok m') :
    m.processes.Requeued m'.processes p₁.pid p₁.state .finished := by
  rw [(processes_of_retire h).1]
  exact (ProcessTable.requeued_retired halive).of_queues rfl rfl

/-- **A completed disk read.** What it does to the pages is known; for the queues the move is followed to
the point at which the page has come in, where the process is still queued as blocked. -/
theorem Sound.resumed (h : m.Sound chart) (hq : m.processes.bare? pid = some q)
    (hblocked : q.state = .blocked) (hfit : m.stats.totals.misses < 2 ^ 64)
    (hcomplete : completeRead now m pid = .ok m') :
    ∃ q', Resumed chart now m m' pid q q' := by
  obtain ⟨q', hcompleted⟩ := h.completed hq hblocked hfit hcomplete
  obtain ⟨_, _, hcomplete', hsound, -, -, hstats, -⟩ := completeRead_eq_ok h hq hblocked hfit now
  cases hcomplete.symm.trans hcomplete'
  obtain ⟨p, hp, rfl⟩ := ProcessTable.bare?_eq_some_iff.1 hq
  obtain rfl := h.lined.pid_of_get? hp
  refine ⟨q', hcompleted, ?_, hstats, fun select haside => ?_⟩
  · obtain ⟨record, frame, m₁, m₂, p₂, hpending, hroom, hload, hmid, hunpaged, -⟩ :=
      h.exists_midway hp hblocked hfit now
    obtain ⟨_, _, _, _, _, p₂', step, p₃, hp', hpending', hroom', hload', hp₂, hadvance, hend⟩ :=
      completeRead_cases hcomplete
    cases hp.symm.trans hp'
    cases hpending.symm.trans hpending'
    cases hroom.symm.trans hroom'
    cases hload.symm.trans hload'
    have hpid₂ : p₂.pid = p.pid := (congrArg Process.pid hunpaged :)
    have hfound := hmid.found
    rw [hpid₂, hp₂] at hfound
    cases hfound
    -- the queues are still those from before the page came in
    obtain ⟨hqueue, horder⟩ := queue_of_makeRoom hroom
    obtain ⟨page, frames, policy, -, -, -, -, rfl⟩ := loadPage_cases hload
    obtain ⟨hcursor, -⟩ := Process.advance_cases hadvance
    have hpid₃ : p₃.pid = p.pid := by
      rw [hcursor]
      exact hpid₂
    have hstate₃ : p₃.state = .blocked := by
      rw [hcursor]
      exact (congrArg Process.state hunpaged :).trans hblocked
    have hq' : m'.processes.bare? p₃.pid = some q' := hpid₃ ▸ hcompleted.self
    have halive : p₃.state ≠ .finished := by
      rw [hstate₃]
      exact ProcessState.noConfusion
    rw [← hpid₃, ← hstate₃]
    rw [← hpid₃] at hend
    -- it leaves the queue of blocked processes, to end or to be runnable again
    rcases hend with ⟨-, hretire⟩ | ⟨-, t, ht, rfl⟩
    · have hended : q'.state = .finished := by
        rw [(processes_of_retire hretire).1, ProcessTable.bare?_retired, Function.update_self] at hq'
        cases hq'
        rfl
      rw [hended]
      exact (requeued_of_retire halive hretire).of_queues hqueue.symm horder.symm
    · obtain ⟨p₄, hp₄, -, rfl⟩ := ProcessTable.setState_cases ht
      cases (ProcessTable.get?_put.trans (if_pos rfl)).symm.trans hp₄
      have hstationed := hsound.lined.stationed hsound.stands
      rw [ProcessTable.bare?_enter, Function.update_self] at hq'
      cases hq'
      exact (ProcessTable.requeued_relocate (fun _ => hstationed) fun heq => by
        cases hstate₃.symm.trans heq).of_queues hqueue.symm horder.symm
  · -- what the journal tells does not depend on which of the two it is
    obtain ⟨p', ref, frame, hp', hpending, htold⟩ := told_completeRead haside hcomplete
    cases hp.symm.trans hp'
    exact ⟨ref, frame, hpending, htold⟩

/-- Where a process that hit is queued: nowhere if that was its last record, and otherwise by the order.
-/
theorem requeued_of_hit {rest : List Pid} {nextOffset : Nat}
    (hlined : m.processes.Lined) (hp : m.processes.get? p.pid = some p) (hrunnable : p.state = .runnable)
    (hqueue : m.processes.queue .runnable = p.pid :: rest) (hname : page.ref.pid = p.pid)
    (h : m.hit now page nextOffset = .ok m') (hq' : m'.processes.bare? p.pid = some q')
    (hstationed : m'.processes.Stationed) :
    m.processes.Requeued m'.processes p.pid .runnable q'.state := by
  obtain ⟨policy, stats, p', step, p₁, -, -, hp', hadvance, hend⟩ := hit_cases h
  rw [hname] at hp' hend
  cases hp.symm.trans hp'
  obtain ⟨hcursor, -⟩ := Process.advance_cases hadvance
  have hpid : p₁.pid = p.pid := by rw [hcursor]
  have hstate : p₁.state = .runnable := by
    rw [hcursor]
    exact hrunnable
  have hfound : m.processes.get? p₁.pid = some p := hpid ▸ hp
  have hself : (m.processes.put p₁).get? p₁.pid = some p₁ := ProcessTable.get?_put.trans (if_pos rfl)
  have hput : (m.processes.put p₁).Lined := hlined.put hfound (hstate.trans hrunnable.symm)
  rw [← hpid] at hend hqueue hq' ⊢
  rcases hend with ⟨-, hretire⟩ | ⟨-, t, ht, rfl⟩
  · -- it has ended
    have hprocesses := (processes_of_retire (m := { m with policy, stats }) hretire).1
    rw [hprocesses, ProcessTable.bare?_retired, Function.update_self] at hq'
    cases hq'
    rw [← hstate]
    refine requeued_of_retire (m := { m with policy, stats }) ?_ hretire
    rw [hstate]
    exact ProcessState.noConfusion
  -- by trace position it is queued anew, and in order of arrival it stays at the head
  · -- the table with the process moved on is as well ordered as before
    have hrequeue := ProcessTable.requeueHead_eq_ok hput (show _ = p₁.pid :: rest from hqueue) hself
    cases ht.symm.trans hrequeue
    by_cases horder : (m.processes.put p₁).order = .tracePosition
    · simp only [if_pos horder] at hq' hstationed ⊢
      rw [ProcessTable.bare?_relocate, Function.update_self] at hq'
      cases hq'
      have hrequeued := ProcessTable.requeued_relocate (fun _ => hstationed) fun _ => horder
      rw [hstate] at hrequeued
      exact hrequeued.of_queues rfl rfl
    · simp only [if_neg horder] at hq' ⊢
      rw [ProcessTable.bare?_put, Function.update_self] at hq'
      cases hq'
      have harrival : (m.processes.put p₁).order = .arrival := by
        cases hcase : (m.processes.put p₁).order with
        | arrival => rfl
        | tracePosition => exact absurd hcase horder
      rw [show p₁.unpaged.state = .runnable from hstate]
      exact (ProcessTable.requeued_of_arrival harrival).of_queues rfl rfl

/-- A process that missed waits at the back. -/
theorem requeued_of_miss {rest : List Pid} {nextOffset : Nat} (hlined : m.processes.Lined)
    (hp : m.processes.get? p.pid = some p) (hrunnable : p.state = .runnable)
    (hqueue : m.processes.queue .runnable = p.pid :: rest) (hname : page.ref.pid = p.pid)
    (h : m.miss now diskPenalty page nextOffset = .ok m') (hq' : m'.processes.bare? p.pid = some q') :
    m.processes.Requeued m'.processes p.pid .runnable q'.state ∧
      m'.journal = .blocked now page.ref :: m.journal := by
  obtain ⟨stats, p', head, t, -, hp', hswitch, rfl⟩ := miss_cases h
  rw [hname] at hp'
  cases hp.symm.trans hp'
  -- it is put back with what it waits for before it is moved
  let waiting : Process :=
    { p with pending? := some page.ref, wait := diskPenalty, position := nextOffset }
  have hself : (m.processes.put waiting).get? waiting.pid = some waiting :=
    ProcessTable.get?_put.trans (if_pos rfl)
  have hfound : m.processes.get? waiting.pid = some p := hp
  have hswitch' := ProcessTable.switchHead_eq_ok (hlined.put hfound rfl) hqueue hself .blocked
  cases hswitch.symm.trans hswitch'
  have hq' : ((m.processes.put waiting).relocate waiting .blocked).bare? p.pid = some q' := hq'
  rw [ProcessTable.bare?_relocate, show waiting.pid = p.pid from rfl, Function.update_self] at hq'
  cases hq'
  have hrequeued : (m.processes.put waiting).Requeued ((m.processes.put waiting).relocate waiting .blocked)
      waiting.pid waiting.state .blocked :=
    ProcessTable.requeued_relocate (fun heq => (by cases heq)) fun heq =>
      (by cases hrunnable.symm.trans heq)
  rw [show waiting.state = .runnable from hrunnable] at hrequeued
  exact ⟨hrequeued.of_queues rfl rfl, rfl⟩

/-- **An executed reference.** As with `Sound.resumed`, the part on pages is known. What is added is
found for a hit and for a miss, and then matched with the outcome by the note of the reference. -/
theorem Sound.referred (h : m.Sound chart) (hhead : m.processes.head? .runnable = some pid)
    (hhits : m.stats.totals.hits + 1 < 2 ^ 64) (hmisses : m.stats.totals.misses + 1 < 2 ^ 64)
    (hrun : m.runReference now diskPenalty pid = .ok (.ok (), m')) :
    ∃ q q' record hit, Referred chart now diskPenalty m m' pid q q' record hit := by
  obtain ⟨q, q', record, hit, hexecuted⟩ := h.executed hhead hhits hmisses hrun
  obtain ⟨_, _, _, _, _, hrun', hsound, hq, hrunnable, hrecord, hbare, houtcome, hstats, -, -,
    hreferences⟩ := runReference_eq_ok h hhead hhits hmisses now diskPenalty
  -- both tell of the same move
  cases hrun.symm.trans hrun'
  cases hexecuted.found.symm.trans hq
  cases hexecuted.record_eq.symm.trans hrecord
  have hq' := hexecuted.self
  rw [hbare, Function.update_self] at hq'
  cases hq'
  have hhit := hexecuted.references_eq.symm.trans hreferences
  rw [List.append_cancel_left_eq] at hhit
  cases hhit
  obtain ⟨rest, hqueue⟩ : ∃ rest, m.processes.queue .runnable = pid :: rest :=
    List.head?_eq_some_iff.1 hhead
  obtain ⟨p, hp, rfl⟩ := ProcessTable.bare?_eq_some_iff.1 hq
  obtain rfl := h.lined.pid_of_get? hp
  obtain ⟨_, page, m₁, p₁, hmeets⟩ := h.exists_meets hp hrunnable hrun
  cases hrecord.symm.trans hmeets.record_eq
  have hlined := hmeets.lined h.lined
  have hpid := hmeets.pid_eq
  have hstate := hmeets.state_eq.trans hrunnable
  have hname : page.ref.pid = p₁.pid := by
    rw [hmeets.ref_eq, hpid]
    exact (h.stands hq).pid_of_record hrecord
  have hself := hexecuted.self
  obtain ⟨hqueue₁, horder₁⟩ := hmeets.queue_eq
  rw [← hqueue₁, ← hpid] at hqueue
  rw [← hpid] at hself
  obtain ⟨found, hrequeued, htold⟩ : ∃ found,
      m₁.processes.Requeued m'.processes p₁.pid .runnable q'.state ∧
      ∀ {α : Type} (select : Event → Option α), (∀ event, event.isAside = true → select event = none) →
        m'.told select = m.told select ++ (select (.referenced now record.page p.line found)).toList ++
          if found then [] else (select (.blocked now record.page)).toList := by
    -- the page was in memory, or it is awaited from now on
    rcases hmeets.done with ⟨-, hhit⟩ | ⟨-, hmiss⟩
    · refine ⟨true, ?_, fun select haside => ?_⟩
      · exact requeued_of_hit (m := m₁.note _) hlined hmeets.found hstate hqueue hname hhit hself
          (hsound.lined.stationed hsound.stands)
      · rw [told_of_hit (fun _ _ => haside _ rfl) hhit, told_note,
          hmeets.told_eq fun _ => haside _ rfl]
        exact (List.append_nil _).symm
    · obtain ⟨hrequeued, hjournal⟩ :=
        requeued_of_miss (m := m₁.note _) hlined hmeets.found hstate hqueue hname hmiss hself
      refine ⟨false, hrequeued, fun select haside => ?_⟩
      have hnoted : m'.told select = told
          ((m₁.note (.referenced now record.page p.line false)).note (.blocked now page.ref)) select :=
        congrArg (fun journal : List Event => journal.reverse.filterMap select) hjournal
      rw [hnoted, told_note, told_note, hmeets.told_eq fun _ => haside _ rfl, hmeets.ref_eq]
      rfl
  -- the note of the reference tells which of the two it was
  have hnoted : m'.references = m.references ++ [{ line := p.line, page := record.page, hit := found }] ++
      if found then [] else [] := by
    have hreferences' := htold Event.reference? fun event haside => by cases event <;> cases haside <;> rfl
    exact hreferences'
  have hsame := hnoted.symm.trans hreferences
  rw [ite_self, List.append_nil, List.append_cancel_left_eq] at hsame
  cases hsame
  refine ⟨p.unpaged, q', record, hit, hexecuted, houtcome, ?_, hstats, htold⟩
  rw [← hpid]
  exact hrequeued.of_queues hqueue₁.symm horder₁.symm

end Machine

end DemandPaging
