import DemandPaging.Process.Table
import DemandPaging.Proofs.Neighbours
import DemandPaging.Proofs.Tracking
import Mathlib.Data.List.TakeWhile

/-!
# The process table in three views

What a process table says can be read off three things: the pages by their names (`page?`), the
processes without their pages (`bare?`), and the queues. Each operation changes them in one place, and
is described here by what it does to each of the three.

A table is `Lined` when processes stand under their own numbers and each is queued once, in the queue
of its state. The operations that move a process between queues succeed on such a table and keep it so
(`switchHead_eq_ok`, `setState_eq_ok`, `insert_eq_ok`).
-/

namespace DemandPaging

/-- A process without its pages. Pages come and go more often than anything else of a process,
and most of what is said of it does not depend on them. -/
def Process.unpaged (p : Process) : Process := { p with pages := ∅ }

namespace ProcessTable

variable {t : ProcessTable} {p q : Process} {pid other : Pid} {ref : PageRef} {page : Page}
  {state target : ProcessState}

/-- The process with a number, without its pages. With `page?` and the queues this is the whole
of a table. -/
def bare? (t : ProcessTable) (pid : Pid) : Option Process := (t.get? pid).map Process.unpaged

theorem bare?_eq_some_iff : t.bare? pid = some q ↔ ∃ p, t.get? pid = some p ∧ p.unpaged = q :=
  Option.map_eq_some_iff

theorem bare?_of_get? (h : t.get? pid = some p) : t.bare? pid = some p.unpaged := by
  rw [bare?, h, Option.map_some]

theorem page?_eq_some_iff :
    t.page? ref = some page ↔ ∃ p, t.get? ref.pid = some p ∧ p.pages.get? ref.vpn = some page :=
  Option.bind_eq_some_iff

theorem page?_of_get? (h : t.get? ref.pid = some p) : t.page? ref = p.pages.get? ref.vpn := by
  rw [page?, h]
  rfl

theorem process_eq_ok (h : t.get? pid = some p) : t.process pid = .ok p :=
  Fault.demand_eq_ok_iff.2 h

/-! ### Writing to the table -/

theorem get?_put : (t.put p).get? other = if other = p.pid then some p else t.get? other :=
  OrderedMap.get?_insert

/-- Writing a process changes what is found under its number, and nothing else. -/
theorem bare?_put : (t.put p).bare? = Function.update t.bare? p.pid (some p.unpaged) := by
  funext other
  rw [bare?, get?_put, Function.update_apply]
  split <;> rfl

theorem page?_put (h : t.get? p.pid = some q) (hpages : p.pages = q.pages) :
    (t.put p).page? = t.page? := by
  funext ref
  rw [page?, page?, get?_put]
  split
  · next heq =>
    rw [heq, h]
    exact congrArg (·.get? ref.vpn) hpages
  · rfl

theorem page?_put_of_empty (hpages : p.pages = ∅) :
    (t.put p).page? = fun ref => if ref.pid = p.pid then none else t.page? ref := by
  funext ref
  rw [page?, get?_put]
  split
  · show p.pages.get? ref.vpn = none
    rw [hpages, OrderedMap.get?_empty]
  · rfl

theorem get?_putPage : (t.putPage page).get? other =
    if other = page.ref.pid then
      (t.get? other).map fun p => { p with pages := p.pages.insert page.ref.vpn page }
    else t.get? other :=
  OrderedMap.get?_modify

theorem bare?_putPage : (t.putPage page).bare? = t.bare? := by
  funext other
  rw [bare?, bare?, get?_putPage]
  split
  · rw [Option.map_map]
    rfl
  · rfl

theorem page?_putPage (page : Page) (h : t.get? page.ref.pid = some p) :
    (t.putPage page).page? = Function.update t.page? page.ref (some page) := by
  funext ref
  rw [page?, get?_putPage, Function.update_apply]
  by_cases hpid : ref.pid = page.ref.pid
  · rw [if_pos hpid, hpid, h]
    show (p.pages.insert page.ref.vpn page).get? ref.vpn = _
    rw [OrderedMap.get?_insert]
    by_cases hvpn : ref.vpn = page.ref.vpn
    -- the very page that was put in
    · have heq : ref = page.ref := by
        cases ref
        simp_all
      rw [if_pos hvpn, if_pos heq]
    -- another page of the same process
    · rw [if_neg hvpn, if_neg fun heq => hvpn (congrArg PageRef.vpn heq),
        page?_of_get? (hpid ▸ h)]
  -- a page of another process
  · rw [if_neg hpid, if_neg fun heq => hpid (congrArg PageRef.pid heq)]
    rfl

/-- A page that is known may be replaced. -/
theorem page?_putPage_of_known {found : Page} (hfound : t.page? ref = some found)
    (hname : page.ref = ref) : (t.putPage page).page? = Function.update t.page? ref (some page) := by
  subst hname
  obtain ⟨p, hp, -⟩ := page?_eq_some_iff.1 hfound
  exact page?_putPage page hp

theorem queue_put : (t.put p).queue = t.queue := rfl

/-! ### The queues -/

/-- Processes stand under their numbers, and each is queued once, by its state. So the queue that a
process is in can be told from its state, and the other way round. -/
structure Lined (t : ProcessTable) : Prop where
  /-- A process stands under its own number. -/
  keyed : ∀ {pid p}, t.bare? pid = some p → p.pid = pid
  /-- The queue of a state has the processes in that state. -/
  queued : ∀ {pid state}, pid ∈ t.queue state ↔ ∃ p, t.bare? pid = some p ∧ p.state = state
  /-- No process is queued twice. -/
  nodup : ∀ state, (t.queue state).Nodup

/-- A queue with one process more has it besides the others. Where it is put in depends on positions,
which do not matter to who is in the queue. -/
theorem queue_enqueue_perm : ((t.enqueue pid state).queue state).Perm (pid :: t.queue state) := by
  have hqueue : ∃ ahead, ahead <+: t.queue state ∧
      (t.enqueue pid state).queue state = ahead ++ pid :: (t.queue state).drop ahead.length := by
    refine ⟨_, ?_, Queues.get_set.trans (if_pos rfl)⟩
    split
    · exact List.takeWhile_prefix _
    · exact List.prefix_rfl
  -- wherever it is put in, the others keep their order
  obtain ⟨ahead, ⟨behind, hsplit⟩, hqueue⟩ := hqueue
  rw [hqueue, ← hsplit, List.drop_left]
  exact List.perm_middle

theorem queue_enqueue_of_ne (h : state ≠ target) :
    (t.enqueue pid target).queue state = t.queue state :=
  Queues.get_set.trans (if_neg h)

/-- A process enters a queue at the back, unless it is lined up by position and one further on is in
the queue. -/
theorem queues_enqueue_of_last (h : state = .runnable → t.order = .tracePosition →
      ∀ other ∈ t.queue state, t.positionOf other ≤ t.positionOf pid) :
    (t.enqueue pid state).queues = t.queues.set state (t.queue state ++ [pid]) := by
  have hahead : (if state = .runnable ∧ t.order = .tracePosition then
      (t.queue state).takeWhile (t.positionOf · ≤ t.positionOf pid) else t.queue state) =
        t.queue state := by
    -- none is further on, so all of them are passed over
    split
    · next hplace =>
      exact List.takeWhile_eq_self_iff.2 fun other hother =>
        decide_eq_true (h hplace.1 hplace.2 other hother)
    · rfl
  rw [enqueue, hahead]
  simp only [List.drop_length]

theorem bare?_enter :
    (t.enter p target).bare? = Function.update t.bare? p.pid (some { p.unpaged with state := target }) :=
  bare?_put

/-- A queue without a process, whether the process was in it or not. Only the queue of the state
of the process can be shorter than before. -/
def queueWithout (t : ProcessTable) (p : Process) (state : ProcessState) : List Pid :=
  if state = p.state then (t.queue state).erase p.pid else t.queue state

/-- The table with a process moved from the queue of its state to that of another. The program has two
ways of doing it, and both come to this (`switchHead_eq_ok`, `setState_eq_ok`). -/
def relocate (t : ProcessTable) (p : Process) (target : ProcessState) : ProcessTable :=
  { t with queues := t.queues.set p.state ((t.queue p.state).erase p.pid) }.enter p target

theorem bare?_relocate : (t.relocate p target).bare? =
    Function.update t.bare? p.pid (some { p.unpaged with state := target }) :=
  bare?_enter

theorem page?_relocate (h : t.get? p.pid = some p) : (t.relocate p target).page? = t.page? :=
  page?_put h rfl

theorem get?_relocate : (t.relocate p target).get? other =
    if other = p.pid then some { p with state := target } else t.get? other :=
  get?_put

theorem queue_leave (state : ProcessState) :
    ({ t with queues := t.queues.set p.state ((t.queue p.state).erase p.pid) } : ProcessTable).queue
      state = t.queueWithout p state := by
  refine Queues.get_set.trans ?_
  rw [queueWithout]
  split
  · next heq => rw [heq]
  · rfl

theorem queue_relocate_of_ne (h : state ≠ target) :
    (t.relocate p target).queue state = t.queueWithout p state := by
  rw [relocate, enter, queue_enqueue_of_ne h, queue_put, queue_leave]

theorem queue_relocate_perm :
    ((t.relocate p target).queue target).Perm (p.pid :: t.queueWithout p target) := by
  refine queue_enqueue_perm.trans (.of_eq ?_)
  rw [queue_put, queue_leave]

namespace Lined

theorem pid_of_get? (h : t.Lined) (hp : t.get? pid = some p) : p.pid = pid := by
  have hbare := bare?_of_get? hp
  exact (h.keyed hbare :)

/-- Only states and queues matter, so what is written to the rest of a process leaves the table lined up.
-/
theorem congr {t' : ProcessTable} (h : t.Lined)
    (hbare : ∀ pid, (t'.bare? pid).map (fun p => (p.pid, p.state)) =
      (t.bare? pid).map fun p => (p.pid, p.state))
    (hqueue : t'.queue = t.queue) : t'.Lined := by
  have hsame : ∀ {pid p}, t'.bare? pid = some p →
      ∃ q, t.bare? pid = some q ∧ q.pid = p.pid ∧ q.state = p.state := by
    intro pid p hp
    have hmap := hbare pid
    rw [hp, Option.map_some] at hmap
    obtain ⟨q, hq, heq⟩ := Option.map_eq_some_iff.1 hmap.symm
    exact ⟨q, hq, (Prod.mk.inj heq).1, (Prod.mk.inj heq).2⟩
  refine ⟨fun {pid p} hp => ?_, fun {pid state} => ?_, fun state => hqueue ▸ h.nodup state⟩
  · obtain ⟨q, hq, hpid, -⟩ := hsame hp
    exact hpid ▸ h.keyed hq
  · rw [hqueue, h.queued]
    constructor
    · rintro ⟨q, hq, hstate⟩
      have hmap := hbare pid
      rw [hq, Option.map_some] at hmap
      obtain ⟨p, hp, heq⟩ := Option.map_eq_some_iff.1 hmap
      exact ⟨p, hp, (Prod.mk.inj heq).2.trans hstate⟩
    · rintro ⟨p, hp, hstate⟩
      obtain ⟨q, hq, -, hsame⟩ := hsame hp
      exact ⟨q, hq, hsame.trans hstate⟩

/-- A process may be written again, in the same state. -/
theorem put (h : t.Lined) (hp : t.get? q.pid = some p) (hstate : q.state = p.state) :
    (t.put q).Lined := by
  refine h.congr (fun pid => ?_) rfl
  rw [bare?_put, Function.update_apply]
  split
  · next heq =>
    subst heq
    rw [bare?_of_get? hp, Option.map_some, Option.map_some]
    exact congrArg some (Prod.ext (h.pid_of_get? hp).symm hstate)
  · rfl

theorem putPage (h : t.Lined) : (t.putPage page).Lined :=
  h.congr (fun pid => by rw [bare?_putPage]) rfl

theorem mem_queue (h : t.Lined) (hp : t.get? pid = some p) : pid ∈ t.queue p.state :=
  h.queued.2 ⟨_, bare?_of_get? hp, rfl⟩

/-- A process is in no queue but that of its state. -/
theorem state_eq (h : t.Lined) (hp : t.get? pid = some p) (hmem : pid ∈ t.queue state) :
    p.state = state := by
  obtain ⟨q, hq, rfl⟩ := h.queued.1 hmem
  cases (bare?_of_get? hp).symm.trans hq
  rfl

theorem mem_queueWithout_iff (h : t.Lined) (hp : t.get? p.pid = some p) :
    other ∈ t.queueWithout p state ↔ other ≠ p.pid ∧ other ∈ t.queue state := by
  rw [queueWithout]
  split
  · exact (h.nodup state).mem_erase_iff
  · next hne =>
    refine (and_iff_right_of_imp ?_).symm
    -- in the queue of another state it would be in that state
    rintro hmem rfl
    exact hne (h.state_eq hp hmem).symm

theorem nodup_queueWithout (h : t.Lined) : (t.queueWithout p state).Nodup := by
  rw [queueWithout]
  split
  · exact (h.nodup state).erase _
  · exact h.nodup state

/-- A process that is moved is in the queue that it was moved to, and in no other. -/
theorem relocate (h : t.Lined) (hp : t.get? p.pid = some p) : (t.relocate p target).Lined where
  keyed {pid q} hq := by
    rw [bare?_relocate, Function.update_apply] at hq
    split at hq
    · next heq =>
      cases hq
      exact heq.symm
    · exact h.keyed hq
  queued {pid state} := by
    rw [bare?_relocate, Function.update_apply]
    by_cases hstate : state = target
    -- the queue that it moves to has it besides those that were there
    · rw [hstate, queue_relocate_perm.mem_iff, List.mem_cons, h.mem_queueWithout_iff hp]
      by_cases hpid : pid = p.pid
      · rw [if_pos hpid]
        exact iff_of_true (.inl hpid) ⟨_, rfl, rfl⟩
      · rw [if_neg hpid, or_iff_right hpid, and_iff_right hpid]
        exact h.queued
    -- any other queue is without it
    · rw [queue_relocate_of_ne hstate, h.mem_queueWithout_iff hp]
      by_cases hpid : pid = p.pid
      · rw [if_pos hpid]
        refine iff_of_false (fun hmem => hmem.1 hpid) ?_
        rintro ⟨q, hq, hqstate⟩
        cases hq
        exact hstate hqstate.symm
      · rw [if_neg hpid, and_iff_right hpid]
        exact h.queued
  nodup state := by
    by_cases hstate : state = target
    · rw [hstate, queue_relocate_perm.nodup_iff, List.nodup_cons, h.mem_queueWithout_iff hp]
      exact ⟨fun hmem => hmem.1 rfl, h.nodup_queueWithout⟩
    · rw [queue_relocate_of_ne hstate]
      exact h.nodup_queueWithout

end Lined

/-! ### New processes -/

theorem lined_empty {order : QueueOrder} : Lined { order } where
  keyed h := by cases h
  queued {pid state} := by
    refine iff_of_false (fun hmem => ?_) ?_
    · cases state <;> cases hmem
    · rintro ⟨p, hp, -⟩
      cases hp
  nodup state := by cases state <;> exact .nil

/-- A process that is not in the table is in no queue either. -/
theorem Lined.not_mem_queue (h : t.Lined) (hnew : t.get? pid = none) (state : ProcessState) :
    pid ∉ t.queue state := by
  intro hmem
  obtain ⟨q, hq, -⟩ := h.queued.1 hmem
  rw [bare?, hnew, Option.map_none] at hq
  cases hq

/-- A process that is new is put into one queue. No queue had its number before, since the
queues have known processes only. -/
theorem Lined.enter (h : t.Lined) (hnew : t.get? p.pid = none) (target : ProcessState) :
    (t.enter p target).Lined := by
  have hqueued := h.not_mem_queue hnew
  refine ⟨fun {pid q} hq => ?_, fun {pid state} => ?_, fun state => ?_⟩
  · rw [bare?_enter, Function.update_apply] at hq
    split at hq
    · next heq =>
      cases hq
      exact heq.symm
    · exact h.keyed hq
  · rw [bare?_enter, Function.update_apply, ProcessTable.enter]
    by_cases hstate : state = target
    · -- the queue that it enters has it besides the others
      rw [hstate, queue_enqueue_perm.mem_iff, List.mem_cons, queue_put]
      by_cases hpid : pid = p.pid
      · rw [if_pos hpid]
        exact iff_of_true (.inl hpid) ⟨_, rfl, rfl⟩
      · rw [if_neg hpid, or_iff_right hpid]
        exact h.queued
    · -- it was in no queue, so it is in no other now
      rw [queue_enqueue_of_ne hstate, queue_put]
      by_cases hpid : pid = p.pid
      · rw [if_pos hpid, hpid]
        refine iff_of_false (hqueued state) ?_
        rintro ⟨q, hq, hqstate⟩
        cases hq
        exact hstate hqstate.symm
      · rw [if_neg hpid]
        exact h.queued
  · rw [ProcessTable.enter]
    by_cases hstate : state = target
    · rw [hstate, queue_enqueue_perm.nodup_iff, List.nodup_cons, queue_put]
      exact ⟨hqueued _, h.nodup _⟩
    · rw [queue_enqueue_of_ne hstate]
      exact h.nodup _

/-- A process without pages that is not in the table can be added, ready to run. -/
theorem insert_eq_ok (h : t.Lined) (hnew : t.get? p.pid = none) (hpages : p.pages = ∅) :
    t.insert p = .ok (t.enter p .runnable) ∧ (t.enter p .runnable).Lined ∧
      (t.enter p .runnable).page? = t.page? := by
  refine ⟨?_, h.enter hnew .runnable, ?_⟩
  · rw [insert, hnew]
    rfl
  -- where the process now stands there was none, so there were no pages
  · show (t.put { p with state := .runnable }).page? = t.page?
    have hpages : ({ p with state := .runnable } : Process).pages = ∅ := hpages
    rw [page?_put_of_empty hpages]
    funext ref
    split
    · next heq =>
      rw [page?, heq]
      exact (congrArg (·.bind fun q => q.pages.get? ref.vpn) hnew).symm
    · rfl

/-! ### Pages -/

/-- The pages of a process, by their names, are just its own. A page is kept under its number, and its
name says which process it belongs to. -/
theorem mem_pages_iff (hp : t.get? pid = some p)
    (hnamed : ∀ {ref page}, t.page? ref = some page → page.ref = ref) :
    page ∈ p.pages.values ↔ page.ref.pid = pid ∧ t.page? page.ref = some page := by
  rw [OrderedMap.mem_values_iff]
  constructor
  · rintro ⟨vpn, hvpn⟩
    have hpage : t.page? ⟨pid, vpn⟩ = some page := page?_eq_some_iff.2 ⟨p, hp, hvpn⟩
    have hname := hnamed hpage
    exact ⟨congrArg PageRef.pid hname, hname.symm ▸ hpage⟩
  · rintro ⟨rfl, hpage⟩
    rw [page?_of_get? hp] at hpage
    exact ⟨_, hpage⟩

theorem nodup_refs (hp : t.get? pid = some p)
    (hnamed : ∀ {ref page}, t.page? ref = some page → page.ref = ref) :
    (p.pages.values.map (·.ref)).Nodup := by
  rw [OrderedMap.values, List.map_map]
  refine List.pairwise_map.2 (p.pages.ascending.imp_of_mem fun {a b} ha hb hlt => ?_)
  -- within a process the pages are told apart by their numbers, and these ascend
  have hname : ∀ {entry : Nat × Page}, entry ∈ p.pages.entries → entry.2.ref.vpn = entry.1 := by
    intro entry hmem
    have hget := OrderedMap.mem_entries_iff.1 hmem
    have hpage : t.page? ⟨pid, entry.1⟩ = some entry.2 := page?_eq_some_iff.2 ⟨p, hp, hget⟩
    exact congrArg PageRef.vpn (hnamed hpage)
  intro heq
  have hvpn : a.1 = b.1 := (hname ha).symm.trans ((congrArg PageRef.vpn heq).trans (hname hb))
  exact absurd hvpn (Nat.ne_of_lt hlt)

theorem addPage_eq_ok (hp : t.get? ref.pid = some p) (hnew : t.page? ref = none) (policy : Policy) :
    t.addPage ref policy = .ok ({ ref, overhead := (policy.track ref).1 }, (policy.track ref).2,
      t.putPage { ref, overhead := (policy.track ref).1 }) := by
  rw [page?_of_get? hp] at hnew
  simp only [addPage, process_eq_ok hp, bind, Except.bind, hnew, Fault.require]
  rfl

theorem releasePages_eq_ok (hp : t.get? pid = some p) :
    t.releasePages pid = .ok (p.pages.values, t.put { p with pages := ∅ }) := by
  rw [releasePages, process_eq_ok hp]
  rfl

/-! ### Waiting -/

variable {elapsed : Nat}

theorem get?_passTime : (t.passTime elapsed).get? pid = (t.get? pid).map fun p =>
    if p.state = .blocked then p.passTime elapsed else p :=
  OrderedMap.get?_map

theorem bare?_passTime : (t.passTime elapsed).bare? pid = (t.bare? pid).map fun p =>
    if p.state = .blocked then p.passTime elapsed else p := by
  rw [bare?, bare?, get?_passTime, Option.map_map, Option.map_map]
  refine Option.map_congr fun p _ => ?_
  simp only [Function.comp_apply, apply_ite Process.unpaged]
  rfl

theorem page?_passTime : (t.passTime elapsed).page? = t.page? := by
  funext ref
  rw [page?, page?, get?_passTime]
  cases t.get? ref.pid with
  | none => rfl
  | some p =>
    -- passing time leaves the pages of a process alone
    show (if p.state = .blocked then p.passTime elapsed else p).pages.get? ref.vpn = _
    split <;> rfl

theorem Lined.passTime (h : t.Lined) : (t.passTime elapsed).Lined := by
  refine h.congr (fun pid => ?_) rfl
  rw [bare?_passTime, Option.map_map]
  refine Option.map_congr fun p _ => ?_
  rw [Function.comp_apply]
  split <;> rfl

/-! ### The end of a process -/

/-- The table with a process that is done and has no pages left. Its number stays, so that no
other process can be inserted under it. -/
def retired (t : ProcessTable) (p : Process) : ProcessTable :=
  (t.relocate p .finished).put { p with state := .finished, pages := ∅ }

theorem bare?_retired : (t.retired p).bare? =
    Function.update t.bare? p.pid (some { p.unpaged with state := .finished }) := by
  rw [retired, bare?_put, bare?_relocate, Function.update_idem]
  rfl

theorem page?_retired (hp : t.get? p.pid = some p) :
    (t.retired p).page? = fun ref => if ref.pid = p.pid then none else t.page? ref := by
  rw [retired, page?_put_of_empty rfl, page?_relocate hp]

theorem queue_retired : (t.retired p).queue = (t.relocate p .finished).queue := rfl

theorem Lined.retired (h : t.Lined) (hp : t.get? p.pid = some p) : (t.retired p).Lined := by
  have hended : (t.relocate p .finished).get? p.pid = some { p with state := .finished } := by
    rw [get?_relocate, if_pos rfl]
  exact (h.relocate hp).put hended rfl

/-! ### Moving a process -/

/-- A process is moved to another state, wherever in the queue it is. -/
theorem setState_eq_ok (h : t.Lined) (hp : t.get? pid = some p) (target : ProcessState) :
    t.setState pid target = .ok (t.relocate p target) := by
  -- it is in the queue that it is looked for in
  have hcontains : (t.queue p.state).contains pid = true := List.contains_iff_mem.2 (h.mem_queue hp)
  simp only [setState, process_eq_ok hp, bind, Except.bind, Fault.require, hcontains, if_true]
  obtain rfl := h.pid_of_get? hp
  rfl

/-- The head of a queue is moved to another state. -/
theorem switchHead_eq_ok (h : t.Lined) {rest : List Pid} (hqueue : t.queue state = pid :: rest)
    (hp : t.get? pid = some p) (target : ProcessState) :
    t.switchHead state target = .ok (pid, t.relocate p target) := by
  have hmem : pid ∈ t.queue state := hqueue ▸ List.mem_cons_self
  have hstate := h.state_eq hp hmem
  obtain rfl := h.pid_of_get? hp
  -- the head is the process itself, so taking it away leaves the rest
  have herase : (t.queue p.state).erase p.pid = rest := by
    rw [hstate, hqueue, List.erase_cons_head]
  rw [relocate, herase, hstate]
  simp only [switchHead, hqueue, process_eq_ok hp, bind, Except.bind]
  rfl

/-- The head of the runnable processes is lined up anew, or stays. -/
theorem requeueHead_eq_ok (h : t.Lined) {rest : List Pid} (hqueue : t.queue .runnable = pid :: rest)
    (hp : t.get? pid = some p) :
    t.requeueHead = .ok (if t.order = .tracePosition then t.relocate p .runnable else t) := by
  rw [requeueHead]
  by_cases horder : t.order = .tracePosition
  -- by trace position the head is queued anew
  · have hnil : t.queue .runnable ≠ [] := by
      rw [hqueue]
      exact List.cons_ne_nil _ _
    rw [if_pos ⟨horder, hnil⟩, if_pos horder, switchHead_eq_ok h hqueue hp]
    rfl
  · rw [if_neg fun hand => horder hand.1, if_neg horder]
    rfl

end ProcessTable

end DemandPaging
