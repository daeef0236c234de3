import DemandPaging.Proofs.Moves
import DemandPaging.Proofs.Positions
import DemandPaging.Proofs.Queues

/-!
# What two runs may differ in

Two runs that do the same need not be the same: the marks that their policies leave on the pages may
differ, and so may the offsets at which their traces have the records. Under a veil, which hides marks
and offsets, they look the same. Each operation on processes can be looked at through the veil, as far
as it depends on nothing that is hidden.

Only the queue of a table that is lined up by position depends on offsets. It looks the same because
positions at which records are read are in the order of their lines (`ProcessTable.veil_enqueue`).
-/

namespace DemandPaging

/-! ### Maps with all values changed -/

namespace OrderedMap

variable {β : Type} {m : OrderedMap β} {k : Nat} {v : β} {f g h : β → β}

theorem map_insert : (m.insert k v).map f = (m.map f).insert k (f v) := by
  refine ext_get? fun j => ?_
  rw [get?_map, get?_insert, get?_insert, get?_map]
  split <;> rfl

/-- What does the same under the map before and after a change may change a value on either side of it.
-/
theorem map_modify (hcomm : ∀ v, f (g v) = h (f v)) :
    (m.modify k g).map f = (m.map f).modify k h := by
  refine ext_get? fun j => ?_
  rw [get?_map, get?_modify, get?_modify, get?_map]
  split
  · rw [Option.map_map, Option.map_map]
    exact congrArg (Option.map · _) (funext hcomm)
  · rfl

theorem map_map (hcomm : ∀ v, f (g v) = h (f v)) : (m.map g).map f = (m.map f).map h := by
  refine ext_get? fun j => ?_
  rw [get?_map, get?_map, get?_map, get?_map, Option.map_map, Option.map_map]
  exact congrArg (Option.map · _) (funext hcomm)

theorem values_map : (m.map f).values = m.values.map f := by
  rw [values, values, map, List.map_map, List.map_map]
  rfl

theorem firstAbove?_map : (m.map f).firstAbove? k = (m.firstAbove? k).map f := by
  rw [firstAbove?, firstAbove?, map, List.find?_map, Option.map_map, Option.map_map]
  rfl

end OrderedMap

theorem takeWhile_congr {α : Type} {l : List α} {p q : α → Bool} (h : ∀ a ∈ l, p a = q a) :
    l.takeWhile p = l.takeWhile q := by
  induction l with
  | nil => rfl
  | cons a rest ih =>
    rw [List.takeWhile_cons, List.takeWhile_cons, h a List.mem_cons_self,
      ih fun b hb => h b (List.mem_cons_of_mem _ hb)]

/-! ### Pages and processes -/

/-- A page without the mark that the policy left on it. Its name and its frame are left, which
is all that anyone but the policy goes by. -/
def Page.unmarked (page : Page) : Page := { page with overhead := .empty }

/-- An interval without its offset. The lines say where it is in either of two traces with the
same records. -/
def Interval.veil (i : Interval) : Interval := { i with offset := 0 }

/-- The lines of a process without their offsets. The keys under which the intervals stand are
lines, and stay. -/
def LineSet.veil (lines : LineSet) : LineSet := { lines with byLow := lines.byLow.map Interval.veil }

/-- An index without offsets. Every question about lines has the same answer, but for the offset
in it. -/
def IntervalIndex.veil (index : IntervalIndex) : IntervalIndex :=
  { processes := index.processes.map LineSet.veil }

/-- A process without offsets and without marks on its pages. Its place in the trace is told by its line
still, which is what its position follows. -/
def Process.veil (p : Process) : Process :=
  { p with position := 0, interval := p.interval.veil, pages := p.pages.map Page.unmarked }

/-- A table without offsets and without marks on the pages. The queues have numbers only and are
left as they are. -/
def ProcessTable.veil (t : ProcessTable) : ProcessTable :=
  { t with processes := t.processes.map Process.veil }

theorem Page.eq_of_unmarked {page other : Page} (h : page.unmarked = other.unmarked) :
    page.ref = other.ref ∧ page.frame? = other.frame? :=
  ⟨(congrArg Page.ref h :), (congrArg Page.frame? h :)⟩

namespace IntervalIndex

variable {index : IntervalIndex} {i : Interval}

theorem lines_veil {pid : Pid} : index.veil.lines pid = (index.lines pid).veil := by
  rw [lines, lines, veil, OrderedMap.get?_map]
  cases index.processes.get? pid <;> rfl

theorem next?_veil : index.veil.next? i.veil = (index.next? i).map Interval.veil := by
  rw [next?, next?, show i.veil.pid = i.pid from rfl, lines_veil]
  exact OrderedMap.firstAbove?_map

end IntervalIndex

namespace Process

variable {p q p' q' : Process} {index other : IntervalIndex} {nextOffset place : Nat}
  {step step' : CursorStep}

theorem jump?_veil : p.veil.jump? index.veil = (p.jump? index).map (Option.map veil) := by
  have hlast : p.veil.onLastLine = p.onLastLine := rfl
  have hleft : p.veil.linesLeft = p.linesLeft := rfl
  have hnext : index.veil.next? p.veil.interval = (index.next? p.interval).map Interval.veil :=
    IntervalIndex.next?_veil
  rw [jump?, jump?, hlast, hleft, hnext]
  split
  · cases p.linesLeft <;> rfl
  · cases index.next? p.interval <;> rfl

/-- What a cursor does does not depend on offsets. It moves by lines, and an offset comes into it only
where the process is sent to one. -/
theorem advance_veil : p.veil.advance index.veil 0 =
    (p.advance index nextOffset).map fun (step, p) => (step, p.veil) := by
  have hlines : p.veil.hasLinesInInterval = p.hasLinesInInterval := rfl
  rw [advance, advance, hlines, jump?_veil]
  split
  · rfl
  · cases p.jump? index with
    | error fault => rfl
    | ok next? => cases next? <;> rfl

/-- Cursors that look the same do the same, and look the same afterwards. -/
theorem veil_advance (hprocess : p.veil = q.veil) (hindex : index.veil = other.veil)
    (hp : p.advance index nextOffset = .ok (step, p')) (hq : q.advance other place = .ok (step', q')) :
    step = step' ∧ p'.veil = q'.veil := by
  have hveil : p.veil.advance index.veil 0 = .ok (step, p'.veil) := by
    rw [advance_veil, hp]
    rfl
  rw [hprocess, hindex, advance_veil, hq] at hveil
  obtain ⟨hstep, hafter⟩ := Prod.mk.inj (Except.ok.inj hveil)
  exact ⟨hstep.symm, hafter.symm⟩

end Process

namespace ProcessTable

variable {t u t' u' : ProcessTable} {p q : Process} {pid : Pid} {ref : PageRef} {page : Page}

theorem get?_veil : t.veil.get? pid = (t.get? pid).map Process.veil := OrderedMap.get?_map

theorem page?_veil : t.veil.page? ref = (t.page? ref).map Page.unmarked := by
  rw [page?, page?, get?_veil]
  cases t.get? ref.pid with
  | none => rfl
  | some p => exact OrderedMap.get?_map

theorem veil_put : (t.put p).veil = t.veil.put p.veil :=
  congrArg (ProcessTable.mk · t.queues t.order) OrderedMap.map_insert

theorem veil_putPage : (t.putPage page).veil = t.veil.putPage page.unmarked := by
  -- the page is put in under its number, which the veil leaves
  refine congrArg (ProcessTable.mk · t.queues t.order) (OrderedMap.map_modify fun p => ?_)
  exact congrArg (Process.mk p.pid p.state p.firstLine p.line p.lastLine 0 p.interval.veil p.wait
    p.pending?) OrderedMap.map_insert

theorem veil_passTime {elapsed : Nat} : (t.passTime elapsed).veil = t.veil.passTime elapsed := by
  refine congrArg (ProcessTable.mk · t.queues t.order) (OrderedMap.map_map fun p => ?_)
  -- the veil hides neither the state nor the wait
  rw [apply_ite Process.veil]
  rfl

theorem waits_veil : t.veil.waits = t.waits := by
  rw [waits, waits, veil, OrderedMap.map, List.filter_map, List.map_map]
  rfl

theorem nextCompletion?_veil : t.veil.nextCompletion? = t.nextCompletion? := by
  rw [nextCompletion?, nextCompletion?, waits_veil]

theorem completed_veil : t.veil.completed = t.completed := by
  rw [completed, completed, waits_veil]
  rfl

/-! ### Two tables that look the same -/

theorem veil_eq_of_get? (h : t.veil = u.veil) (hp : t.get? pid = some p) (hq : u.get? pid = some q) :
    p.veil = q.veil := by
  -- the process of the other table is one that looks like this one
  have hveil : t.veil.get? pid = some p.veil := by rw [get?_veil, hp, Option.map_some]
  rw [h, get?_veil, hq] at hveil
  exact (Option.some.inj hveil).symm

theorem unmarked_eq_of_page? {found : Page} (h : t.veil = u.veil) (hpage : t.page? ref = some page)
    (hfound : u.page? ref = some found) : page.unmarked = found.unmarked := by
  have hveil : t.veil.page? ref = some page.unmarked := by rw [page?_veil, hpage, Option.map_some]
  rw [h, page?_veil, hfound] at hveil
  exact (Option.some.inj hveil).symm

theorem isSome_page?_of_veil (h : t.veil = u.veil) : (t.page? ref).isSome = (u.page? ref).isSome := by
  have hveil : (t.veil.page? ref).isSome = (t.page? ref).isSome := by rw [page?_veil, Option.isSome_map]
  rw [← hveil, h, page?_veil, Option.isSome_map]

theorem queue_eq_of_veil (h : t.veil = u.veil) : t.queue = u.queue :=
  congrArg Queues.get (congrArg ProcessTable.queues h :)

theorem veil_queues (h : t.veil = u.veil) {queues : Queues} :
    ({ t with queues } : ProcessTable).veil = ({ u with queues } : ProcessTable).veil :=
  congrArg (fun v : ProcessTable => { v with queues }) h

theorem veil_eq_put (h : t.veil = u.veil) (hp : p.veil = q.veil) : (t.put p).veil = (u.put q).veil := by
  rw [veil_put, veil_put, h, hp]

/-! ### The queue of runnable processes -/

/-- Each runnable process stands at a record of its own in some trace. In which one is left open, as the
offsets are of no interest but for their order. -/
def Stationed (t : ProcessTable) : Prop :=
  ∃ chart : Chart, ∀ pid ∈ t.queue .runnable, ∃ p record, t.get? pid = some p ∧
    chart.record? p.line = some record ∧ record.pid = pid ∧ chart.medium.Reads p.position record

variable {other : Pid} {state target : ProcessState}

/-- The processes of a sound machine are those of its chart. -/
theorem Lined.stationed {chart : Chart} (h : t.Lined)
    (hstands : ∀ {pid p}, t.bare? pid = some p → p.Stands chart) : t.Stationed := by
  refine ⟨chart, fun pid hmem => ?_⟩
  obtain ⟨q, hq, hrunnable⟩ := h.queued.1 hmem
  obtain ⟨p, hp, rfl⟩ := bare?_eq_some_iff.1 hq
  have hstand := hstands hq
  obtain ⟨-, record, hrecord, hreads⟩ := hstand.runnable hrunnable
  exact ⟨p, record, hp, hrecord, (hstand.pid_of_record hrecord).trans (h.keyed hq), hreads⟩

/-- Runnable processes are in the order of their lines: two positions at which records are read compare
as the lines of these records do. -/
theorem Stationed.positionOf_le_iff (h : t.Stationed) (hpid : pid ∈ t.queue .runnable)
    (hother : other ∈ t.queue .runnable) :
    ∃ p q, t.get? pid = some p ∧ t.get? other = some q ∧
      (t.positionOf other ≤ t.positionOf pid ↔ q.line ≤ p.line) := by
  obtain ⟨chart, h⟩ := h
  obtain ⟨p, record, hp, hrecord, rfl, hreads⟩ := h pid hpid
  obtain ⟨q, found, hq, hfound, rfl, hreads'⟩ := h other hother
  refine ⟨p, q, hp, hq, ?_⟩
  rw [positionOf, positionOf, hp, hq]
  refine Chart.position_le_iff hfound hrecord hreads' hreads fun hline => ?_
  -- on one line there is one process
  rw [hline] at hfound
  cases hfound.symm.trans hrecord
  cases hq.symm.trans hp
  rfl

/-- **Queueing looks the same**, though by position it compares offsets. Whom a process is queued behind
is asked of the table after it, in which the process itself is stationed as well. -/
theorem veil_enqueue {pid' : Pid} (h : t.veil = u.veil) (hpid : pid = pid')
    (ht : state = .runnable → (t.enqueue pid state).Stationed)
    (hu : state = .runnable → (u.enqueue pid' state).Stationed) :
    (t.enqueue pid state).veil = (u.enqueue pid' state).veil := by
  subst hpid
  have hqueue : t.queue state = u.queue state := congrFun (queue_eq_of_veil h) state
  have hqueues : t.queues = u.queues := (congrArg ProcessTable.queues h :)
  have horder : t.order = u.order := (congrArg ProcessTable.order h :)
  -- the processes that the new one is queued behind
  have hahead : (if state = .runnable ∧ t.order = .tracePosition then
        (t.queue state).takeWhile (t.positionOf · ≤ t.positionOf pid) else t.queue state) =
      if state = .runnable ∧ u.order = .tracePosition then
        (u.queue state).takeWhile (u.positionOf · ≤ u.positionOf pid) else u.queue state := by
    rw [horder, hqueue]
    split
    · next hstate =>
      obtain ⟨rfl, -⟩ := hstate
      refine takeWhile_congr fun other hmem => ?_
      have hin : ∀ {v : ProcessTable}, v.queue .runnable = u.queue .runnable →
          pid ∈ (v.enqueue pid .runnable).queue .runnable ∧
            other ∈ (v.enqueue pid .runnable).queue .runnable := by
        intro v hv
        rw [queue_enqueue_perm.mem_iff, queue_enqueue_perm.mem_iff, hv]
        exact ⟨List.mem_cons_self, List.mem_cons_of_mem _ hmem⟩
      -- both compare the lines, and these are the same
      obtain ⟨p, p', hp, hp', ht⟩ := (ht rfl).positionOf_le_iff (hin hqueue).1 (hin hqueue).2
      obtain ⟨q, q', hq, hq', hu⟩ := (hu rfl).positionOf_le_iff (hin rfl).1 (hin rfl).2
      have hline : p.line = q.line := (congrArg Process.line (veil_eq_of_get? h hp hq) :)
      have hline' : p'.line = q'.line := (congrArg Process.line (veil_eq_of_get? h hp' hq') :)
      rw [hline, hline'] at ht
      exact decide_eq_decide.2 (ht.trans hu.symm)
    · rfl
  rw [enqueue, enqueue, hahead, hqueue, hqueues]
  exact veil_queues h

/-- A process changes its state and is queued for it. -/
theorem veil_enter (h : t.veil = u.veil) (hp : p.veil = q.veil)
    (ht : state = .runnable → (t.enter p state).Stationed)
    (hu : state = .runnable → (u.enter q state).Stationed) :
    (t.enter p state).veil = (u.enter q state).veil := by
  have hpid : p.pid = q.pid := (congrArg Process.pid hp :)
  have hstate : ({ p with state } : Process).veil = ({ q with state } : Process).veil :=
    congrArg (fun r : Process => { r with state }) hp
  exact veil_enqueue (veil_eq_put h hstate) hpid ht hu

/-! ### Moving a process -/

/-- A process is taken out of the queue that it is in. -/
theorem veil_leave {pid' : Pid} (h : t.veil = u.veil) (hp : p.veil = q.veil) (hpid : pid = pid') :
    ({ t with queues := t.queues.set p.state ((t.queue p.state).erase pid) } : ProcessTable).veil =
      ({ u with queues := u.queues.set q.state ((u.queue q.state).erase pid') } : ProcessTable).veil := by
  have hstate : p.state = q.state := (congrArg Process.state hp :)
  -- both were in the queue of the same state
  have hqueues : t.queues = u.queues := (congrArg ProcessTable.queues h :)
  rw [queue_eq_of_veil h, hstate, hqueues, hpid]
  exact veil_queues h

theorem veil_setState (h : t.veil = u.veil) (ht' : t.setState pid state = .ok t')
    (hu' : u.setState pid state = .ok u') (ht : state = .runnable → t'.Stationed)
    (hu : state = .runnable → u'.Stationed) : t'.veil = u'.veil := by
  obtain ⟨p, hp, -, rfl⟩ := setState_cases ht'
  obtain ⟨q, hq, -, rfl⟩ := setState_cases hu'
  have hprocess := veil_eq_of_get? h hp hq
  exact veil_enter (veil_leave h hprocess rfl) hprocess ht hu

theorem veil_retired (h : t.veil = u.veil) (hp : p.veil = q.veil) :
    (t.retired p).veil = (u.retired q).veil := by
  have hpid : p.pid = q.pid := (congrArg Process.pid hp :)
  have hended : ({ p with state := .finished, pages := ∅ } : Process).veil =
      ({ q with state := .finished, pages := ∅ } : Process).veil :=
    congrArg (fun r : Process => { r with state := .finished, pages := ∅ }) hp
  -- only runnable processes are compared
  refine veil_eq_put (veil_enter (veil_leave h hp hpid) hp ?_ ?_) hended
  · intro hrunnable
    cases hrunnable
  · intro hrunnable
    cases hrunnable

theorem veil_switchHead {head head' : Pid} (h : t.veil = u.veil)
    (ht' : t.switchHead state target = .ok (head, t')) (hu' : u.switchHead state target = .ok (head', u'))
    (ht : target = .runnable → t'.Stationed) (hu : target = .runnable → u'.Stationed) :
    t'.veil = u'.veil := by
  obtain ⟨rest, p, hqueue, hp, rfl⟩ := switchHead_cases ht'
  obtain ⟨rest', q, hqueue', hq, rfl⟩ := switchHead_cases hu'
  rw [queue_eq_of_veil h, hqueue'] at hqueue
  obtain ⟨rfl, rfl⟩ := List.cons.inj hqueue
  have hqueues : t.queues = u.queues := (congrArg ProcessTable.queues h :)
  refine veil_enter ?_ (veil_eq_of_get? h hp hq) ht hu
  rw [hqueues]
  exact veil_queues h

/-- The head of the queue is queued again by trace position, on both sides or on neither. The
order and the queue show through the veil, and these decide it. -/
theorem veil_requeueHead (h : t.veil = u.veil) (ht' : t.requeueHead = .ok t')
    (hu' : u.requeueHead = .ok u') (ht : t'.Stationed) (hu : u'.Stationed) : t'.veil = u'.veil := by
  have hqueue : t.queue .runnable = u.queue .runnable := congrFun (queue_eq_of_veil h) _
  have horder : t.order = u.order := (congrArg ProcessTable.order h :)
  rcases requeueHead_cases ht' with ⟨hline, hne, head, hswitch⟩ | ⟨hstay, rfl⟩
  · -- when to queue again depends on the order and the length of the queue, and these are not hidden
    rcases requeueHead_cases hu' with ⟨-, -, head', hswitch'⟩ | ⟨hstay, -⟩
    · exact veil_switchHead h hswitch hswitch' (fun _ => ht) fun _ => hu
    · rw [← horder, ← hqueue] at hstay
      exact absurd ⟨hline, hne⟩ hstay
  · rcases requeueHead_cases hu' with ⟨hline, hne, -⟩ | ⟨-, rfl⟩
    · rw [horder, hqueue] at hstay
      exact absurd ⟨hline, hne⟩ hstay
    · exact h

end ProcessTable

end DemandPaging
