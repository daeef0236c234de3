import DemandPaging.Proofs.Lineup

/-!
# The queues as a partition of the processes

The state of a process stands in two places: the process has it, and its number is in the queue of that
state. Whatever a table of processes is asked for, refused calls included and the cursors of processes
changed between them, each process that was inserted is in the queue of its state, once, and in no other
(`ProcessTable.serve_partitions`).

`ProcessTable.Replies` has one rule for each thing that may come of a call. A call that is refused
changes nothing. Any other call moves at most one process (`ProcessTable.Moves`): the others stay in
their states and keep their order in each queue, and it comes last in the queue of its new state, or,
where processes are lined up by trace position, before the first one that stands further on.

That each process is queued once is `ProcessTable.Lined`, which each call keeps
(`ProcessTable.Lined.serveOne`). On a table that is lined, moving a process means to put it into a table
without it (`moves_enter`), whether it was at the head of its queue, in the middle of it or in none.

A call takes a process out of a queue, changes its state and puts it into another queue.
`ProcessTable.InPlace` does one after the other, where a fault keeps what was done before it; on a table
that is lined no fault comes after the first change (`InPlace.perform_eq`).
-/

namespace DemandPaging

/-! ### Calls -/

/-- Where a process stands in the trace. These are the fields of a process that a caller may
write at any time without the table being told. -/
structure Cursor where
  /-- Its first line. -/
  firstLine : Nat
  /-- The line of its next record. -/
  line : Nat
  /-- Its last line. -/
  lastLine : Nat
  /-- The offset of its next record. -/
  position : Nat
  /-- The interval that its line is in. -/
  interval : Interval
  deriving DecidableEq

/-- The process, standing somewhere else. Its number, its state and what it has done so far stay as they
are. -/
def Process.moveTo (p : Process) (cursor : Cursor) : Process :=
  { p with
    firstLine := cursor.firstLine
    line := cursor.line
    lastLine := cursor.lastLine
    position := cursor.position
    interval := cursor.interval }

/-- What a table of processes can be asked for. The last one is not an operation of the table,
but what becomes of it when a caller changes a process that it was handed. -/
inductive TableCall where
  /-- To add a process. -/
  | insert (p : Process)
  /-- To move the first process in one state into another. -/
  | switchHead (source target : ProcessState)
  /-- To move a process into a state. -/
  | setState (pid : Pid) (target : ProcessState)
  /-- To line up the first runnable process anew. -/
  | requeueHead
  /-- To change the cursor of a process. -/
  | moveCursor (pid : Pid) (cursor : Cursor)
  deriving DecidableEq

/-- The process that a call adds. -/
def TableCall.inserted? : TableCall → Option Pid
  | insert p => some p.pid
  | switchHead .. | setState .. | requeueHead | moveCursor .. => none

namespace ProcessTable

/-- What a call answers, with the table after it. The head of a queue is told when it is moved. -/
def call (t : ProcessTable) : TableCall → Except Fault (Option Pid × ProcessTable)
  | .insert p => do return (none, ← t.insert p)
  | .switchHead source target => do let (pid, t) ← t.switchHead source target; return (some pid, t)
  | .setState pid target => do return (none, ← t.setState pid target)
  | .requeueHead => do return (none, ← t.requeueHead)
  | .moveCursor pid cursor => do return (none, t.put ((← t.process pid).moveTo cursor))

/-- The answer to a call and the table after it, which is the same table if the call was refused. It is a
total function, so that any list of calls can be folded over, refused ones included. -/
def serveOne (t : ProcessTable) (call : TableCall) : Except Fault (Option Pid) × ProcessTable :=
  match t.call call with
  | .ok (answer, t) => (.ok answer, t)
  | .error fault => (.error fault, t)

/-- The table after some calls, refused ones included. The answers are left out, as what is said
of the table does not depend on them. -/
def serve (t : ProcessTable) (calls : List TableCall) : ProcessTable :=
  calls.foldl (fun t call => (t.serveOne call).2) t

/-! ### What comes of them -/

/-- The processes are those with the given numbers, and the queues have each of them once. It is
told by counting, so that nothing is assumed of the queues before. -/
structure Partitioned (t : ProcessTable) (pids : List Pid) : Prop where
  /-- The processes are those with the given numbers. -/
  isSome_iff : ∀ pid, (t.get? pid).isSome = true ↔ pid ∈ pids
  /-- A process stands under its own number. -/
  pid_eq : ∀ {pid p}, t.get? pid = some p → p.pid = pid
  /-- It is in the queue of its state, once, and in no other. -/
  count_eq : ∀ {pid p}, t.get? pid = some p →
    ∀ state, (t.queue state).count pid = if state = p.state then 1 else 0
  /-- The queues have no other numbers. -/
  not_mem : ∀ {pid}, t.get? pid = none → ∀ state, pid ∉ t.queue state

/-- The offsets at which the processes stand do not decrease. The queue of a table keeps this only as
long as nobody moves a cursor behind its back, so it is a hypothesis where it is needed. -/
def Ascending (t : ProcessTable) (pids : List Pid) : Prop :=
  pids.Pairwise fun pid other => t.positionOf pid ≤ t.positionOf other

/-- A queue without a process: what is left of it for the others, in their order. -/
def others (t : ProcessTable) (pid : Pid) (state : ProcessState) : List Pid :=
  (t.queue state).filter (· ≠ pid)

/-- A process has moved into a state, and nothing else has changed. What becomes of the queues is said of
the others and of the process apart, so that it does not matter where the process came from. -/
structure Moves (t : ProcessTable) (p : Process) (target : ProcessState) (t' : ProcessTable) : Prop where
  /-- The queues are lined up as before. -/
  order_eq : t'.order = t.order
  /-- It is in the state, and the others are as before. -/
  get?_eq : ∀ pid, t'.get? pid = if pid = p.pid then some { p with state := target } else t.get? pid
  /-- The others keep their order in each queue. -/
  others_eq : ∀ state, t'.others p.pid state = t.others p.pid state
  /-- It is the last one in the queue of the state. -/
  last : ¬(target = .runnable ∧ t.order = .tracePosition) →
    t'.queue target = t.others p.pid target ++ [p.pid]
  /-- By trace position it comes after those that stand where it stands, and before those further on. -/
  placed : target = .runnable → t.order = .tracePosition → t.Ascending (t.others p.pid target) →
    t'.Ascending (t'.queue target) ∧
      ∃ ahead behind, t.others p.pid target = ahead ++ behind ∧
        t'.queue target = ahead ++ p.pid :: behind ∧
        (∀ other ∈ ahead, t.positionOf other ≤ p.position) ∧
        ∀ other ∈ behind, p.position < t.positionOf other

/-- What may come of a call, with one rule for each branch. A refused call names its breach and leaves
the table as it is. -/
inductive Replies (t : ProcessTable) :
    TableCall → Except Fault (Option Pid) → ProcessTable → Prop where
  /-- The process was not there before. -/
  | inserted {p : Process} {t' : ProcessTable} (hnew : t.get? p.pid = none)
    (hmoves : t.Moves p .runnable t') : Replies t (.insert p) (.ok none) t'
  /-- A process with its number is there. -/
  | duplicate {p found : Process} (hp : t.get? p.pid = some found) :
    Replies t (.insert p) (.error (.breach (.duplicateProcess p.pid))) t
  /-- The first process is moved. -/
  | switched {source target : ProcessState} {p : Process} {rest : List Pid} {t' : ProcessTable}
    (hqueue : t.queue source = p.pid :: rest) (hp : t.get? p.pid = some p)
    (hmoves : t.Moves p target t') : Replies t (.switchHead source target) (.ok (some p.pid)) t'
  /-- There is no process to be moved. -/
  | empty {source target : ProcessState} (hqueue : t.queue source = []) :
    Replies t (.switchHead source target) (.error (.breach (.emptyQueue source))) t
  /-- The process is moved. -/
  | changed {p : Process} {target : ProcessState} {t' : ProcessTable} (hp : t.get? p.pid = some p)
    (hmoves : t.Moves p target t') : Replies t (.setState p.pid target) (.ok none) t'
  /-- There is no such process. -/
  | unknown {pid : Pid} {target : ProcessState} (hp : t.get? pid = none) :
    Replies t (.setState pid target) (.error (.breach (.unknownProcess pid))) t
  /-- The first runnable process is lined up by where it stands. -/
  | requeued {p : Process} {rest : List Pid} {t' : ProcessTable} (horder : t.order = .tracePosition)
    (hqueue : t.queue .runnable = p.pid :: rest) (hp : t.get? p.pid = some p)
    (hmoves : t.Moves p .runnable t') : Replies t .requeueHead (.ok none) t'
  /-- There is no order by position, or no runnable process. -/
  | stayed (hstays : t.order = .arrival ∨ t.queue .runnable = []) : Replies t .requeueHead (.ok none) t
  /-- The process stands somewhere else. -/
  | steered {p : Process} {cursor : Cursor} (hp : t.get? p.pid = some p) :
    Replies t (.moveCursor p.pid cursor) (.ok none) (t.put (p.moveTo cursor))
  /-- There is no process to stand there. -/
  | astray {pid : Pid} {cursor : Cursor} (hp : t.get? pid = none) :
    Replies t (.moveCursor pid cursor) (.error (.breach (.unknownProcess pid))) t

variable {t t' left : ProcessTable} {p : Process} {pid : Pid} {source target state : ProcessState}
  {call : TableCall} {answer : Except Fault (Option Pid)}

/-! ### Moving one process -/

theorem get?_enter (hget : left.get? = t.get?) (other : Pid) :
    (left.enter p target).get? other =
      if other = p.pid then some { p with state := target } else t.get? other := by
  rw [← hget]
  exact get?_put

theorem positionOf_enter (hget : left.get? = t.get?) (other : Pid) :
    (left.enter p target).positionOf other =
      if other = p.pid then p.position else t.positionOf other := by
  rw [positionOf, get?_enter hget]
  split <;> rfl

theorem queue_enter : (left.enter p target).queue target =
    joined left.order (left.enter p target).positionOf p.pid target (left.queue target) :=
  Queues.get_set.trans (if_pos rfl)

/-- Wherever a process joins a queue, it comes between two parts of it. -/
theorem exists_joined_eq (order : QueueOrder) (line : Pid → Nat) (pid : Pid) (state : ProcessState)
    (pids : List Pid) : ∃ ahead behind, pids = ahead ++ behind ∧
      joined order line pid state pids = ahead ++ pid :: behind := by
  have hjoined : ∃ ahead, ahead <+: pids ∧
      joined order line pid state pids = ahead ++ pid :: pids.drop ahead.length := by
    -- the part ahead is all of the queue, or what stands no further on than the process
    refine ⟨_, ?_, rfl⟩
    split
    · exact List.takeWhile_prefix _
    · exact List.prefix_rfl
  obtain ⟨ahead, ⟨behind, hsplit⟩, hjoined⟩ := hjoined
  -- as a prefix of the queue it has a part behind it, which is what was dropped
  exact ⟨ahead, behind, hsplit.symm, by rw [hjoined, ← hsplit, List.drop_left]⟩

theorem mem_others_iff {other : Pid} :
    other ∈ t.others pid state ↔ other ∈ t.queue state ∧ other ≠ pid := by
  rw [others, List.mem_filter, decide_eq_true_iff]

/-- **Moving one process.** It is put into a table that has it in no queue, and all others as before.
Whether it has left a queue or was never in one does not matter. -/
theorem moves_enter (hget : left.get? = t.get?) (horder : left.order = t.order)
    (hqueue : ∀ state, left.queue state = t.others p.pid state) :
    t.Moves p target (left.enter p target) where
  order_eq := horder
  get?_eq := get?_enter hget
  others_eq state := by
    -- the process is not among the others, so that taking it away once more changes nothing
    have hidem : (t.others p.pid state).filter (· ≠ p.pid) = t.others p.pid state := by
      rw [others, List.filter_filter]
      simp
    by_cases hstate : state = target
    · -- into the queue of the new state it is put between two parts, and these are the others
      subst hstate
      obtain ⟨ahead, behind, hsplit, hjoined⟩ := exists_joined_eq left.order
        (left.enter p state).positionOf p.pid state (left.queue state)
      rw [others, queue_enter, hjoined, List.filter_append, List.filter_cons_of_neg (by simp),
        ← List.filter_append, ← hsplit, hqueue, hidem]
    · -- every other queue is the one it was put into the table with
      have hother : (left.enter p target).queue state = left.queue state := queue_enqueue_of_ne hstate
      rw [others, hother, hqueue, hidem]
  last hback := by
    -- without an order by position the part ahead is the whole queue
    rw [queue_enter, horder, joined, if_neg hback, List.drop_length, hqueue]
  placed hrunnable hposition hascending := by
    subst hrunnable
    -- putting it into the table changes the state of the process, which no position depends on, so the
    -- others stand where they stood, and it stands at its own cursor
    have hsame : ∀ other ∈ t.others p.pid .runnable,
        (left.enter p .runnable).positionOf other = t.positionOf other := fun other hother => by
      rw [positionOf_enter hget, if_neg (mem_others_iff.1 hother).2]
    have hself : (left.enter p .runnable).positionOf p.pid = p.position := by
      rw [positionOf_enter hget, if_pos rfl]
    have hpairwise : (t.others p.pid .runnable).Pairwise fun other later =>
        (left.enter p .runnable).positionOf other ≤ (left.enter p .runnable).positionOf later :=
      hascending.imp_of_mem fun {other later} hother hlater hle => by
        rwa [hsame other hother, hsame later hlater]
    obtain ⟨ahead, behind, hsplit, hjoined, hahead, hbehind⟩ := exists_joined_split p.pid hpairwise
    have hplaced : (left.enter p .runnable).queue .runnable = ahead ++ p.pid :: behind := by
      rw [queue_enter, horder, hposition, hqueue, hjoined]
    -- the queue is split where the first one stands further on; the rest reads the split off in terms of
    -- the table before
    rw [hsplit] at hsame hpairwise
    refine ⟨?_, ahead, behind, hsplit, hplaced, fun other hother => ?_, fun other hother => ?_⟩
    · -- ascending: ahead of it, behind it, and across
      obtain ⟨hpahead, hpbehind, hacross⟩ := List.pairwise_append.1 hpairwise
      rw [Ascending, hplaced, List.pairwise_append, List.pairwise_cons]
      refine ⟨hpahead, ⟨fun other hother => Nat.le_of_lt (hbehind other hother), hpbehind⟩,
        fun one hone other hother => ?_⟩
      rcases List.mem_cons.1 hother with rfl | hother
      · exact hahead one hone
      · exact hacross one hone other hother
    · rw [← hsame other (List.mem_append_left _ hother), ← hself]
      exact hahead other hother
    · rw [← hsame other (List.mem_append_right _ hother), ← hself]
      exact hbehind other hother

/-- On a table that is lined a process is in no queue but that of its state. To take it out of that one
is thus to take it out of all. -/
theorem Lined.moves_relocate (h : t.Lined) (hp : t.get? p.pid = some p) (target : ProcessState) :
    t.Moves p target (t.relocate p target) := by
  refine moves_enter rfl rfl fun state => ?_
  rw [queue_leave, queueWithout, others]
  -- its own queue has it once, so erasing it filters it out
  split
  · rw [(h.nodup state).erase_eq_filter]
    exact List.filter_congr fun other _ => by rw [bne, beq_eq_decide, ← decide_not]
  · -- and the others do not have it
    next hne =>
    refine (List.filter_eq_self.2 fun other hother => decide_eq_true ?_).symm
    rintro rfl
    exact hne (h.state_eq hp hother).symm

theorem Lined.moves_enter (h : t.Lined) (hnew : t.get? p.pid = none) (target : ProcessState) :
    t.Moves p target (t.enter p target) := by
  refine ProcessTable.moves_enter rfl rfl fun state => ?_
  -- a process that is not there is in no queue, so all of them are without it already
  refine (List.filter_eq_self.2 fun other hother => ?_).symm
  have hne : other ≠ p.pid := fun heq => h.not_mem_queue hnew state (heq ▸ hother)
  exact decide_eq_true hne

/-! ### One call -/

theorem serveOne_of_ok {answer : Option Pid} (h : t.call call = .ok (answer, t')) :
    t.serveOne call = (.ok answer, t') := by
  rw [serveOne, h]

theorem serveOne_of_error {fault : Fault} (h : t.call call = .error fault) :
    t.serveOne call = (.error fault, t) := by
  rw [serveOne, h]

theorem process_of_none (h : t.get? pid = none) :
    t.process pid = .error (.breach (.unknownProcess pid)) := by
  rw [process, h]
  rfl

theorem Lined.isSome_of_mem (h : t.Lined) (hmem : pid ∈ t.queue state) :
    (t.get? pid).isSome = true := by
  obtain ⟨q, hq, -⟩ := h.queued.1 hmem
  obtain ⟨p, hp, -⟩ := bare?_eq_some_iff.1 hq
  rw [hp]
  rfl

theorem Lined.exists_head (h : t.Lined) {rest : List Pid} (hqueue : t.queue state = pid :: rest) :
    ∃ p, t.get? pid = some p ∧ p.pid = pid := by
  have hmem : pid ∈ t.queue state := hqueue ▸ List.mem_cons_self
  obtain ⟨p, hp⟩ := Option.isSome_iff_exists.1 (h.isSome_of_mem hmem)
  exact ⟨p, hp, h.pid_of_get? hp⟩

namespace Lined

/-- A process is added if there is none with its number. It is looked up before anything is done, so that
the table need not be lined. -/
theorem call_insert (p : Process) :
    ((∃ found, t.get? p.pid = some found) ∧
        t.call (.insert p) = .error (.breach (.duplicateProcess p.pid))) ∨
      t.get? p.pid = none ∧ t.call (.insert p) = .ok (none, t.enter p .runnable) := by
  rw [ProcessTable.call, ProcessTable.insert]
  cases t.get? p.pid with
  | some found => exact .inl ⟨⟨found, rfl⟩, rfl⟩
  | none => exact .inr ⟨rfl, rfl⟩

/-- The first process of a queue is moved if there is one. That it is there to be moved is known because
the table is lined. -/
theorem call_switchHead (h : t.Lined) (source target : ProcessState) :
    (t.queue source = [] ∧
        t.call (.switchHead source target) = .error (.breach (.emptyQueue source))) ∨
      ∃ p rest, t.queue source = p.pid :: rest ∧ t.get? p.pid = some p ∧
        t.call (.switchHead source target) = .ok (some p.pid, t.relocate p target) := by
  cases hqueue : t.queue source with
  | nil =>
    refine .inl ⟨rfl, ?_⟩
    rw [ProcessTable.call, ProcessTable.switchHead, hqueue]
    rfl
  | cons pid rest =>
    obtain ⟨p, hp, rfl⟩ := h.exists_head hqueue
    refine .inr ⟨p, rest, rfl, hp, ?_⟩
    rw [ProcessTable.call, switchHead_eq_ok h hqueue hp]
    rfl

/-- A process is moved if it is there. That it is missing from the queue of its own state cannot
happen in a table that is lined up, so there are two cases and not three. -/
theorem call_setState (h : t.Lined) (pid : Pid) (target : ProcessState) :
    (t.get? pid = none ∧ t.call (.setState pid target) = .error (.breach (.unknownProcess pid))) ∨
      ∃ p, p.pid = pid ∧ t.get? p.pid = some p ∧
        t.call (.setState pid target) = .ok (none, t.relocate p target) := by
  cases hp : t.get? pid with
  | none =>
    refine .inl ⟨rfl, ?_⟩
    rw [ProcessTable.call, ProcessTable.setState, process_of_none hp]
    rfl
  | some p =>
    obtain rfl := h.pid_of_get? hp
    refine .inr ⟨p, rfl, hp, ?_⟩
    rw [ProcessTable.call, setState_eq_ok h hp]
    rfl

/-- The first runnable process is moved if there is one and they are lined up by trace position.
Otherwise the call is granted, and does nothing. -/
theorem call_requeueHead (h : t.Lined) :
    ((t.order = .arrival ∨ t.queue .runnable = []) ∧ t.call .requeueHead = .ok (none, t)) ∨
      ∃ p rest, t.order = .tracePosition ∧ t.queue .runnable = p.pid :: rest ∧
        t.get? p.pid = some p ∧ t.call .requeueHead = .ok (none, t.relocate p .runnable) := by
  cases horder : t.order with
  | arrival =>
    refine .inl ⟨.inl rfl, ?_⟩
    rw [ProcessTable.call, ProcessTable.requeueHead, if_neg (by simp [horder])]
    rfl
  | tracePosition =>
    cases hqueue : t.queue .runnable with
    | nil =>
      refine .inl ⟨.inr rfl, ?_⟩
      rw [ProcessTable.call, ProcessTable.requeueHead, if_neg (by simp [hqueue])]
      rfl
    | cons pid rest =>
      obtain ⟨p, hp, rfl⟩ := h.exists_head hqueue
      refine .inr ⟨p, rest, rfl, rfl, hp, ?_⟩
      rw [ProcessTable.call, requeueHead_eq_ok h hqueue hp, if_pos horder]
      rfl

/-- The cursor of a process is changed if it is there. -/
theorem call_moveCursor (h : t.Lined) (pid : Pid) (cursor : Cursor) :
    (t.get? pid = none ∧ t.call (.moveCursor pid cursor) = .error (.breach (.unknownProcess pid))) ∨
      ∃ p, p.pid = pid ∧ t.get? p.pid = some p ∧
        t.call (.moveCursor pid cursor) = .ok (none, t.put (p.moveTo cursor)) := by
  cases hp : t.get? pid with
  | none =>
    refine .inl ⟨rfl, ?_⟩
    rw [ProcessTable.call, process_of_none hp]
    rfl
  | some p =>
    obtain rfl := h.pid_of_get? hp
    refine .inr ⟨p, rfl, hp, ?_⟩
    rw [ProcessTable.call, process_eq_ok hp]
    rfl

/-- **One call.** Whatever a table that is lined is asked for, it is lined afterwards, and one of the
rules says what came of the call. Each kind of call has the cases of its lemma above. -/
theorem serveOne (h : t.Lined) (call : TableCall) :
    t.Replies call (t.serveOne call).1 (t.serveOne call).2 ∧ (t.serveOne call).2.Lined := by
  cases call with
  | insert p =>
    rcases call_insert p with ⟨⟨found, hp⟩, hcall⟩ | ⟨hnew, hcall⟩
    · rw [serveOne_of_error hcall]
      exact ⟨.duplicate hp, h⟩
    · rw [serveOne_of_ok hcall]
      exact ⟨.inserted hnew (h.moves_enter hnew .runnable), h.enter hnew .runnable⟩
  | switchHead source target =>
    rcases h.call_switchHead source target with ⟨hqueue, hcall⟩ | ⟨p, rest, hqueue, hp, hcall⟩
    · rw [serveOne_of_error hcall]
      exact ⟨.empty hqueue, h⟩
    · rw [serveOne_of_ok hcall]
      exact ⟨.switched hqueue hp (h.moves_relocate hp target), h.relocate hp⟩
  | setState pid target =>
    rcases h.call_setState pid target with ⟨hp, hcall⟩ | ⟨p, rfl, hp, hcall⟩
    · rw [serveOne_of_error hcall]
      exact ⟨.unknown hp, h⟩
    · rw [serveOne_of_ok hcall]
      exact ⟨.changed hp (h.moves_relocate hp target), h.relocate hp⟩
  | requeueHead =>
    rcases h.call_requeueHead with ⟨hstays, hcall⟩ | ⟨p, rest, horder, hqueue, hp, hcall⟩
    · rw [serveOne_of_ok hcall]
      exact ⟨.stayed hstays, h⟩
    · rw [serveOne_of_ok hcall]
      exact ⟨.requeued horder hqueue hp (h.moves_relocate hp .runnable), h.relocate hp⟩
  | moveCursor pid cursor =>
    rcases h.call_moveCursor pid cursor with ⟨hp, hcall⟩ | ⟨p, rfl, hp, hcall⟩
    · rw [serveOne_of_error hcall]
      exact ⟨.astray hp, h⟩
    · -- a cursor may go anywhere, also against the order of the queue; being lined does not speak of it
      rw [serveOne_of_ok hcall]
      have hsame : t.get? (p.moveTo cursor).pid = some p := hp
      exact ⟨.steered hp, h.put hsame rfl⟩

end Lined

theorem Moves.isSome_iff (h : t.Moves p target t') (pid : Pid) :
    (t'.get? pid).isSome = true ↔ (t.get? pid).isSome = true ∨ pid = p.pid := by
  rw [h.get?_eq]
  split
  · next heq => exact iff_of_true rfl (.inr heq)
  · next hne => rw [or_iff_left hne]

theorem Moves.isSome_iff_of_known (h : t.Moves p target t') (hp : t.get? p.pid = some p) (pid : Pid) :
    (t'.get? pid).isSome = true ↔ (t.get? pid).isSome = true := by
  rw [h.isSome_iff, or_iff_left_of_imp]
  rintro rfl
  rw [hp]
  rfl

theorem Replies.order_eq (h : t.Replies call answer t') : t'.order = t.order := by
  cases h with
  | inserted _ hmoves | switched _ _ hmoves | changed _ hmoves | requeued _ _ _ hmoves =>
    exact hmoves.order_eq
  | duplicate | empty | unknown | stayed | steered | astray => rfl

/-- The processes are those that were there, and the one that is inserted. A refused insertion adds no
process, but its number was there then. -/
theorem Replies.isSome_iff (h : t.Replies call answer t') (pid : Pid) :
    (t'.get? pid).isSome = true ↔ (t.get? pid).isSome = true ∨ call.inserted? = some pid := by
  cases h with
  | @inserted p t' hnew hmoves =>
    rw [hmoves.isSome_iff]
    -- the one that is inserted is the one that moved
    exact or_congr_right ⟨fun heq => congrArg some heq.symm, fun heq => (Option.some.inj heq).symm⟩
  | @duplicate p found hp =>
    -- a refused insertion had its number there already
    refine (or_iff_left_of_imp fun heq => ?_).symm
    rw [← Option.some.inj heq, hp]
    rfl
  | switched _ hp hmoves | changed hp hmoves | requeued _ _ hp hmoves =>
    rw [hmoves.isSome_iff_of_known hp]
    exact (or_iff_left (by simp [TableCall.inserted?])).symm
  | empty | unknown | stayed | astray => exact (or_iff_left (by simp [TableCall.inserted?])).symm
  -- the process keeps its number, and was there
  | @steered p cursor hp =>
    rw [get?_put]
    split
    · next heq =>
      have heq : pid = p.pid := heq
      rw [heq, hp]
      exact iff_of_true rfl (.inl rfl)
    · exact (or_iff_left (by simp [TableCall.inserted?])).symm

/-! ### Any calls -/

theorem Lined.serve (h : t.Lined) (calls : List TableCall) :
    (t.serve calls).Lined ∧ (t.serve calls).order = t.order ∧
      ∀ pid, ((t.serve calls).get? pid).isSome = true ↔
        (t.get? pid).isSome = true ∨ pid ∈ calls.filterMap TableCall.inserted? := by
  -- by induction on the calls, for any table that is lined, since the first call leaves another one
  induction calls generalizing t with
  | nil => exact ⟨h, rfl, fun pid => (or_iff_left List.not_mem_nil).symm⟩
  | cons call calls ih =>
    obtain ⟨hreplies, hlined⟩ := h.serveOne call
    obtain ⟨hafter, horder, hknown⟩ := ih hlined
    refine ⟨hafter, horder.trans hreplies.order_eq, fun pid => ?_⟩
    refine (hknown pid).trans ?_
    rw [hreplies.isSome_iff, or_assoc]
    -- the number that the first call inserts is the head of the list, if it inserts one
    refine or_congr_right ?_
    cases hinserted : call.inserted? with
    | none => rw [List.filterMap_cons_none hinserted, or_iff_right (by simp)]
    | some first =>
      rw [List.filterMap_cons_some hinserted, List.mem_cons, Option.some_inj, eq_comm]

theorem Lined.partitioned (h : t.Lined) {pids : List Pid}
    (hknown : ∀ pid, (t.get? pid).isSome = true ↔ pid ∈ pids) : t.Partitioned pids where
  isSome_iff := hknown
  pid_eq := h.pid_of_get?
  count_eq {pid p} hp state := by
    -- the queues are duplicate-free, so a count is one or zero as the number is there or not
    rw [(h.nodup state).count]
    refine if_congr ?_ rfl rfl
    rw [h.queued, bare?_of_get? hp]
    constructor
    · rintro ⟨q, hq, rfl⟩
      cases hq
      rfl
    · rintro rfl
      exact ⟨_, rfl, rfl⟩
  not_mem := h.not_mem_queue

/-! ### A call on the table itself -/

/-- Operations that change a table of processes. Unlike the operations of the library they have
the table in hand while they work, and leave it as it is when they fail. -/
abbrev InPlace := ExceptT Fault (StateM ProcessTable)

namespace InPlace

/-- The process at an entry of a queue. That there is one is no contract of a caller; a missing
one is an index beyond the end. -/
def queued (t : ProcessTable) (pid : Pid) : Except Fault Process :=
  match t.get? pid with
  | some p => .ok p
  | none => .error .outOfBounds

/-- The number of processes before the first one that stands further on. Each entry is looked up as it is
passed, and a missing one would be a fault. -/
def placeOf (t : ProcessTable) (position : Nat) : List Pid → Except Fault Nat
  | [] => .ok 0
  | pid :: rest => do
    if position < (← queued t pid).position then return 0
    return (← placeOf t position rest) + 1

/-- Puts a process into a queue. The positions are only read where processes are lined up by them. -/
def enqueue (pid : Pid) (state : ProcessState) : InPlace Unit := do
  let t ← get
  let pids := t.queue state
  if state = .runnable ∧ t.order = .tracePosition then
    let p ← queued t pid
    let place ← placeOf t p.position pids
    set { t with queues := t.queues.set state (pids.take place ++ pid :: pids.drop place) }
  else
    set { t with queues := t.queues.set state (pids ++ [pid]) }

/-- Changes the state of a process, and puts it into the queue of that state. It must have left
its old queue by then. -/
def enter (pid : Pid) (target : ProcessState) : InPlace Unit := do
  let t ← get
  let p ← t.process pid
  set (t.put { p with state := target })
  enqueue pid target

/-- Moves the first process in one state into another: it leaves its queue first. -/
def switchHead (source target : ProcessState) : InPlace Pid := do
  let t ← get
  match t.queue source with
  | [] => throw (.breach (.emptyQueue source))
  | pid :: rest =>
    set { t with queues := t.queues.set source rest }
    enter pid target
    return pid

/-- Carries out a call on the table itself: what was written before a fault stays written. -/
def perform : TableCall → InPlace (Option Pid)
  | .insert p => do
    let t ← get
    Fault.require (t.get? p.pid).isNone (.duplicateProcess p.pid)
    set (t.put { p with state := .runnable })
    enqueue p.pid .runnable
    return none
  | .switchHead source target => do
    let pid ← switchHead source target
    return some pid
  | .setState pid target => do
    let t ← get
    let p ← t.process pid
    let pids := t.queue p.state
    Fault.require (pids.contains pid) (.missingFromQueue pid p.state)
    set { t with queues := t.queues.set p.state (pids.erase pid) }
    enter pid target
    return none
  | .requeueHead => do
    let t ← get
    if t.order = .tracePosition ∧ t.queue .runnable ≠ [] then
      let _ ← switchHead .runnable .runnable
    return none
  | .moveCursor pid cursor => do
    let t ← get
    let p ← t.process pid
    set (t.put (p.moveTo cursor))
    return none

theorem queued_eq (h : t.get? pid = some p) : queued t pid = .ok p := by
  rw [queued, h]

/-- The place is found if the processes in the queue are there, and is the length of the part that stands
no further on. -/
theorem placeOf_eq {pids : List Pid} (position : Nat)
    (h : ∀ other ∈ pids, (t.get? other).isSome = true) :
    placeOf t position pids = .ok (pids.takeWhile (t.positionOf · ≤ position)).length := by
  -- by induction on the queue, along the recursion of the search
  induction pids with
  | nil => rfl
  | cons other rest ih =>
    obtain ⟨q, hq⟩ := Option.isSome_iff_exists.1 (h other List.mem_cons_self)
    have hposition : t.positionOf other = q.position := by
      rw [positionOf, hq]
      rfl
    rw [placeOf, queued_eq hq, Fault.ok_bind]
    by_cases hfurther : position < q.position
    · rw [if_pos hfurther, List.takeWhile_cons_of_neg]
      · rfl
      · rw [hposition, decide_eq_true_iff]
        exact Nat.not_le_of_lt hfurther
    · rw [if_neg hfurther, ih fun later hlater => h later (List.mem_cons_of_mem _ hlater),
        List.takeWhile_cons_of_pos]
      · rfl
      · rw [hposition, decide_eq_true_iff]
        exact Nat.le_of_not_lt hfurther

/-- A process is put into a queue by steps as it is at once. The steps look up the processes in the
queue, and these have to be there. -/
theorem run_enqueue (hpid : (t.get? pid).isSome = true)
    (h : ∀ other ∈ t.queue state, (t.get? other).isSome = true) :
    (enqueue pid state).run t = (.ok (), t.enqueue pid state) := by
  refine (Fault.run_bind_of_ok rfl).trans ?_
  -- only the order by position looks anybody up; otherwise the process goes to the end unseen
  by_cases hplace : state = .runnable ∧ t.order = .tracePosition
  · obtain ⟨p, hp⟩ := Option.isSome_iff_exists.1 hpid
    have hposition : t.positionOf pid = p.position := by
      rw [positionOf, hp]
      rfl
    -- the place cuts the queue at the part that stands no further on
    have htaken : (t.queue state).take ((t.queue state).takeWhile (t.positionOf · ≤ p.position)).length =
        (t.queue state).takeWhile (t.positionOf · ≤ p.position) :=
      (List.prefix_iff_eq_take.1 (List.takeWhile_prefix _)).symm
    rw [ProcessTable.enqueue, if_pos hplace, if_pos hplace, hposition, queued_eq hp]
    refine (Fault.run_bind_of_ok rfl).trans ?_
    rw [placeOf_eq p.position h]
    refine (Fault.run_bind_of_ok rfl).trans ?_
    rw [htaken]
    rfl
  · rw [ProcessTable.enqueue, if_neg hplace, if_neg hplace, List.drop_length]
    rfl

/-- The process is put into its new state by steps as it is at once. The table the queue is searched in
has the new state already, which takes no process away. -/
theorem run_enter (hp : t.get? p.pid = some p)
    (h : ∀ other ∈ t.queue target, (t.get? other).isSome = true) :
    (enter p.pid target).run t = (.ok (), t.enter p target) := by
  -- the numbers that are looked up are those of before
  have hput : ∀ other, (t.put { p with state := target }).get? other =
      if other = p.pid then some { p with state := target } else t.get? other := fun _ => get?_put
  refine (Fault.run_bind_of_ok rfl).trans ?_
  rw [process_eq_ok hp]
  refine (Fault.run_bind_of_ok rfl).trans ((Fault.run_bind_of_ok rfl).trans (run_enqueue ?_ ?_))
  · rw [hput, if_pos rfl]
    rfl
  · -- an entry of the queue is the process itself or was there before
    intro other hother
    rw [hput]
    split
    · rfl
    · exact h other hother

/-- A process that has left its queue is put into its new state by steps as it is at once. -/
theorem run_enter_of_left (h : t.Lined) (hp : t.get? p.pid = some p) (target : ProcessState) :
    (enter p.pid target).run
        { t with queues := t.queues.set p.state ((t.queue p.state).erase p.pid) } =
      (.ok (), t.relocate p target) := by
  refine run_enter hp fun other hother => ?_
  -- what is left in the queues are entries of the queues before
  rw [queue_leave, h.mem_queueWithout_iff hp] at hother
  exact h.isSome_of_mem hother.2

theorem switchHead_of_nil (hqueue : t.queue source = []) :
    (switchHead source target).run t = (.error (.breach (.emptyQueue source)), t) := by
  refine (Fault.run_bind_of_ok rfl).trans ?_
  rw [hqueue]
  rfl

theorem switchHead_of_cons (h : t.Lined) {rest : List Pid} (hqueue : t.queue source = p.pid :: rest)
    (hp : t.get? p.pid = some p) (target : ProcessState) :
    (switchHead source target).run t = (.ok p.pid, t.relocate p target) := by
  -- on a table that is lined, the first of the queue is in the state of the queue, and erasing it is
  -- dropping the head
  have hmem : p.pid ∈ t.queue source := hqueue ▸ List.mem_cons_self
  have hstate := h.state_eq hp hmem
  have hleft := run_enter_of_left h hp target
  rw [hstate, hqueue, List.erase_cons_head] at hleft
  refine (Fault.run_bind_of_ok rfl).trans ?_
  rw [hqueue]
  exact (Fault.run_bind_of_ok rfl).trans ((Fault.run_bind_of_ok hleft).trans rfl)

theorem perform_insert (h : t.Lined) (p : Process) :
    (perform (.insert p)).run t = t.serveOne (.insert p) := by
  rcases Lined.call_insert p with ⟨⟨found, hp⟩, hcall⟩ | ⟨hnew, hcall⟩
  · rw [serveOne_of_error hcall]
    refine (Fault.run_bind_of_ok rfl).trans ?_
    rw [hp]
    exact Fault.run_bind_of_error rfl
  · rw [serveOne_of_ok hcall]
    have hget : ∀ other, (t.put { p with state := .runnable }).get? other =
        if other = p.pid then some { p with state := .runnable } else t.get? other := fun _ => get?_put
    refine (Fault.run_bind_of_ok rfl).trans ?_
    rw [hnew]
    refine (Fault.run_bind_of_ok rfl).trans ((Fault.run_bind_of_ok rfl).trans ?_)
    -- the others are looked up in a table that has one process more
    refine (Fault.run_bind_of_ok (run_enqueue ?_ ?_)).trans rfl
    · rw [hget, if_pos rfl]
      rfl
    · intro other hother
      rw [hget]
      split
      · rfl
      · exact h.isSome_of_mem hother

theorem perform_switchHead (h : t.Lined) (source target : ProcessState) :
    (perform (.switchHead source target)).run t = t.serveOne (.switchHead source target) := by
  rcases h.call_switchHead source target with ⟨hqueue, hcall⟩ | ⟨p, rest, hqueue, hp, hcall⟩
  · rw [serveOne_of_error hcall]
    exact Fault.run_bind_of_error (switchHead_of_nil hqueue)
  · rw [serveOne_of_ok hcall]
    exact (Fault.run_bind_of_ok (switchHead_of_cons h hqueue hp target)).trans rfl

theorem perform_setState (h : t.Lined) (pid : Pid) (target : ProcessState) :
    (perform (.setState pid target)).run t = t.serveOne (.setState pid target) := by
  rcases h.call_setState pid target with ⟨hp, hcall⟩ | ⟨p, rfl, hp, hcall⟩
  · rw [serveOne_of_error hcall]
    refine (Fault.run_bind_of_ok rfl).trans ?_
    rw [process_of_none hp]
    exact Fault.run_bind_of_error rfl
  · rw [serveOne_of_ok hcall]
    have hqueued : (liftM (Fault.require ((t.queue p.state).contains p.pid)
        (.missingFromQueue p.pid p.state)) : InPlace Unit).run t = (.ok (), t) := by
      rw [List.contains_iff_mem.2 (h.mem_queue hp)]
      rfl
    -- its state names the queue in which it is found, so the check that it stands there passes
    refine (Fault.run_bind_of_ok rfl).trans ?_
    rw [process_eq_ok hp]
    refine (Fault.run_bind_of_ok rfl).trans
      ((Fault.run_bind_of_ok hqueued).trans ((Fault.run_bind_of_ok rfl).trans ?_))
    exact (Fault.run_bind_of_ok (run_enter_of_left h hp target)).trans rfl

theorem perform_requeueHead (h : t.Lined) : (perform .requeueHead).run t = t.serveOne .requeueHead := by
  rcases h.call_requeueHead with ⟨hstays, hcall⟩ | ⟨p, rest, horder, hqueue, hp, hcall⟩
  · rw [serveOne_of_ok hcall]
    -- to stay is to have no order by position or nobody to move, the negation of what the steps ask
    have hplace : ¬(t.order = .tracePosition ∧ t.queue .runnable ≠ []) := by
      rintro ⟨horder, hqueue⟩
      rcases hstays with harrival | hnil
      · cases horder.symm.trans harrival
      · exact hqueue hnil
    refine (Fault.run_bind_of_ok rfl).trans ?_
    rw [if_neg hplace]
    rfl
  · rw [serveOne_of_ok hcall]
    have hplace : t.order = .tracePosition ∧ t.queue .runnable ≠ [] :=
      ⟨horder, hqueue ▸ List.cons_ne_nil _ _⟩
    refine (Fault.run_bind_of_ok rfl).trans ?_
    rw [if_pos hplace]
    exact (Fault.run_bind_of_ok (switchHead_of_cons h hqueue hp .runnable)).trans rfl

theorem perform_moveCursor (h : t.Lined) (pid : Pid) (cursor : Cursor) :
    (perform (.moveCursor pid cursor)).run t = t.serveOne (.moveCursor pid cursor) := by
  rcases h.call_moveCursor pid cursor with ⟨hp, hcall⟩ | ⟨p, rfl, hp, hcall⟩
  · rw [serveOne_of_error hcall]
    refine (Fault.run_bind_of_ok rfl).trans ?_
    rw [process_of_none hp]
    exact Fault.run_bind_of_error rfl
  · rw [serveOne_of_ok hcall]
    refine (Fault.run_bind_of_ok rfl).trans ?_
    rw [process_eq_ok hp]
    rfl

/-- **A call on the table itself.** A call that is carried out by steps either comes to its end, and has
done what it does at once, or is refused before the table was changed. The steps between which a table is
not lined have no fault to stop them there. -/
theorem perform_eq (h : t.Lined) (call : TableCall) : (perform call).run t = t.serveOne call := by
  cases call with
  | insert p => exact perform_insert h p
  | switchHead source target => exact perform_switchHead h source target
  | setState pid target => exact perform_setState h pid target
  | requeueHead => exact perform_requeueHead h
  | moveCursor pid cursor => exact perform_moveCursor h pid cursor

end InPlace

/-- **Any calls.** Whatever a table of processes is asked for, beginning without any, the processes are
those that were inserted, and each is in the queue of its state, once, and in no other. The next call
moves at most one process, and leaves the others in their states and in their order; it leaves the table
as it is if it is refused, also where the call is carried out on the table itself. -/
theorem serve_partitions (order : QueueOrder) (calls : List TableCall) :
    ∃ t, serve { order } calls = t ∧ t.order = order ∧
      t.Partitioned (calls.filterMap TableCall.inserted?) ∧
      ∀ call, t.Replies call (t.serveOne call).1 (t.serveOne call).2 ∧
        (InPlace.perform call).run t = t.serveOne call := by
  have hempty : Lined { order } := lined_empty
  obtain ⟨hlined, horder, hknown⟩ := hempty.serve calls
  refine ⟨_, rfl, horder, hlined.partitioned fun pid => (hknown pid).trans ?_, fun call => ?_⟩
  · -- there was no process at the beginning
    exact or_iff_right fun hsome => Bool.noConfusion hsome
  · exact ⟨(hlined.serveOne call).1, InPlace.perform_eq hlined call⟩

/-- By trace position the processes do not run in the order in which they came, and one that has moved
past the others comes after them. -/
example : (serve { order := .tracePosition }
      [.insert (.start ⟨5, 3, 3, 30, by decide⟩ 3), .insert (.start ⟨6, 1, 1, 0, by decide⟩ 1),
        .insert (.start ⟨7, 2, 2, 15, by decide⟩ 2), .moveCursor 6 ⟨1, 1, 1, 40, ⟨6, 1, 1, 0, by decide⟩⟩,
        .requeueHead]).queue .runnable = [7, 5, 6] := by
  decide +kernel

end ProcessTable

end DemandPaging
