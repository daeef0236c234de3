import DemandPaging.Proofs.Veils

/-!
# Machines and time

A machine does not look at the time. It is told what time it is and how long a disk read takes, hands
both on to processes that begin to wait and to the journal, and does nothing else with them. So under any
other reckoning of time it does the same: whatever function is applied to all times, before an operation
or after it, the outcome is the same (`Machine.completeRead_retime`, `Machine.runReference_retime`).

Nothing is assumed here of machines or of the function. What makes use of times is a simulation, when it
lets them pass.
-/

namespace DemandPaging

namespace Fault

variable {α α' β β' : Type} {x : Except Fault α} {x' : Except Fault α'} {k k₁ : α → Except Fault β}
  {k' : α' → Except Fault β'} {g : α → α'} {h : β → β'}

theorem demand_map {value? : Option α} {cause : Breach} :
    demand (value?.map g) cause = g <$> demand value? cause := by
  cases value? <;> rfl

theorem map_eq_ok_iff {a' : α'} : g <$> x = .ok a' ↔ ∃ a, x = .ok a ∧ g a = a' := by
  cases x <;> simp [Functor.map, Except.map]

/-- Operations that commute with a change of their values one by one do so one after the other. Each
proof below follows its operation with this, one line of it after the other. -/
theorem bind_of_map (hx : x' = g <$> x) (hk : ∀ a, k' (g a) = h <$> k a) :
    (x' >>= k') = h <$> (x >>= k) := by
  rw [hx, bind_map_left, map_bind]
  exact bind_congr hk

/-- The first one may answer the same, as does whatever reads no time. -/
theorem bind_of_same {k' : α → Except Fault β'} (hk : ∀ a, k' a = h <$> k a) :
    (x >>= k') = h <$> (x >>= k) := by
  rw [map_bind]
  exact bind_congr hk

end Fault

/-- A process with another reckoning of the time that it has left. Nothing else of a process is a time.
-/
def Process.retime (f : Nat → Nat) (p : Process) : Process := { p with wait := f p.wait }

/-- A table with another reckoning of the times that are left. Processes that wait for nothing
are reckoned anew as well, which matters to nobody if zero stays zero. -/
def ProcessTable.retime (f : Nat → Nat) (t : ProcessTable) : ProcessTable :=
  { t with processes := t.processes.map (Process.retime f) }

/-- An event with another reckoning of its time. The events of a whole run have none. -/
def Event.retime (f : Nat → Nat) : Event → Event
  | switched time source target => switched (f time) source target
  | referenced time page line hit => referenced (f time) page line hit
  | blocked time page => blocked (f time) page
  | evicted time page frame => evicted (f time) page frame
  | pagedIn time page frame => pagedIn (f time) page frame
  | exited time pid pages resident => exited (f time) pid pages resident
  | surveyed records processes => surveyed records processes
  | started policy frames pageSize processes references =>
    started policy frames pageSize processes references
  | completed policy runtime hits misses evictions => completed policy runtime hits misses evictions

/-- A machine with another reckoning of its times. Frames, policy, statistics, trace and queues have
none. -/
def Machine.retime (f : Nat → Nat) (m : Machine) : Machine :=
  { m with processes := m.processes.retime f, journal := m.journal.map (Event.retime f) }

namespace Process

variable {f : Nat → Nat} {p : Process} {index : IntervalIndex} {nextOffset : Nat}

theorem jump?_retime : (p.retime f).jump? index = Option.map (retime f) <$> p.jump? index := by
  -- what the cursor reads of the process is not its wait
  have hlast : (p.retime f).onLastLine = p.onLastLine := rfl
  have hleft : (p.retime f).linesLeft = p.linesLeft := rfl
  have hnext : index.next? (p.retime f).interval = index.next? p.interval := rfl
  rw [jump?, jump?, hlast, hleft, hnext]
  split
  · cases p.linesLeft <;> rfl
  · cases index.next? p.interval <;> rfl

theorem advance_retime : (p.retime f).advance index nextOffset =
    Prod.map id (retime f) <$> p.advance index nextOffset := by
  -- whether the process stays in its interval is not a matter of time
  have hlines : (p.retime f).hasLinesInInterval = p.hasLinesInInterval := rfl
  rw [advance, advance, hlines]
  split
  · rfl
  · apply Fault.bind_of_map jump?_retime
    rintro (_ | next) <;> rfl

end Process

namespace ProcessTable

variable {f : Nat → Nat} {t : ProcessTable} {p : Process} {pid : Pid} {ref : PageRef} {page : Page}
  {state source target : ProcessState} {policy : Policy}

theorem get?_retime : (t.retime f).get? pid = (t.get? pid).map (Process.retime f) :=
  OrderedMap.get?_map

theorem process_retime : (t.retime f).process pid = Process.retime f <$> t.process pid := by
  rw [process, process, get?_retime, Fault.demand_map]

theorem put_retime : (t.retime f).put (p.retime f) = (t.put p).retime f :=
  congrArg (ProcessTable.mk · t.queues t.order) OrderedMap.map_insert.symm

/-! ### Queues -/

theorem positionOf_retime : (t.retime f).positionOf = t.positionOf := by
  funext pid
  rw [positionOf, positionOf, get?_retime]
  cases t.get? pid <;> rfl

theorem enqueue_retime : (t.retime f).enqueue pid state = (t.enqueue pid state).retime f := by
  rw [enqueue, enqueue, positionOf_retime]
  rfl

theorem enter_retime : (t.retime f).enter (p.retime f) state = (t.enter p state).retime f := by
  -- the state is written beside the wait, so that it does not matter which of them comes first
  have hput : (t.retime f).put { p.retime f with state } = (t.put { p with state }).retime f :=
    put_retime (p := { p with state })
  rw [enter, enter, hput]
  exact enqueue_retime

theorem switchHead_retime : (t.retime f).switchHead source target =
    Prod.map id (retime f) <$> t.switchHead source target := by
  -- the queues hold numbers only
  have hqueue : (t.retime f).queue source = t.queue source := rfl
  rw [switchHead, switchHead, hqueue]
  cases t.queue source with
  | nil => rfl
  | cons pid rest =>
    apply Fault.bind_of_map process_retime
    intro p
    -- the rest of the queue is in place before the process enters the other one
    exact congrArg (fun u : ProcessTable => Except.ok (pid, u))
      (enter_retime (t := { t with queues := t.queues.set source rest }))

theorem setState_retime : (t.retime f).setState pid target = retime f <$> t.setState pid target := by
  apply Fault.bind_of_map process_retime
  intro p
  apply Fault.bind_of_same
  intro _
  exact congrArg Except.ok
    (enter_retime (t := { t with queues := t.queues.set p.state ((t.queue p.state).erase pid) }))

theorem requeueHead_retime : (t.retime f).requeueHead = retime f <$> t.requeueHead := by
  have hqueue : (t.retime f).queue .runnable = t.queue .runnable := rfl
  have horder : (t.retime f).order = t.order := rfl
  rw [requeueHead, requeueHead, hqueue, horder]
  split
  · apply Fault.bind_of_map switchHead_retime
    intro moved
    rfl
  · rfl

/-! ### Pages -/

theorem page?_retime : (t.retime f).page? ref = t.page? ref := by
  rw [page?, page?, get?_retime]
  cases t.get? ref.pid <;> rfl

theorem putPage_retime : (t.retime f).putPage page = (t.putPage page).retime f := by
  -- pages are written by an update of the process that leaves its wait alone
  have hmodify := OrderedMap.map_modify (m := t.processes) (k := page.ref.pid) (f := Process.retime f)
    (g := fun p => { p with pages := p.pages.insert page.ref.vpn page })
    (h := fun p => { p with pages := p.pages.insert page.ref.vpn page }) fun _ => rfl
  exact congrArg (ProcessTable.mk · t.queues t.order) hmodify.symm

theorem addPage_retime : (t.retime f).addPage ref policy =
    Prod.map id (Prod.map id (retime f)) <$> t.addPage ref policy := by
  apply Fault.bind_of_map process_retime
  intro p
  apply Fault.bind_of_same
  intro _
  -- the policy has marked the page without knowing the time
  exact congrArg (fun u : ProcessTable => Except.ok (_, _, u)) putPage_retime

theorem releasePages_retime :
    (t.retime f).releasePages pid = Prod.map id (retime f) <$> t.releasePages pid := by
  apply Fault.bind_of_map process_retime
  intro p
  -- a process without pages waits as long as before
  have hput := put_retime (f := f) (t := t) (p := { p with pages := ∅ })
  exact congrArg (fun u : ProcessTable => Except.ok (p.pages.values, u)) hput

end ProcessTable

namespace Machine

variable {f : Nat → Nat} {m : Machine} {p : Process} {pid : Pid} {ref : PageRef} {page : Page}
  {now diskPenalty line nextOffset : Nat} {frame : FrameId} {record : TraceRecord}

/-! ### The end of a process -/

theorem dropPage_retime : (m.retime f).dropPage page = retime f <$> m.dropPage page := by
  -- forgetting a page and emptying its frame are matters of the policy and of the frames
  apply Fault.bind_of_same
  intro policy
  cases page.frame? with
  | none => rfl
  | some frame =>
    apply Fault.bind_of_same
    intro frames
    rfl

theorem foldlM_dropPage_retime {pages : List Page} :
    pages.foldlM dropPage (m.retime f) = retime f <$> pages.foldlM dropPage m := by
  -- by induction on the pages, for any machine, since the first one leaves another
  induction pages generalizing m with
  | nil => rfl
  | cons page rest ih =>
    rw [List.foldlM_cons, List.foldlM_cons]
    apply Fault.bind_of_map dropPage_retime
    intro m'
    exact ih

theorem retire_retime : (m.retime f).retire (f now) pid = retime f <$> m.retire now pid := by
  -- each line of the operation in turn; only the event at the end tells the time
  apply Fault.bind_of_map ProcessTable.setState_retime
  intro t
  apply Fault.bind_of_map ProcessTable.process_retime
  intro p
  apply Fault.bind_of_map ProcessTable.releasePages_retime
  rintro ⟨pages, u⟩
  apply Fault.bind_of_map (foldlM_dropPage_retime (m := { m with processes := u }))
  intro m'
  rfl

/-! ### Completing a disk read -/

theorem evict_retime {owner : PageRef} :
    (m.retime f).evict (f now) frame owner = retime f <$> m.evict now frame owner := by
  have hpage : (m.retime f).processes.page? owner = m.processes.page? owner := ProcessTable.page?_retime
  rw [evict, evict, hpage]
  apply Fault.bind_of_same
  intro page
  apply Fault.bind_of_same
  rintro ⟨frames, page'⟩
  apply Fault.bind_of_same
  intro stats
  have hput : (m.retime f).processes.putPage page' = (m.processes.putPage page').retime f :=
    ProcessTable.putPage_retime
  rw [hput]
  rfl

theorem makeRoom_retime :
    (m.retime f).makeRoom (f now) = Prod.map id (retime f) <$> m.makeRoom now := by
  apply Fault.bind_of_same
  rintro ⟨frame, owner?, policy⟩
  -- with a free frame the machine stays as it is; otherwise a page is evicted at the time that it is
  cases owner? with
  | none => rfl
  | some owner =>
    apply Fault.bind_of_map (evict_retime (m := { m with policy }))
    intro m'
    rfl

theorem loadPage_retime :
    (m.retime f).loadPage (f now) frame ref = retime f <$> m.loadPage now frame ref := by
  have hpage : (m.retime f).processes.page? ref = m.processes.page? ref := ProcessTable.page?_retime
  rw [loadPage, loadPage, hpage]
  apply Fault.bind_of_same
  intro page
  apply Fault.bind_of_same
  rintro ⟨frames, page'⟩
  apply Fault.bind_of_same
  intro policy
  have hput : (m.retime f).processes.putPage page' = (m.processes.putPage page').retime f :=
    ProcessTable.putPage_retime
  rw [hput]
  rfl

/-- **A disk read** does not depend on the time. It writes the time into the journal, and never compares
it. -/
theorem completeRead_retime :
    completeRead (f now) (m.retime f) pid = retime f <$> completeRead now m pid := by
  apply Fault.bind_of_map ProcessTable.process_retime
  intro p
  apply Fault.bind_of_same
  intro ref
  -- its remaining wait is left as it is
  have hput : (m.retime f).processes.put { p.retime f with pending? := none } =
      (m.processes.put { p with pending? := none }).retime f :=
    ProcessTable.put_retime (p := { p with pending? := none })
  rw [hput]
  apply Fault.bind_of_map
    (makeRoom_retime (m := { m with processes := m.processes.put { p with pending? := none } }))
  rintro ⟨frame, m₁⟩
  apply Fault.bind_of_map loadPage_retime
  intro m₂
  apply Fault.bind_of_map ProcessTable.process_retime
  intro p₂
  -- the process goes on, which may be the end of it
  apply Fault.bind_of_map Process.advance_retime
  rintro ⟨step, p₃⟩
  have hput : (m₂.retime f).processes.put (p₃.retime f) = (m₂.processes.put p₃).retime f :=
    ProcessTable.put_retime
  dsimp only [Prod.map]
  rw [hput]
  -- at the end of its trace it is retired, and otherwise lined up again
  cases step with
  | exhausted => exact retire_retime (m := { m₂ with processes := m₂.processes.put p₃ })
  | nextLine | nextInterval =>
    apply Fault.bind_of_map ProcessTable.setState_retime
    intro t
    rfl

theorem foldlM_completeRead_retime {due : List Pid} :
    due.foldlM (completeRead (f now)) (m.retime f) = retime f <$> due.foldlM (completeRead now) m := by
  -- by induction on the processes that are due, all at one time
  induction due generalizing m with
  | nil => rfl
  | cons pid rest ih =>
    rw [List.foldlM_cons, List.foldlM_cons]
    apply Fault.bind_of_map completeRead_retime
    intro m'
    exact ih

/-! ### Executing a reference -/

theorem switchTo_retime : (m.retime f).switchTo (f now) pid = (m.switchTo now pid).retime f := by
  have hlast : (m.retime f).lastRunning? = m.lastRunning? := rfl
  rw [switchTo, switchTo, hlast]
  cases m.lastRunning? with
  | none => rfl
  | some previous =>
    dsimp only
    split <;> rfl

theorem fetch_retime : (m.retime f).fetch (p.retime f) = Prod.map id (retime f) (m.fetch p) := by
  -- the interval and the position of the process tell what is read, and neither is a time
  have hindex : (m.retime f).index.find? (p.retime f).pid (p.retime f).line =
    m.index.find? p.pid p.line := rfl
  have hseek : (m.retime f).reader.seek (p.retime f).position = m.reader.seek p.position := rfl
  rw [fetch, fetch, hindex, hseek]
  cases m.index.find? p.pid p.line with
  | none => rfl
  | some interval =>
    rcases m.reader.seek p.position with ⟨_ | _, reader⟩
    · rfl
    · dsimp only
      rcases reader.next with ⟨_ | _ | record, reader⟩
      · rfl
      · rfl
      · dsimp only
        have hpid : (p.retime f).pid = p.pid := rfl
        rw [hpid]
        split <;> rfl

theorem hit_retime :
    (m.retime f).hit (f now) page nextOffset = retime f <$> m.hit now page nextOffset := by
  apply Fault.bind_of_same
  intro policy
  apply Fault.bind_of_same
  intro stats
  apply Fault.bind_of_map ProcessTable.process_retime
  intro p
  apply Fault.bind_of_map Process.advance_retime
  rintro ⟨step, p₁⟩
  have hput : (m.retime f).processes.put (p₁.retime f) = (m.processes.put p₁).retime f :=
    ProcessTable.put_retime
  dsimp only [Prod.map]
  rw [hput]
  cases step with
  | exhausted => exact retire_retime (m := { m with policy, stats, processes := m.processes.put p₁ })
  | nextLine | nextInterval =>
    apply Fault.bind_of_map ProcessTable.requeueHead_retime
    intro t
    rfl

theorem miss_retime : (m.retime f).miss (f now) (f diskPenalty) page nextOffset =
    retime f <$> m.miss now diskPenalty page nextOffset := by
  apply Fault.bind_of_same
  intro stats
  apply Fault.bind_of_map ProcessTable.process_retime
  intro p
  -- this is where the penalty goes: the process waits for the penalty as it is reckoned
  let waiting : Process :=
    { p with pending? := some page.ref, wait := diskPenalty, position := nextOffset }
  have hput : (m.retime f).processes.put (waiting.retime f) = (m.processes.put waiting).retime f :=
    ProcessTable.put_retime
  have hswitch : ((m.retime f).processes.put (waiting.retime f)).switchHead .runnable .blocked =
      Prod.map id (ProcessTable.retime f) <$> (m.processes.put waiting).switchHead .runnable .blocked := by
    rw [hput, ProcessTable.switchHead_retime]
  apply Fault.bind_of_map hswitch
  intro moved
  rfl

theorem meetPage_retime :
    (m.retime f).meetPage ref = Prod.map id (retime f) <$> m.meetPage ref := by
  have hpage : (m.retime f).processes.page? ref = m.processes.page? ref := ProcessTable.page?_retime
  rw [meetPage, meetPage, hpage]
  cases m.processes.page? ref with
  | some page => rfl
  | none =>
    apply Fault.bind_of_map ProcessTable.addPage_retime
    intro added
    rfl

theorem execute_retime : (m.retime f).execute (f now) (f diskPenalty) line record =
    retime f <$> m.execute now diskPenalty line record := by
  apply Fault.bind_of_map meetPage_retime
  rintro ⟨page, m₁⟩
  -- the reference is noted before it is known what comes of it
  have hnote : (m₁.retime f).note (.referenced (f now) record.page line page.isResident) =
    (m₁.note (.referenced now record.page line page.isResident)).retime f := rfl
  dsimp only [Prod.map, id]
  rw [hnote]
  split
  · exact hit_retime
  · exact miss_retime

/-- **A reference** does not depend on the time, either. -/
theorem runReference_retime : (m.retime f).runReference (f now) (f diskPenalty) pid =
    Prod.map id (retime f) <$> m.runReference now diskPenalty pid := by
  rw [runReference, runReference, switchTo_retime]
  apply Fault.bind_of_map ProcessTable.process_retime
  intro p
  -- what is fetched is the record at the cursor, whatever the time
  rw [fetch_retime]
  rcases (m.switchTo now pid).fetch p with ⟨_ | record, m₁⟩
  · rfl
  · apply Fault.bind_of_map execute_retime
    intro m'
    rfl

end Machine

end DemandPaging
