import DemandPaging.Proofs.Completion
import DemandPaging.Proofs.Twins

/-!
# Simulations in lockstep

A relation between simulations is a bisimulation if related ones show the same time and have the same
to report, and a step of one of them is a step of the other that leaves them related (`Bisimulation`).
By induction they reach related ones after each number of steps (`Bisimulation.reaches`), and their runs
answer the same (`Bisimulation.run_eq`).

When time has passed, a step is some disk reads and at most one reference, which is the turn of the
first process that can run. What two machines have in common after the reads, and keep in such a turn,
they have in common after the step (`Underway.settle_of_both`).

Simulations whose machines are twins are in a bisimulation: each step takes the same time and leaves
the machines twins (`Twins.step`).
-/

namespace DemandPaging

namespace Simulator

variable {R : Likeness} {asked : List PageRef} {c d : Chart} {s t s' t' : Simulator} {n : Nat}
  {T : Simulator → Simulator → Prop}

/-! ### Bisimulations -/

/-- Related simulations show the same time and report the same, and steps keep them related. That both
make a step is asked for only where there is one to make and time for it: where there is not, they fail
or stop alike, since they show the same time and take as long. -/
structure Bisimulation (T : Simulator → Simulator → Prop) : Prop where
  /-- Both are done, or neither is. -/
  isFinished_eq : ∀ {s t}, T s t → s.isFinished = t.isFinished
  /-- It is the same time. -/
  clock_eq : ∀ {s t}, T s t → s.clock = t.clock
  /-- The next step takes as long. -/
  elapsed_eq : ∀ {s t}, T s t → s.elapsed = t.elapsed
  /-- There is a report on what has been counted. -/
  exists_report : ∀ {s t}, T s t → ∃ report, s.report = .ok report
  /-- It is the same one. -/
  report_eq : ∀ {s t}, T s t → s.report = t.report
  /-- While there is a step to make and time for it, both make it. -/
  step_eq_ok : ∀ {s t}, T s t → s.isFinished = false → s.clock + s.elapsed < 2 ^ 64 →
    ∃ s' t', s.step = .ok (.ok true, s') ∧ t.step = .ok (.ok true, t') ∧ T s' t'

namespace Bisimulation

/-- Of two related simulations either both make a step or neither does. The cases are those of a step:
everything is done, or the clock can count the step, or it cannot. -/
theorem of_step (hT : Bisimulation T) (h : T s t) :
    (∀ s', s.step = .ok (.ok true, s') → ∃ t', t.step = .ok (.ok true, t') ∧ T s' t') ∧
      ∀ t', t.step = .ok (.ok true, t') → ∃ s', s.step = .ok (.ok true, s') ∧ T s' t' := by
  cases hrun : s.isFinished with
  -- nothing is left to be done in either
  | true =>
    have hrun' : t.isFinished = true := hT.isFinished_eq h ▸ hrun
    rw [step_of_isFinished hrun, step_of_isFinished hrun']
    exact ⟨fun _ heq => (by cases heq), fun _ heq => (by cases heq)⟩
  | false =>
    by_cases hclock : s.clock + s.elapsed < 2 ^ 64
    · -- both make the step, and steps are determined
      obtain ⟨s₁, t₁, hstep, hstep', h'⟩ := hT.step_eq_ok h hrun hclock
      refine ⟨fun _ heq => ?_, fun _ heq => ?_⟩
      · cases hstep.symm.trans heq
        exact ⟨t₁, hstep', h'⟩
      · cases hstep'.symm.trans heq
        exact ⟨s₁, hstep, h'⟩
    · -- the clock is at its end for both
      have hrun' : t.isFinished = false := hT.isFinished_eq h ▸ hrun
      have hclock' : ¬t.clock + t.elapsed < 2 ^ 64 := by
        rw [← hT.clock_eq h, ← hT.elapsed_eq h]
        exact hclock
      rw [step_eq_overflow hrun hclock, step_eq_overflow hrun' hclock']
      exact ⟨fun _ heq => (by cases heq), fun _ heq => (by cases heq)⟩

/-- What the first one reaches has a counterpart that the second one reaches in as many steps. -/
theorem exists_right (hT : Bisimulation T) (h : T s t) (hreaches : s.Reaches n s') :
    ∃ t', t.Reaches n t' ∧ T s' t' := by
  induction hreaches with
  | start => exact ⟨t, .start, h⟩
  | step _ hstep ih =>
    obtain ⟨u, hu, hsame⟩ := ih
    obtain ⟨t', hstep', h'⟩ := (hT.of_step hsame).1 _ hstep
    exact ⟨t', .step hu hstep', h'⟩

/-- The other way round, what the second one reaches has a counterpart too. -/
theorem exists_left (hT : Bisimulation T) (h : T s t) (hreaches : t.Reaches n t') :
    ∃ s', s.Reaches n s' ∧ T s' t' := by
  induction hreaches with
  | start => exact ⟨s, .start, h⟩
  | step _ hstep ih =>
    obtain ⟨u, hu, hsame⟩ := ih
    obtain ⟨s', hstep', h'⟩ := (hT.of_step hsame).2 _ hstep
    exact ⟨s', .step hu hstep', h'⟩

/-- **Many steps.** If related simulations that are reached are alike, each one that one of them reaches
is like one that the other reaches in as many steps. What is alike in them may be less than what relates
them, and may depend on what was reached. -/
theorem reaches {A : Simulator → Simulator → Prop} (hT : Bisimulation T) (h : T s t)
    (hA : ∀ {n s' t'}, s.Reaches n s' → T s' t' → A s' t') (n : Nat) :
    (∀ s', s.Reaches n s' → ∃ t', t.Reaches n t' ∧ A s' t') ∧
      ∀ t', t.Reaches n t' → ∃ s', s.Reaches n s' ∧ A s' t' := by
  refine ⟨fun s' hs' => ?_, fun t' ht' => ?_⟩
  · obtain ⟨t', ht', h'⟩ := hT.exists_right h hs'
    exact ⟨t', ht', hA hs' h'⟩
  · obtain ⟨s', hs', h'⟩ := hT.exists_left h ht'
    exact ⟨s', hs', hA hs' h'⟩

/-- **Runs.** Both answer the same. A run has as many steps as the time allows, so the induction is on
what is left on the clock and not on a number of steps that is given. -/
theorem run_eq (hT : Bisimulation T) (h : T s t) : s.run.map Prod.fst = t.run.map Prod.fst := by
  -- each step leaves less time on the clock
  induction hleft : 2 ^ 64 - s.clock using Nat.strong_induction_on generalizing s t with
  | h left ih =>
    cases hrun : s.isFinished with
    -- both are done, and have the same to report
    | true =>
      have hrun' : t.isFinished = true := hT.isFinished_eq h ▸ hrun
      obtain ⟨found, hfound⟩ := hT.exists_report h
      rw [run_of_isFinished hrun hfound, run_of_isFinished hrun' (hT.report_eq h ▸ hfound)]
      rfl
    | false =>
      have hrun' : t.isFinished = false := hT.isFinished_eq h ▸ hrun
      by_cases hclock : s.clock + s.elapsed < 2 ^ 64
      · -- both make a step, and it leaves less time to each of them
        obtain ⟨s', t', hstep, hstep', h'⟩ := hT.step_eq_ok h hrun hclock
        obtain ⟨hlt, hfit⟩ := clock_lt_of_step hstep
        rw [run_of_step hstep, run_of_step hstep']
        exact ih _ (by omega) h' rfl
      · -- the step cannot be counted, and both runs fail for that
        have hclock' : ¬t.clock + t.elapsed < 2 ^ 64 := by
          rw [← hT.clock_eq h, ← hT.elapsed_eq h]
          exact hclock
        rw [run_of_fault (step_eq_overflow hrun hclock), run_of_fault (step_eq_overflow hrun' hclock')]

end Bisimulation

/-! ### The rest of a step -/

/-- The first process that can run executes its next reference. What a relation between two machines has
to be kept by is stated for turns, so that it need not look at how the step came to them. -/
structure Turn (c : Chart) (s : Simulator) (m m' : Machine) (pid : Pid) : Prop where
  /-- The machine is between two moves. -/
  before : m.Going c s.config
  /-- It is so again. -/
  after : m'.Going c s.config
  /-- No other process that can run is before it. -/
  head_eq : m.processes.head? .runnable = some pid
  /-- It executes the reference. -/
  run_eq : m.runReference s.clock s.config.diskPenalty pid = .ok (.ok (), m')
  /-- A hit can be counted. -/
  hits_lt : m.stats.totals.hits + 1 < 2 ^ 64
  /-- So can a miss. -/
  misses_lt : m.stats.totals.misses + 1 < 2 ^ 64

/-- What two machines keep when both complete the disk read of a process, they keep when both complete
those that are due, if these are of the same processes. The disk reads are completed in the same order,
and each of them is one that the two do alike. -/
theorem Underway.reads_of_both {T : Machine → Machine → Prop} {m n : Machine} (hs : s.Underway c)
    (ht : t.Underway d) (hclock : s.clock = t.clock)
    (hdue : s.machine.processes.completed = t.machine.processes.completed)
    (hT : ∀ {m n m' n' pid p q}, T m n → Machine.Reads c s.clock m m' pid p →
      Machine.Reads d s.clock n n' pid q → T m' n') (h : T s.machine t.machine)
    (hfold : s.machine.processes.completed.foldlM (Machine.completeRead s.clock) s.machine = .ok m)
    (hfold' : t.machine.processes.completed.foldlM (Machine.completeRead t.clock) t.machine = .ok n) :
    T m n := by
  have hfit := hs.references_lt
  have hfit' := ht.references_lt
  have hblocked := ht.blocked_of_completed
  rw [← hclock, ← hdue, ← List.map_id (ProcessTable.completed _)] at hfold'
  rw [← hdue, ← List.map_id (ProcessTable.completed _)] at hblocked
  exact Machine.foldlM_completeRead_of_both Function.injective_id hT h hs.machine ht.machine
    (ProcessTable.nodup_completed hs.machine.lined) hs.blocked_of_completed hblocked (by omega) (by omega)
    hfold hfold'

/-- What two machines have in common when both have completed the disk reads that are due, and keep when
both have a reference executed, they have in common after the rest of a step. The processes may have
different names, so `f` translates those of the first machine. -/
theorem Underway.settle_of_both {T : Machine → Machine → Prop} {f : Pid → Pid} (hs : s.Underway c)
    (ht : t.Underway d)
    (hreads : ∀ {m n}, s.machine.processes.completed.foldlM (Machine.completeRead s.clock) s.machine =
      .ok m → t.machine.processes.completed.foldlM (Machine.completeRead t.clock) t.machine = .ok n →
      T m n)
    (hhead : ∀ {m n}, T m n →
      n.processes.head? .runnable = (m.processes.head? .runnable).map f)
    (hturn : ∀ {m n m' n' pid}, T m n → s.Turn c m m' pid → t.Turn d n n' (f pid) → T m' n')
    (hsettle : s.settle = .ok (.ok true, s')) (hsettle' : t.settle = .ok (.ok true, t')) :
    T s'.machine t'.machine := by
  obtain ⟨m, hfold, hgoing, hcases⟩ := hs.settle_cases hsettle
  obtain ⟨n, hfold', hgoing', hcases'⟩ := ht.settle_cases hsettle'
  have hT := hreads hfold hfold'
  have hsame := hhead hT
  -- nothing can run in the first machine, so nothing can in the second
  rcases hcases with ⟨hnone, rfl⟩ | ⟨pid, m', hfirst, hrun, hhits, hmisses, hafter, rfl⟩
  · rw [hnone] at hsame
    rcases hcases' with ⟨-, rfl⟩ | ⟨pid', n', hfirst', -⟩
    · exact hT
    · cases hfirst'.symm.trans hsame
  · -- the same process has its turn in both
    rw [hfirst] at hsame
    rcases hcases' with ⟨hnone', -⟩ | ⟨pid', n', hfirst', hrun', hhits', hmisses', hafter', rfl⟩
    · cases hnone'.symm.trans hsame
    · cases hfirst'.symm.trans hsame
      exact hturn hT ⟨hgoing, hafter, hfirst, hrun, hhits, hmisses⟩
        ⟨hgoing', hafter', hfirst', hrun', hhits', hmisses'⟩

/-! ### Twins -/

/-- What two simulations in lockstep show of themselves: the clock, the counters, the queues and the
pages in the frames. -/
structure Alike (s t : Simulator) : Prop where
  /-- It is the same time. -/
  clock_eq : s.clock = t.clock
  /-- The same has been counted. -/
  stats_eq : s.machine.stats = t.machine.stats
  /-- The same processes are queued, in the same order. -/
  queue_eq : s.machine.processes.queue = t.machine.processes.queue
  /-- The frames hold the same pages. -/
  frames_eq : s.machine.frames = t.machine.frames

/-- Simulations with twin machines at the same time. Their parameters agree in all that says how
time passes, and their machines may differ in the policy as far as the likeness `R` lets them.
The two charts are two readings of one trace, or of two traces with the same records. -/
structure Twins (c d : Chart) (R : Likeness) (s t : Simulator) : Prop where
  /-- The first one is sound. -/
  left : s.Sound c
  /-- So is the second one. -/
  right : t.Sound d
  /-- It is the same time. -/
  clock_eq : s.clock = t.clock
  /-- A tick is as long. -/
  tick_eq : s.config.clockTick = t.config.clockTick
  /-- A disk read is as long. -/
  penalty_eq : s.config.diskPenalty = t.config.diskPenalty
  /-- Both pass time over, or neither does. -/
  pace_eq : s.config.fastForward = t.config.fastForward
  /-- The machines are twins. -/
  machine : s.machine.Twin R t.machine

namespace Twins

theorem alike (h : Twins c d R s t) : s.Alike t :=
  ⟨h.clock_eq, h.machine.stats_eq, ProcessTable.queue_eq_of_veil h.machine.veil_eq,
    h.machine.frames_eq⟩

theorem isFinished_eq (h : Twins c d R s t) : s.isFinished = t.isFinished := by
  rw [isFinished, isFinished, h.alike.queue_eq]

theorem elapsed_eq (h : Twins c d R s t) : s.elapsed = t.elapsed := by
  have hnext : s.machine.processes.nextCompletion? = t.machine.processes.nextCompletion? := by
    rw [← ProcessTable.nextCompletion?_veil, h.machine.veil_eq, ProcessTable.nextCompletion?_veil]
  rw [elapsed, elapsed, hnext, h.tick_eq, h.pace_eq, Machine.canRun, Machine.canRun, h.alike.queue_eq]

/-- Time passes alike. The disk reads come nearer by as much, and the same ticks are counted. -/
theorem waited (h : Twins c d R s t) {elapsed : Nat} :
    (s.waited elapsed).machine.Twin R (t.waited elapsed).machine where
  frames_eq := h.machine.frames_eq
  veil_eq := by
    -- the veil has the waits, and the same time is taken from each of them
    show (s.machine.processes.passTime elapsed).veil = (t.machine.processes.passTime elapsed).veil
    rw [ProcessTable.veil_passTime, ProcessTable.veil_passTime, h.machine.veil_eq]
  index_eq := h.machine.index_eq
  stats_eq := by
    have hcan : s.machine.canRun = t.machine.canRun := by
      rw [Machine.canRun, Machine.canRun, h.alike.queue_eq]
    rw [Simulator.waited, Simulator.waited, h.machine.stats_eq, h.machine.frames_eq, hcan, h.tick_eq]
  alike := by
    -- which frames have which pages does not depend on the time
    show R s.machine.policy (s.machine.processes.passTime elapsed).page?
      t.machine.policy (t.machine.processes.passTime elapsed).page?
    rw [ProcessTable.page?_passTime, ProcessTable.page?_passTime]
    exact h.machine.alike

end Twins

/-- Both complete the disk reads that are due. That the memory keeps its size goes along, as the likeness
of the policies depends on it. -/
theorem Underway.reads_twin {m n : Machine} (hs : s.Underway c) (ht : t.Underway d)
    (hR : R.Kept asked s.config.totalFrames) (hclock : s.clock = t.clock)
    (h : s.machine.Twin R t.machine)
    (hfold : s.machine.processes.completed.foldlM (Machine.completeRead s.clock) s.machine = .ok m)
    (hfold' : t.machine.processes.completed.foldlM (Machine.completeRead t.clock) t.machine = .ok n) :
    m.Twin R n := by
  refine (hs.reads_of_both (T := fun m n => m.Twin R n ∧ m.frames.size = s.config.totalFrames) ht hclock
    h.completed_eq (fun h hread hread' => ?_) ⟨h, hs.size_eq⟩ hfold hfold').1
  exact ⟨hread.twin hR hread' h.1 h.2, hread.size_eq.trans h.2⟩

/-- Both have a reference executed. It is the turn of the same process, since the queues are the same. -/
theorem Turn.twin {m n m' n' : Machine} {pid : Pid} (hs : s.Turn c m m' pid) (ht : t.Turn d n n' pid)
    (hR : R.Heard asked) (hpages : c.records.map (·.page) = d.records.map (·.page))
    (hasked : ∀ record ∈ c.records, record.page ∈ asked) (hclock : s.clock = t.clock)
    (hpenalty : s.config.diskPenalty = t.config.diskPenalty) (h : m.Twin R n) : m'.Twin R n' := by
  -- the process at the head of the queue is one that can run
  have hlined := hs.before.sound.lined
  obtain ⟨q, hq, hrunnable⟩ := hlined.queued.1 (List.mem_of_mem_head? hs.head_eq)
  obtain ⟨p, hp, rfl⟩ := ProcessTable.bare?_eq_some_iff.1 hq
  obtain rfl := hlined.pid_of_get? hp
  have hrun' := ht.run_eq
  rw [← hclock, ← hpenalty] at hrun'
  exact h.runReference hR hpages hasked hs.before.sound ht.before.sound hp hrunnable hs.run_eq hrun'
    hs.after.sound ht.after.sound

/-- Both complete the disk reads that are due, and have a reference executed. These are all the parts of
a step that come after the time has passed. -/
theorem Underway.settle_twin (hs : s.Underway c) (ht : t.Underway d)
    (hR : R.Kept asked s.config.totalFrames)
    (hpages : c.records.map (·.page) = d.records.map (·.page))
    (hasked : ∀ record ∈ c.records, record.page ∈ asked) (hclock : s.clock = t.clock)
    (hpenalty : s.config.diskPenalty = t.config.diskPenalty) (h : s.machine.Twin R t.machine)
    (hsettle : s.settle = .ok (.ok true, s')) (hsettle' : t.settle = .ok (.ok true, t')) :
    s'.machine.Twin R t'.machine := by
  refine hs.settle_of_both (f := id) ht (hs.reads_twin ht hR hclock h) (fun h => ?_)
    (fun h hturn hturn' => hturn.twin hturn' hR.toHeard hpages hasked hclock hpenalty h) hsettle hsettle'
  rw [Option.map_id_fun, id, h.head?_eq]

/-! ### Steps and runs -/

namespace Twins

/-- While there is a step to make and time for it, both make it. Each of them is sound, so that is a
matter of the clock alone. -/
theorem exists_steps (h : Twins c d R s t) (hrun : s.isFinished = false)
    (hclock : s.clock + s.elapsed < 2 ^ 64) :
    ∃ s' t', s.step = .ok (.ok true, s') ∧ t.step = .ok (.ok true, t') := by
  have hrun' : t.isFinished = false := h.isFinished_eq ▸ hrun
  have hclock' : t.clock + t.elapsed < 2 ^ 64 := by
    rw [← h.clock_eq, ← h.elapsed_eq]
    exact hclock
  obtain ⟨m, hstep, -⟩ := h.left.step_eq_ok hrun hclock
  obtain ⟨n, hstep', -⟩ := h.right.step_eq_ok hrun' hclock'
  exact ⟨_, _, hstep, hstep'⟩

/-- Twins that have made a step are twins again if their machines are. The clocks have gone on by the
same time, and the parameters stay as they are. -/
theorem of_step (h : Twins c d R s t) (hstep : s.step = .ok (.ok true, s'))
    (hstep' : t.step = .ok (.ok true, t')) (hmachine : s'.machine.Twin R t'.machine) :
    Twins c d R s' t' := by
  obtain ⟨hleft, hconfig⟩ := h.left.of_step hstep
  obtain ⟨hright, hconfig'⟩ := h.right.of_step hstep'
  obtain ⟨-, hclock⟩ := h.left.clock_of_step hstep
  obtain ⟨-, hclock'⟩ := h.right.clock_of_step hstep'
  refine ⟨hleft, hright, ?_, ?_, ?_, ?_, hmachine⟩
  · rw [hclock, hclock', h.clock_eq, h.elapsed_eq]
  · rw [hconfig, hconfig', h.tick_eq]
  · rw [hconfig, hconfig', h.penalty_eq]
  · rw [hconfig, hconfig', h.pace_eq]

/-- Twins are in lockstep if there is something about them that steps keep, and that keeps them twins. In
most cases that is the likeness of their policies, but it may be more. -/
theorem bisimulation_of_step (htwins : ∀ {s t}, T s t → Twins c d R s t)
    (hsteps : ∀ {s t s' t'}, T s t → s.step = .ok (.ok true, s') → t.step = .ok (.ok true, t') →
      T s' t') : Bisimulation T where
  isFinished_eq h := (htwins h).isFinished_eq
  clock_eq h := (htwins h).clock_eq
  elapsed_eq h := (htwins h).elapsed_eq
  exists_report h := (htwins h).left.exists_report
  -- the same totals over the same time give the same report
  report_eq {s t} h := by
    have hticks : s.ticks = t.ticks := by rw [ticks, ticks, (htwins h).clock_eq, (htwins h).tick_eq]
    rw [report, report, (htwins h).machine.stats_eq, hticks]
  step_eq_ok h hrun hclock := by
    obtain ⟨s', t', hstep, hstep'⟩ := (htwins h).exists_steps hrun hclock
    exact ⟨s', t', hstep, hstep', hsteps h hstep hstep'⟩

section
variable (hR : R.Kept asked s.config.totalFrames)
  (hpages : c.records.map (·.page) = d.records.map (·.page))
  (hasked : ∀ record ∈ c.records, record.page ∈ asked)

include hR hpages hasked

/-- **A step.** Twins stay twins as long as their policies are kept alike. Both pass the same time, and
then complete the same disk reads and have the same reference executed. -/
theorem step (h : Twins c d R s t) (hstep : s.step = .ok (.ok true, s'))
    (hstep' : t.step = .ok (.ok true, t')) : Twins c d R s' t' := by
  obtain ⟨-, -, hwaited, hsettle⟩ := h.left.step_cases hstep
  obtain ⟨-, -, hwaited', hsettle'⟩ := h.right.step_cases hstep'
  rw [← h.elapsed_eq] at hwaited' hsettle'
  have htime : s.clock + s.elapsed = t.clock + s.elapsed := congrArg (· + s.elapsed) h.clock_eq
  exact h.of_step hstep hstep'
    (hwaited.settle_twin hwaited' hR hpages hasked htime h.penalty_eq h.waited hsettle hsettle')

/-- Twins are in lockstep, as long as their policies are kept alike. The size of the memory is part of
what the likeness depends on, so the parameters are carried along. -/
theorem bisimulation : Bisimulation fun u v => Twins c d R u v ∧ u.config = s.config :=
  bisimulation_of_step And.left fun {u v u' v'} h hstep hstep' => by
    have hkept : R.Kept asked u.config.totalFrames := h.2.symm ▸ hR
    exact ⟨h.1.step hkept hpages hasked hstep hstep', (h.1.left.of_step hstep).2.trans h.2⟩

/-- **Many steps.** What one of them reaches has a twin that the other one reaches. -/
theorem reaches {A : Simulator → Simulator → Prop} (h : Twins c d R s t)
    (hA : ∀ {s' t'}, Twins c d R s' t' → A s' t') (n : Nat) :
    (∀ s', s.Reaches n s' → ∃ t', t.Reaches n t' ∧ A s' t') ∧
      ∀ t', t.Reaches n t' → ∃ s', s.Reaches n s' ∧ A s' t' :=
  (bisimulation hR hpages hasked).reaches ⟨h, rfl⟩ (fun _ h' => hA h'.1) n

/-- **Runs.** Both answer the same. -/
theorem run_eq (h : Twins c d R s t) : s.run.map Prod.fst = t.run.map Prod.fst :=
  (bisimulation hR hpages hasked).run_eq ⟨h, rfl⟩

end

end Twins

/-! ### The start -/

/-- Simulations begin in lockstep if their surveys look the same, and only policy and seed may differ in
their parameters. The memories are built alike, since they have the same size. -/
theorem twins_of_start {config other : ValidConfig} {reader reader' after after' : TraceReader}
    {stats : Stats} {survey survey' : Survey} (hframes : config.totalFrames = other.totalFrames)
    (htick : config.clockTick = other.clockTick) (hpenalty : config.diskPenalty = other.diskPenalty)
    (hpace : config.fastForward = other.fastForward)
    (hsurvey : reader.survey config.queueOrder = .ok (.ok survey, after))
    (hsurvey' : reader'.survey other.queueOrder = .ok (.ok survey', after'))
    (hindex : survey.index.veil = survey'.index.veil)
    (hprocesses : survey.processes.veil = survey'.processes.veil)
    (hstart : start config reader stats = .ok (.ok s))
    (hstart' : start other reader' stats = .ok (.ok t)) (hs : s.Sound c) (ht : t.Sound d)
    (halike : R s.machine.policy s.machine.processes.page? t.machine.policy t.machine.processes.page?) :
    Twins c d R s t := by
  obtain ⟨frames, policy, hbuild, -, rfl⟩ := start_cases hsurvey hstart
  obtain ⟨frames', policy', hbuild', -, rfl⟩ := start_cases hsurvey' hstart'
  rw [← hframes] at hbuild'
  cases hbuild.symm.trans hbuild'
  exact ⟨hs, ht, rfl, htick, hpenalty, hpace, rfl, hprocesses, hindex, rfl, halike⟩

end Simulator

end DemandPaging
