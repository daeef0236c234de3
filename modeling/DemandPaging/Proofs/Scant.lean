import DemandPaging.Proofs.Ample
import DemandPaging.Proofs.Equivariance

/-!
# Memory for one page

If a memory has one frame, a page that has to leave is the only one that is there, whatever the policy
makes of it (`Likeness.kept_any`). Simulations that differ in nothing but policy and seed are then
twins, and never differ in what they do.

As they read the same trace, not even what twins may differ in is different, but for the marks on the
pages: each process is at the same place of the trace. Where a process goes depends on the trace and on
where it was, which is shared (`Passes.unique`, `Outcome.unique`), and on whether its page was in memory,
which twins agree on.
-/

namespace DemandPaging

variable {c d : Chart} {p q p₁ p₂ : Process}

/-! ### Places on one trace -/

/-- What is known of one trace in two ways. The survey may find the intervals anew; they are the same,
and so are the records. -/
structure Chart.Same (c d : Chart) : Prop where
  /-- It has the same records. -/
  records_eq : c.records = d.records
  /-- They are the same lines of each process. -/
  index_eq : c.index = d.index

theorem Chart.Same.symm (h : c.Same d) : d.Same c := ⟨h.records_eq.symm, h.index_eq.symm⟩

theorem Chart.Same.record?_eq (h : c.Same d) : c.record? = d.record? := by
  funext line
  rw [record?, record?, h.records_eq]

namespace Process

theorem ahead_of_same (h : c.Same d) : p.ahead c = p.ahead d := by
  rw [ahead, ahead, h.record?_eq]

/-- A line of a process is in one interval only, since intervals of one process do not meet. -/
theorem Placed.interval_eq (hsame : c.Same d) (h : p.Placed c) (h' : q.Placed d) (hpid : p.pid = q.pid)
    (hline : p.line = q.line) : p.interval = q.interval := by
  have hmem : q.interval ∈ c.index := hsame.index_eq ▸ h'.interval_mem
  have howner : p.interval.pid = q.interval.pid := by rw [h.owner, hpid, h'.owner]
  exact c.ordered.apart h.interval_mem hmem howner
    (Interval.meets_iff.2 ⟨p.line, h.line_mem, hline ▸ h'.line_mem⟩)

/-- There is one place where a process goes on: the least line ahead of it, and the interval and the
offset of that line. -/
theorem Follows.unique (hsame : c.Same d) (hplaced : p.Placed c) (h : p.Follows c p₁)
    (h' : p.Follows d p₂) : p₁ = p₂ := by
  -- both are least among the same lines
  have hline : p₁.line = p₂.line :=
    h.isLeast_ahead.unique (ahead_of_same hsame ▸ h'.isLeast_ahead)
  have hpid : p₁.pid = p₂.pid := by rw [h.cursor, h'.cursor]
  have hinterval := h.placed.interval_eq hsame h'.placed hpid hline
  obtain ⟨record, hrecord, -⟩ := hplaced.exists_record
  have hposition : p₁.position = p₂.position := by
    rw [h.position_eq hrecord, h'.position_eq (hsame.record?_eq ▸ hrecord), hinterval]
  -- what else a process has is unchanged, so the two are equal
  calc p₁ = { p with line := p₁.line, interval := p₁.interval, position := p₁.position } := h.cursor
    _ = { p with line := p₂.line, interval := p₂.interval, position := p₂.position } := by
      rw [hline, hinterval, hposition]
    _ = p₂ := h'.cursor.symm

/-- A process that goes on is not at its end. -/
theorem Follows.not_atEnd (hsame : c.Same d) (h : p.Follows c p₁) : ¬p.AtEnd d := by
  intro hend
  have hmem : p₁.line ∈ p.ahead c := h.isLeast_ahead.1
  rw [ahead_of_same hsame, hend.ahead_eq] at hmem
  exact hmem

theorem Passes.unique (hsame : c.Same d) (hplaced : p.Placed c) (h : p.Passes c p₁)
    (h' : p.Passes d p₂) : p₁ = p₂ := by
  -- it goes on for both or is at its end for both
  cases h with
  | on h =>
    cases h' with
    | on h' => rw [h.unique hsame hplaced h']
    | off h' => exact absurd h' (h.not_atEnd hsame)
  | off h =>
    cases h' with
    | on h' => exact absurd h (h'.not_atEnd hsame.symm)
    | off => rfl

end Process

namespace Machine

variable {m n m' n' : Machine} {pid : Pid} {now diskPenalty : Nat}

/-- Where a reference leaves its process depends on whether the process has to wait. A hit goes on, and a
miss leaves it where it is, with the page that it waits for. -/
theorem Outcome.unique {record : TraceRecord} {totals totals' after after' : Totals} {hit hit' : Bool}
    (hsame : c.Same d) (hplaced : p.Placed c) (h : Outcome c diskPenalty record p totals hit p₁ after)
    (h' : Outcome d diskPenalty record p totals' hit' p₂ after') (hstate : p₁.state = p₂.state) :
    p₁ = p₂ := by
  cases h with
  | hit h =>
    cases h' with
    | hit h' => exact h.unique hsame hplaced h'
    | miss => exact absurd hstate h.idle.1
  | miss =>
    cases h' with
    | hit h' => exact absurd hstate.symm h'.idle.1
    | miss => rfl

/-- A process whose disk read is completed comes to the same place. The frame that its page came into
does not matter for that. -/
theorem Reads.bare_eq (hsame : c.Same d) (hm : Reads c now m m' pid p) (hn : Reads d now n n' pid q)
    (hbare : m.processes.bare? = n.processes.bare?) : m'.processes.bare? = n'.processes.bare? := by
  obtain ⟨_, p₁, hcomplete, -, hpasses, hbare₁, -⟩ :=
    completeRead_eq_ok hm.before hm.found hm.blocked hm.misses_lt now
  obtain ⟨_, p₂, hcomplete', -, hpasses', hbare₂, -⟩ :=
    completeRead_eq_ok hn.before hn.found hn.blocked hn.misses_lt now
  cases hm.complete_eq.symm.trans hcomplete
  cases hn.complete_eq.symm.trans hcomplete'
  -- it stood at the same place on both machines before
  cases (hbare ▸ hm.found).symm.trans hn.found
  have hplaced := (hm.before.stands hm.found).toPlaced
  rw [hbare₁, hbare₂, hbare, hpasses.unique hsame hplaced hpasses']

end Machine

/-! ### Steps -/

namespace Simulator

variable {R : Likeness} {asked : List PageRef} {s t s' t' : Simulator}

/-- A reference leads its process to the same place, as afterwards both wait or neither does. That is
known of twins by the time this is used. -/
theorem Turn.bare_eq {m n m' n' : Machine} {pid : Pid} (hsame : c.Same d) (hs : s.Turn c m m' pid)
    (ht : t.Turn d n n' pid) (hpenalty : s.config.diskPenalty = t.config.diskPenalty)
    (hbare : m.processes.bare? = n.processes.bare?) (hveil : m'.processes.veil = n'.processes.veil) :
    m'.processes.bare? = n'.processes.bare? := by
  obtain ⟨_, q, q₁, record, hit, hrun, -, hq, -, hrecord, hbare₁, houtcome, -⟩ :=
    Machine.runReference_eq_ok hs.before.sound hs.head_eq hs.hits_lt hs.misses_lt s.clock
      s.config.diskPenalty
  obtain ⟨_, _, q₂, record', hit', hrun', -, hq', -, hrecord', hbare₂, houtcome', -⟩ :=
    Machine.runReference_eq_ok ht.before.sound ht.head_eq ht.hits_lt ht.misses_lt t.clock
      t.config.diskPenalty
  cases hs.run_eq.symm.trans hrun
  cases ht.run_eq.symm.trans hrun'
  -- the process and the record are the same for both
  cases (hbare ▸ hq).symm.trans hq'
  rw [hsame.record?_eq] at hrecord
  cases hrecord.symm.trans hrecord'
  rw [← hpenalty] at houtcome'
  have hself : m'.processes.bare? pid = some q₁ := by rw [hbare₁, Function.update_self]
  have hself' : n'.processes.bare? pid = some q₂ := by rw [hbare₂, Function.update_self]
  -- the state is among what twins agree on
  have hstate : q₁.state = q₂.state := by
    obtain ⟨p₁, hp₁, rfl⟩ := ProcessTable.bare?_eq_some_iff.1 hself
    obtain ⟨p₂, hp₂, rfl⟩ := ProcessTable.bare?_eq_some_iff.1 hself'
    have hprocess := ProcessTable.veil_eq_of_get? hveil hp₁ hp₂
    exact (congrArg Process.state hprocess :)
  have hplaced := (hs.before.sound.stands hq).toPlaced
  rw [hbare₁, hbare₂, hbare, houtcome.unique hsame hplaced houtcome' hstate]

/-- Disk reads that are due lead their processes to the same places. -/
theorem Underway.reads_bare_eq {m n : Machine} (hsame : c.Same d) (hs : s.Underway c)
    (ht : t.Underway d) (hclock : s.clock = t.clock) (h : s.machine.Twin R t.machine)
    (hbare : s.machine.processes.bare? = t.machine.processes.bare?)
    (hfold : s.machine.processes.completed.foldlM (Machine.completeRead s.clock) s.machine = .ok m)
    (hfold' : t.machine.processes.completed.foldlM (Machine.completeRead t.clock) t.machine = .ok n) :
    m.processes.bare? = n.processes.bare? := by
  exact hs.reads_of_both (T := fun m n => m.processes.bare? = n.processes.bare?) ht hclock h.completed_eq
    (fun hbare hread hread' => hread.bare_eq hsame hread' hbare) hbare hfold hfold'

namespace Twins

/-- **A step.** Twins that have their processes at the same places move them to the same places. That
they stay twins is proved along with it, as each part of the step needs both. -/
theorem bare_eq_of_step (hsame : c.Same d) (hR : R.Kept asked s.config.totalFrames)
    (hasked : ∀ record ∈ c.records, record.page ∈ asked) (h : Twins c d R s t)
    (hbare : s.machine.processes.bare? = t.machine.processes.bare?)
    (hstep : s.step = .ok (.ok true, s')) (hstep' : t.step = .ok (.ok true, t')) :
    s'.machine.processes.bare? = t'.machine.processes.bare? := by
  obtain ⟨-, -, hwaited, hsettle⟩ := h.left.step_cases hstep
  obtain ⟨-, -, hwaited', hsettle'⟩ := h.right.step_cases hstep'
  rw [← h.elapsed_eq] at hwaited' hsettle'
  have htime : s.clock + s.elapsed = t.clock + s.elapsed := congrArg (· + s.elapsed) h.clock_eq
  have hpages := congrArg (List.map (·.page)) hsame.records_eq
  -- time passes for all alike
  have hplaces : (s.machine.processes.passTime s.elapsed).bare? =
      (t.machine.processes.passTime s.elapsed).bare? := by
    funext pid
    rw [ProcessTable.bare?_passTime, ProcessTable.bare?_passTime, hbare]
  -- that they stay twins tells whether a reference was a hit for both
  have hboth : s'.machine.Twin R t'.machine ∧
      s'.machine.processes.bare? = t'.machine.processes.bare? := by
    refine hwaited.settle_of_both (T := fun m n => m.Twin R n ∧ m.processes.bare? = n.processes.bare?)
      (f := id) hwaited' (fun hfold hfold' => ⟨?_, ?_⟩) (fun h => ?_) (fun h' hturn hturn' => ?_) hsettle
      hsettle'
    · -- the disk reads that are due
      exact hwaited.reads_twin hwaited' hR htime h.waited hfold hfold'
    · exact hwaited.reads_bare_eq hsame hwaited' htime h.waited hplaces hfold hfold'
    · -- the process whose turn it is
      rw [Option.map_id_fun, id, h.1.head?_eq]
    · -- its reference
      have htwin := hturn.twin hturn' hR.toHeard hpages hasked htime h.penalty_eq h'.1
      exact ⟨htwin, hturn.bare_eq hsame hturn' h.penalty_eq h'.2 htwin.veil_eq⟩
  exact hboth.2

/-- Twins on one trace stay at the same places, which adds one conjunct to what is kept of twins. -/
theorem bisimulation_of_same (hsame : c.Same d) (hR : R.Kept asked s.config.totalFrames)
    (hasked : ∀ record ∈ c.records, record.page ∈ asked) :
    Bisimulation fun u v => (Twins c d R u v ∧ u.config = s.config) ∧
      u.machine.processes.bare? = v.machine.processes.bare? :=
  bisimulation_of_step (fun h => h.1.1) fun {u v u' v'} h hstep hstep' => by
    -- both simulations read one trace
    have hpages := congrArg (List.map (·.page)) hsame.records_eq
    have hkept : R.Kept asked u.config.totalFrames := h.1.2.symm ▸ hR
    exact ⟨⟨h.1.1.step hkept hpages hasked hstep hstep', (h.1.1.left.of_step hstep).2.trans h.1.2⟩,
      h.1.1.bare_eq_of_step hsame hkept hasked h.2 hstep hstep'⟩

end Twins

end Simulator

/-! ### One frame -/

/-- The victim of a policy is a frame of the memory. -/
theorem Coherent.victim_lt {frames : FrameTable} {policy policy' : Policy} {pages : PageMap}
    {frame : FrameId} (h : Coherent frames policy pages) (hfull : frames.hasFree = false)
    (hvictim : policy.victim = .ok (frame, policy')) : frame < frames.size := by
  obtain ⟨ref, page, _, _, hpage, hframe, hvictim', -, -⟩ :=
    Policy.victim_eq_ok h.follows h.residency.placed h.nonempty (h.residency.full_of_not_hasFree hfull)
  cases hvictim.symm.trans hvictim'
  exact h.residency.placed.within (PageMap.frame?_eq_some_iff.2 ⟨page, hpage, hframe⟩)

/-- Policies need have nothing in common. It is enough where the victim does not depend on the
policy. -/
def Likeness.any : Likeness := fun _ _ _ _ => True

/-- All policies name the same victim if there is only one frame. Nothing else is asked of them. -/
theorem Likeness.kept_any (asked : List PageRef) : any.Kept asked 1 where
  track _ _ := trivial
  noteLoad _ _ _ _ _ := trivial
  noteAccess _ _ _ _ _ := trivial
  forget _ _ _ _ _ := trivial
  victim {frames a b P Q ref page} _ ha hb hsize hfull _ _ := by
    intro a' b' frame frame' hvictim hvictim'
    -- both name a frame of the memory, and there is one
    have hlt := ha.victim_lt hfull hvictim
    have hlt' := hb.victim_lt hfull hvictim'
    rw [hsize, Nat.lt_one_iff] at hlt hlt'
    exact ⟨hlt.trans hlt'.symm, fun _ _ => trivial⟩

namespace Simulator

/-- What two simulations show of themselves, and where their processes are. The pages of the
processes may differ by the marks that the two policies leave. -/
structure Abreast (s t : Simulator) : Prop extends s.Alike t where
  /-- Each process is in the same state, at the same place and has as long to wait for the same page. -/
  bare_eq : s.machine.processes.bare? = t.machine.processes.bare?

/-- **Memory for one page.** If there is one frame only, the policy does not matter: on any trace, with
any other policy and any seed, a simulation makes the same number of steps, after each of them it is the
same time, the same was counted, and queues, processes and the frame are the same, and its run answers
the same. -/
theorem scant_memory {config : ValidConfig} {reader after : TraceReader} {stats : Stats}
    {survey : Survey} (hreach : reader.medium.bytes.size ≤ reader.medium.maxOffset)
    (hfresh : stats.totals = {})
    (hsurvey : reader.survey config.queueOrder = .ok (.ok survey, after))
    (hsingle : config.totalFrames = 1) :
    ∃ s, start config reader stats = .ok (.ok s) ∧
      ∀ kind seed, ∃ t, start (config.under kind seed) reader stats = .ok (.ok t) ∧
        (∀ n, (∀ s', s.Reaches n s' → ∃ t', t.Reaches n t' ∧ s'.Abreast t') ∧
          ∀ t', t.Reaches n t' → ∃ s', s.Reaches n s' ∧ s'.Abreast t') ∧
        s.run.map Prod.fst = t.run.map Prod.fst := by
  obtain ⟨s, chart, hstart, hconfig, hsound, hrecords, -⟩ := start_eq_ok hreach hfresh hsurvey
  refine ⟨s, hstart, fun kind seed => ?_⟩
  -- the survey does not depend on the policy, so both simulations begin alike
  have hsurvey' : reader.survey (config.under kind seed).queueOrder = .ok (.ok survey, after) := hsurvey
  obtain ⟨t, other, hstart', -, hsound', hrecords', -⟩ := start_eq_ok hreach hfresh hsurvey'
  have hframes : config.totalFrames = (config.under kind seed).totalFrames := rfl
  have htwins : Twins chart other .any s t :=
    twins_of_start hframes rfl rfl rfl hsurvey hsurvey' rfl rfl hstart hstart' hsound hsound' trivial
  -- they begin with the same processes and intervals, as these come from the survey
  obtain ⟨hindex, hbare⟩ : s.machine.index = t.machine.index ∧
      s.machine.processes.bare? = t.machine.processes.bare? := by
    obtain ⟨_, _, -, -, rfl⟩ := start_cases hsurvey hstart
    obtain ⟨_, _, -, -, rfl⟩ := start_cases hsurvey' hstart'
    exact ⟨rfl, rfl⟩
  have hsame : chart.Same other := by
    refine ⟨Except.ok.inj (hrecords.symm.trans hrecords'), ?_⟩
    rw [← hsound.machine.index_eq, hindex, hsound'.machine.index_eq]
  have hkept : Likeness.any.Kept (chart.records.map (·.page)) s.config.totalFrames := by
    rw [hconfig, hsingle]
    exact Likeness.kept_any _
  have hlockstep := Twins.bisimulation_of_same hsame hkept fun record hrecord =>
    List.mem_map_of_mem hrecord
  exact ⟨t, hstart', hlockstep.reaches ⟨⟨htwins, rfl⟩, hbare⟩ fun _ h => ⟨h.1.1.alike, h.2⟩,
    hlockstep.run_eq ⟨⟨htwins, rfl⟩, hbare⟩⟩

/-- Two processes that take each other's page out of the one frame. -/
theorem scant_memory_of_turns : ∃ survey after,
    turns.survey cramped.queueOrder = .ok (.ok survey, after) ∧ cramped.totalFrames = 1 ∧
      ∃ s, start cramped turns { totalFrames := 1 } = .ok (.ok s) ∧
        ∀ kind seed, ∃ t, start (cramped.under kind seed) turns { totalFrames := 1 } = .ok (.ok t) ∧
          (∀ n, (∀ s', s.Reaches n s' → ∃ t', t.Reaches n t' ∧ s'.Abreast t') ∧
            ∀ t', t.Reaches n t' → ∃ s', s.Reaches n s' ∧ s'.Abreast t') ∧
          s.run.map Prod.fst = t.run.map Prod.fst := by
  obtain ⟨survey, after, hsurvey, -⟩ :=
    exists_survey turns cramped.queueOrder (fun _ => true) (by decide +kernel)
  exact ⟨survey, after, hsurvey, rfl, scant_memory (by decide) rfl hsurvey rfl⟩

end Simulator

end DemandPaging
