import DemandPaging.Proofs.Lineup
import DemandPaging.Proofs.Renaming
import Mathlib.Order.Bounds.Basic

/-!
# Machines under other names

Two machines whose traces differ by a renaming do the same under different names. What is compared of
them (`Machine.Renamed`) is what a machine shows but for the journal: the queues, each process with its
state, its line and what it waits for, the pages with their frames, the policy and the totals. A
completed disk read keeps them alike (`Renamed.resume`), and so does an executed reference
(`Renamed.refer`).

Where a process goes from its line depends on which of the later lines are its own, and this is the same
in both traces. The next disk read that is complete is the one with the least time left; processes are
looked through for it in the order of their numbers, but the least time is the least in any order.
-/

namespace DemandPaging

variable {ρ : Renaming} {c d : Chart} {p q p' q' : Process} {pid : Pid} {line : Nat}
  {record record' : TraceRecord}

/-! ### Traces -/

/-- The second trace has the records of the first one with other names. Their offsets may be any. -/
def Survey.Renamed (ρ : Renaming) (records records' : List TraceRecord) : Prop :=
  records'.map (·.page) = records.map fun record => ρ.page record.page

namespace Survey.Renamed

variable {records records' : List TraceRecord}

theorem page?_eq (h : Renamed ρ records records') (line : Nat) :
    (record? records' line).map (·.page) =
      (record? records line).map fun record => ρ.page record.page := by
  cases line with
  | zero => rfl
  | succ line =>
    have hlines := congrArg (fun pages : List PageRef => pages[line]?) h
    rw [List.getElem?_map, List.getElem?_map] at hlines
    exact hlines

theorem exists_record (h : Renamed ρ records records') (hrecord : record? records line = some record) :
    ∃ record', record? records' line = some record' ∧ record'.page = ρ.page record.page := by
  have hpage := h.page?_eq line
  rw [hrecord] at hpage
  exact Option.map_eq_some_iff.1 hpage

theorem page_eq (h : Renamed ρ records records') (hrecord : record? records line = some record)
    (hrecord' : record? records' line = some record') : record'.page = ρ.page record.page := by
  obtain ⟨_, hfound, hpage⟩ := h.exists_record hrecord
  cases hrecord'.symm.trans hfound
  exact hpage

/-- The lines of a process are those that it has under its other number. For this no two processes may
have one number. -/
theorem owned_iff (h : Renamed ρ records records') :
    (∃ record, record? records' line = some record ∧ record.pid = ρ.pid pid) ↔
      ∃ record, record? records line = some record ∧ record.pid = pid := by
  constructor
  · rintro ⟨record', hrecord', hpid⟩
    have hpage := h.page?_eq line
    rw [hrecord'] at hpage
    obtain ⟨record, hrecord, heq⟩ := Option.map_eq_some_iff.1 hpage.symm
    exact ⟨record, hrecord, ρ.pid_injective ((congrArg PageRef.pid heq).trans hpid)⟩
  · rintro ⟨record, hrecord, rfl⟩
    obtain ⟨record', hrecord', hpage⟩ := h.exists_record hrecord
    exact ⟨record', hrecord', congrArg PageRef.pid hpage⟩

theorem map_pid_eq (h : Renamed ρ records records') :
    records'.map (·.pid) = (records.map (·.pid)).map ρ.pid := by
  have hpids := congrArg (List.map PageRef.pid) h
  rw [List.map_map, List.map_map] at hpids
  rw [List.map_map]
  exact hpids

end Survey.Renamed

/-! ### Processes -/

namespace Process

/-- The later lines of a process: all that the trace has to say of where it goes. Two cursors
with the same lines ahead take the same way, however the lines are cut into intervals. -/
def ahead (chart : Chart) (p : Process) : Set Nat :=
  {line | p.line < line ∧ ∃ record, chart.record? line = some record ∧ record.pid = p.pid}

theorem Follows.isLeast_ahead (h : p.Follows c p') : IsLeast (p.ahead c) p'.line := by
  obtain ⟨record, hrecord, hpid⟩ := h.placed.exists_record
  have hsame : p'.pid = p.pid := by rw [h.cursor]
  -- it is one of them, and there is none before it
  refine ⟨⟨h.later, record, hrecord, hpid.trans hsame⟩, ?_⟩
  rintro line ⟨hlater, found, hfound, howner⟩
  exact h.nearest hfound howner hlater

theorem AtEnd.ahead_eq (h : p.AtEnd c) : p.ahead c = ∅ := by
  refine Set.eq_empty_of_forall_notMem ?_
  rintro line ⟨hlater, found, hfound, howner⟩
  exact Nat.not_le_of_lt hlater (h.last hfound howner)

/-- The second process has another number, and is where the first one is. Of its pages nothing is said
here. -/
structure Renamed (ρ : Renaming) (p q : Process) : Prop where
  /-- It has the other number. -/
  pid_eq : q.pid = ρ.pid p.pid
  /-- It does the same. -/
  state_eq : q.state = p.state
  /-- It is on the same line. -/
  line_eq : q.line = p.line
  /-- It has as much time left to wait. -/
  wait_eq : q.wait = p.wait
  /-- It waits for the same page. -/
  pending_eq : q.pending? = p.pending?.map ρ.page

namespace Renamed

theorem ahead_eq (h : p.Renamed ρ q) (htraces : Survey.Renamed ρ c.records d.records) :
    q.ahead d = p.ahead c := by
  ext line
  rw [ahead, ahead, Set.mem_ofPred_eq, Set.mem_ofPred_eq, h.line_eq, h.pid_eq]
  exact and_congr_right fun _ => htraces.owned_iff

/-- Both move past their records to the same line, or end. Where the first one finds a later line of its
own, so does the second. -/
theorem passes (h : p.Renamed ρ q) (htraces : Survey.Renamed ρ c.records d.records) (hp : p.Passes c p')
    (hq : q.Passes d q') : p'.Renamed ρ q' := by
  have hahead := h.ahead_eq htraces
  cases hp with
  | @on p₁ hp =>
    have hleast := hp.isLeast_ahead
    cases hq with
    | @on q₁ hq =>
      have hpid : p₁.pid = p.pid := by rw [hp.cursor]
      have hpid' : q₁.pid = q.pid := by rw [hq.cursor]
      have hwait : p₁.wait = p.wait := by rw [hp.cursor]
      have hwait' : q₁.wait = q.wait := by rw [hq.cursor]
      -- both go on, and to the least of the same lines
      refine ⟨?_, rfl, ?_, ?_, rfl⟩
      · show q₁.pid = ρ.pid p₁.pid
        rw [hpid, hpid', h.pid_eq]
      · exact (hahead ▸ hq.isLeast_ahead).unique hleast
      · show q₁.wait = p₁.wait
        rw [hwait, hwait', h.wait_eq]
    | off hq =>
      -- one cannot go on where the other is at its end, for then no lines are ahead
      rw [← hahead, hq.ahead_eq] at hleast
      cases hleast.1
  | off hp =>
    cases hq with
    | on hq =>
      have hleast := hq.isLeast_ahead
      rw [hahead, hp.ahead_eq] at hleast
      cases hleast.1
    | off => exact ⟨h.pid_eq, rfl, h.line_eq, h.wait_eq, rfl⟩

theorem passTime (h : p.Renamed ρ q) (elapsed : Nat) :
    (p.passTime elapsed).Renamed ρ (q.passTime elapsed) where
  pid_eq := h.pid_eq
  state_eq := h.state_eq
  line_eq := h.line_eq
  wait_eq := congrArg (· - elapsed) h.wait_eq
  pending_eq := h.pending_eq

end Renamed

end Process

/-! ### Tables -/

namespace ProcessTable

variable {t u t' u' : ProcessTable} {source target state : ProcessState} {order : QueueOrder}
  {queue : ProcessState → List Pid} {pids : List Pid} {at₁ at₂ : Pid → Nat} {f : Pid → Pid}

theorem joined_map (hline : ∀ pid, at₂ (f pid) = at₁ pid) :
    joined order at₂ (f pid) state (pids.map f) = (joined order at₁ pid state pids).map f := by
  -- by position, those that stand no further on are the same ones
  have hahead : (pids.map f).takeWhile (at₂ · ≤ at₂ (f pid)) =
      (pids.takeWhile (at₁ · ≤ at₁ pid)).map f := by
    rw [List.takeWhile_map]
    refine congrArg (List.map f) (congrArg (List.takeWhile · pids) (funext fun other => ?_))
    exact decide_eq_decide.2 (by rw [hline, hline])
  simp only [joined]
  split
  · rw [hahead, List.map_append, List.map_cons, List.length_map, List.map_drop]
  · rw [List.map_append, List.map_cons, List.length_map, List.map_drop]

/-- Leaving a queue and joining another does not depend on the numbers, as long as these are different.
-/
theorem requeue_map (hf : f.Injective) (hline : ∀ pid, at₂ (f pid) = at₁ pid) :
    requeue order at₂ (f pid) source target (fun state => (queue state).map f) state =
      (requeue order at₁ pid source target queue state).map f := by
  -- in the queue that is left, the number is erased under either name
  have hothers : (if state = source then ((queue state).map f).erase (f pid) else (queue state).map f) =
      (if state = source then (queue state).erase pid else queue state).map f := by
    split
    · exact (List.map_erase hf _).symm
    · rfl
  simp only [requeue]
  split
  · rfl
  · rw [hothers]
    split
    · exact joined_map hline
    · rfl

/-- The second table has the processes of the first one under other numbers, in the same order. This is
said of the queues; the order of the numbers themselves may be another. -/
structure Renamed (ρ : Renaming) (t u : ProcessTable) : Prop where
  /-- They are lined up alike. -/
  order_eq : u.order = t.order
  /-- The queues are the same. -/
  queue_eq : ∀ state, u.queue state = (t.queue state).map ρ.pid
  /-- A process is there under its other number. -/
  process : ∀ pid, Option.Rel (Process.Renamed ρ) (t.bare? pid) (u.bare? (ρ.pid pid))

/-- The times left to the disk reads that are waited for. As a set it does not tell in which order the
processes are looked through. -/
def waitTimes (t : ProcessTable) : Set Nat :=
  {wait | ∃ pid p, t.bare? pid = some p ∧ p.state = .blocked ∧ p.wait = wait}

theorem nextCompletion?_eq_some_iff {wait : Nat} :
    t.nextCompletion? = some wait ↔ IsLeast t.waitTimes wait := by
  have hleast : ∀ {wait}, t.nextCompletion? = some wait → IsLeast t.waitTimes wait := by
    intro wait hnext
    obtain ⟨hsome, hle⟩ := nextCompletion?_eq_some hnext
    refine ⟨hsome, ?_⟩
    rintro other ⟨pid, p, hp, hblocked, rfl⟩
    exact hle hp hblocked
  refine ⟨hleast, fun h => ?_⟩
  -- there is a least time as there is one at all, and there is only one
  obtain ⟨pid, p, hp, hblocked, -⟩ := h.1
  obtain ⟨found, hfound⟩ := exists_nextCompletion hp hblocked
  rw [hfound, (hleast hfound).unique h]

namespace Renamed

theorem exists_process (h : t.Renamed ρ u) (hp : t.bare? pid = some p) :
    ∃ q, u.bare? (ρ.pid pid) = some q ∧ p.Renamed ρ q := by
  have hrel := h.process pid
  rw [hp] at hrel
  cases hq : u.bare? (ρ.pid pid) with
  | none =>
    rw [hq] at hrel
    cases hrel
  | some q =>
    rw [hq] at hrel
    cases hrel with
    | some hrel => exact ⟨q, rfl, hrel⟩

theorem process_renamed (h : t.Renamed ρ u) (hp : t.bare? pid = some p)
    (hq : u.bare? (ρ.pid pid) = some q) : p.Renamed ρ q := by
  obtain ⟨_, hfound, hrenamed⟩ := h.exists_process hp
  cases hq.symm.trans hfound
  exact hrenamed

/-- There are no other processes. -/
theorem exists_of_process {other : Pid} (h : t.Renamed ρ u) (ht : t.Lined) (hu : u.Lined)
    (hq : u.bare? other = some q) :
    ∃ pid p, ρ.pid pid = other ∧ t.bare? pid = some p ∧ p.Renamed ρ q := by
  -- who is in the second table is queued there, under the number of one in the first
  have hmem : other ∈ u.queue q.state := hu.queued.2 ⟨q, hq, rfl⟩
  rw [h.queue_eq, List.mem_map] at hmem
  obtain ⟨pid, hpid, rfl⟩ := hmem
  obtain ⟨p, hp, -⟩ := ht.queued.1 hpid
  exact ⟨pid, p, rfl, hp, h.process_renamed hp hq⟩

theorem lineOf_eq (h : ∀ pid, Option.Rel (Process.Renamed ρ) (t.bare? pid) (u.bare? (ρ.pid pid)))
    (pid : Pid) : u.lineOf (ρ.pid pid) = t.lineOf pid := by
  have hrel := h pid
  rw [lineOf, lineOf]
  generalize t.bare? pid = p?, u.bare? (ρ.pid pid) = q? at hrel
  cases hrel with
  | some hrel => exact hrel.line_eq
  | none => rfl

/-- **One process changes** on both sides, and leaves its queue for another one. Its place in that queue
is by line, which is the same for both. -/
theorem moved (h : t.Renamed ρ u) (hp' : p'.Renamed ρ q')
    (ht : t'.bare? = Function.update t.bare? pid (some p'))
    (hu : u'.bare? = Function.update u.bare? (ρ.pid pid) (some q'))
    (hqueue : t.Requeued t' pid source target) (hqueue' : u.Requeued u' (ρ.pid pid) source target) :
    t'.Renamed ρ u' := by
  -- the process itself, and the others as they were
  have hprocess : ∀ pid, Option.Rel (Process.Renamed ρ) (t'.bare? pid) (u'.bare? (ρ.pid pid)) := by
    intro other
    rw [ht, hu, Function.update_apply, Function.update_apply]
    simp only [ρ.pid_injective.eq_iff]
    split
    · exact .some hp'
    · exact h.process other
  refine ⟨?_, fun state => ?_, hprocess⟩
  · rw [hqueue'.order_eq, hqueue.order_eq, h.order_eq]
  · -- the queues of before, with the numbers mapped, go through the same change
    have hbefore : u.queue = fun state => (t.queue state).map ρ.pid := funext h.queue_eq
    rw [hqueue'.queue_eq, hqueue.queue_eq, h.order_eq, hbefore]
    exact requeue_map ρ.pid_injective (lineOf_eq hprocess)

theorem passTime (h : t.Renamed ρ u) (elapsed : Nat) :
    (t.passTime elapsed).Renamed ρ (u.passTime elapsed) where
  order_eq := h.order_eq
  queue_eq := h.queue_eq
  process pid := by
    have hrel := h.process pid
    rw [bare?_passTime, bare?_passTime]
    generalize t.bare? pid = p?, u.bare? (ρ.pid pid) = q? at hrel
    cases hrel with
    | none => exact .none
    | some hrel =>
      refine .some ?_
      simp only [hrel.state_eq]
      split
      · exact hrel.passTime elapsed
      · exact hrel

/-- The next disk read is complete at the same time. The least of the times left depends on
which there are, and not on the order in which they are found. -/
theorem nextCompletion?_eq (h : t.Renamed ρ u) (ht : t.Lined) (hu : u.Lined) :
    u.nextCompletion? = t.nextCompletion? := by
  -- who waits under one name waits as long under the other
  have hsame : u.waitTimes = t.waitTimes := by
    ext wait
    constructor
    · rintro ⟨other, q, hq, hblocked, rfl⟩
      obtain ⟨pid, p, -, hp, hrenamed⟩ := h.exists_of_process ht hu hq
      exact ⟨pid, p, hp, hrenamed.state_eq.symm.trans hblocked, hrenamed.wait_eq.symm⟩
    · rintro ⟨pid, p, hp, hblocked, rfl⟩
      obtain ⟨q, hq, hrenamed⟩ := h.exists_process hp
      exact ⟨ρ.pid pid, q, hq, hrenamed.state_eq.trans hblocked, hrenamed.wait_eq⟩
  refine Option.ext fun wait => ?_
  rw [nextCompletion?_eq_some_iff, nextCompletion?_eq_some_iff, hsame]

/-- The same disk reads are complete, in the same order, which is that of the queue. -/
theorem completed_eq (h : t.Renamed ρ u) (ht : t.Lined) (hu : u.Lined) :
    u.completed = t.completed.map ρ.pid := by
  -- complete is who has no time left, under either name
  have hiff : ∀ pid, ρ.pid pid ∈ u.completed ↔ pid ∈ t.completed := by
    intro pid
    rw [mem_completed_iff hu, mem_completed_iff ht]
    constructor
    · rintro ⟨q, hq, hblocked, hzero⟩
      obtain ⟨other, p, hpid, hp, hrenamed⟩ := h.exists_of_process ht hu hq
      obtain rfl := ρ.pid_injective hpid
      exact ⟨p, hp, hrenamed.state_eq.symm.trans hblocked, hrenamed.wait_eq.symm.trans hzero⟩
    · rintro ⟨p, hp, hblocked, hzero⟩
      obtain ⟨q, hq, hrenamed⟩ := h.exists_process hp
      exact ⟨q, hq, hrenamed.state_eq.trans hblocked, hrenamed.wait_eq.trans hzero⟩
  -- both lists are what is left of the queue
  have hfilter : ∀ v : ProcessTable, v.completed = (v.queue .blocked).filter (· ∈ v.completed) := by
    intro v
    refine List.filter_congr fun pid hpid => ?_
    rw [completed, Bool.eq_iff_iff, decide_eq_true_iff, List.mem_filter, and_iff_right hpid]
  rw [hfilter u, hfilter t, h.queue_eq, List.filter_map]
  exact congrArg (List.map ρ.pid) (List.filter_congr fun pid _ => decide_eq_decide.2 (hiff pid))

end Renamed

end ProcessTable

/-! ### Machines -/

namespace Machine

variable {m n m' n' : Machine} {now diskPenalty : Nat} {hit hit' : Bool}

/-- The second machine is the first one under other names. The journal is left out. -/
structure Renamed (ρ : Renaming) (m n : Machine) : Prop where
  /-- The processes have other numbers. -/
  processes : m.processes.Renamed ρ n.processes
  /-- The pages have other names. -/
  pages : PageMap.Renamed ρ m.processes.page? n.processes.page?
  /-- The policy knows them by these. -/
  policy : m.policy.Renamed ρ n.policy
  /-- The same was counted. -/
  stats_eq : n.stats = m.stats
  /-- The memory has the same size. -/
  size_eq : n.frames.size = m.frames.size

namespace Renamed

theorem frames_eq (h : m.Renamed ρ n) (hm : m.Sound c) (hn : n.Sound d) :
    n.frames = m.frames.rename ρ :=
  hm.coherent.residency.eq_rename hn.coherent.residency h.size_eq h.pages

/-- **A disk read is completed** on both sides. The page that comes in, the one that leaves and the
process that goes on are the same, under their names. -/
theorem resume (h : m.Renamed ρ n) (htraces : Survey.Renamed ρ c.records d.records)
    (hm : m.Sound c) (hn : n.Sound d)
    (hread : Resumed c now m m' pid p p') (hread' : Resumed d now n n' (ρ.pid pid) q q')
    (hsize : m'.frames.size = m.frames.size) (hsize' : n'.frames.size = n.frames.size) :
    m'.Renamed ρ n' := by
  have hframes := h.frames_eq hm hn
  have hp := h.processes.process_renamed hread.found hread'.found
  have hp' := hp.passes htraces hread.passes hread'.passes
  -- the same page comes in
  obtain ⟨ref, a, P, hpending, hintake, hleft⟩ := hread.intake
  obtain ⟨other, b, Q, hpending', hintake', hleft'⟩ := hread'.intake
  rw [hp.pending_eq, hpending] at hpending'
  cases hpending'
  have hcoherent := hn.coherent
  rw [hframes] at hintake' hcoherent
  obtain ⟨hpolicy, hpages⟩ := hintake.renamed hintake' hm.coherent hcoherent h.policy h.pages
  obtain ⟨hpolicy', hpages'⟩ := hleft.renamed hleft' hp'.pid_eq hp'.state_eq
    (hintake.follows hm.coherent) (hintake'.follows hcoherent) (hintake.placed hm.coherent)
    (hintake'.placed hcoherent) hpolicy hpages
  -- processes and totals, by what is known of each side
  refine ⟨?_, hpages', hpolicy', ?_, hsize'.trans (h.size_eq.trans hsize.symm)⟩
  · exact h.processes.moved hp' hread.bare_eq hread'.bare_eq hread.requeued
      (hp'.state_eq ▸ hread'.requeued)
  · rw [hread'.stats_eq, hread.stats_eq, hread'.evictions_eq, hread.evictions_eq, hframes, h.stats_eq]
    rfl

/-- **A reference is executed** on both sides. It is a hit for both or a miss for both, since the page is
in the same frame. -/
theorem refer (h : m.Renamed ρ n) (htraces : Survey.Renamed ρ c.records d.records)
    (hm : m.Sound c) (hn : n.Sound d)
    (hrefer : Referred c now diskPenalty m m' pid p p' record hit)
    (hrefer' : Referred d now diskPenalty n n' (ρ.pid pid) q q' record' hit')
    (hsize : m'.frames.size = m.frames.size) (hsize' : n'.frames.size = n.frames.size) :
    m'.Renamed ρ n' := by
  have hp := h.processes.process_renamed hrefer.found hrefer'.found
  -- the same page is met
  have hrecord := hrefer'.record_eq
  rw [hp.line_eq] at hrecord
  have hpage := htraces.page_eq hrefer.record_eq hrecord
  obtain ⟨page, a, a', P, hmeeting, hhit, hmissed, hused, hleft⟩ := hrefer.meeting
  obtain ⟨page', b, b', Q, hmeeting', hhit', hmissed', hused', hleft'⟩ := hrefer'.meeting
  rw [hpage] at hmeeting'
  have hfollows := hmeeting.follows hm.coherent.follows
  have hfollows' := hmeeting'.follows hn.coherent.follows
  obtain ⟨hframe, hpolicy, hpages⟩ :=
    hmeeting.renamed hmeeting' hm.coherent.follows hn.coherent.follows h.policy h.pages
  obtain rfl : hit' = hit := by rw [hhit, hhit', Page.isResident, Page.isResident, hframe]
  -- what is used, what is counted and how the policies stand afterwards, case by case
  obtain ⟨hp', htotals, hfollows₁, hfollows₁', hpolicy₁⟩ : p'.Renamed ρ q' ∧
      n'.stats.totals = m'.stats.totals ∧ a'.Follows m.frames.size P ∧ b'.Follows n.frames.size Q ∧
      a'.Renamed ρ b' := by
    have hstats : n.stats.totals = m.stats.totals := congrArg Stats.totals h.stats_eq
    rcases hrefer.outcome.eq_or with ⟨rfl, hpasses, htotals⟩ | ⟨rfl, rfl, htotals⟩
    -- both use the page
    · rcases hrefer'.outcome.eq_or with ⟨-, hpasses', htotals'⟩ | ⟨hnever, -⟩
      · obtain ⟨frame, hin⟩ := Page.isResident_iff.1 hhit.symm
        have hin' := hframe.trans hin
        have hknown : P record.page = some page := by rw [hmeeting.eq_update, Function.update_self]
        have hknown' : Q (ρ.page record.page) = some page' := by
          rw [hmeeting'.eq_update, Function.update_self]
        obtain ⟨_, haccess, -, hfollows₁⟩ := Policy.noteAccess_eq_ok hfollows hknown hin
        obtain ⟨_, haccess', -, hfollows₁'⟩ := Policy.noteAccess_eq_ok hfollows' hknown' hin'
        cases haccess.symm.trans (hused rfl).2
        cases haccess'.symm.trans (hused' rfl).2
        exact ⟨hp.passes htraces hpasses hpasses', by rw [htotals, htotals', hstats], hfollows₁,
          hfollows₁', hpolicy.noteAccess hfollows hfollows' hknown hknown' hin hin' haccess haccess'⟩
      · cases hnever
    -- both wait for it
    · rcases hrefer'.outcome.eq_or with ⟨hnever, -⟩ | ⟨-, rfl, htotals'⟩
      · cases hnever
      · obtain ⟨-, -, rfl⟩ := hmissed rfl
        obtain ⟨-, -, rfl⟩ := hmissed' rfl
        exact ⟨⟨hp.pid_eq, rfl, hp.line_eq, rfl, congrArg some hpage⟩, by rw [htotals, htotals', hstats],
          hfollows, hfollows', hpolicy⟩
  -- the process may have ended with it, and then its pages are dropped on both sides
  obtain ⟨hpolicy', hpages'⟩ := hleft.renamed hleft' hp'.pid_eq hp'.state_eq hfollows₁ hfollows₁'
    (hmeeting.placed hm.coherent.residency.placed) (hmeeting'.placed hn.coherent.residency.placed)
    hpolicy₁ hpages
  refine ⟨?_, hpages', hpolicy', ?_, hsize'.trans (h.size_eq.trans hsize.symm)⟩
  · exact h.processes.moved hp' hrefer.bare_eq hrefer'.bare_eq hrefer.requeued
      (hp'.state_eq ▸ hrefer'.requeued)
  · rw [hrefer'.stats_eq, hrefer.stats_eq, htotals, h.stats_eq]

/-- Both complete several disk reads, in the order of the queue, which is the same for both
under other numbers. -/
theorem foldlM_completeRead {due : List Pid} (h : m.Renamed ρ n)
    (htraces : Survey.Renamed ρ c.records d.records) (hm : m.Sound c) (hn : n.Sound d)
    (hfit : m.stats.totals.misses < 2 ^ 64) (hnodup : due.Nodup)
    (hdue : ∀ pid ∈ due, ∃ p, m.processes.bare? pid = some p ∧ p.state = .blocked)
    (hfold : due.foldlM (completeRead now) m = .ok m')
    (hfold' : (due.map ρ.pid).foldlM (completeRead now) n = .ok n') : m'.Renamed ρ n' := by
  -- who is due in the second machine is due in the first, and so is blocked
  have hdue' : ∀ pid ∈ due.map ρ.pid, ∃ q, n.processes.bare? pid = some q ∧ q.state = .blocked := by
    refine List.forall_mem_map.2 fun pid hpid => ?_
    obtain ⟨p, hp, hblocked⟩ := hdue pid hpid
    obtain ⟨q, hq, hrenamed⟩ := h.processes.exists_process hp
    exact ⟨q, hq, hrenamed.state_eq.trans hblocked⟩
  refine foldlM_completeRead_of_both ρ.pid_injective (fun {m n m' n' pid p q} h hread hread' => ?_) h
    hm hn hnodup hdue hdue' hfit (h.stats_eq.symm ▸ hfit) hfold hfold'
  obtain ⟨p', hresumed⟩ :=
    hread.before.resumed hread.found hread.blocked hread.misses_lt hread.complete_eq
  obtain ⟨q', hresumed'⟩ :=
    hread'.before.resumed hread'.found hread'.blocked hread'.misses_lt hread'.complete_eq
  exact h.resume htraces hread.before hread'.before hresumed hresumed' hread.size_eq
    hread'.size_eq

end Renamed

end Machine

end DemandPaging
