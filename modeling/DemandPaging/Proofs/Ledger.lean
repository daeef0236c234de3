import DemandPaging.Proofs.Turns
import Mathlib.Data.List.Perm.Subperm

/-!
# What has been executed

The journal of a machine tells which references were executed, in order. `Machine.Replays` compares it
with the trace: for each process, the references executed so far are those of its records that lie
below the line that it has reached, and each of them was counted as a hit or as a miss.

A machine replays its trace when all processes are ready to run at their first lines
(`replays_of_manned`). Completing disk reads keeps this (`Replays.resume`), since a process that comes
to its next record passes no other of its own over; executing a reference keeps it (`Replays.refer`),
since the record on the line of a runnable process is the first one that it has not executed.

From it follows how many references there can be: no more than there are records
(`Replays.length_le`), fewer while a process can run (`Replays.length_lt`), and as many when all are
done (`Replays.length_eq`).
-/

namespace DemandPaging

/-! ### Numbered entries -/

section

variable {α : Type} {l : List (Nat × α)} {k : Nat} {v : α}

/-- Of entries with ascending numbers those below a bound come first. -/
theorem filter_lt_prefix (h : l.Pairwise fun a b => a.1 < b.1) (k : Nat) :
    l.filter (·.1 < k) <+: l := by
  induction l with
  | nil => exact List.prefix_rfl
  | cons entry rest ih =>
    obtain ⟨hfirst, hrest⟩ := List.pairwise_cons.1 h
    by_cases hlt : entry.1 < k
    · rw [List.filter_cons, if_pos (decide_eq_true hlt)]
      exact (List.prefix_cons_inj entry).2 (ih hrest)
    -- all others lie above the first one
    · have hnone : (entry :: rest).filter (·.1 < k) = [] := by
        refine List.filter_eq_nil_iff.2 fun other hother => ?_
        rw [decide_eq_true_iff]
        rcases List.mem_cons.1 hother with rfl | hother
        · exact hlt
        · have := hfirst other hother
          omega
      rw [hnone]
      exact List.nil_prefix

/-- An entry comes right after those with lower numbers. -/
theorem filter_le_eq_concat (h : l.Pairwise fun a b => a.1 < b.1) (hmem : (k, v) ∈ l) :
    l.filter (·.1 ≤ k) = l.filter (·.1 < k) ++ [(k, v)] := by
  obtain ⟨before, after, rfl⟩ := List.append_of_mem hmem
  obtain ⟨-, hafter, hbefore⟩ := List.pairwise_append.1 h
  have hbelow : ∀ entry ∈ before, entry.1 < k := fun entry hentry =>
    hbefore entry hentry _ List.mem_cons_self
  have habove : ∀ entry ∈ after, k < entry.1 := (List.pairwise_cons.1 hafter).1
  have hle : before.filter (·.1 ≤ k) = before := List.filter_eq_self.2 fun entry hentry =>
    decide_eq_true (Nat.le_of_lt (hbelow entry hentry))
  have hlt : before.filter (·.1 < k) = before := List.filter_eq_self.2 fun entry hentry =>
    decide_eq_true (hbelow entry hentry)
  have hle' : after.filter (·.1 ≤ k) = [] := List.filter_eq_nil_iff.2 fun entry hentry => by
    have := habove entry hentry
    rw [decide_eq_true_iff]
    omega
  have hlt' : after.filter (·.1 < k) = [] := List.filter_eq_nil_iff.2 fun entry hentry => by
    have := habove entry hentry
    rw [decide_eq_true_iff]
    omega
  rw [List.filter_append, List.filter_append, hle, hlt, List.filter_cons, List.filter_cons,
    if_pos (decide_eq_true (Nat.le_refl k)),
    if_neg (by rw [decide_eq_true_iff]; exact Nat.lt_irrefl k), hle', hlt', List.append_nil]

end

/-! ### The references of a trace -/

namespace Survey

variable {records : List TraceRecord} {line : Nat} {page : PageRef}

/-- What a trace asks for: the line and the page of each record, in order. Hits and misses are
not in it, since they depend on the policy. -/
def references (records : List TraceRecord) : List (Nat × PageRef) :=
  (records.zipIdx 1).map fun entry => (entry.2, entry.1.page)

theorem mem_references_iff :
    (line, page) ∈ references records ↔
      ∃ record, record? records line = some record ∧ record.page = page := by
  rw [references, List.mem_map]
  constructor
  · rintro ⟨⟨record, number⟩, hmem, heq⟩
    obtain ⟨rfl, rfl⟩ := Prod.mk.inj heq
    obtain ⟨hpos, hrecord⟩ := List.mk_mem_zipIdx_iff_le_and_getElem?_sub.1 hmem
    obtain ⟨index, rfl⟩ := Nat.exists_eq_add_of_le hpos
    rw [Nat.add_comm 1 index]
    rw [Nat.add_sub_cancel_left] at hrecord
    exact ⟨record, hrecord, rfl⟩
  · rintro ⟨record, hrecord, rfl⟩
    refine ⟨(record, line), List.mk_mem_zipIdx_iff_le_and_getElem?_sub.2 ?_, rfl⟩
    cases line with
    | zero => cases hrecord
    | succ index => exact ⟨Nat.le_add_left 1 index, hrecord⟩

theorem pairwise_references : (references records).Pairwise fun a b => a.1 < b.1 := by
  have hnumbers : (references records).map Prod.fst = List.range' 1 records.length := by
    rw [references, List.map_map, ← List.zipIdx_map_snd]
    rfl
  rw [← List.pairwise_map (f := Prod.fst) (R := (· < ·)), hnumbers]
  exact List.pairwise_lt_range'

theorem length_references : (references records).length = records.length := by
  rw [references, List.length_map, List.length_zipIdx]

end Survey

/-- Those of some numbered references that are references of one process. Their order is kept,
which for one process is that of its lines. -/
def ofProcess (pid : Pid) (references : List (Nat × PageRef)) : List (Nat × PageRef) :=
  references.filter (·.2.pid = pid)

section

variable {references others : List (Nat × PageRef)} {entry : Nat × PageRef} {pid : Pid}

theorem count_ofProcess (references : List (Nat × PageRef)) :
    (ofProcess entry.2.pid references).count entry = references.count entry :=
  List.count_filter (decide_eq_true rfl)

/-- References that agree for each process agree but for the order of the processes. -/
theorem perm_of_ofProcess (h : ∀ pid, ofProcess pid references = ofProcess pid others) :
    references.Perm others := by
  refine List.perm_iff_count.2 fun entry => ?_
  rw [← count_ofProcess references, h, count_ofProcess]

theorem count_le_of_ofProcess (h : ∀ pid, ofProcess pid references <+: ofProcess pid others) :
    references.count entry ≤ others.count entry := by
  rw [← count_ofProcess references, ← count_ofProcess others]
  exact (h _).sublist.count_le entry

end

namespace Process

variable {chart : Chart} {p p' : Process} {line : Nat} {record : TraceRecord}

/-- The line below which a process has executed its records. -/
def reached (p : Process) : Nat := if p.state = .runnable then p.line else p.line + 1

/-- A process that passes a record passes no other record of its own over. -/
theorem Passes.lt_reached_iff (h : p.Passes chart p') (hrecord : chart.record? line = some record)
    (hpid : record.pid = p.pid) : line < p'.reached ↔ line ≤ p.line := by
  cases h with
  | @on p₁ h =>
    show line < p₁.line ↔ line ≤ p.line
    constructor
    · intro hlt
      refine Nat.le_of_not_lt fun hlater => ?_
      exact absurd (h.nearest hrecord hpid hlater) (Nat.not_le_of_lt hlt)
    -- it goes on to a later line
    · exact fun hle => Nat.lt_of_le_of_lt hle h.later
  | off h => exact Nat.lt_succ_iff

end Process

namespace Machine

variable {chart : Chart} {m m' : Machine} {pid : Pid} {q q' : Process} {line : Nat}
  {record : TraceRecord}

/-- The line and the page of each reference executed so far, in order. The order is that of
time, and of the lines only within one process. -/
def executed (m : Machine) : List (Nat × PageRef) := m.references.map fun r => (r.line, r.page)

/-- The line below which a process has executed its records; without such a process there are none. -/
def reached (m : Machine) (pid : Pid) : Nat := (m.processes.bare? pid).elim 0 Process.reached

theorem reached_of_bare (h : m.processes.bare? pid = some q) : m.reached pid = q.reached := by
  rw [reached, h]
  rfl

/-- What has been executed is what the trace asks for, as far as each process has got. It says
of each process how far that is, and nothing of the order between them. -/
structure Replays (chart : Chart) (m : Machine) : Prop where
  /-- Each record has a process. -/
  present : ∀ {line record}, chart.record? line = some record →
    ∃ p, m.processes.bare? record.pid = some p
  /-- A process has executed its records below the line that it has reached. -/
  executed_eq : ∀ pid, ofProcess pid m.executed =
    (ofProcess pid (Survey.references chart.records)).filter (·.1 < m.reached pid)
  /-- The hits are counted. -/
  hits_eq : m.stats.totals.hits = m.references.countP (·.hit)
  /-- The other references are counted as misses. -/
  misses_eq : m.stats.totals.misses = m.references.countP (!·.hit)

/-- Before anything was executed, every process is at its first line. There are no records of it
below that line, so nothing is what it should have executed. -/
theorem replays_of_manned (h : Manned chart m.processes) (hreferences : m.references = [])
    (htotals : m.stats.totals = {}) : m.Replays chart where
  present := h.present
  executed_eq pid := by
    rw [executed, hreferences]
    refine (List.filter_eq_nil_iff.2 ?_).symm
    -- all its records lie on its first line or after it
    rintro ⟨line, page⟩ hentry
    obtain ⟨hmem, hpid⟩ := List.mem_filter.1 hentry
    obtain ⟨record, hrecord, rfl⟩ := Survey.mem_references_iff.1 hmem
    obtain rfl : record.pid = pid := of_decide_eq_true hpid
    obtain ⟨p, hp⟩ := h.present hrecord
    have hfirst := h.first hp hrecord rfl
    rw [reached_of_bare hp, Process.reached, if_pos (h.ready hp), decide_eq_true_iff]
    exact Nat.not_lt_of_le hfirst
  hits_eq := by
    rw [htotals, hreferences]
    rfl
  misses_eq := by
    rw [htotals, hreferences]
    rfl

namespace Replays

/-- Only the lines matter that the processes have reached, and of them only those with a record.
So a change that moves no process past a record of its own keeps what is said. -/
theorem congr (h : m.Replays chart) (hreferences : m'.references = m.references)
    (hpresent : ∀ pid, (m'.processes.bare? pid).isSome = (m.processes.bare? pid).isSome)
    (hreached : ∀ {line record}, chart.record? line = some record →
      (line < m'.reached record.pid ↔ line < m.reached record.pid))
    (hhits : m'.stats.totals.hits = m.stats.totals.hits)
    (hmisses : m'.stats.totals.misses = m.stats.totals.misses) : m'.Replays chart where
  present hrecord := by
    obtain ⟨p, hp⟩ := h.present hrecord
    refine Option.isSome_iff_exists.1 ?_
    rw [hpresent, hp, Option.isSome_some]
  executed_eq pid := by
    rw [executed, hreferences]
    -- the two filters let the same entries through, since each entry is that of a record
    refine (h.executed_eq pid).trans (List.filter_congr ?_)
    rintro ⟨line, page⟩ hentry
    obtain ⟨hmem, hpid⟩ := List.mem_filter.1 hentry
    obtain ⟨record, hrecord, rfl⟩ := Survey.mem_references_iff.1 hmem
    obtain rfl : record.pid = pid := of_decide_eq_true hpid
    exact (decide_eq_decide.2 (hreached hrecord)).symm
  hits_eq := by rw [hhits, hreferences, h.hits_eq]
  misses_eq := by rw [hmisses, hreferences, h.misses_eq]

/-- **Resuming.** Processes whose disk reads are completed come to their next records. They have
reached the line after that of the fault before, and no record of theirs lies between. -/
theorem resume (h : m.Replays chart) (hlined : m.processes.Lined)
    (hreferences : m'.references = m.references)
    (hresumed : ∀ pid, m'.processes.bare? pid = m.processes.bare? pid ∨
      ∃ q q', m.processes.bare? pid = some q ∧ q.state = .blocked ∧ q.Passes chart q' ∧
        m'.processes.bare? pid = some q')
    (hhits : m'.stats.totals.hits = m.stats.totals.hits)
    (hmisses : m'.stats.totals.misses = m.stats.totals.misses) : m'.Replays chart := by
  refine h.congr hreferences (fun pid => ?_) (fun {line record} hrecord => ?_) hhits hmisses
  · rcases hresumed pid with hsame | ⟨q, q', hq, -, -, hq'⟩
    · rw [hsame]
    · rw [hq, hq', Option.isSome_some, Option.isSome_some]
  · rcases hresumed record.pid with hsame | ⟨q, q', hq, hblocked, hpasses, hq'⟩
    · rw [reached, hsame]
      exact Iff.rfl
    -- a blocked process has executed the record on its line already
    · rw [reached_of_bare hq', reached_of_bare hq,
        hpasses.lt_reached_iff hrecord (hlined.keyed hq).symm, Process.reached,
        if_neg (by rw [hblocked]; decide), Nat.lt_succ_iff]

/-- **One reference more.** A runnable process executes the record on its line, and that line is the
last one that it has then executed. -/
theorem refer (h : m.Replays chart) (hlined : m.processes.Lined)
    (hq : m.processes.bare? pid = some q) (hrunnable : q.state = .runnable)
    (hrecord : chart.record? q.line = some record) (hrecordPid : record.pid = pid)
    {diskPenalty : Nat} {hit : Bool} {totals : Totals} (htotals : m'.stats.totals = totals)
    (houtcome : Outcome chart diskPenalty record q m.stats.totals hit q' totals)
    (hbare : m'.processes.bare? = Function.update m.processes.bare? pid (some q'))
    (hreferences : m'.references =
      m.references ++ [{ line := q.line, page := record.page, hit }]) : m'.Replays chart := by
  have hreached : ∀ {line found}, chart.record? line = some found → found.pid = pid →
      (line < q'.reached ↔ line ≤ q.line) := by
    intro line found hfound hpid
    cases houtcome with
    -- after a hit the process stands at its next record, and after a miss it stays on this one
    | hit hpasses => exact hpasses.lt_reached_iff hfound (hpid.trans (hlined.keyed hq).symm)
    | miss => exact Nat.lt_succ_iff
  have hexecuted : m'.executed = m.executed ++ [(q.line, record.page)] := by
    rw [executed, hreferences, List.map_append]
    rfl
  refine ⟨fun {line found} hfound => ?_, fun other => ?_, ?_, ?_⟩
  -- no process is lost
  · rw [hbare, Function.update_apply]
    split
    · exact ⟨q', rfl⟩
    · exact h.present hfound
  · rw [hexecuted, ofProcess, List.filter_append]
    by_cases hother : other = pid
    · subst hother
      -- the process itself: the entry comes right after what it had executed
      have hself : m'.processes.bare? other = some q' := by rw [hbare, Function.update_self]
      have hmem : (q.line, record.page) ∈ ofProcess other (Survey.references chart.records) :=
        List.mem_filter.2 ⟨Survey.mem_references_iff.2 ⟨record, hrecord, rfl⟩,
          decide_eq_true hrecordPid⟩
      have hsingle : ofProcess other [(q.line, record.page)] = [(q.line, record.page)] :=
        List.filter_eq_self.2 fun entry hentry => by
          rw [List.mem_singleton.1 hentry]
          exact decide_eq_true hrecordPid
      calc
        ofProcess other m.executed ++ ofProcess other [(q.line, record.page)]
        _ = (ofProcess other (Survey.references chart.records)).filter (·.1 < q.line) ++
            [(q.line, record.page)] := by
          rw [h.executed_eq, reached_of_bare hq, Process.reached, if_pos hrunnable, hsingle]
        _ = (ofProcess other (Survey.references chart.records)).filter (·.1 ≤ q.line) :=
          (filter_le_eq_concat (Survey.pairwise_references.filter _) hmem).symm
        _ = (ofProcess other (Survey.references chart.records)).filter (·.1 < m'.reached other) := by
          refine List.filter_congr ?_
          rintro ⟨line, page⟩ hentry
          obtain ⟨hin, hpid⟩ := List.mem_filter.1 hentry
          obtain ⟨found, hfound, rfl⟩ := Survey.mem_references_iff.1 hin
          rw [reached_of_bare hself]
          exact (decide_eq_decide.2 (hreached hfound (of_decide_eq_true hpid))).symm
    -- of any other process nothing was executed, and it stays where it is
    · have hsame : m'.reached other = m.reached other := by
        rw [reached, hbare, Function.update_of_ne hother]
        rfl
      have hnone : ofProcess other [(q.line, record.page)] = [] :=
        List.filter_eq_nil_iff.2 fun entry hentry => by
          rw [List.mem_singleton.1 hentry, decide_eq_true_iff]
          exact fun heq => hother (heq.symm.trans hrecordPid)
      rw [hsame, ← h.executed_eq]
      show ofProcess other m.executed ++ ofProcess other [(q.line, record.page)] = _
      rw [hnone, List.append_nil]
  · rw [htotals, hreferences, List.countP_append]
    cases houtcome with
    | hit hpasses => exact congrArg (· + 1) h.hits_eq
    | miss => exact h.hits_eq
  · rw [htotals, hreferences, List.countP_append]
    cases houtcome with
    | hit hpasses => exact h.misses_eq
    | miss => exact congrArg (· + 1) h.misses_eq

/-! ### How much has been executed -/

theorem hits_add_misses (h : m.Replays chart) :
    m.stats.totals.hits + m.stats.totals.misses = m.executed.length := by
  rw [h.hits_eq, h.misses_eq, executed, List.length_map]
  have hsplit := List.length_eq_countP_add_countP Reference.hit (l := m.references)
  simpa using hsplit.symm

theorem executed_prefix (h : m.Replays chart) (pid : Pid) :
    ofProcess pid m.executed <+: ofProcess pid (Survey.references chart.records) := by
  rw [h.executed_eq]
  exact filter_lt_prefix (Survey.pairwise_references.filter _) _

/-- A reference that was executed is one of the trace. -/
theorem mem_references {entry : Nat × PageRef} (h : m.Replays chart) (hmem : entry ∈ m.executed) :
    entry ∈ Survey.references chart.records := by
  have hown : entry ∈ ofProcess entry.2.pid m.executed :=
    List.mem_filter.2 ⟨hmem, decide_eq_true rfl⟩
  exact List.mem_of_mem_filter ((h.executed_prefix _).subset hown)

/-- A reference of a process was executed if the process has passed its line. -/
theorem mem_executed_iff {page : PageRef} (h : m.Replays chart)
    (hq : m.processes.bare? page.pid = some q) : (line, page) ∈ m.executed ↔
      (line, page) ∈ Survey.references chart.records ∧ line < q.reached := by
  have hown : ∀ {l : List (Nat × PageRef)}, (line, page) ∈ l ↔ (line, page) ∈ ofProcess page.pid l := by
    intro l
    rw [ofProcess, List.mem_filter, decide_eq_true_iff, and_iff_left rfl]
  rw [hown, h.executed_eq, reached_of_bare hq, List.mem_filter, ← hown, decide_eq_true_iff]

/-- A process that is done has executed all its records. -/
theorem executed_of_finished (h : m.Replays chart) (hq : m.processes.bare? pid = some q)
    (hlined : m.processes.Lined) (hstands : q.Stands chart) (hfinished : q.state = .finished) :
    ofProcess pid m.executed = ofProcess pid (Survey.references chart.records) := by
  rw [h.executed_eq]
  refine List.filter_eq_self.2 ?_
  rintro ⟨line, page⟩ hentry
  obtain ⟨hmem, hpid⟩ := List.mem_filter.1 hentry
  obtain ⟨record, hrecord, rfl⟩ := Survey.mem_references_iff.1 hmem
  -- none of its records lies beyond its line
  have hlast := (hstands.finished hfinished).2.last hrecord
    ((of_decide_eq_true hpid).trans (hlined.keyed hq).symm)
  rw [reached_of_bare hq, Process.reached, if_neg (by rw [hfinished]; decide), decide_eq_true_iff]
  exact Nat.lt_succ_of_le hlast

theorem length_le (h : m.Replays chart) : m.executed.length ≤ chart.records.length := by
  have hsubperm : m.executed.Subperm (Survey.references chart.records) :=
    -- no entry occurs more often than in the trace, since each belongs to one process
    List.subperm_ext_iff.2 fun entry _ => count_le_of_ofProcess h.executed_prefix
  rw [← Survey.length_references]
  exact hsubperm.length_le

/-- While a process can run, some record has not been executed: the one on its line. All that
was executed are others, each once. -/
theorem length_lt (h : m.Replays chart) (hq : m.processes.bare? pid = some q)
    (hrunnable : q.state = .runnable) (hrecord : chart.record? q.line = some record)
    (hrecordPid : record.pid = pid) : m.executed.length < chart.records.length := by
  let entry := (q.line, record.page)
  have hmem : entry ∈ Survey.references chart.records :=
    Survey.mem_references_iff.2 ⟨record, hrecord, rfl⟩
  have hnew : entry ∉ m.executed := by
    intro hin
    have howned : entry ∈ ofProcess pid m.executed :=
      List.mem_filter.2 ⟨hin, decide_eq_true hrecordPid⟩
    -- only what lies below its line has been executed
    rw [h.executed_eq, reached_of_bare hq, Process.reached, if_pos hrunnable] at howned
    exact Nat.lt_irrefl _ (of_decide_eq_true (List.mem_filter.1 howned).2)
  -- so there is room for one entry more
  have hsubperm : (entry :: m.executed).Subperm (Survey.references chart.records) := by
    refine List.subperm_ext_iff.2 fun other _ => ?_
    rw [List.count_cons]
    split
    · next heq =>
      obtain rfl : entry = other := beq_iff_eq.1 heq
      rw [List.count_eq_zero_of_not_mem hnew]
      exact List.count_pos_iff.2 hmem
    · exact count_le_of_ofProcess h.executed_prefix
  rw [← Survey.length_references]
  exact hsubperm.length_le

/-- When every process is done, each has executed its own records, all of them and in their order. That
holds also of a process that the trace does not have: it has no records. -/
theorem ofProcess_executed (h : m.Replays chart) (hlined : m.processes.Lined)
    (hstands : ∀ {pid p}, m.processes.bare? pid = some p → p.Stands chart)
    (hfinished : ∀ {pid p}, m.processes.bare? pid = some p → p.state = .finished) (pid : Pid) :
    ofProcess pid m.executed = ofProcess pid (Survey.references chart.records) := by
  cases hq : m.processes.bare? pid with
  | some q => exact h.executed_of_finished hq hlined (hstands hq) (hfinished hq)
  -- without a process there is no record either
  | none =>
    have hnone : ofProcess pid (Survey.references chart.records) = [] := by
      refine List.filter_eq_nil_iff.2 ?_
      rintro ⟨line, page⟩ hmem hpid
      obtain ⟨record, hrecord, rfl⟩ := Survey.mem_references_iff.1 hmem
      obtain ⟨p, hp⟩ := h.present hrecord
      obtain rfl : record.pid = pid := of_decide_eq_true hpid
      cases hq.symm.trans hp
    rw [h.executed_eq, hnone, List.filter_nil]

/-- When every process is done the records were executed, each once. In which order the processes took
turns does not matter for that. -/
theorem executed_perm (h : m.Replays chart) (hlined : m.processes.Lined)
    (hstands : ∀ {pid p}, m.processes.bare? pid = some p → p.Stands chart)
    (hfinished : ∀ {pid p}, m.processes.bare? pid = some p → p.state = .finished) :
    m.executed.Perm (Survey.references chart.records) :=
  perm_of_ofProcess (h.ofProcess_executed hlined hstands hfinished)

/-- **All records.** When every process is done, each record has been executed. -/
theorem length_eq (h : m.Replays chart) (hlined : m.processes.Lined)
    (hstands : ∀ {pid p}, m.processes.bare? pid = some p → p.Stands chart)
    (hfinished : ∀ {pid p}, m.processes.bare? pid = some p → p.state = .finished) :
    m.executed.length = chart.records.length := by
  rw [← Survey.length_references]
  exact (h.executed_perm hlined hstands hfinished).length_eq

end Replays

end Machine

end DemandPaging
