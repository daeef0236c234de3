import DemandPaging.Proofs.Effects
import DemandPaging.Proofs.Orders
import DemandPaging.Proofs.Replay
import Mathlib.Data.List.DropRight

/-!
# Pages that a list retains

The policies that keep a list differ in what they hear of, and in what they keep of it. The one that
evicts what was unused for longest hears of each use of a page, and keeps the last distinct ones; the one
that evicts what came in first hears of the misses only, and keeps the last ones of these. For a process
that has the memory to itself the rest of the argument is the same for both, so it is made once here, for
any such rule (`Retention`).

The list of the policy cannot be told from the references alone as long as a page is waited for: the
reference is already executed, but the policy hears of it when the page is there. So what is preserved has
three clauses that hold one another up (`Machine.Retains`): the list has what the rule keeps of the pages
heard of, but for one that is waited for; the page that is waited for is the last one; and each reference
was a hit exactly if the rule kept its page then. A disk read needs the second clause to give the first, a
reference the first clause to give the third.
-/

namespace DemandPaging

/-! ### The last elements of a list -/

section
variable {α : Type} {l before after : List α} {x : α} {k i : Nat}

theorem exists_last_occurrence (h : x ∈ l) :
    ∃ before after, l = before ++ x :: after ∧ x ∉ after := by
  -- the last occurrence is the first one from the other end
  obtain ⟨after, before, hsplit, hnew⟩ := List.eq_append_cons_of_mem (List.mem_reverse.2 h)
  refine ⟨before.reverse, after.reverse, ?_, List.mem_reverse.not.2 hnew⟩
  rw [← List.reverse_reverse l, hsplit, List.reverse_append, List.reverse_cons, List.append_assoc]
  rfl

/-- An element is among the last ones if there are few after it. With its last occurrence told
by the split, this decides for the whole list. -/
theorem mem_rtake_split_iff (hnew : x ∉ after) :
    x ∈ (before ++ x :: after).rtake k ↔ after.length < k := by
  rw [List.rtake, List.length_append, List.length_cons]
  constructor
  · intro hmem
    by_contra hle
    -- if there are many, all that is left is in the part after it
    have hcount : before.length + (after.length + 1) - k =
        before.length + (1 + (after.length - k)) := by omega
    rw [hcount, List.drop_length_add_append, Nat.add_comm 1, List.drop_succ_cons] at hmem
    exact hnew (List.mem_of_mem_drop hmem)
  · intro hlt
    rw [List.drop_append_of_le_length (by omega)]
    exact List.mem_append_right _ List.mem_cons_self

/-- What is before a place and what is at it are a first part of the list. -/
theorem take_concat_isPrefix (h : l[i]? = some x) : l.take i ++ [x] <+: l := by
  obtain ⟨hlt, rfl⟩ := List.getElem?_eq_some_iff.1 h
  rw [List.take_append_getElem hlt]
  exact List.take_prefix _ _

end

/-! ### Pages that come into memory -/

section
variable {kind : PolicyKind} {frames : FrameTable} {policy policy' : Policy} {pages pages' : PageMap}
  {list : PageList} {ref : PageRef} {page : Page}

/-- **A page comes in.** The list has it at the end, and its first one has left if all frames were in
use. Whether they were can be told from the list: there is a free frame exactly if it is shorter than the
memory. -/
theorem Intake.refs_eq (h : Intake frames policy pages ref policy' pages')
    (hcoherent : Coherent frames policy pages) (hkeeps : policy.Keeps kind list) :
    ref ∉ list.refs ∧ ∃ list', policy'.Keeps kind list' ∧
      list'.refs = (if list.refs.length < frames.size then list.refs else list.refs.tail) ++ [ref] := by
  have hfollows := hkeeps.follows hcoherent.follows
  cases h with
  | load hpage hout hroom hkept hnote =>
    -- the list has the pages in memory only
    have hnew : ref ∉ list.refs := by
      rw [hfollows.mem_refs_iff]
      rintro ⟨frame, hframe⟩
      rw [PageMap.frame?_of_page hpage, hout] at hframe
      cases hframe
    refine ⟨hnew, ?_⟩
    have hfollows₁ := hroom.follows hcoherent
    cases hroom with
    -- a frame was free, and the list stays as it is but for the page
    | free hfree hframe =>
      obtain ⟨list', hkeeps', hrefs'⟩ := hkeeps.noteLoad hfollows hpage hnote
      have hlt := hcoherent.residency.length_lt_of_hasFree hfree hfollows.nodup_refs
        fun ref hmem => hfollows.mem_refs_iff.1 hmem
      exact ⟨list', hkeeps', by rw [if_pos hlt, hrefs']⟩
    -- the first page of the list had to leave
    | taken hfull hvictim howner hframe =>
      obtain ⟨list₁, oldest, hkeeps₁, hfirst, -⟩ := hkeeps.victim hfollows hvictim
      obtain ⟨list', hkeeps', hrefs'⟩ := hkeeps₁.noteLoad (hkeeps₁.follows hfollows₁) hkept hnote
      have hle := hcoherent.residency.size_le_of_full hfull
        fun ref frame hframe => hfollows.mem_refs_iff.2 ⟨frame, hframe⟩
      exact ⟨list', hkeeps', by rw [if_neg (Nat.not_lt.2 hle), hrefs', hfirst, List.tail_cons]⟩

/-- **A page is met.** That leaves the list as it is, and the page is in it if it is in memory.
A new page has a slot from then on, but is not queued. -/
theorem Meeting.refs_eq (h : Meeting policy pages ref page policy' pages')
    (hcoherent : Coherent frames policy pages) (hkeeps : policy.Keeps kind list) :
    ∃ list', policy'.Keeps kind list' ∧ list'.refs = list.refs ∧ list'.Follows pages' ∧
      pages' ref = some page ∧ (page.isResident = true ↔ ref ∈ list.refs) := by
  have hfollows := hkeeps.follows hcoherent.follows
  cases h with
  | known hpage =>
    refine ⟨list, hkeeps, rfl, hfollows, hpage, ?_⟩
    rw [hfollows.mem_refs_iff, PageMap.frame?_of_page hpage, Page.isResident_iff]
  -- a new page gets a place of its own, which is not linked into the list yet
  | new hnew =>
    obtain ⟨list', hkeeps', hrefs'⟩ := hkeeps.track hfollows ref
    have hfollows' := hkeeps'.follows (Policy.track_follows hcoherent.follows hnew)
    refine ⟨list', hkeeps', hrefs', hfollows', Function.update_self .., ?_⟩
    rw [hfollows.mem_refs_iff, PageMap.frame?, hnew, Page.isResident_iff]
    constructor <;> rintro ⟨frame, hframe⟩ <;> cases hframe

end

/-! ### One process -/

namespace Machine

variable {chart : Chart} {m : Machine} {pid own : Pid} {q q' : Process} {records : List TraceRecord}
  {r : Reference} {i : Nat}

/-- If all records are of one process, there is no other. -/
theorem Sound.pid_eq (h : m.Sound chart) (hsingle : ∀ record ∈ chart.records, record.pid = own)
    (hq : m.processes.bare? pid = some q) : pid = own := by
  obtain ⟨record, hrecord, hpid⟩ := (h.stands hq).exists_record
  rw [← h.lined.keyed hq, ← hpid]
  exact hsingle record (Survey.mem_of_record? hrecord)

theorem Sound.eq_of_single {other : Pid} (h : m.Sound chart)
    (hsingle : ∀ record ∈ chart.records, record.pid = own) (hq : m.processes.bare? pid = some q)
    (hq' : m.processes.bare? other = some q') : q' = q := by
  rw [h.pid_eq hsingle hq', ← h.pid_eq hsingle hq, hq] at hq'
  exact (Option.some.inj hq').symm

/-- A process that is alone executes its records one after the other. What it has executed is a first part
of its own records, and these are all that there are. -/
theorem Replays.executed_prefix_of_single (h : m.Replays chart)
    (hsingle : ∀ record ∈ chart.records, record.pid = own) :
    m.executed <+: Survey.references chart.records := by
  have hall : ∀ entry ∈ Survey.references chart.records, entry.2.pid = own := by
    rintro ⟨line, page⟩ hmem
    obtain ⟨record, hrecord, rfl⟩ := Survey.mem_references_iff.1 hmem
    exact hsingle record (Survey.mem_of_record? hrecord)
  have hexecuted : ∀ entry ∈ m.executed, entry.2.pid = own :=
    fun entry hmem => hall entry (h.mem_references hmem)
  have hprefix := h.executed_prefix own
  rwa [ofProcess, ofProcess, List.filter_eq_self.2 fun entry hmem => decide_eq_true (hexecuted entry hmem),
    List.filter_eq_self.2 fun entry hmem => decide_eq_true (hall entry hmem)] at hprefix

/-- If the first records were executed one after the other, the reference at a place is that of the
record at this place. -/
theorem record_of_reference (hexecuted : m.executed <+: Survey.references records)
    (hr : m.references[i]? = some r) :
    ∃ record, records[i]? = some record ∧ r.line = i + 1 ∧ r.page = record.page := by
  have hentry : m.executed[i]? = some (r.line, r.page) := by
    rw [executed, List.getElem?_map, hr]
    rfl
  obtain ⟨hlt, hvalue⟩ := List.getElem?_eq_some_iff.1 hentry
  have hsame := List.prefix_iff_getElem?.1 hexecuted i hlt
  -- records are numbered from one, places from zero
  rw [hvalue, Survey.references, List.getElem?_map, List.getElem?_zipIdx, Option.map_eq_some_iff] at hsame
  obtain ⟨_, hentry, heq⟩ := hsame
  obtain ⟨record, hrecord, rfl⟩ := Option.map_eq_some_iff.1 hentry
  obtain ⟨hline, hpage⟩ := Prod.mk.inj heq
  exact ⟨record, hrecord, hline.symm.trans (Nat.add_comm 1 i), hpage.symm⟩

end Machine

/-! ### What is heard of and what is kept -/

/-- A rule that tells from the references what the list of a policy has, in a memory of `k` frames. It says
which page a reference makes the policy hear of, and which of the pages that it has heard of it keeps. -/
structure Retention (kind : PolicyKind) (k : Nat) where
  /-- The page that the policy hears of with a reference. -/
  heard? : Reference → Option PageRef
  /-- Of the pages heard of, in their order, those that are kept, in the order of the list. -/
  kept : List PageRef → List PageRef
  /-- It always hears of a miss, as the page is then loaded. -/
  heard_of_miss : ∀ {r}, r.hit = false → heard? r = some r.page
  /-- Before it has heard of anything, nothing is kept. -/
  kept_nil : kept [] = []
  /-- A page that comes in is the newest one, and the oldest one leaves if there is no room. -/
  kept_concat : ∀ {uses ref}, ref ∉ kept uses → kept (uses ++ [ref]) =
    (if (kept uses).length < k then kept uses else (kept uses).tail) ++ [ref]
  /-- A hit makes the page the newest one, unless the order is that of arrival. -/
  kept_of_hit : ∀ {uses r}, r.hit = true → r.page ∈ kept uses → kept (uses ++ (heard? r).toList) =
    if kind = .lru then (kept uses).erase r.page ++ [r.page] else kept uses

namespace Machine

variable {chart : Chart} {config : ValidConfig} {m m' : Machine} {pid own : Pid} {q q' : Process}
  {kind : PolicyKind} {k : Nat} {rule : Retention kind k}

/-- The pages that the references so far are about, as far as the policy hears of them, in the
order of the references. For one rule these are all of them, for the other those that were
missed. -/
def history (rule : Retention kind k) (m : Machine) : List PageRef := m.references.filterMap rule.heard?

/-- The pages that the policy has heard of: all of them, but for the last one while it is waited
for. It is told of that one when the disk read is complete. -/
def heard (rule : Retention kind k) (m : Machine) (q : Process) : List PageRef :=
  if q.state = .blocked then (m.history rule).dropLast else m.history rule

/-- What the rule keeps is in memory, and was at each reference. The last clause is what a
result is read off; the first two are there so that a move keeps it. -/
structure Retains (rule : Retention kind k) (m : Machine) : Prop where
  /-- The list has what is kept of the pages heard of. -/
  list_eq : ∀ {pid q}, m.processes.bare? pid = some q → q.state ≠ .finished →
    ∃ list, m.policy.Keeps kind list ∧ list.refs = rule.kept (m.heard rule q)
  /-- The page that is waited for is the last one of the history. -/
  awaited : ∀ {pid q ref}, m.processes.bare? pid = some q → q.pending? = some ref →
    (m.history rule).getLast? = some ref
  /-- A reference was a hit if its page was kept. -/
  judged : ∀ {before r}, before ++ [r] <+: m.references →
    (r.hit = true ↔ r.page ∈ rule.kept (before.filterMap rule.heard?))

/-- Time that passes takes a process nearer to its page, but changes neither its state nor the
list. So what the policy has heard of stays the same. -/
theorem Retains.wait {stats : Stats} {elapsed : Nat} (h : m.Retains rule) :
    Retains rule { m with stats, processes := m.processes.passTime elapsed } where
  list_eq {pid q} hq hstate := by
    obtain ⟨p, hp, heq, -⟩ := ProcessTable.exists_of_bare?_passTime hq
    have hsame : q.state = p.state := (congrArg Process.state heq :)
    obtain ⟨list, hkeeps, hrefs⟩ := h.list_eq hp (hsame ▸ hstate)
    refine ⟨list, hkeeps, ?_⟩
    rw [hrefs, heard, heard, hsame]
    rfl
  awaited {pid q ref} hq hpending := by
    obtain ⟨p, hp, heq, -⟩ := ProcessTable.exists_of_bare?_passTime hq
    have hsame : q.pending? = p.pending? := (congrArg Process.pending? heq :)
    exact h.awaited hp (hsame ▸ hpending)
  judged := h.judged

/-- **A disk read.** The page that was waited for comes into the list, and it is the one that was held
back from the history. So the list has what is kept of the whole history again. -/
theorem Retains.read (h : m.Retains rule) (hsound : m.Sound chart) (hsound' : m'.Sound chart)
    (hsize : m.frames.size = k) (hsingle : ∀ record ∈ chart.records, record.pid = own)
    (hcompleted : Completed chart m m' pid q q') : m'.Retains rule := by
  obtain ⟨ref, policy, pages, hpending, hintake, hleft⟩ := hcompleted.intake
  -- the process is the only one, so all that is said of a process is said of this one
  have honly : ∀ {other p}, m'.processes.bare? other = some p → p = q' :=
    hsound'.eq_of_single hsingle hcompleted.self
  obtain ⟨hawake, hnone⟩ := hcompleted.passes.idle
  have hhistory : m'.history rule = m.history rule :=
    congrArg (List.filterMap rule.heard?) hcompleted.references_eq
  have hwaited : (m.history rule).dropLast ++ [ref] = m.history rule :=
    List.dropLast_append_getLast? _ (h.awaited hcompleted.found hpending)
  constructor
  · intro other p hp hstate
    obtain rfl := honly hp
    obtain ⟨list, hkeeps, hrefs⟩ := h.list_eq hcompleted.found hcompleted.alive
    rw [heard, if_pos hcompleted.blocked] at hrefs
    obtain ⟨hnew, list', hkeeps', hrefs'⟩ := hintake.refs_eq hsound.coherent hkeeps
    rw [hrefs] at hnew
    refine ⟨list', (hleft.policy_eq hstate).symm ▸ hkeeps', ?_⟩
    calc list'.refs
        = rule.kept ((m.history rule).dropLast ++ [ref]) := by
          rw [hrefs', hrefs, hsize, rule.kept_concat hnew]
      _ = rule.kept (m'.heard rule p) := by rw [hwaited, heard, if_neg hawake, hhistory]
  -- a process that was resumed waits for nothing
  · intro other p ref hp hwait
    obtain rfl := honly hp
    cases hnone.symm.trans hwait
  · intro before r hprefix
    rw [hcompleted.references_eq] at hprefix
    exact h.judged hprefix

/-- **A reference.** It is a hit exactly if its page is in the list, so exactly if it is kept. After a hit
the rule tells what is kept; after a miss the page is waited for, and the list is as it was. -/
theorem Retains.refer {record : TraceRecord} {hit : Bool} (h : m.Retains rule) (hsound : m.Sound chart)
    (hsound' : m'.Sound chart) (hsingle : ∀ record ∈ chart.records, record.pid = own)
    (hexecuted : Executed chart m m' pid q q' record hit) : m'.Retains rule := by
  obtain ⟨page, policy, policy', pages, hmeeting, hhit, hmissed, hused, hleft⟩ := hexecuted.meeting
  have honly : ∀ {other p}, m'.processes.bare? other = some p → p = q' :=
    hsound'.eq_of_single hsingle hexecuted.self
  have hhistory : m'.history rule = m.history rule ++
      (rule.heard? { line := q.line, page := record.page, hit }).toList := by
    rw [history, hexecuted.references_eq, List.filterMap_append, List.filterMap_cons, List.filterMap_nil]
    cases rule.heard? { line := q.line, page := record.page, hit } <;> rfl
  obtain ⟨list, hkeeps, hrefs⟩ := h.list_eq hexecuted.found hexecuted.alive
  rw [heard, if_neg hexecuted.awake] at hrefs
  obtain ⟨list₁, hkeeps₁, hrefs₁, hfollows, hpage, hresident⟩ :=
    hmeeting.refs_eq hsound.coherent hkeeps
  constructor
  · intro other p hp hstate
    obtain rfl := honly hp
    cases hit with
    -- the policy hears of the page when it is there
    | false =>
      obtain ⟨hblocked, -, rfl⟩ := hmissed rfl
      refine ⟨list₁, (hleft.policy_eq hstate).symm ▸ hkeeps₁, ?_⟩
      rw [hrefs₁, hrefs, heard, if_pos hblocked, hhistory, rule.heard_of_miss rfl, Option.toList_some,
        List.dropLast_concat]
    | true =>
      obtain ⟨hpasses, haccess⟩ := hused rfl
      obtain ⟨hawake, -⟩ := hpasses.idle
      obtain ⟨frame, hframe⟩ := Page.isResident_iff.1 hhit.symm
      obtain ⟨list', hkeeps', hrefs'⟩ := hkeeps₁.noteAccess hfollows hpage hframe haccess
      have hin := hresident.1 hhit.symm
      rw [hrefs] at hin
      refine ⟨list', (hleft.policy_eq hstate).symm ▸ hkeeps', ?_⟩
      rw [hrefs', hrefs₁, hrefs, heard, if_neg hawake, hhistory, rule.kept_of_hit rfl hin]
  · intro other p ref hp hwait
    obtain rfl := honly hp
    cases hit with
    | false =>
      obtain ⟨-, hpending, -⟩ := hmissed rfl
      cases hwait.symm.trans hpending
      rw [hhistory, rule.heard_of_miss rfl, Option.toList_some, List.getLast?_concat]
    | true =>
      obtain ⟨hpasses, -⟩ := hused rfl
      cases hpasses.idle.2.symm.trans hwait
  -- the references before it are judged already, and it is itself a hit if its page is in the list
  · intro before r hprefix
    rw [hexecuted.references_eq, List.prefix_concat_iff] at hprefix
    rcases hprefix with heq | hprefix
    · obtain ⟨rfl, hlast⟩ := List.append_inj' heq rfl
      cases hlast
      rw [hhit, hresident, hrefs]
      rfl
    · exact h.judged hprefix

/-- **Retention.** It is preserved by each move, if all records are of one process. -/
theorem preserved_retains {rule : Retention kind config.totalFrames}
    (hsingle : ∀ record ∈ chart.records, record.pid = own) : Preserved chart config (Retains rule) := by
  intro m m' hgoing hgoing' hmoved h
  cases hmoved with
  | wait => exact h.wait
  | read hcompleted =>
    exact h.read hgoing.sound hgoing'.sound hgoing.size_eq hsingle hcompleted
  | refer hexecuted => exact h.refer hgoing.sound hgoing'.sound hsingle hexecuted

end Machine

namespace Simulator

variable {chart : Chart} {s t : Simulator} {own : Pid} {kind : PolicyKind} {n : Nat}

/-- At the start nothing was heard of and nothing is in the list. -/
theorem Fresh.retains {k : Nat} (h : s.Fresh) (hsound : s.Sound chart)
    (hkeeps : s.machine.policy.Keeps kind ∅) (rule : Retention kind k) : s.machine.Retains rule := by
  have hhistory : s.machine.history rule = [] := by
    rw [Machine.history, h.references_eq]
    rfl
  constructor
  · intro pid q _ _
    refine ⟨∅, hkeeps, ?_⟩
    rw [PageList.refs_empty, Machine.heard, hhistory, List.dropLast_nil, ite_self, rule.kept_nil]
  -- every process can run, so none waits
  · intro pid q ref hq hpending
    have hnone := ((hsound.machine.stands hq).runnable (h.ready hq)).1
    cases hnone.symm.trans hpending
  · intro before r hprefix
    rw [h.references_eq, List.prefix_nil] at hprefix
    exact absurd hprefix (List.append_ne_nil_of_right_ne_nil _ (List.cons_ne_nil _ _))

/-- **What a run retains.** Under a policy that keeps a list, whatever a simulation of one process reaches
has in memory what the rule of the policy keeps. -/
theorem Sound.retains_of_reaches (h : s.Sound chart) (hfresh : s.Fresh)
    (hsingle : ∀ record ∈ chart.records, record.pid = own) (hpolicy : s.config.policy = kind)
    (hkind : kind = .lru ∨ kind = .fifo) (rule : Retention kind s.config.totalFrames)
    (hreaches : s.Reaches n t) : t.machine.Retains rule := by
  subst hpolicy
  exact h.preserves (Machine.preserved_retains hsingle)
    (hfresh.retains h (Policy.keeps_of_build hkind hfresh.policy_eq) rule) hreaches

end Simulator

end DemandPaging
