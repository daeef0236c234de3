import DemandPaging.Proofs.Halfway
import DemandPaging.Proofs.Lockstep
import DemandPaging.Proofs.Replay
import Mathlib.Data.List.Dedup
import Mathlib.Data.Nat.Find

/-!
# Memory for everything

If a memory has a frame for each page that its trace names, no page ever leaves it for another one. A
reference is then a miss if it is the first one to its page, and a hit otherwise, whatever the policy
is (`Machine.Roomy`).

The frames suffice at any time because the pages in memory, and the one that is to come in, are
different pages of the trace; that processes end and give up theirs only helps.
-/

namespace DemandPaging

/-- **Room.** While there are no more pages than frames, a frame is free for a page that is not in
memory. -/
theorem Residency.hasFree_of_ample {frames : FrameTable} {pages : PageMap} {asked : List PageRef}
    {ref : PageRef} {page : Page} (h : Residency frames pages)
    (hample : asked.dedup.length ≤ frames.size)
    (hasked : ∀ {ref page}, pages ref = some page → ref ∈ asked) (hpage : pages ref = some page)
    (hout : page.frame? = none) : frames.hasFree = true := by
  by_contra hfull
  -- otherwise all frames have other pages, and there is one page more
  have hall : ∀ other frame, pages.frame? other = some frame → other ∈ asked.dedup.erase ref := by
    intro other frame hframe
    obtain ⟨found, hfound, hframe⟩ := PageMap.frame?_eq_some_iff.1 hframe
    refine (List.nodup_dedup _).mem_erase_iff.2 ⟨?_, List.mem_dedup.2 (hasked hfound)⟩
    rintro rfl
    cases hpage.symm.trans hfound
    cases hout.symm.trans hframe
  have hle := h.size_le_of_full (Bool.eq_false_iff.2 hfull) hall
  have hmem : ref ∈ asked.dedup := List.mem_dedup.2 (hasked hpage)
  have hpos := List.length_pos_of_mem hmem
  rw [List.length_erase_of_mem hmem] at hle
  omega

namespace Machine

variable {chart : Chart} {config : ValidConfig} {m m' : Machine} {pid : Pid} {q q' : Process}
  {ref : PageRef} {page : Page}

/-- Each page stays in memory from its first reference to the end of its process. A reference to it that
comes later is a hit, since only the same process can refer to it again. -/
structure Roomy (records : List TraceRecord) (m : Machine) : Prop where
  /-- The pages of a process are those that it has referred to. -/
  known : m.Known
  /-- A page that is not in memory is waited for. -/
  resident : ∀ {ref page}, m.processes.page? ref = some page → page.frame? = none →
    ∃ q, m.processes.bare? ref.pid = some q ∧ q.pending? = some ref
  /-- A reference was a hit if there is an earlier one to its page. -/
  judged : ∀ r ∈ m.references,
    (r.hit = true ↔ ∃ line < r.line, (line, r.page) ∈ Survey.references records)
  /-- No page had to leave. -/
  evictions_eq : m.stats.totals.evictions = 0

/-- A page that is known is one of the trace, since its process has referred to it. -/
theorem Roomy.mem_pages (h : m.Roomy chart.records) (hsound : m.Sound chart)
    (hreplays : m.Replays chart) (hpage : m.processes.page? ref = some page) :
    ref ∈ chart.records.map (·.page) := by
  obtain ⟨p, hp, -⟩ := ProcessTable.page?_eq_some_iff.1 hpage
  have hq := ProcessTable.bare?_of_get? hp
  have hknown : (m.processes.page? ref).isSome = true := by
    rw [hpage]
    rfl
  obtain ⟨line, hmem⟩ := (h.known hq (hsound.alive hpage hq)).1 hknown
  obtain ⟨record, hrecord, rfl⟩ := Survey.mem_references_iff.1 (hreplays.mem_references hmem)
  exact List.mem_map_of_mem (Survey.mem_of_record? hrecord)

/-- A frame is free for a page that is known and not in memory. -/
theorem Roomy.hasFree (h : m.Roomy chart.records) (hsound : m.Sound chart)
    (hreplays : m.Replays chart)
    (hample : (chart.records.map (·.page)).dedup.length ≤ m.frames.size)
    (hpage : m.processes.page? ref = some page) (hout : page.frame? = none) :
    m.frames.hasFree = true :=
  hsound.coherent.residency.hasFree_of_ample hample (h.mem_pages hsound hreplays) hpage hout

/-- Time that passes takes no page out of memory. -/
theorem Roomy.wait {records : List TraceRecord} {stats : Stats} {elapsed : Nat} (h : m.Roomy records)
    (hevictions : stats.totals.evictions = m.stats.totals.evictions) :
    Roomy records { m with stats, processes := m.processes.passTime elapsed } where
  known := h.known.wait
  resident {ref page} hpage hout := by
    have hpage : (m.processes.passTime elapsed).page? ref = some page := hpage
    rw [ProcessTable.page?_passTime] at hpage
    obtain ⟨q, hq, hpending⟩ := h.resident hpage hout
    refine ⟨_, (ProcessTable.bare?_passTime.trans (congrArg _ hq) :), ?_⟩
    dsimp only
    split <;> exact hpending
  judged := h.judged
  evictions_eq := hevictions.trans h.evictions_eq

/-- The page that comes in finds a free frame, so all others stay where they are. If no frame
were free, each would hold a page of the trace other than the one that comes in, and these are
too many. -/
theorem Roomy.read (h : m.Roomy chart.records) (hsound : m.Sound chart) (hsound' : m'.Sound chart)
    (hreplays : m.Replays chart)
    (hample : (chart.records.map (·.page)).dedup.length ≤ m.frames.size)
    (hcompleted : Completed chart m m' pid q q') : m'.Roomy chart.records := by
  obtain ⟨_, hhalfway⟩ := hcompleted.halfway hsound
  obtain ⟨ref, policy, pages, hpending, hintake, hleft⟩ := hcompleted.intake
  obtain ⟨page, hpage, hout⟩ := hintake.exists_page
  have hfree := h.hasFree hsound hreplays hample hpage hout
  obtain ⟨frame, rfl⟩ := hintake.eq_update hfree hpage
  refine ⟨hhalfway.known hsound' h.known, fun {other found} hfound hgone => ?_, ?_, ?_⟩
  · have hbefore := hleft.left hfound
    rw [Function.update_apply] at hbefore
    split at hbefore
    -- the page that came in is in a frame
    · cases hbefore
      cases hgone
    · -- another page that is not in memory is waited for by another process
      next hne =>
      obtain ⟨q₁, hq₁, hwait⟩ := h.resident hbefore hgone
      refine ⟨q₁, ?_, hwait⟩
      rw [hcompleted.bare_eq, Function.update_of_ne, hq₁]
      intro heq
      rw [heq, hcompleted.found] at hq₁
      cases hq₁
      exact hne (Option.some.inj (hwait.symm.trans hpending))
  · rw [hcompleted.references_eq]
    exact h.judged
  · rw [hcompleted.evictions_eq, h.evictions_eq, hfree]
    rfl

/-- A reference is a hit if its page is known: one that is known and not in memory would be waited for,
and a process that can run waits for none. -/
theorem Roomy.hit_iff {records : List TraceRecord} {record : TraceRecord} {hit : Bool}
    (h : m.Roomy records) (hpending : q.pending? = none)
    (hown : m.processes.bare? record.page.pid = some q)
    (hexecuted : Executed chart m m' pid q q' record hit) :
    hit = true ↔ (m.processes.page? record.page).isSome = true := by
  obtain ⟨page, policy, policy', pages, hmeeting, rfl, -⟩ := hexecuted.meeting
  cases hmeeting with
  | known hpage =>
    rw [hpage, Option.isSome_some, eq_self_iff_true, iff_true, Page.isResident]
    by_contra hout
    -- the process would have to wait for it
    obtain ⟨q₁, hq₁, hwait⟩ := h.resident hpage (Option.not_isSome_iff_eq_none.1 hout)
    cases hown.symm.trans hq₁
    cases hpending.symm.trans hwait
  | new hnew => simp [hnew, Page.isResident]

/-- The page that is referred to is known from then on, and waited for if it was not. It was
known just if there was an earlier reference to it, and in memory then, since its process does
not wait. -/
theorem Roomy.refer {record : TraceRecord} {hit : Bool} (h : m.Roomy chart.records)
    (hsound : m.Sound chart) (hsound' : m'.Sound chart) (hreplays : m.Replays chart)
    (hexecuted : Executed chart m m' pid q q' record hit) : m'.Roomy chart.records := by
  have hstands := hsound.stands hexecuted.found
  obtain ⟨hpending, -⟩ := hstands.runnable hexecuted.runnable
  have hpid : record.page.pid = pid :=
    (hstands.pid_of_record hexecuted.record_eq).trans (hsound.lined.keyed hexecuted.found)
  have hown : m.processes.bare? record.page.pid = some q := hpid ▸ hexecuted.found
  obtain ⟨_, hhalfway⟩ := hexecuted.halfway hsound
  have hhit := h.hit_iff hpending hown hexecuted
  have hknown : (m.processes.page? record.page).isSome = true ↔
      ∃ line, (line, record.page) ∈ m.executed := h.known hown hexecuted.alive
  obtain ⟨page, policy, policy', pages, hmeeting, hresident, hmissed, -, hleft⟩ := hexecuted.meeting
  obtain rfl := hmeeting.eq_update
  refine ⟨hhalfway.known hsound' h.known, fun {ref found} hfound hgone => ?_, fun r hr => ?_,
    hexecuted.evictions_eq.trans h.evictions_eq⟩
  · -- a page that is not in memory after the reference
    have hbefore := hleft.left hfound
    rw [Function.update_apply] at hbefore
    split at hbefore
    -- the page of this reference is waited for if it is not in memory
    · next hsame =>
      cases hbefore
      have hfalse : hit = false := by rw [hresident, Page.isResident, hgone, Option.isSome_none]
      exact ⟨q', by rw [hsame, hpid, hexecuted.self], by rw [hsame, (hmissed hfalse).2.1]⟩
    · -- another page is waited for as before
      obtain ⟨q₁, hq₁, hwait⟩ := h.resident hbefore hgone
      refine ⟨q₁, ?_, hwait⟩
      rw [hexecuted.bare_eq, Function.update_of_ne, hq₁]
      intro heq
      rw [heq, hexecuted.found] at hq₁
      cases hq₁
      cases hpending.symm.trans hwait
  · -- a reference that is judged
    rw [hexecuted.references_eq, List.mem_append, List.mem_singleton] at hr
    rcases hr with hr | rfl
    · exact h.judged r hr
    -- its page is known if the process has passed a line with it
    · have hline : q.reached = q.line := if_pos hexecuted.runnable
      rw [hhit, hknown]
      refine exists_congr fun line => ?_
      rw [hreplays.mem_executed_iff hown, hline, and_comm]

/-- **Memory for everything** is preserved by each move. -/
theorem preserved_roomy (hample : (chart.records.map (·.page)).dedup.length ≤ config.totalFrames) :
    Preserved chart config (Roomy chart.records) := by
  intro m m' hgoing hgoing' hmoved h
  cases hmoved with
  | wait _ _ _ _ hevictions => exact h.wait hevictions
  | read hcompleted =>
    exact h.read hgoing.sound hgoing'.sound hgoing.replays (hgoing.size_eq.symm ▸ hample) hcompleted
  | refer hexecuted => exact h.refer hgoing.sound hgoing'.sound hgoing.replays hexecuted

end Machine

/-! ### Counting pages -/

namespace Survey

variable {records : List TraceRecord}

/-- Whether a reference is the first one to its page. It is asked of the trace and not of a run,
since with memory for everything it decides between hit and miss by itself. -/
def IsFirst (records : List TraceRecord) (entry : Nat × PageRef) : Prop :=
  ∀ line < entry.1, (line, entry.2) ∉ references records

instance (entry : Nat × PageRef) : Decidable (IsFirst records entry) :=
  inferInstanceAs (Decidable (∀ line < entry.1, (line, entry.2) ∉ references records))

theorem map_snd_references : (references records).map Prod.snd = records.map (·.page) := by
  rw [references, List.map_map, ← List.zipIdx_map_fst 1 records, List.map_map]
  simp

/-- There are as many first references as there are pages: each page has one first reference, which is
the one on the least line. -/
theorem countP_isFirst : (references records).countP (IsFirst records ·) =
    (records.map (·.page)).dedup.length := by
  let firsts := (references records).filter (IsFirst records ·)
  have hnodup : (firsts.map Prod.snd).Nodup := by
    refine List.pairwise_map.2 ((pairwise_references.filter _).imp_of_mem fun {a b} ha hb hlt heq => ?_)
    -- the later one is not the first one to that page
    have hfirst : IsFirst records b := of_decide_eq_true (List.mem_filter.1 hb).2
    exact hfirst a.1 hlt (heq ▸ (List.mem_filter.1 ha).1)
  have hmem : ∀ page, page ∈ firsts.map Prod.snd ↔ page ∈ (records.map (·.page)).dedup := by
    intro page
    rw [List.mem_dedup, ← map_snd_references]
    constructor
    · exact fun h => List.map_subset _ (List.filter_subset_self _) h
    · intro h
      have hexists : ∃ line, (line, page) ∈ references records := by
        obtain ⟨⟨line, _⟩, hentry, rfl⟩ := List.mem_map.1 h
        exact ⟨line, hentry⟩
      have hfirst : IsFirst records (Nat.find hexists, page) := fun _ => Nat.find_min hexists
      exact List.mem_map.2 ⟨_, List.mem_filter.2 ⟨Nat.find_spec hexists, decide_eq_true hfirst⟩, rfl⟩
  rw [List.countP_eq_length_filter, ← List.length_map Prod.snd]
  exact ((List.perm_ext_iff_of_nodup hnodup (List.nodup_dedup _)).2 hmem).length_eq

end Survey

/-! ### Any policy -/

/-- All policies are alike that know no other pages than those asked for. Nothing is asked of
what they know of them: with memory for everything no policy is ever asked for a victim. -/
def Likeness.within (asked : List PageRef) : Likeness := fun _ pages _ _ =>
  ∀ ref, (pages ref).isSome = true → ref ∈ asked

/-- No policy has to name a victim, so it does not matter which one it would name. For the other
operations there is only to show that no page comes up that was not asked for. -/
theorem Likeness.kept_within {asked : List PageRef} {total : Nat}
    (hample : asked.dedup.length ≤ total) : (within asked).Kept asked total where
  track {a b P Q ref} h hasked other hsome := by
    by_cases heq : other = ref
    · exact heq ▸ hasked
    · rw [Function.update_of_ne heq] at hsome
      exact h other hsome
  noteLoad {a b a' b' P Q ref page page' frame} h hpage _ _ _ other hsome := by
    by_cases heq : other = ref
    · exact h other (by rw [heq, hpage, Option.isSome_some])
    · rw [Function.update_of_ne heq] at hsome
      exact h other hsome
  noteAccess h _ _ _ _ := h
  forget {a b a' b' P Q ref page page'} h _ _ _ _ other hsome := by
    by_cases heq : other = ref
    · rw [heq, Function.update_self] at hsome
      cases hsome
    · rw [Function.update_of_ne heq] at hsome
      exact h other hsome
  victim {frames a b P Q ref page} h hcoherent _ hsize hfull hpage hout := by
    have hasked : ∀ {ref page}, P ref = some page → ref ∈ asked := fun {ref page} hpage =>
      h ref (by rw [hpage, Option.isSome_some])
    -- there is a free frame, so this case does not come up
    have hfree := hcoherent.residency.hasFree_of_ample (hsize ▸ hample) hasked hpage hout
    cases hfree.symm.trans hfull

/-- The parameters with another policy and another seed. They are valid again, as neither of the
two is looked at. -/
def ValidConfig.under (config : ValidConfig) (kind : PolicyKind) (seed : Nat) : ValidConfig :=
  { config with policy := kind, seed, valid := config.valid }

namespace Simulator

variable {chart : Chart} {s t : Simulator}

/-- At the start no page is known and none was referred to. -/
theorem Fresh.known (h : s.Fresh) : s.machine.Known := by
  intro q ref _ _
  have hexecuted : s.machine.executed = [] := by
    rw [Machine.executed, h.references_eq, List.map_nil]
  simp [h.pages_eq, hexecuted]

theorem Fresh.roomy (h : s.Fresh) (records : List TraceRecord) : s.machine.Roomy records where
  known := h.known
  resident {ref page} hpage _ := by
    rw [h.pages_eq] at hpage
    cases hpage
  judged r hr := by
    rw [h.references_eq] at hr
    cases hr
  evictions_eq := by rw [h.totals_eq]

/-- When everything is done the misses are the first references to the pages: each record was executed
once, so it does not matter in which order. -/
theorem Sound.misses_eq_of_isFinished (h : s.Sound chart) (hroomy : s.machine.Roomy chart.records)
    (hfinished : s.isFinished = true) :
    s.machine.stats.totals.misses = (chart.records.map (·.page)).dedup.length := by
  have hperm := h.replays.executed_perm h.machine.lined h.machine.stands (h.finished hfinished)
  rw [h.replays.misses_eq, ← Survey.countP_isFirst, ← hperm.countP_eq, Machine.executed,
    List.countP_map]
  refine List.countP_congr fun r hr => ?_
  rw [Function.comp_apply, decide_eq_true_iff, Bool.not_eq_true', ← Bool.not_eq_true,
    hroomy.judged r hr]
  simp [Survey.IsFirst]

theorem report_evictions {report : Report} (h : s.report = .ok report) :
    report.evictions = s.machine.stats.totals.evictions := by
  simp only [Simulator.report, Stats.report, Fault.bind_eq_ok_iff, Fault.pure_eq_ok_iff] at h
  obtain ⟨references, -, rfl⟩ := h
  rfl

/-- **Memory for everything.** On a trace with no more pages than there are frames, a reference is a
miss exactly if it is the first one to its page, and no page is ever evicted; a run that the clock can
count returns, and counts a miss for each page. The policy does not matter: with any other one, and any
seed, a simulation makes the same number of steps, comes to the same after each of them, and its run
answers the same. -/
theorem ample_memory {config : ValidConfig} {reader after : TraceReader} {stats : Stats}
    {survey : Survey} {records : List TraceRecord}
    (hreach : reader.medium.bytes.size ≤ reader.medium.maxOffset) (hfresh : stats.totals = {})
    (hsurvey : reader.survey config.queueOrder = .ok (.ok survey, after))
    (hrecords : reader.rewind.2.records.1 = .ok records)
    (hample : (records.map (·.page)).dedup.length ≤ config.totalFrames) :
    ∃ s, start config reader stats = .ok (.ok s) ∧
      (∀ {n t}, s.Reaches n t → t.machine.stats.totals.evictions = 0 ∧
        ∀ r ∈ t.machine.references, (r.line, r.page) ∈ Survey.references records ∧
          (r.hit = false ↔ Survey.IsFirst records (r.line, r.page))) ∧
      (s.run ≠ .error .overflow → ∃ report t, s.run = .ok (.ok report, t) ∧
        t.machine.references.length = records.length ∧
        report.misses = (records.map (·.page)).dedup.length ∧
        report.hits = records.length - (records.map (·.page)).dedup.length ∧ report.evictions = 0) ∧
      ∀ kind seed, ∃ t, start (config.under kind seed) reader stats = .ok (.ok t) ∧
        (∀ n, (∀ s', s.Reaches n s' → ∃ t', t.Reaches n t' ∧ s'.Alike t') ∧
          ∀ t', t.Reaches n t' → ∃ s', s.Reaches n s' ∧ s'.Alike t') ∧
        s.run.map Prod.fst = t.run.map Prod.fst := by
  obtain ⟨s, chart, hstart, hconfig, hsound, hrecords', -⟩ := start_eq_ok hreach hfresh hsurvey
  cases hrecords.symm.trans hrecords'
  have hsfresh := fresh_of_start hreach hfresh hsurvey hstart
  have hroomy : ∀ {n t}, s.Reaches n t → t.machine.Roomy chart.records := fun hreaches =>
    hsound.preserves (Machine.preserved_roomy (hconfig.symm ▸ hample)) (hsfresh.roomy _) hreaches
  refine ⟨s, hstart, fun {n t} hreaches => ?_, fun hclock => ?_, fun kind seed => ?_⟩
  · obtain ⟨hsound', -⟩ := hsound.of_reaches hreaches
    refine ⟨(hroomy hreaches).evictions_eq, fun r hr => ⟨?_, ?_⟩⟩
    · exact hsound'.replays.mem_references (List.mem_map_of_mem hr)
    · rw [← Bool.not_eq_true, (hroomy hreaches).judged r hr]
      simp [Survey.IsFirst]
  · obtain ⟨n, t, report, hreaches, hfinished, hreport, hrun⟩ := hsound.exists_run hclock
    obtain ⟨hsound', -⟩ := hsound.of_reaches hreaches
    obtain ⟨hhits, hmisses⟩ := report_counts hreport
    have hcount := hsound'.references_of_isFinished hfinished
    have hpages := hsound'.misses_eq_of_isFinished (hroomy hreaches) hfinished
    refine ⟨report, _, hrun, ?_⟩
    rw [references_completed, hhits, hmisses, report_evictions hreport, (hroomy hreaches).evictions_eq]
    -- the references that were not misses are the hits
    exact ⟨hsound'.length_references hfinished, hpages, by omega, rfl⟩
  -- the survey does not depend on the policy, so both simulations begin alike
  · have hsurvey' : reader.survey (config.under kind seed).queueOrder = .ok (.ok survey, after) := hsurvey
    obtain ⟨t, other, hstart', -, hsound', hrecords', -⟩ := start_eq_ok hreach hfresh hsurvey'
    have hsame : chart.records = other.records := Except.ok.inj (hrecords.symm.trans hrecords')
    have halike : Likeness.within (chart.records.map (·.page)) s.machine.policy
        s.machine.processes.page? t.machine.policy t.machine.processes.page? := by
      intro ref hsome
      rw [hsfresh.pages_eq] at hsome
      cases hsome
    have hframes : config.totalFrames = (config.under kind seed).totalFrames := rfl
    have htwins : Twins chart other (Likeness.within (chart.records.map (·.page))) s t :=
      twins_of_start hframes rfl rfl rfl hsurvey hsurvey' rfl rfl hstart hstart' hsound hsound' halike
    have hkept : (Likeness.within (chart.records.map (·.page))).Kept (chart.records.map (·.page))
        s.config.totalFrames := Likeness.kept_within (hconfig.symm ▸ hample)
    have hasked : ∀ record ∈ chart.records, record.page ∈ chart.records.map (·.page) :=
      fun record hrecord => List.mem_map_of_mem hrecord
    have hpages := congrArg (List.map (·.page)) hsame
    exact ⟨t, hstart', htwins.reaches hkept hpages hasked Twins.alike,
      htwins.run_eq hkept hpages hasked⟩

/-- A memory of three frames. -/
def spacious : ValidConfig where
  memoryBytes := 3
  pageSize := 1
  policy := .clock
  queueOrder := .tracePosition
  clockTick := 2
  diskPenalty := 6
  valid := by decide

/-- Two processes that take turns over a frame for each of their three pages. -/
theorem ample_memory_of_turns : ∃ survey after records,
    turns.survey spacious.queueOrder = .ok (.ok survey, after) ∧
      turns.rewind.2.records.1 = .ok records ∧ (records.map (·.page)).dedup.length = 3 ∧
      ∃ s, start spacious turns { totalFrames := 3 } = .ok (.ok s) ∧
        (∀ {n t}, s.Reaches n t → t.machine.stats.totals.evictions = 0 ∧
          ∀ r ∈ t.machine.references, (r.line, r.page) ∈ Survey.references records ∧
            (r.hit = false ↔ Survey.IsFirst records (r.line, r.page))) ∧
        (∃ report t, s.run = .ok (.ok report, t) ∧
          t.machine.references.length = records.length ∧
          report.misses = (records.map (·.page)).dedup.length ∧
          report.hits = records.length - (records.map (·.page)).dedup.length ∧
          report.evictions = 0) ∧
        ∀ kind seed, ∃ t, start (spacious.under kind seed) turns { totalFrames := 3 } = .ok (.ok t) ∧
          (∀ n, (∀ s', s.Reaches n s' → ∃ t', t.Reaches n t' ∧ s'.Alike t') ∧
            ∀ t', t.Reaches n t' → ∃ s', s.Reaches n s' ∧ s'.Alike t') ∧
          s.run.map Prod.fst = t.run.map Prod.fst := by
  obtain ⟨survey, after, hsurvey, hbudget⟩ := exists_survey turns spacious.queueOrder
    (fun survey => survey.records * (spacious.clockTick + spacious.diskPenalty) < 2 ^ 64)
    (by decide +kernel)
  obtain ⟨records, hrecords, htest⟩ :=
    exists_records turns (fun records => (records.map (·.page)).dedup.length = 3) (by decide +kernel)
  have hpages : (records.map (·.page)).dedup.length = 3 := of_decide_eq_true htest
  have hfresh : Stats.totals { totalFrames := 3 } = {} := rfl
  obtain ⟨s, hstart, hreaches, hrun, halike⟩ :=
    ample_memory (by decide) hfresh hsurvey hrecords (Nat.le_of_eq hpages)
  exact ⟨survey, after, records, hsurvey, hrecords, hpages, s, hstart, hreaches,
    hrun (run_ne_overflow (by decide) hfresh hsurvey (of_decide_eq_true hbudget) hstart), halike⟩

end Simulator

end DemandPaging
