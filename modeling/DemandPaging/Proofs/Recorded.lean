import DemandPaging.Proofs.Intervals
import Mathlib.Data.List.Nodup
import Mathlib.Data.List.Perm.Basic

/-!
# An index as a set of intervals

What an index is asked to record is an `IntervalRequest`: a process, two bounds and an offset. It fits
beside the intervals recorded so far if its bounds are in order and none of its lines lies in an
interval of the same process, wherever that stands. A request that fits is granted, and one that does
not is refused for one of the causes of `IntervalRequest.Refuses` and changes nothing.

Whatever an index is asked for from the beginning on, refused requests included, it does what a set of
intervals would do, and afterwards its answers are those of that set (`recordAll_runs`):

* an index looks at two neighbours only, and since its intervals are apart one of these meets whatever
  any interval meets (`insert_eq_error`);
* going from the first interval to the next one visits the intervals in order (`walks_intervals`);
* an index is determined by the intervals recorded in it (`Holds.eq_of_perm`), so the order of requests
  that do not meet does not matter.

A request makes an entry for its process before it is compared with anything. `IntervalIndex.InPlace`
carries it out in this way, where a fault keeps what was changed before it (`InPlace.record_eq`).
-/

namespace DemandPaging

/-! ### Requests -/

/-- A request to record an interval. Unlike an interval it may have its bounds the wrong way
round. -/
structure IntervalRequest where
  /-- The process. -/
  pid : Pid
  /-- The first line. -/
  low : Nat
  /-- The last line. -/
  high : Nat
  /-- The offset in the trace of the first line. -/
  offset : Nat
  deriving DecidableEq, Repr

namespace IntervalRequest

variable {request : IntervalRequest} {recorded recorded' : List Interval}

/-- Membership: the line lies between the bounds, bounds included. -/
instance : Membership Nat IntervalRequest where
  mem request line := request.low ≤ line ∧ line ≤ request.high

theorem mem_iff {line : Nat} : line ∈ request ↔ request.low ≤ line ∧ line ≤ request.high := Iff.rfl

/-- The interval that is asked for, if the bounds are in order. -/
def interval (request : IntervalRequest) (h : request.low ≤ request.high) : Interval :=
  { request with low_le_high := h }

/-- The bounds are in order, and no line is in an interval of the process. Both are asked of the lines
alone, not of what an index compares. -/
def Fits (request : IntervalRequest) (recorded : List Interval) : Prop :=
  request.low ≤ request.high ∧
    ∀ i ∈ recorded, i.pid = request.pid → ∀ line ∈ i, line ∉ request

/-- Why a request is refused. Of several intervals that it meets any may be named. -/
inductive Refuses (recorded : List Interval) (request : IntervalRequest) : Breach → Prop where
  /-- The bounds are not in order. -/
  | inverted (hlt : request.high < request.low) :
    Refuses recorded request (.invertedInterval request.low request.high)
  /-- An interval of the process has a line of it. -/
  | overlapping {other : Interval} {line : Nat} (hother : other ∈ recorded)
    (hpid : other.pid = request.pid) (hline : line ∈ other) (hrequest : line ∈ request) :
    Refuses recorded request
      (.overlappingInterval request.pid request.low request.high other.low other.high)

/-- What a set of intervals replies: a request that fits is granted, and one that does not is refused and
changes nothing. Which of several causes is named is left open. -/
inductive Replies (recorded : List Interval) (request : IntervalRequest) :
    Except Fault Interval → List Interval → Prop where
  /-- The interval is one more. -/
  | granted (hfits : request.Fits recorded) :
    Replies recorded request (.ok (request.interval hfits.1))
      (recorded ++ [request.interval hfits.1])
  /-- The request is refused. -/
  | refused {cause : Breach} (hbroken : ¬request.Fits recorded)
    (hrefuses : request.Refuses recorded cause) :
    Replies recorded request (.error (.breach cause)) recorded

/-- What a set of intervals replies to some requests, and the intervals after them. A request
that is refused is passed over, and the next one is compared with what is recorded then. -/
inductive Runs : List Interval → List IntervalRequest → List (Except Fault Interval) →
    List Interval → Prop where
  /-- There was no request. -/
  | nil {recorded : List Interval} : Runs recorded [] [] recorded
  /-- There was a first request. -/
  | cons {recorded recorded₁ recorded' : List Interval} {request : IntervalRequest}
    {requests : List IntervalRequest} {answer : Except Fault Interval}
    {answers : List (Except Fault Interval)} (hfirst : request.Replies recorded answer recorded₁)
    (hrest : Runs recorded₁ requests answers recorded') :
    Runs recorded (request :: requests) (answer :: answers) recorded'

/-! #### Requests that do not meet -/

/-- The interval that is asked for, if there is one. There is none only if the bounds are not in
order; whether it fits is another question. -/
def interval? (request : IntervalRequest) : Option Interval :=
  if h : request.low ≤ request.high then some (request.interval h) else none

/-- Not both requests ask for a line of the same process. Requests with their bounds in order
that are apart in pairs are all granted, in any order. -/
def Apart (request other : IntervalRequest) : Prop :=
  request.pid = other.pid → ∀ line ∈ request, line ∉ other

theorem Apart.symm {other : IntervalRequest} (h : request.Apart other) : other.Apart request :=
  fun hpid line hother hrequest => h hpid.symm line hrequest hother

/-- Requests that do not meet each other, nor what is recorded, are all granted, but for those whose
bounds are not in order. So what is recorded in the end is the same in whatever order they come. -/
theorem Runs.recorded_eq {requests : List IntervalRequest} {answers : List (Except Fault Interval)}
    (h : Runs recorded requests answers recorded') (hapart : requests.Pairwise Apart)
    (hnew : ∀ i ∈ recorded, ∀ request ∈ requests, i.pid = request.pid → ∀ line ∈ i, line ∉ request) :
    recorded' = recorded ++ requests.filterMap interval? := by
  induction h with
  | nil => rw [List.filterMap_nil, List.append_nil]
  | cons hfirst hrest ih =>
    obtain ⟨hhead, hpairwise⟩ := List.pairwise_cons.1 hapart
    have hfree := fun i hi => hnew i hi _ List.mem_cons_self
    cases hfirst with
    | granted hfits =>
      rw [ih hpairwise, List.filterMap_cons, interval?, dif_pos hfits.1, List.append_assoc]
      · rfl
      · -- the interval that was granted is not met by those that come after it
        intro i hi request hrequest
        rcases List.mem_append.1 hi with hi | hi
        · exact hnew i hi request (List.mem_cons_of_mem _ hrequest)
        · cases List.mem_singleton.1 hi
          exact hhead request hrequest
    | refused hbroken =>
      -- nothing is in the way, so the bounds are not in order
      have hinverted : ¬_ ≤ _ := fun hle => hbroken ⟨hle, hfree⟩
      rw [ih hpairwise fun i hi request hrequest => hnew i hi request (List.mem_cons_of_mem _ hrequest),
        List.filterMap_cons, interval?, dif_neg hinverted]

end IntervalRequest

namespace IntervalIndex

variable {index index' : IntervalIndex} {recorded recorded' : List Interval}
  {request : IntervalRequest} {i j : Interval} {pid other : Pid}

open Fault

/-! ### Requests to the index itself -/

/-- Something that is done to an index itself. What was done before a fault stays done. -/
abbrev InPlace := ExceptT Fault (StateM IntervalIndex)

/-- The index with an entry for a process, which is that of before if there was one. To make it changes
no answer to a question about lines. -/
def enter (index : IntervalIndex) (pid : Pid) : IntervalIndex :=
  { processes := index.processes.insert pid (index.lines pid) }

/-- Stores an interval with those of its process, unless it meets a neighbour. When it fails
nothing has been written. -/
def InPlace.store (interval : Interval) : InPlace Unit := do
  let index ← get
  match (index.neighbours interval.pid interval.low).find? (·.meets interval) with
  | some other =>
    throw (.breach (.overlappingInterval interval.pid interval.low interval.high other.low other.high))
  | none =>
    let { byLow, lastLine } := index.lines interval.pid
    let lines := {
      byLow := byLow.insert interval.low interval
      lastLine := max lastLine interval.high }
    set { index with processes := index.processes.insert interval.pid lines }

/-- Carries out a request: the process has an entry before the interval is compared with others.
So a request that is refused may leave an empty entry behind, which answers every question like
no entry. -/
def InPlace.record (request : IntervalRequest) : InPlace Interval := do
  let interval ← Interval.ofBounds request.pid request.low request.high request.offset
  modify (·.enter request.pid)
  store interval
  return interval

/-- The answers to some requests, and the index after them. Each request is carried out in place, so that
whatever a refused one leaves behind is there for the next one. -/
def recordAll (index : IntervalIndex) :
    List IntervalRequest → List (Except Fault Interval) × IntervalIndex
  | [] => ([], index)
  | request :: requests =>
    let (answer, index) := (InPlace.record request).run index
    let (answers, index) := index.recordAll requests
    (answer :: answers, index)

/-- An entry has the lines that the process had before it. -/
theorem lines_enter : (index.enter pid).lines other = index.lines other := by
  rw [enter, lines_of_insert]
  split
  · next heq => rw [heq]
  · rfl

/-- A process that has an interval has an entry. -/
theorem enter_eq_self (h : (index.lines pid).byLow.entries ≠ []) : index.enter pid = index := by
  have hget : index.processes.get? pid = some (index.lines pid) := by
    cases hget : index.processes.get? pid with
    | none =>
      refine absurd ?_ h
      rw [lines, hget]
      rfl
    | some lines => rw [IntervalIndex.lines, hget, Option.getD_some]
  rw [enter, OrderedMap.insert_of_get? hget]

/-- Whether the entry is made first makes no difference to an interval that is recorded. -/
theorem insert_enter {low high offset : Nat} :
    (index.enter pid).insert pid low high offset = index.insert pid low high offset := by
  rw [IntervalIndex.insert, IntervalIndex.insert, lines_enter]
  simp only [enter, OrderedMap.insert_insert]

/-- A process with an interval that meets another one had an entry before. -/
theorem enter_eq_self_of_some {other : Interval}
    (h : (index.neighbours pid i.low).find? (·.meets i) = some other) : index.enter pid = index := by
  refine enter_eq_self fun hnil => ?_
  have hmem := List.mem_of_find?_eq_some h
  -- the neighbours of a process without intervals are none
  rw [neighbours, OrderedMap.lastAtMost?, OrderedMap.firstAtLeast?, hnil] at hmem
  cases hmem

namespace InPlace

/-- Storing an interval is recording it, where a refusal leaves the index. -/
theorem store_eq (index : IntervalIndex) (i : Interval) :
    (store i).run index =
      match index.insert i.pid i.low i.high i.offset with
      | .ok (_, index') => (.ok (), index')
      | .error fault => (.error fault, index) := by
  unfold store
  rw [run_bind_of_ok run_get]
  cases hfind : (index.neighbours i.pid i.low).find? (·.meets i) with
  | none =>
    rw [insert_of_none hfind]
    exact run_set
  | some other =>
    rw [insert_of_some hfind]
    exact run_throw

/-- **All or nothing.** Carried out on the index itself, a request that is refused leaves the index as it
was. The entry that is made before the comparison is left behind only where there was one already:
nothing is met but by a process that has intervals. -/
theorem record_eq (index : IntervalIndex) (request : IntervalRequest) :
    (record request).run index =
      match index.insert request.pid request.low request.high request.offset with
      | .ok (interval, index') => (.ok interval, index')
      | .error fault => (.error fault, index) := by
  unfold record
  by_cases hle : request.low ≤ request.high
  · -- the bounds are in order, so an entry is made
    have hbounds : Interval.ofBounds request.pid request.low request.high request.offset =
        .ok (request.interval hle) := dif_pos hle
    rw [hbounds, run_bind_of_ok run_liftM, run_bind_of_ok run_modify]
    have henter : (index.enter request.pid).insert (request.interval hle).pid
        (request.interval hle).low (request.interval hle).high (request.interval hle).offset =
        index.insert request.pid request.low request.high request.offset := insert_enter
    have hstore := store_eq (index.enter request.pid) (request.interval hle)
    rw [henter] at hstore
    cases hfind : (index.neighbours request.pid request.low).find? (·.meets (request.interval hle)) with
    | none =>
      have hinsert : index.insert request.pid request.low request.high request.offset = _ :=
        insert_of_none (i := request.interval hle) hfind
      rw [hinsert] at hstore ⊢
      rw [run_bind_of_ok hstore, run_pure]
    | some other =>
      have hinsert : index.insert request.pid request.low request.high request.offset = _ :=
        insert_of_some (i := request.interval hle) hfind
      -- a process with a neighbour had an entry before
      rw [hinsert, enter_eq_self_of_some hfind] at hstore
      rw [hinsert, enter_eq_self_of_some hfind, run_bind_of_error hstore]
  · -- the request is refused before the entry is made
    rw [insert_of_inverted hle, Interval.ofBounds, dif_neg hle, run_bind_of_error run_liftM]

end InPlace

/-! ### What the index holds -/

/-- Going from an interval to the next one, until there is none. The walk asks the index each time, and
does not look at a list. -/
inductive Walks (index : IntervalIndex) : Option Interval → List Interval → Prop where
  /-- There is none. -/
  | stop : Walks index none []
  /-- The walk goes on from the next one. -/
  | go {i : Interval} {rest : List Interval} (hrest : Walks index (index.next? i) rest) :
    Walks index (some i) (i :: rest)

/-- The index answers like a set of intervals. Each clause is one question that can be asked of
an index, with the answer that the recorded intervals give. -/
structure Answers (index : IntervalIndex) (recorded : List Interval) : Prop where
  /-- No two intervals of a process have a line in common. -/
  apart : recorded.Pairwise fun i j => i.pid = j.pid → ∀ line ∈ i, line ∉ j
  /-- A line is looked up in the interval of the process that has it. -/
  find?_eq_some_iff : ∀ {pid line i},
    index.find? pid line = some i ↔ i ∈ recorded ∧ i.pid = pid ∧ line ∈ i
  /-- From the first interval of a process the walk goes over its intervals. -/
  walks : ∀ pid, index.Walks (index.first? pid) (index.intervals pid)
  /-- They come one after the other. -/
  ascending : ∀ pid, (index.intervals pid).Pairwise fun i j => i.low < j.low
  /-- Each of them comes, and comes once. -/
  intervals_perm : ∀ pid, (index.intervals pid).Perm (recorded.filter (·.pid = pid))
  /-- The last line of a process is the highest one in its intervals. -/
  lastLine?_eq : ∀ pid,
    index.lastLine? pid = ((recorded.filter (·.pid = pid)).map (·.high)).max?

/-- The index is what comes of recording some intervals. What it answers follows (`Holds.answers`). -/
structure Holds (index : IntervalIndex) (recorded : List Interval) : Prop where
  /-- The intervals stand in their places, and are disjoint. -/
  ordered : index.Ordered
  /-- They are the ones that were recorded. -/
  mem_iff : ∀ {i}, i ∈ index ↔ i ∈ recorded
  /-- None was recorded twice. -/
  nodup : recorded.Nodup
  /-- The processes are theirs. -/
  known_iff : ∀ {pid}, (index.processes.get? pid).isSome = true ↔ ∃ i ∈ recorded, i.pid = pid
  /-- So are the last lines. -/
  lastLine_eq : ∀ pid, (index.lines pid).lastLine =
    ((recorded.filter (·.pid = pid)).map (·.high)).foldl max 0

theorem holds_empty : (∅ : IntervalIndex).Holds [] where
  ordered := ordered_empty
  mem_iff := iff_of_false not_mem_empty List.not_mem_nil
  nodup := .nil
  known_iff := by
    refine iff_of_false Bool.false_ne_true ?_
    rintro ⟨i, hi, -⟩
    cases hi
  lastLine_eq _ := rfl

/-- From any of its places on, the list of the intervals of a process is a walk. By induction on what is
left of the list, since the next interval is the one above the place that the walk has come to. -/
theorem Ordered.walks_of_entries (h : index.Ordered) {before after : List (Nat × Interval)}
    (hentries : (index.lines pid).byLow.entries = before ++ after) :
    index.Walks (after.head?.map (·.2)) (after.map (·.2)) := by
  induction after generalizing before with
  | nil => exact .stop
  | cons entry rest ih =>
    obtain ⟨low, i⟩ := entry
    have hget : (index.lines pid).byLow.get? low = some i :=
      OrderedMap.mem_entries_iff.1 (hentries ▸ by simp)
    obtain ⟨rfl, rfl⟩ := h.keyed hget
    have hnext : index.next? i = rest.head?.map (·.2) := OrderedMap.firstAbove?_of_entries hentries
    have hrest : (index.lines i.pid).byLow.entries = (before ++ [(i.low, i)]) ++ rest := by
      rw [hentries, List.append_assoc]
      rfl
    refine .go ?_
    rw [hnext]
    exact ih hrest

theorem Ordered.walks_intervals (h : index.Ordered) (pid : Pid) :
    index.Walks (index.first? pid) (index.intervals pid) := by
  have hentries : (index.lines pid).byLow.entries = [] ++ (index.lines pid).byLow.entries := rfl
  have hwalk := h.walks_of_entries hentries
  rwa [← List.head?_map] at hwalk

/-- The intervals of a process ascend, as their first lines do. -/
theorem Ordered.pairwise_intervals (h : index.Ordered) (pid : Pid) :
    (index.intervals pid).Pairwise fun i j => i.low < j.low := by
  refine List.pairwise_map.2 ((index.lines pid).byLow.ascending.imp_of_mem ?_)
  intro a b ha hb hlt
  rw [(h.keyed (OrderedMap.mem_entries_iff.1 ha)).2, (h.keyed (OrderedMap.mem_entries_iff.1 hb)).2]
  exact hlt

/-- A line is looked up in the interval that starts last before it, which has the line if any has. -/
theorem Ordered.find?_eq_some_iff (h : index.Ordered) {line : Nat} :
    index.find? pid line = some i ↔ i ∈ index ∧ i.pid = pid ∧ line ∈ i := by
  constructor
  · intro hfind
    obtain ⟨hlast, hline⟩ := Option.filter_eq_some_iff.1 hfind
    obtain ⟨low, hget, -⟩ := OrderedMap.lastAtMost?_eq_some hlast
    obtain ⟨hi, hpid, -⟩ := h.mem_of_get? hget
    exact ⟨hi, hpid, of_decide_eq_true hline⟩
  · rintro ⟨hi, rfl, hline⟩
    exact find?_eq_some_of_mem h hi hline

namespace Holds

/-- What is found under a first line is the interval of the process that starts there. -/
theorem get?_iff (h : index.Holds recorded) {low : Nat} :
    (index.lines pid).byLow.get? low = some i ↔ i ∈ recorded ∧ i.pid = pid ∧ i.low = low := by
  rw [← h.mem_iff]
  constructor
  · exact h.ordered.mem_of_get?
  · rintro ⟨hi, rfl, rfl⟩
    exact hi

/-- **The queries.** They are answered as by the set of the recorded intervals. Each of them is
a search in the order of the first lines, and the intervals of a process are apart, so that the
search cannot miss. -/
theorem answers (h : index.Holds recorded) : index.Answers recorded where
  -- two intervals of a process in the index do not meet
  apart := by
    refine h.nodup.imp_of_mem fun {i j} hi hj hne hpid line hline hline' => hne ?_
    exact h.ordered.apart (h.mem_iff.2 hi) (h.mem_iff.2 hj) hpid
      (Interval.meets_iff.2 ⟨line, hline, hline'⟩)
  find?_eq_some_iff := by
    intro pid line i
    rw [h.ordered.find?_eq_some_iff, h.mem_iff]
  walks := h.ordered.walks_intervals
  ascending := h.ordered.pairwise_intervals
  -- the walk comes to each interval once, and to no others
  intervals_perm pid := by
    have hnodup : (index.intervals pid).Nodup := by
      refine (h.ordered.pairwise_intervals pid).imp fun {i j} hlt => ?_
      rintro rfl
      exact Nat.lt_irrefl _ hlt
    refine (List.perm_ext_iff_of_nodup hnodup (h.nodup.filter _)).2 fun i => ?_
    rw [mem_intervals_iff h.ordered, h.mem_iff, List.mem_filter, decide_eq_true_iff]
  -- the last line is kept beside the intervals, and was raised by each of them
  lastLine?_eq pid := by
    have hknown : (index.processes.get? pid).isSome = true ↔ ∃ i ∈ recorded, i.pid = pid := h.known_iff
    have hlast := h.lastLine_eq pid
    rw [lastLine?]
    rw [lines] at hlast
    cases hown : recorded.filter (·.pid = pid) with
    | nil =>
      -- no interval, so no entry either
      have hnone : index.processes.get? pid = none := by
        refine Option.not_isSome_iff_eq_none.1 fun hsome => ?_
        obtain ⟨i, hi, hpid⟩ := hknown.1 hsome
        exact List.filter_eq_nil_iff.1 hown i hi (decide_eq_true hpid)
      rw [hnone]
      rfl
    | cons i rest =>
      obtain ⟨hi, hpid⟩ := List.mem_filter.1 (hown ▸ List.mem_cons_self : i ∈ recorded.filter _)
      obtain ⟨lines, hlines⟩ := Option.isSome_iff_exists.1
        (hknown.2 ⟨i, hi, of_decide_eq_true hpid⟩)
      rw [hlines, hown, Option.getD_some] at hlast
      rw [hlines, Option.map_some, hlast, List.map_cons, List.max?_cons', List.foldl_cons,
        Nat.zero_max]

/-- **An index is its intervals.** In which order they were recorded cannot be told: what is found under
each first line is the same, and so are the last lines and the processes that have an entry. -/
theorem eq_of_perm (h : index.Holds recorded) (h' : index'.Holds recorded')
    (hperm : recorded.Perm recorded') : index = index' := by
  have hlines : ∀ pid, index.lines pid = index'.lines pid := by
    intro pid
    have hlow : (index.lines pid).byLow = (index'.lines pid).byLow := by
      refine OrderedMap.ext_get? fun low => Option.ext fun i => ?_
      rw [h.get?_iff, h'.get?_iff, hperm.mem_iff]
    have hlast : (index.lines pid).lastLine = (index'.lines pid).lastLine := by
      rw [h.lastLine_eq, h'.lastLine_eq]
      exact ((hperm.filter _).map _).foldl_eq 0
    exact congrArg₂ LineSet.mk hlow hlast
  have hget : index.processes = index'.processes := by
    refine OrderedMap.ext_get? fun pid => ?_
    have hknown : (index.processes.get? pid).isSome = (index'.processes.get? pid).isSome := by
      rw [Bool.eq_iff_iff, h.known_iff, h'.known_iff]
      exact exists_congr fun i => and_congr_left fun _ => hperm.mem_iff
    have hsame := hlines pid
    rw [lines, lines] at hsame
    cases hleft : index.processes.get? pid <;> cases hright : index'.processes.get? pid <;>
      simp_all
  exact congrArg IntervalIndex.mk hget

/-- One interval more. It is the only one that is new under its first line, and may raise the last line.
-/
theorem insert (h : index.Holds recorded) (hnew : i ∉ recorded) (hordered : index'.Ordered)
    (hmem : ∀ j, j ∈ index' ↔ j = i ∨ j ∈ index)
    (hindex : index' = ⟨index.processes.insert i.pid ⟨(index.lines i.pid).byLow.insert i.low i,
      max (index.lines i.pid).lastLine i.high⟩⟩) : index'.Holds (recorded ++ [i]) where
  ordered := hordered
  mem_iff {j} := by
    rw [hmem, h.mem_iff, List.mem_append, List.mem_singleton, or_comm]
  nodup := List.nodup_append.2 ⟨h.nodup, List.nodup_singleton i, fun j hj k hk heq =>
    hnew (List.mem_singleton.1 hk ▸ heq ▸ hj)⟩
  known_iff {pid} := by
    rw [hindex, OrderedMap.get?_insert]
    split
    · next heq =>
      exact iff_of_true rfl ⟨i, List.mem_append_right _ List.mem_cons_self, heq.symm⟩
    · next hne =>
      rw [h.known_iff]
      constructor
      · rintro ⟨j, hj, hpid⟩
        exact ⟨j, List.mem_append_left _ hj, hpid⟩
      · rintro ⟨j, hj, hpid⟩
        rcases List.mem_append.1 hj with hj | hj
        · exact ⟨j, hj, hpid⟩
        · cases List.mem_singleton.1 hj
          exact absurd hpid.symm hne
  lastLine_eq pid := by
    rw [hindex, lines_of_insert, List.filter_append, List.map_append, List.foldl_append,
      ← h.lastLine_eq]
    split
    · next heq => simp [heq]
    · next hne => simp [Ne.symm hne]

/-- **One request.** It is answered as by the set of the recorded intervals. The two cases of a request
with its bounds in order are where a look at two neighbours has to stand for one at all intervals. -/
theorem record (h : index.Holds recorded) (request : IntervalRequest) :
    ∃ answer index' recorded', (InPlace.record request).run index = (answer, index') ∧
      request.Replies recorded answer recorded' ∧ index'.Holds recorded' := by
  rw [InPlace.record_eq]
  by_cases hle : request.low ≤ request.high
  · by_cases hfits : request.Fits recorded
    · -- none of the recorded intervals has a line of the new one
      have hfree : ∀ j ∈ index, j.pid = request.pid → j.meets (request.interval hle) = false := by
        intro j hj hpid
        refine Bool.eq_false_iff.2 fun hmeets => ?_
        obtain ⟨line, hline, hrequest⟩ := Interval.meets_iff.1 hmeets
        exact hfits.2 j (h.mem_iff.1 hj) hpid line hline hrequest
      obtain ⟨index', hinsert, hordered, hmem⟩ :=
        insert_eq_ok (i := request.interval hle) h.ordered hfree
      have hnew : request.interval hle ∉ recorded := fun hin =>
        hfits.2 _ hin rfl request.low (Interval.low_mem (request.interval hle))
          ⟨Nat.le_refl _, hle⟩
      refine ⟨_, index', _, ?_, .granted hfits, h.insert hnew hordered hmem (insert_cases hinsert).2⟩
      have hinsert : index.insert request.pid request.low request.high request.offset = _ := hinsert
      rw [hinsert]
    · -- one of them has, so a neighbour has
      obtain ⟨j, hj, hpid, line, hline, hrequest⟩ : ∃ j ∈ recorded, j.pid = request.pid ∧
          ∃ line ∈ j, line ∈ request := by
        simpa [IntervalRequest.Fits, hle] using hfits
      have hmeets : j.meets (request.interval hle) = true :=
        Interval.meets_iff.2 ⟨line, hline, hrequest⟩
      obtain ⟨other, hother, hotherpid, hothermeets, hinsert⟩ :=
        insert_eq_error h.ordered (h.mem_iff.2 hj) hpid hmeets
      obtain ⟨line, hline, hrequest⟩ := Interval.meets_iff.1 hothermeets
      refine ⟨_, index, recorded, ?_, .refused hfits
        (.overlapping (h.mem_iff.1 hother) hotherpid hline hrequest), h⟩
      have hinsert : index.insert request.pid request.low request.high request.offset = _ := hinsert
      rw [hinsert]
      rfl
  · -- its bounds are not in order
    have hbroken : ¬request.Fits recorded := fun hfits => hle hfits.1
    refine ⟨_, index, recorded, ?_, .refused hbroken (.inverted (Nat.lt_of_not_le hle)), h⟩
    rw [insert_of_inverted hle]

/-- **Any number of requests.** By induction on them, from whatever was recorded before. -/
theorem recordAll (h : index.Holds recorded) (requests : List IntervalRequest) :
    ∃ answers index' recorded', index.recordAll requests = (answers, index') ∧
      IntervalRequest.Runs recorded requests answers recorded' ∧ index'.Holds recorded' := by
  induction requests generalizing index recorded with
  | nil => exact ⟨[], index, recorded, rfl, .nil, h⟩
  | cons request rest ih =>
    obtain ⟨answer, index₁, recorded₁, hfirst, hreplies, h₁⟩ := h.record request
    obtain ⟨answers, index', recorded', hrest, hruns, h'⟩ := ih h₁
    refine ⟨answer :: answers, index', recorded', ?_, .cons hreplies hruns, h'⟩
    simp only [IntervalIndex.recordAll, hfirst, hrest]

end Holds

/-- **An index answers like a set of intervals.** Whatever an index is asked to record, beginning with
none, a request is granted if its bounds are in order and no interval of its process has a line of it,
and refused otherwise. Afterwards all queries are answered as by the set of the intervals of the granted
requests. A request that is refused next leaves the index unchanged, also where it is carried out on the
index itself; and if no two requests meet, the index is the same in whatever order they come. -/
theorem recordAll_runs (requests : List IntervalRequest) :
    ∃ answers index recorded, (∅ : IntervalIndex).recordAll requests = (answers, index) ∧
      IntervalRequest.Runs [] requests answers recorded ∧ index.Answers recorded ∧
      (∀ request fault index',
        (InPlace.record request).run index = (.error fault, index') → index' = index) ∧
      ∀ requests', requests'.Perm requests → requests.Pairwise IntervalRequest.Apart →
        ((∅ : IntervalIndex).recordAll requests').2 = index := by
  obtain ⟨answers, index, recorded, hall, hruns, hholds⟩ := holds_empty.recordAll requests
  refine ⟨answers, index, recorded, hall, hruns, hholds.answers, ?_, ?_⟩
  · intro request fault index' hrun
    rw [InPlace.record_eq] at hrun
    split at hrun
    · cases hrun
    · cases hrun
      rfl
  · -- both orders record the same intervals, up to their order
    intro requests' hperm hapart
    obtain ⟨answers', index', recorded', hall', hruns', hholds'⟩ := holds_empty.recordAll requests'
    have hapart' : requests'.Pairwise IntervalRequest.Apart :=
      (hperm.pairwise_iff IntervalRequest.Apart.symm).2 hapart
    have hsame : recorded'.Perm recorded := by
      rw [hruns.recorded_eq hapart nofun, hruns'.recorded_eq hapart' nofun]
      exact (hperm.filterMap _).append_left []
    rw [hall']
    exact hholds'.eq_of_perm hholds hsame

/-- Intervals that touch each other, asked for out of order. -/
def touching : List IntervalRequest := [⟨2, 20, 25, 300⟩, ⟨2, 1, 4, 0⟩, ⟨1, 4, 9, 40⟩, ⟨2, 5, 19, 60⟩]

theorem recordAll_runs_of_touching :
    (touching.reverse.Perm touching ∧ touching.Pairwise IntervalRequest.Apart) ∧
    ∃ answers index recorded, (∅ : IntervalIndex).recordAll touching = (answers, index) ∧
      IntervalRequest.Runs [] touching answers recorded ∧ index.Answers recorded ∧
      (∀ request fault index',
        (InPlace.record request).run index = (.error fault, index') → index' = index) ∧
      ∀ requests', requests'.Perm touching → touching.Pairwise IntervalRequest.Apart →
        ((∅ : IntervalIndex).recordAll requests').2 = index := by
  refine ⟨⟨List.reverse_perm _, ?_⟩, recordAll_runs touching⟩
  simp only [touching, List.pairwise_cons, IntervalRequest.Apart, IntervalRequest.mem_iff]
  grind

/-- An interval may touch others, but one that shares a line with any of its process is refused, and so
is one whose bounds are not in order. -/
example :
    ((∅ : IntervalIndex).recordAll
        [⟨1, 1, 5, 0⟩, ⟨1, 9, 12, 120⟩, ⟨1, 6, 8, 40⟩, ⟨1, 12, 20, 160⟩, ⟨2, 5, 4, 0⟩]).1 =
      [.ok ⟨1, 1, 5, 0, by decide⟩, .ok ⟨1, 9, 12, 120, by decide⟩, .ok ⟨1, 6, 8, 40, by decide⟩,
        .error (.breach (.overlappingInterval 1 12 20 9 12)), .error (.breach (.invertedInterval 5 4))] := by
  decide

end IntervalIndex

end DemandPaging
