import DemandPaging.Proofs.Moves
import DemandPaging.Proofs.Recorded
import Mathlib.Data.List.Induction

/-!
# The walk of a cursor

The lines of a process are those in its intervals (`IntervalIndex.coverage`). Two things say where they
end: a process keeps its last line, which is a maximum over what was recorded, and the index has no
interval that follows. A cursor that starts on the first line goes over all lines, one with each call of
`advance`, and comes to both ends at once (`Process.advanceAll_walks`).

The list of the lines that are left, the present one first, is what a call works on: it takes away the
first element, or leaves the list alone because it is the only one (`Process.OnWay.advance`).
-/

namespace DemandPaging

/-- The lines of an interval, ascending. There is at least one. -/
def Interval.toLines (i : Interval) : List Nat :=
  List.range' i.low (i.high + 1 - i.low)

theorem Interval.mem_toLines_iff {i : Interval} {line : Nat} : line ∈ i.toLines ↔ line ∈ i := by
  have := i.low_le_high
  rw [toLines, List.mem_range'_1, Interval.mem_iff]
  omega

namespace IntervalIndex

open Fault

variable {index index' : IntervalIndex} {recorded : List Interval} {requests : List IntervalRequest}
  {i : Interval} {pid : Pid} {line last : Nat}

/-- The lines of a process, interval by interval, in the order in which the intervals stand. -/
def coverage (index : IntervalIndex) (pid : Pid) : List Nat :=
  (index.intervals pid).flatMap Interval.toLines

/-- Records some intervals, all of which must be accepted. This is how an index is built for a cursor. -/
def insertAll (index : IntervalIndex) (requests : List IntervalRequest) : Except Fault IntervalIndex :=
  requests.foldlM (fun index request => do
    return (← index.insert request.pid request.low request.high request.offset).2) index

/-! ### The lines of a process -/

theorem Ordered.mem_coverage_iff (h : index.Ordered) :
    line ∈ index.coverage pid ↔ ∃ i ∈ index, i.pid = pid ∧ line ∈ i := by
  simp only [coverage, List.mem_flatMap, mem_intervals_iff h, Interval.mem_toLines_iff, and_assoc]

theorem Ordered.mem_of_first? (h : index.Ordered) (hfirst : index.first? pid = some i) :
    i ∈ index ∧ i.pid = pid :=
  (mem_intervals_iff h).1 (List.mem_of_mem_head? hfirst)

/-- Each line comes once, and after those below it. Within an interval this is so by counting, and
between two of them since they are in order and do not meet. -/
theorem Ordered.pairwise_coverage (h : index.Ordered) (pid : Pid) :
    (index.coverage pid).Pairwise (· < ·) := by
  refine List.pairwise_flatMap.2 ⟨fun i _ => List.pairwise_lt_range', ?_⟩
  refine (h.pairwise_intervals pid).imp_of_mem fun {i j} hi hj hlow line hline line' hline' => ?_
  obtain ⟨hi, hipid⟩ := (mem_intervals_iff h).1 hi
  obtain ⟨hj, hjpid⟩ := (mem_intervals_iff h).1 hj
  rw [Interval.mem_toLines_iff] at hline hline'
  -- the later interval would otherwise begin within the earlier one
  refine Nat.lt_of_not_le fun hle => Nat.ne_of_lt hlow ?_
  have hmeets : i.meets j = true := Interval.meets_iff.2
    ⟨j.low, ⟨Nat.le_of_lt hlow, Nat.le_trans hline'.1 (Nat.le_trans hle hline.2)⟩, j.low_mem⟩
  rw [h.apart hi hj (hipid.trans hjpid.symm) hmeets]

namespace Holds

/-- What was recorded without any refusal is what was asked for. By induction on the requests, with what
was recorded before. -/
theorem insertAll (h : index.Holds recorded) (hall : index.insertAll requests = .ok index') :
    ∃ recorded', index'.Holds recorded' ∧
      ∀ i, i ∈ recorded' ↔ i ∈ recorded ∨ ∃ request ∈ requests, request.interval? = some i := by
  induction requests generalizing index recorded with
  | nil =>
    cases hall
    exact ⟨recorded, h, fun i => by simp⟩
  | cons request rest ih =>
    simp only [IntervalIndex.insertAll, List.foldlM_cons, bind_eq_ok_iff, pure_eq_ok_iff] at hall
    obtain ⟨_, ⟨⟨j, index₁⟩, hinsert, rfl⟩, hrest⟩ := hall
    obtain ⟨answer, index₂, recorded₁, hrun, hreplies, h₁⟩ := h.record request
    rw [InPlace.record_eq, hinsert] at hrun
    cases hrun
    -- it was not refused, so it was granted
    cases hreplies with
    | granted hfits =>
      obtain ⟨recorded', h', hmem⟩ := ih h₁ hrest
      refine ⟨recorded', h', fun i => ?_⟩
      have hgranted : request.interval? = some (request.interval hfits.1) := dif_pos hfits.1
      have hnew : i = request.interval hfits.1 ↔ request.interval? = some i := by
        rw [hgranted, Option.some_inj, eq_comm]
      simp only [hmem, List.mem_append, List.mem_cons, List.not_mem_nil, or_false, exists_eq_or_imp,
        hnew, or_assoc]

/-- The lines of a process are those that were asked for. An interval comes of a request, and
has its lines. -/
theorem mem_coverage_iff (h : index.Holds recorded)
    (hmem : ∀ i, i ∈ recorded ↔ ∃ request ∈ requests, request.interval? = some i) :
    line ∈ index.coverage pid ↔ ∃ request ∈ requests, request.pid = pid ∧ line ∈ request := by
  rw [h.ordered.mem_coverage_iff]
  constructor
  · rintro ⟨i, hi, hpid, hline⟩
    obtain ⟨request, hrequest, hinterval⟩ := (hmem i).1 (h.mem_iff.1 hi)
    obtain ⟨hle, heq⟩ := Option.dite_none_right_eq_some.1 hinterval
    cases heq
    exact ⟨request, hrequest, hpid, hline⟩
  · -- a request that has a line has its bounds in order, so it was recorded
    rintro ⟨request, hrequest, hpid, hline⟩
    have hle : request.low ≤ request.high := Nat.le_trans hline.1 hline.2
    have hinterval : request.interval? = some (request.interval hle) := dif_pos hle
    exact ⟨_, h.mem_iff.2 ((hmem _).2 ⟨request, hrequest, hinterval⟩), hpid, hline⟩

/-- The last line that is kept is the last one of all lines. It is kept as a maximum over all that was
recorded, while the order of the lines comes from where the intervals stand. -/
theorem getLast?_coverage (h : index.Holds recorded) (hlast : index.lastLine? pid = some last) :
    (index.coverage pid).getLast? = some last := by
  rw [h.answers.lastLine?_eq, List.max?_eq_some_iff] at hlast
  obtain ⟨hhigh, hmax⟩ := hlast
  obtain ⟨i, hi, rfl⟩ := List.mem_map.1 hhigh
  obtain ⟨hi, hpid⟩ := List.mem_filter.1 hi
  have hmem : i.high ∈ index.coverage pid := h.ordered.mem_coverage_iff.2
    ⟨i, h.mem_iff.2 hi, of_decide_eq_true hpid, i.low_le_high, Nat.le_refl _⟩
  cases hend : (index.coverage pid).getLast? with
  | none =>
    rw [List.getLast?_eq_none_iff.1 hend] at hmem
    cases hmem
  | some line =>
    obtain ⟨before, hbefore⟩ := List.getLast?_eq_some_iff.1 hend
    have hsorted := h.ordered.pairwise_coverage pid
    rw [hbefore] at hsorted hmem
    -- no line is above the highest bound
    obtain ⟨j, hj, hjpid, hline⟩ := h.ordered.mem_coverage_iff.1 (List.mem_of_getLast? hend)
    have hjhigh : j.high ∈ (recorded.filter (·.pid = pid)).map (·.high) :=
      List.mem_map_of_mem (List.mem_filter.2 ⟨h.mem_iff.1 hj, decide_eq_true hjpid⟩)
    have hle : line ≤ i.high := Nat.le_trans hline.2 (hmax _ hjhigh)
    -- a line before the last one is below it, and the highest bound is not
    rcases List.mem_append.1 hmem with hin | hin
    · have hlt := (List.pairwise_append.1 hsorted).2.2 _ hin _ List.mem_cons_self
      exact absurd hle (Nat.not_le_of_lt hlt)
    · rw [List.mem_singleton.1 hin]

/-- A process with an entry has a first interval and a last line, since an entry is made only with an
interval. -/
theorem exists_bounds (h : index.Holds recorded) (hpid : pid ∈ index.pids) :
    ∃ first last, index.first? pid = some first ∧ index.lastLine? pid = some last := by
  obtain ⟨⟨_, own⟩, hentry, rfl⟩ := List.mem_map.1 hpid
  have hget := OrderedMap.mem_entries_iff.1 hentry
  obtain ⟨i, hi, hipid⟩ := h.known_iff.1 (Option.isSome_iff_exists.2 ⟨own, hget⟩)
  have hmem : i ∈ index.intervals _ := (mem_intervals_iff h.ordered).2 ⟨h.mem_iff.2 hi, hipid⟩
  obtain ⟨first, rest, hintervals⟩ := List.exists_cons_of_ne_nil (List.ne_nil_of_mem hmem)
  refine ⟨first, own.lastLine, ?_, ?_⟩
  · rw [first?, OrderedMap.first?, ← intervals, hintervals, List.head?_cons]
  · rw [lastLine?, hget, Option.map_some]

end Holds

end IntervalIndex

namespace Process

open IntervalIndex

variable {index : IntervalIndex} {recorded : List Interval} {requests : List IntervalRequest}
  {first : Interval} {p p₀ : Process} {pid : Pid} {left all offsets : List Nat} {last offset : Nat}

/-- Moves the cursor past some records, given the offsets just past them. It goes on asking when
the cursor is exhausted, and stays where it is then. -/
def advanceAll (index : IntervalIndex) (offsets : List Nat) (p : Process) : Except Fault Process :=
  offsets.foldlM (fun p offset => do return (← p.advance index offset).2) p

/-! ### The lines that are left -/

/-- The cursor is on its way: the lines that are left are the present one and those after it in its
interval, and all of the intervals that follow. What follows is told by the walk through the index that
the cursor takes itself. -/
structure OnWay (index : IntervalIndex) (p : Process) (left : List Nat) : Prop where
  /-- The interval is one of the index. -/
  interval_mem : p.interval ∈ index
  /-- It belongs to the process. -/
  owner : p.interval.pid = p.pid
  /-- It holds the line. -/
  line_mem : p.line ∈ p.interval
  /-- What is left. -/
  left_eq : ∃ after, index.Walks (index.next? p.interval) after ∧
    left = List.range' p.line (p.interval.high + 1 - p.line) ++ after.flatMap Interval.toLines

/-- At the first line of the first interval all lines are left. -/
theorem onWay_start (h : index.Ordered) (hfirst : index.first? pid = some first) :
    (start first last).OnWay index (index.coverage pid) := by
  have hwalks := h.walks_intervals pid
  rw [hfirst] at hwalks
  cases hintervals : index.intervals pid with
  | nil =>
    rw [hintervals] at hwalks
    cases hwalks
  | cons i rest =>
    rw [hintervals] at hwalks
    cases hwalks with
    | go hrest =>
      refine ⟨(h.mem_of_first? hfirst).1, rfl, first.low_mem, rest, hrest, ?_⟩
      rw [coverage, hintervals, List.flatMap_cons]
      rfl

/-- Either the interval goes on, or another one follows, or the present line is the only one left. These
are the three things that a call of `advance` tells apart. -/
theorem OnWay.left_cases (h : p.OnWay index left) :
    (∃ after, p.line < p.interval.high ∧ index.Walks (index.next? p.interval) after ∧
      left = p.line :: (List.range' (p.line + 1) (p.interval.high + 1 - (p.line + 1)) ++
        after.flatMap Interval.toLines)) ∨
    (∃ j after, p.line = p.interval.high ∧ index.next? p.interval = some j ∧
      index.Walks (index.next? j) after ∧
      left = p.line :: (j.toLines ++ after.flatMap Interval.toLines)) ∨
    (p.line = p.interval.high ∧ index.next? p.interval = none ∧ left = [p.line]) := by
  obtain ⟨-, hhigh⟩ := h.line_mem
  obtain ⟨after, hwalks, rfl⟩ := h.left_eq
  have hcount : p.interval.high + 1 - p.line = p.interval.high + 1 - (p.line + 1) + 1 := by omega
  rw [hcount, List.range'_succ]
  -- the present line is the last one of its interval, or it is not
  rcases Nat.lt_or_eq_of_le hhigh with hlt | heq
  · exact .inl ⟨after, hlt, hwalks, rfl⟩
  · rw [heq, Nat.sub_self, List.range'_zero]
    cases hnext : index.next? p.interval with
    | none =>
      rw [hnext] at hwalks
      cases hwalks
      exact .inr (.inr ⟨rfl, rfl, rfl⟩)
    | some j =>
      rw [hnext] at hwalks
      cases hwalks with
      | go hrest => exact .inr (.inl ⟨j, _, rfl, rfl, hrest, rfl⟩)

theorem OnWay.exists_cons (h : p.OnWay index left) : ∃ rest, left = p.line :: rest := by
  obtain ⟨after, -, -, hleft⟩ | ⟨j, after, -, -, -, hleft⟩ | ⟨-, -, hleft⟩ := h.left_cases <;>
    exact ⟨_, hleft⟩

/-- **One call.** It goes on to the next line, or stays on the last one. It takes the first element of
what is left away, and stands where the interval starts or where the call has put it. -/
theorem OnWay.advance (hordered : index.Ordered) (h : p.OnWay index left) (offset : Nat) :
    (∃ step p' rest, p.advance index offset = .ok (step, p') ∧ step ≠ .exhausted ∧
      left = p.line :: rest ∧ p'.OnWay index rest ∧
      p'.position = if p'.line = p'.interval.low then p'.interval.offset else offset) ∨
    (p.advance index offset = .ok (.exhausted, p) ∧ left = [p.line]) := by
  obtain ⟨after, hlt, hwalks, hleft⟩ | ⟨j, after, heq, hnext, hwalks, hleft⟩ | ⟨heq, hnext, hleft⟩ :=
    h.left_cases
  -- within an interval the cursor is never on its first line again
  · refine .inl ⟨.nextLine, { p with line := p.line + 1, position := offset }, _, advance_of_lt hlt,
      nofun, hleft, ⟨h.interval_mem, h.owner, ⟨Nat.le_succ_of_le h.line_mem.1, hlt⟩, after, hwalks, rfl⟩,
      ?_⟩
    have hlow : p.line + 1 ≠ p.interval.low := by
      have := h.line_mem.1
      omega
    exact (if_neg hlow).symm
  · -- the next interval begins at its first line
    have hadvance : p.advance index offset = _ := advance_of_eq heq
    rw [hnext] at hadvance
    obtain ⟨hj, hpid, -⟩ := next?_eq_some hordered h.interval_mem hnext
    exact .inl ⟨.nextInterval, _, _, hadvance, nofun, hleft,
      ⟨hj, hpid.trans h.owner, j.low_mem, after, hwalks, rfl⟩, (if_pos rfl).symm⟩
  · -- nothing follows, so the cursor is where it was
    have hadvance : p.advance index offset = _ := advance_of_eq heq
    rw [hnext] at hadvance
    exact .inr ⟨hadvance, hleft⟩

/-- The interval goes on or another one follows just as long as more than one line is left. This is what
the process can ask without moving. -/
theorem OnWay.more_iff (h : p.OnWay index left) :
    (p.hasLinesInInterval || p.hasIntervals index) = true ↔ 1 < left.length := by
  rw [Bool.or_eq_true, hasLinesInInterval, hasIntervals, decide_eq_true_iff]
  obtain ⟨after, hlt, hwalks, rfl⟩ | ⟨j, after, heq, hnext, hwalks, rfl⟩ | ⟨heq, hnext, rfl⟩ :=
    h.left_cases
  · refine iff_of_true (.inl hlt) ?_
    simp only [List.length_cons, List.length_append, List.length_range']
    omega
  · refine iff_of_true (.inr (by rw [hnext]; rfl)) ?_
    have := j.low_le_high
    simp only [List.length_cons, List.length_append, Interval.toLines, List.length_range']
    omega
  · rw [hnext, heq]
    simp

/-! ### Any number of calls -/

/-- After some calls: the cursor took a line with each of them while there was another one. So the lines
passed over are as many as the calls, or all but the last one if there were more calls than that. -/
structure Walked (index : IntervalIndex) (all offsets : List Nat) (p p₀ : Process) : Prop where
  /-- The lines passed over are gone. -/
  onWay : p.OnWay index (all.drop (min offsets.length (all.length - 1)))
  /-- Only the cursor moved. -/
  cursor : p = { p₀ with line := p.line, interval := p.interval, position := p.position }
  /-- It stands where its interval starts, or where the last move put it. -/
  position_eq : some p.position =
    if p.line = p.interval.low then some p.interval.offset
    else (offsets.take (all.length - 1)).getLast?

/-- One call more takes one line more, or finds that none is left. -/
theorem Walked.step (hordered : index.Ordered) (h : p.Walked index all offsets p₀) (offset : Nat) :
    ∃ step p', p.advance index offset = .ok (step, p') ∧
      p'.Walked index all (offsets ++ [offset]) p₀ := by
  obtain ⟨step, p', rest, hadvance, -, hleft, honWay, hposition⟩ | ⟨hadvance, hleft⟩ :=
    h.onWay.advance hordered offset
  -- there was another line, so all calls so far have moved the cursor
  · have hlength := congrArg List.length hleft
    obtain ⟨rest', rfl⟩ := honWay.exists_cons
    simp only [List.length_drop, List.length_cons] at hlength
    have hmin : min offsets.length (all.length - 1) = offsets.length := by omega
    have hmin' : min (offsets ++ [offset]).length (all.length - 1) = offsets.length + 1 := by
      rw [List.length_append, List.length_singleton]
      omega
    have hdrop : all.drop (offsets.length + 1) = p'.line :: rest' := by
      rw [← List.tail_drop, ← hmin, hleft, List.tail_cons]
    have htake : (offsets ++ [offset]).take (all.length - 1) = offsets ++ [offset] :=
      List.take_of_length_le (by rw [List.length_append, List.length_singleton]; omega)
    refine ⟨step, p', hadvance, ⟨?_, ?_, ?_⟩⟩
    · rw [hmin', hdrop]
      exact honWay
    · rw [(advance_cases hadvance).1, h.cursor]
    · rw [htake, List.getLast?_concat, hposition]
      split <;> rfl
  -- the cursor was on the last line already, and this call has not moved it
  · have hlength := congrArg List.length hleft
    simp only [List.length_drop, List.length_singleton] at hlength
    have hmin : min (offsets ++ [offset]).length (all.length - 1) =
        min offsets.length (all.length - 1) := by
      rw [List.length_append, List.length_singleton]
      omega
    have htake : (offsets ++ [offset]).take (all.length - 1) = offsets.take (all.length - 1) :=
      List.take_append_of_le_length (by omega)
    refine ⟨.exhausted, p, hadvance, ⟨?_, h.cursor, ?_⟩⟩
    · rw [hmin]
      exact h.onWay
    · rw [htake]
      exact h.position_eq

/-- By induction on the calls, the last one last. -/
theorem Walked.exists_advanceAll (hordered : index.Ordered)
    (h : p₀.Walked index all [] p₀) (offsets : List Nat) :
    ∃ p, p₀.advanceAll index offsets = .ok p ∧ p.Walked index all offsets p₀ := by
  induction offsets using List.reverseRecOn with
  | nil => exact ⟨p₀, rfl, h⟩
  | append_singleton offsets offset ih =>
    obtain ⟨p, hall, hwalked⟩ := ih
    obtain ⟨step, p', hadvance, hwalked'⟩ := hwalked.step hordered offset
    refine ⟨p', ?_, hwalked'⟩
    rw [advanceAll] at hall ⊢
    rw [List.foldlM_append, hall, Fault.ok_bind, List.foldlM_cons, hadvance]
    rfl

section

variable (h : p.OnWay index left) (hsuffix : left <:+ all) (hsorted : all.Pairwise (· < ·))
  (hlast : all.getLast? = some last)

include h hsuffix hsorted hlast

/-- The cursor is on the last line just when no other one is left. The lines ascend, so the one that is
the greatest of all is not there before the end. -/
theorem OnWay.line_cases :
    (p.line < last ∧ 1 < left.length) ∨ (p.line = last ∧ left = [p.line]) := by
  obtain ⟨rest, rfl⟩ := h.exists_cons
  obtain ⟨before, rfl⟩ := hsuffix
  rw [List.getLast?_append, List.getLast?_cons, Option.some_or, Option.some_inj] at hlast
  cases rest with
  | nil => exact .inr ⟨hlast, rfl⟩
  | cons next rest =>
    have hmem : last ∈ next :: rest := List.mem_of_getLast? (by rw [← hlast, List.getLast?_cons]; rfl)
    have hafter := (List.pairwise_cons.1 (List.pairwise_append.1 hsorted).2.1).1
    refine .inl ⟨hafter _ hmem, ?_⟩
    rw [List.length_cons, List.length_cons]
    omega

/-- The call says that the lines are exhausted on the last line, and on no other. -/
theorem OnWay.exhausted_iff (hordered : index.Ordered) (offset : Nat) :
    ∃ step p', p.advance index offset = .ok (step, p') ∧
      (step = .exhausted ↔ p.line = last) ∧ (step = .exhausted → p' = p) := by
  obtain ⟨hlt, hlong⟩ | ⟨heq, hsingle⟩ := h.line_cases hsuffix hsorted hlast <;>
    obtain ⟨step, p', rest, hadvance, hmoved, hleft, honWay, -⟩ | ⟨hadvance, hleft⟩ :=
      h.advance hordered offset
  · -- both ways of telling an end agree, so of the four cases two are left
    exact ⟨step, p', hadvance, iff_of_false hmoved (Nat.ne_of_lt hlt), fun hend => absurd hend hmoved⟩
  · rw [hleft] at hlong
    exact absurd hlong (Nat.lt_irrefl _)
  · obtain ⟨rest', rfl⟩ := honWay.exists_cons
    rw [hsingle] at hleft
    cases hleft
  · exact ⟨.exhausted, p, hadvance, iff_of_true rfl heq, fun _ => rfl⟩

end

/-- **A cursor walks the lines of its process.** Take an index that has accepted some intervals, in
whatever order, and a process that has one of them. The cursor of the process starts in its first
interval. After any number of calls of `advance`, with any offsets, nothing but the cursor has changed;
it is in the interval in which its line is found; a later line is left in the file if and only if one is
left in the interval or another interval follows; it has gone over the lines of the intervals, ascending
and each once, up to the one that has the number of the call; and it stands where its interval starts if
the line is the first one there, and otherwise where the call that moved it said. The next call does not
fail. It answers that the lines are exhausted, and then leaves the cursor alone, if and only if the last
line was reached. -/
theorem advanceAll_walks (hbuilt : (∅ : IntervalIndex).insertAll requests = .ok index)
    (hpid : pid ∈ index.pids) :
    ∃ first last, index.first? pid = some first ∧ index.lastLine? pid = some last ∧
      (index.coverage pid).Pairwise (· < ·) ∧ (index.coverage pid).getLast? = some last ∧
      (∀ line, line ∈ index.coverage pid ↔
        ∃ request ∈ requests, request.pid = pid ∧ line ∈ request) ∧
      ∀ offsets, ∃ p, (start first last).advanceAll index offsets = .ok p ∧
        p = { start first last with
          line := p.line, interval := p.interval, position := p.position } ∧
        index.find? pid p.line = some p.interval ∧
        p.hasLinesInFile = (p.hasLinesInInterval || p.hasIntervals index) ∧
        (index.coverage pid)[min offsets.length ((index.coverage pid).length - 1)]? = some p.line ∧
        some p.position = (if p.line = p.interval.low then some p.interval.offset
          else (offsets.take ((index.coverage pid).length - 1)).getLast?) ∧
        ∀ offset, ∃ step p', p.advance index offset = .ok (step, p') ∧
          (step = .exhausted ↔ p.line = last) ∧ (step = .exhausted → p' = p) := by
  obtain ⟨recorded, hholds, hrecorded⟩ := holds_empty.insertAll hbuilt
  have hordered := hholds.ordered
  obtain ⟨first, last, hfirst, hlast⟩ := hholds.exists_bounds hpid
  have hend := hholds.getLast?_coverage hlast
  have hsorted := hordered.pairwise_coverage pid
  have hstart : (start first last).Walked index (index.coverage pid) [] (start first last) := by
    refine ⟨?_, rfl, (if_pos rfl).symm⟩
    rw [List.length_nil, Nat.zero_min, List.drop_zero]
    exact onWay_start hordered hfirst
  refine ⟨first, last, hfirst, hlast, hsorted, hend,
    fun line => hholds.mem_coverage_iff fun i => by simpa using hrecorded i, fun offsets => ?_⟩
  obtain ⟨p, hall, hwalked⟩ := hstart.exists_advanceAll hordered offsets
  have honWay := hwalked.onWay
  have hsuffix := List.drop_suffix (min offsets.length ((index.coverage pid).length - 1))
    (index.coverage pid)
  have howner : p.interval.pid = pid := by
    rw [honWay.owner, hwalked.cursor]
    exact (hordered.mem_of_first? hfirst).2
  refine ⟨p, hall, hwalked.cursor, ?_, ?_, ?_, hwalked.position_eq,
    honWay.exhausted_iff hsuffix hsorted hend hordered⟩
  · -- no two intervals of a process share a line, so looking the line up gives the interval of the
    -- cursor
    rw [← howner]
    exact find?_eq_some_of_mem hordered honWay.interval_mem honWay.line_mem
  · -- that a later line is left was told from the last line that the process keeps
    have hlastLine : p.lastLine = last := by
      rw [hwalked.cursor]
      rfl
    rw [Bool.eq_iff_iff, honWay.more_iff, hasLinesInFile, hlastLine, decide_eq_true_iff]
    obtain ⟨hlt, hlong⟩ | ⟨heq, hsingle⟩ := honWay.line_cases hsuffix hsorted hend
    · exact iff_of_true hlt hlong
    · rw [hsingle, heq]
      exact iff_of_false (Nat.lt_irrefl _) (Nat.lt_irrefl _)
  · obtain ⟨rest, hrest⟩ := honWay.exists_cons
    rw [← List.head?_drop, hrest, List.head?_cons]

/-- Intervals that touch are walked like one, whatever offsets the calls are given. -/
theorem advanceAll_walks_touching :
    (∅ : IntervalIndex).insertAll touching = .ok ((∅ : IntervalIndex).recordAll touching).2 ∧
    2 ∈ ((∅ : IntervalIndex).recordAll touching).2.pids ∧
    ∃ first last, ((∅ : IntervalIndex).recordAll touching).2.first? 2 = some first ∧
      ((∅ : IntervalIndex).recordAll touching).2.lastLine? 2 = some last ∧
      ∀ offsets, ∃ p,
        (start first last).advanceAll ((∅ : IntervalIndex).recordAll touching).2 offsets = .ok p ∧
        p.line = min offsets.length 24 + 1 := by
  have hbuilt : (∅ : IntervalIndex).insertAll touching = .ok ((∅ : IntervalIndex).recordAll touching).2 :=
    by decide
  have hpid : 2 ∈ ((∅ : IntervalIndex).recordAll touching).2.pids := by decide
  have hcoverage : ((∅ : IntervalIndex).recordAll touching).2.coverage 2 = List.range' 1 25 := by decide
  obtain ⟨first, last, hfirst, hlast, -, -, -, hwalk⟩ := advanceAll_walks hbuilt hpid
  refine ⟨hbuilt, hpid, first, last, hfirst, hlast, fun offsets => ?_⟩
  obtain ⟨p, hall, -, -, -, hline, -⟩ := hwalk offsets
  refine ⟨p, hall, ?_⟩
  rw [hcoverage, List.length_range', List.getElem?_range' (by omega), Option.some_inj] at hline
  omega

end Process

end DemandPaging
