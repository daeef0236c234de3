import DemandPaging.Policy.Clock
import Mathlib.Data.List.Rotate

/-!
# The sweep of the clock

A sweep goes round the frames from the hand on. `Clock.Sweeps` is the sweep as it goes, without a bound
on the number of frames that it looks at, and `Clock.round` is the order in which it comes to them.

The hand passes over a frame that holds no page, and over one with a mark, which it takes away. It
stops at the first *candidate*, an occupied frame without a mark. One step of the hand takes the head
of the round to its end; so when it has passed over some frames and none of them was a candidate, these
stand at the end of the round, are as occupied as they were, and have no mark if they are occupied
(`exists_passes`).

* If there is a candidate, the hand gets there in its first round (`exists_sweeps_of_candidate`).
* If there is none then after one round no occupied frame has a mark, so that the first occupied frame
  is a candidate in the second one (`exists_sweeps_of_marked`).

So two rounds are always enough, and it is known which marks are left, which frames are occupied and
where the hand is (`victim_of_occupied`).
-/

namespace DemandPaging.Clock

variable {clock clock' left : Clock} {frame other : FrameId} {passed rest todo : List FrameId}
  {examined steps : Nat} {f : ClockFrame → ClockFrame}

/-- Whether the clock takes a frame to hold a page. Beyond the last frame the answer is no. -/
def occupies (clock : Clock) (frame : FrameId) : Bool := clock.frames[frame]?.any (·.occupied)

/-- Whether a frame has a mark. An empty frame may have one as far as a sweep is concerned; it
is passed over as it is. -/
def marks (clock : Clock) (frame : FrameId) : Bool := clock.frames[frame]?.any (·.referenced)

/-- Whether a sweep that comes to a frame ends there: a page is in it, and it has no mark. -/
def candidate (clock : Clock) (frame : FrameId) : Bool := clock.occupies frame && !clock.marks frame

/-- The frames in the order in which the hand comes to them. It is a rotation of all frames, which each
step of the hand rotates by one. -/
def round (clock : Clock) : List FrameId := (List.range clock.size).rotate clock.hand

/-- A sweep that goes on until it has passed a victim, with the number of frames that it looks at. It has
no bound on that number; that it ends at all is what has to be shown. -/
inductive Sweeps : Clock → Nat → FrameId → Clock → Prop where
  /-- An empty frame is passed over as it is. -/
  | empty {clock clock' : Clock} {examined : Nat} {frame : FrameId}
    (hempty : clock.current.occupied = false)
    (hrest : Sweeps (clock.advance id) examined frame clock') :
    Sweeps clock (examined + 1) frame clock'
  /-- A frame with a mark loses it and is passed over. -/
  | marked {clock clock' : Clock} {examined : Nat} {frame : FrameId}
    (hoccupied : clock.current.occupied = true) (hmarked : clock.current.referenced = true)
    (hrest : Sweeps (clock.advance ({ · with referenced := false })) examined frame clock') :
    Sweeps clock (examined + 1) frame clock'
  /-- An occupied frame without a mark is the victim. -/
  | victim {clock : Clock} (hoccupied : clock.current.occupied = true)
    (hunmarked : clock.current.referenced = false) :
    Sweeps clock 1 clock.hand (clock.advance ({ · with occupied := false }))

/-- What is left when the hand has passed over some frames, none of which was a candidate. What holds of
several frames follows from what holds of each, one after the other. -/
structure Passes (clock : Clock) (passed : List FrameId) (left : Clock) : Prop where
  /-- There are as many frames as before. -/
  size_eq : left.size = clock.size
  /-- The same frames are occupied. -/
  occupies_eq : ∀ other, left.occupies other = clock.occupies other
  /-- The occupied frames that were passed over, and no others, have lost their marks. -/
  marks_iff : ∀ other, left.marks other = true ↔
    clock.marks other = true ∧ ¬(other ∈ passed ∧ clock.occupies other = true)
  /-- The rest of the sweep is what it does from here. -/
  sweeps : ∀ {examined frame clock'}, left.Sweeps examined frame clock' →
    clock.Sweeps (passed.length + examined) frame clock'

/-- What a sweep leaves behind that has passed over some frames and then come to a victim. A
frame that was passed over twice has lost its mark the first time, so that the frames passed
over can be taken as a set. -/
structure Swept (clock : Clock) (passed : List FrameId) (frame : FrameId) (clock' : Clock) : Prop where
  /-- There are as many frames as before. -/
  size_eq : clock'.size = clock.size
  /-- The hand is past the victim. -/
  hand_eq : clock'.hand = (frame + 1) % clock.size
  /-- The victim, and no other frame, is not occupied any more. -/
  occupies_iff : ∀ other,
    clock'.occupies other = true ↔ clock.occupies other = true ∧ other ≠ frame
  /-- The occupied frames that were passed over, and no others, have lost their marks. -/
  marks_iff : ∀ other, clock'.marks other = true ↔
    clock.marks other = true ∧ ¬(other ∈ passed ∧ clock.occupies other = true)

theorem candidate_iff :
    clock.candidate frame = true ↔ clock.occupies frame = true ∧ clock.marks frame = false := by
  rw [candidate, Bool.and_eq_true, Bool.not_eq_true']

/-! ### One step of the hand -/

theorem any_of_lt_size (hframe : frame < clock.frames.size) (test : ClockFrame → Bool) :
    clock.frames[frame]?.any test = test clock.frames[frame] := by
  rw [Array.getElem?_eq_getElem hframe, Option.any_some]

theorem getElem?_hand : clock.frames[clock.hand]? = some clock.current :=
  Array.getElem?_eq_getElem clock.hand_lt

theorem occupies_hand : clock.occupies clock.hand = clock.current.occupied :=
  any_of_lt_size clock.hand_lt _

theorem marks_hand : clock.marks clock.hand = clock.current.referenced :=
  any_of_lt_size clock.hand_lt _

theorem lt_size_of_occupies (h : clock.occupies frame = true) : frame < clock.size := by
  by_contra hge
  rw [occupies, Array.getElem?_eq_none (Nat.le_of_not_lt hge)] at h
  cases h

theorem size_advance : (clock.advance f).size = clock.size :=
  Array.size_modify

theorem any_advance (test : ClockFrame → Bool) : (clock.advance f).frames[other]?.any test =
    if other = clock.hand then test (f clock.current) else clock.frames[other]?.any test := by
  simp only [advance, Array.getElem?_modify, eq_comm (a := clock.hand)]
  split
  · next heq =>
    rw [heq, getElem?_hand]
    rfl
  · rfl

theorem occupies_advance : (clock.advance f).occupies other =
    if other = clock.hand then (f clock.current).occupied else clock.occupies other :=
  any_advance _

theorem marks_advance : (clock.advance f).marks other =
    if other = clock.hand then (f clock.current).referenced else clock.marks other :=
  any_advance _

/-! ### The round -/

theorem exists_round_eq : ∃ rest, clock.round = clock.hand :: rest := by
  -- the hand is within the frames, and a rotation begins with what stands at the place it is cut
  have hlt : clock.hand < (List.range clock.size).length := by
    rw [List.length_range]
    exact clock.hand_lt
  rw [round, List.rotate_eq_drop_append_take hlt.le, List.drop_eq_getElem_cons hlt,
    List.getElem_range]
  exact ⟨_, rfl⟩

theorem round_advance (h : clock.round = frame :: rest) :
    (clock.advance f).round = rest ++ [frame] := by
  -- one more frame is passed, up to a whole round
  have hround : (clock.advance f).round = clock.round.rotate 1 := by
    rw [round, round, size_advance, List.rotate_rotate]
    nth_rewrite 2 [← List.rotate_mod]
    rw [List.length_range]
    rfl
  rw [hround, h, List.rotate_cons_succ, List.rotate_zero]

theorem mem_round_iff : frame ∈ clock.round ↔ frame < clock.size := by
  rw [round, List.mem_rotate, List.mem_range]

theorem nodup_round : clock.round.Nodup :=
  List.nodup_rotate.2 List.nodup_range

theorem length_round : clock.round.length = clock.size := by
  rw [round, List.length_rotate, List.length_range]

/-! ### Passing over frames -/

/-- The hand leaves a frame behind. What is done to the frame leaves it as occupied as it was, and with
its mark only if it is empty. -/
theorem passes_advance (hoccupied : (f clock.current).occupied = clock.current.occupied)
    (hmark : (f clock.current).referenced = true ↔
      clock.current.referenced = true ∧ ¬clock.current.occupied = true)
    (hsweeps : ∀ {examined frame clock'}, (clock.advance f).Sweeps examined frame clock' →
      clock.Sweeps (examined + 1) frame clock') : clock.Passes [clock.hand] (clock.advance f) where
  size_eq := size_advance
  -- the frame at the hand, and all others
  occupies_eq other := by
    rw [occupies_advance]
    split
    · next heq => rw [heq, hoccupied, occupies_hand]
    · rfl
  marks_iff other := by
    rw [marks_advance, List.mem_singleton]
    split
    · next heq => rw [heq, hmark, marks_hand, occupies_hand, and_iff_right rfl]
    · next hne => rw [and_iff_left fun h => hne h.1]
  sweeps h := by
    rw [List.length_singleton, Nat.add_comm]
    exact hsweeps h

/-- **A frame that is passed over.** It is the first of the round, and goes to its end. It loses
its mark if it is occupied, and no other frame changes. -/
theorem exists_passes_hand (hround : clock.round = frame :: rest)
    (hcandidate : clock.candidate frame = false) :
    ∃ left, left.round = rest ++ [frame] ∧ clock.Passes [frame] left := by
  -- the hand is at the head of the round
  obtain ⟨_, hcons⟩ := clock.exists_round_eq
  obtain rfl : clock.hand = frame := (List.cons.inj (hcons.symm.trans hround)).1
  rw [candidate, occupies_hand, marks_hand] at hcandidate
  -- a frame is passed because it is empty, or because it has a mark
  cases hoccupied : clock.current.occupied with
  | false =>
    refine ⟨_, round_advance hround, passes_advance rfl ?_ (.empty hoccupied)⟩
    rw [hoccupied]
    exact (and_iff_left Bool.false_ne_true).symm
  | true =>
    -- it is occupied and not a candidate, so it has a mark
    have hmarked : clock.current.referenced = true := by
      simpa [hoccupied] using hcandidate
    refine ⟨_, round_advance hround, passes_advance rfl ?_ (.marked hoccupied hmarked)⟩
    rw [hoccupied]
    exact iff_of_false Bool.false_ne_true fun h => h.2 rfl

theorem Passes.candidate_eq (h : clock.Passes passed left) (hmem : other ∉ passed) :
    left.candidate other = clock.candidate other := by
  have hmarks : left.marks other = clock.marks other := by
    rw [Bool.eq_iff_iff, h.marks_iff]
    exact and_iff_left fun h => hmem h.1
  rw [candidate, candidate, h.occupies_eq, hmarks]

/-- **Several frames that are passed over.** None of them is a candidate when the hand comes to it, since
it comes to each of them once. -/
theorem exists_passes (hround : clock.round = passed ++ todo)
    (hnone : ∀ other ∈ passed, clock.candidate other = false) :
    ∃ left, left.round = todo ++ passed ∧ clock.Passes passed left := by
  -- by induction on the frames, for any clock, since each of them leaves another one
  induction passed generalizing clock todo with
  | nil =>
    refine ⟨clock, ?_, rfl, fun _ => rfl, fun other => ?_, fun h => ?_⟩
    · rw [hround, List.append_nil, List.nil_append]
    · exact (and_iff_left fun h => List.not_mem_nil h.1).symm
    · rwa [List.length_nil, Nat.zero_add]
  | cons first passed ih =>
    -- the hand comes to each frame once, so the others are as the first one has left them
    have hnodup : first ∉ passed ++ todo := by
      have := clock.nodup_round
      rw [hround, List.cons_append] at this
      exact (List.nodup_cons.1 this).1
    -- the first one is passed and goes to the end of the round
    obtain ⟨next, hnext, hfirst⟩ := exists_passes_hand hround (hnone first List.mem_cons_self)
    obtain ⟨left, hleft, hpasses⟩ := ih (hnext.trans (List.append_assoc ..)) fun other hmem => by
      rw [hfirst.candidate_eq]
      · exact hnone other (List.mem_cons_of_mem first hmem)
      · intro heq
        exact hnodup (List.mem_append_left _ (List.mem_singleton.1 heq ▸ hmem))
    refine ⟨left, ?_, hpasses.size_eq.trans hfirst.size_eq,
      fun other => (hpasses.occupies_eq other).trans (hfirst.occupies_eq other), fun other => ?_,
      fun h => ?_⟩
    · rw [hleft, List.append_assoc, List.singleton_append]
    · -- a mark is gone if the first one took it or the others did
      rw [hpasses.marks_iff, hfirst.marks_iff, hfirst.occupies_eq, List.mem_singleton, List.mem_cons]
      tauto
    · have := hfirst.sweeps (hpasses.sweeps h)
      rwa [List.length_singleton, ← Nat.add_assoc, Nat.add_comm 1, ← List.length_cons] at this

/-! ### Coming to a victim -/

/-- **A candidate.** The sweep ends at the first one of the round. The frames before it are
passed over one by one, and each of them leaves the candidate where it is. -/
theorem exists_sweeps_of_candidate (hround : clock.round = passed ++ frame :: rest)
    (hnone : ∀ other ∈ passed, clock.candidate other = false)
    (hcandidate : clock.candidate frame = true) :
    ∃ clock', clock.Sweeps (passed.length + 1) frame clock' ∧ clock.Swept passed frame clock' := by
  obtain ⟨left, hleft, hpasses⟩ := exists_passes hround hnone
  -- the victim is not among the frames that were passed, and is still a candidate
  have hmem : frame ∉ passed := fun hmem => by
    rw [hnone frame hmem] at hcandidate
    cases hcandidate
  -- after them the hand is at the victim
  obtain ⟨_, hcons⟩ := left.exists_round_eq
  obtain rfl : left.hand = frame := (List.cons.inj (hcons.symm.trans hleft)).1
  rw [← hpasses.candidate_eq hmem, candidate_iff, occupies_hand, marks_hand] at hcandidate
  obtain ⟨hoccupied, hunmarked⟩ := hcandidate
  refine ⟨_, hpasses.sweeps (.victim hoccupied hunmarked), size_advance.trans hpasses.size_eq,
    congrArg ((left.hand + 1) % ·) hpasses.size_eq, fun other => ?_, fun other => ?_⟩
  · -- all frames but the victim are as occupied as before, and the marks are those of the passes
    rw [occupies_advance]
    split
    · next heq => exact iff_of_false Bool.false_ne_true fun h => h.2 heq
    · next hne => rw [hpasses.occupies_eq, and_iff_left hne]
  · rw [← hpasses.marks_iff, marks_advance]
    split
    · next heq => rw [heq, marks_hand]
    · rfl

/-- **No candidate.** The sweep passes over all frames and then ends at the first one of the round that
is occupied. -/
theorem exists_sweeps_of_marked (hmarks : ∀ other, clock.occupies other = true →
      clock.marks other = true) (hround : clock.round = passed ++ frame :: rest)
    (hempty : ∀ other ∈ passed, clock.occupies other = false)
    (hoccupied : clock.occupies frame = true) :
    ∃ clock', clock.Sweeps (clock.size + (passed.length + 1)) frame clock' ∧
      clock.Swept clock.round frame clock' := by
  obtain ⟨left, hleft, hpasses⟩ : ∃ left, left.round = [] ++ clock.round ∧
      clock.Passes clock.round left := by
    -- with marks everywhere, nothing is a candidate in the first round
    refine exists_passes (List.append_nil _).symm fun other _ => Bool.eq_false_iff.2 fun hcandidate => ?_
    obtain ⟨hother, hunmarked⟩ := candidate_iff.1 hcandidate
    rw [hmarks other hother] at hunmarked
    cases hunmarked
  have hlength := clock.length_round
  -- after one round no occupied frame has a mark
  have hcandidate : ∀ other, left.candidate other = clock.occupies other := by
    intro other
    rw [Bool.eq_iff_iff, candidate_iff, hpasses.occupies_eq, and_iff_left_iff_imp]
    intro hother
    refine Bool.eq_false_iff.2 fun hmark => ?_
    exact ((hpasses.marks_iff other).1 hmark).2
      ⟨mem_round_iff.2 (lt_size_of_occupies hother), hother⟩
  obtain ⟨clock', hsweeps, hswept⟩ := exists_sweeps_of_candidate (hleft.trans hround)
    (fun other hmem => (hcandidate other).trans (hempty other hmem)) ((hcandidate frame).trans hoccupied)
  refine ⟨clock', hlength ▸ hpasses.sweeps hsweeps, hswept.size_eq.trans hpasses.size_eq,
    hpasses.size_eq ▸ hswept.hand_eq, fun other => ?_, fun other => ?_⟩
  · -- the second round passes over empty frames only, so the marks that are gone are those of the first
    rw [hswept.occupies_iff, hpasses.occupies_eq]
  · rw [hswept.marks_iff, hpasses.marks_iff, hpasses.occupies_eq]
    refine and_iff_left_of_imp fun hboth hagain => hboth.2 ⟨?_, hagain.2⟩
    rw [hround]
    exact List.mem_append_left _ hagain.1

/-! ### The victim -/

/-- A bound on the number of frames is no restriction if it is not below the number that are
looked at. By induction on the sweep, with the bound going down by one at each frame. -/
theorem Sweeps.sweep_eq (h : clock.Sweeps examined frame clock') (hsteps : examined ≤ steps) :
    clock.sweep steps = some (frame, clock') := by
  -- along the sweep; a bound that covers it allows each of its steps
  induction h generalizing steps with
  | empty hempty hrest ih =>
    obtain ⟨more, rfl⟩ : ∃ more, steps = more + 1 := ⟨steps - 1, by omega⟩
    rw [sweep, hempty]
    exact ih (Nat.le_of_succ_le_succ hsteps)
  | marked hoccupied hmarked hrest ih =>
    obtain ⟨more, rfl⟩ : ∃ more, steps = more + 1 := ⟨steps - 1, by omega⟩
    rw [sweep, hoccupied, hmarked]
    exact ih (Nat.le_of_succ_le_succ hsteps)
  | victim hoccupied hunmarked =>
    obtain ⟨more, rfl⟩ : ∃ more, steps = more + 1 := ⟨steps - 1, by omega⟩
    rw [sweep, hoccupied, hunmarked]
    rfl

/-- **Two rounds are enough.** A sweep that is not bounded ends within two rounds of frames if there is
an occupied frame. Which of the two cases it is decides which marks are gone. -/
theorem exists_sweeps (h : clock.occupies other = true) :
    ∃ frame clock' examined passed, clock.Sweeps examined frame clock' ∧ examined ≤ 2 * clock.size ∧
      clock.Swept passed frame clock' ∧
      (clock.round.find? clock.candidate = some frame ∧
          passed = clock.round.takeWhile (· ≠ frame) ∨
        (∀ other, clock.occupies other = true → clock.marks other = true) ∧
          clock.round.find? clock.occupies = some frame ∧ passed = clock.round) := by
  -- the occupied frame is in the round, so that the search for an occupied one succeeds
  have hmem : other ∈ clock.round := mem_round_iff.2 (lt_size_of_occupies h)
  have hlength := clock.length_round
  cases hfind : clock.round.find? clock.candidate with
  | some frame =>
    obtain ⟨hcandidate, passed, rest, hround, hnone⟩ := List.find?_eq_some_iff_append.1 hfind
    have hnone : ∀ other ∈ passed, clock.candidate other = false := by simpa using hnone
    obtain ⟨clock', hsweeps, hswept⟩ := exists_sweeps_of_candidate hround hnone hcandidate
    -- the frames before the first candidate are not it
    have hpassed : clock.round.takeWhile (· ≠ frame) = passed := by
      rw [hround, List.takeWhile_append_of_pos, List.takeWhile_cons_of_neg (by simp), List.append_nil]
      intro other hother
      refine decide_eq_true fun heq => ?_
      rw [← heq, hnone other hother] at hcandidate
      cases hcandidate
    refine ⟨frame, clock', _, passed, hsweeps, ?_, hswept, .inl ⟨rfl, hpassed.symm⟩⟩
    -- the frames that were looked at are in the round
    rw [hround, List.length_append, List.length_cons] at hlength
    omega
  | none =>
    -- no candidate means that all occupied frames have marks
    have hmarks : ∀ other, clock.occupies other = true → clock.marks other = true := by
      intro other hother
      by_contra hunmarked
      exact List.find?_eq_none.1 hfind other (mem_round_iff.2 (lt_size_of_occupies hother))
        (candidate_iff.2 ⟨hother, Bool.not_eq_true _ ▸ hunmarked⟩)
    cases hfirst : clock.round.find? clock.occupies with
    | none => exact absurd h (List.find?_eq_none.1 hfirst other hmem)
    | some frame =>
      obtain ⟨hoccupied, passed, rest, hround, hempty⟩ := List.find?_eq_some_iff_append.1 hfirst
      obtain ⟨clock', hsweeps, hswept⟩ :=
        exists_sweeps_of_marked hmarks hround (by simpa using hempty) hoccupied
      refine ⟨frame, clock', _, clock.round, hsweeps, ?_, hswept, .inr ⟨hmarks, rfl, rfl⟩⟩
      rw [hround, List.length_append, List.length_cons] at hlength
      omega

theorem Sweeps.victim_eq (h : clock.Sweeps examined frame clock') (hsteps : examined ≤ 2 * clock.size) :
    clock.victim = .ok (frame, clock') :=
  Fault.demand_eq_ok_iff.2 (h.sweep_eq hsteps)

/-- **The victim of a sweep.** If any frame is occupied then a sweep ends within two rounds of frames. It
ends at the first occupied frame of the round that has no mark, and the frames before it are passed
over; or, if all occupied frames have marks, at the first occupied frame, and then all frames have been
passed over. The occupied ones of these lose their marks, the victim is no longer occupied, and nothing
else changes but the hand, which is past the victim. -/
theorem victim_of_occupied (h : ∃ frame, clock.occupies frame = true) :
    ∃ frame clock' examined, clock.victim = .ok (frame, clock') ∧
      clock.Sweeps examined frame clock' ∧ examined ≤ 2 * clock.size ∧
      (clock.round.find? clock.candidate = some frame ∧
          clock.Swept (clock.round.takeWhile (· ≠ frame)) frame clock' ∨
        (∀ other, clock.occupies other = true → clock.marks other = true) ∧
          clock.round.find? clock.occupies = some frame ∧ clock.Swept clock.round frame clock') := by
  obtain ⟨other, hother⟩ := h
  obtain ⟨frame, clock', examined, passed, hsweeps, hexamined, hswept, hcases⟩ := exists_sweeps hother
  refine ⟨frame, clock', examined, hsweeps.victim_eq hexamined, hsweeps, hexamined, ?_⟩
  rcases hcases with ⟨hfind, rfl⟩ | ⟨hmarks, hfind, rfl⟩
  · exact .inl ⟨hfind, hswept⟩
  · exact .inr ⟨hmarks, hfind, hswept⟩

/-- The hand is at the last of three frames, which is empty, and only the second frame has no mark. -/
theorem victim_of_occupied_of_three :
    let clock : Clock := ⟨#[⟨true, true⟩, ⟨true, false⟩, ⟨false, false⟩], 2, by decide⟩
    (∃ frame, clock.occupies frame = true) ∧
      ∃ frame clock' examined, clock.victim = .ok (frame, clock') ∧
        clock.Sweeps examined frame clock' ∧ examined ≤ 2 * clock.size ∧
        (clock.round.find? clock.candidate = some frame ∧
            clock.Swept (clock.round.takeWhile (· ≠ frame)) frame clock' ∨
          (∀ other, clock.occupies other = true → clock.marks other = true) ∧
            clock.round.find? clock.occupies = some frame ∧ clock.Swept clock.round frame clock') := by
  intro clock
  have hoccupied : clock.occupies 0 = true := by decide
  exact ⟨⟨0, hoccupied⟩, victim_of_occupied ⟨0, hoccupied⟩⟩

/-- Two marks are taken away before the hand comes to the frame without one. -/
example : ∃ h, Clock.sweep 6 ⟨#[⟨true, true⟩, ⟨true, true⟩, ⟨true, false⟩], 0, by decide⟩ =
    some (2, ⟨#[⟨true, false⟩, ⟨true, false⟩, ⟨false, false⟩], 0, h⟩) :=
  ⟨by decide, by decide⟩

end DemandPaging.Clock
