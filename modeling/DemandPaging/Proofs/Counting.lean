import DemandPaging.Stats.Basic

/-!
# Counting ticks

Several ticks with the same sample are counted by one product or one after the other. The totals that
they should come to are `Totals.ticked`. A sum over ticks has 128 bits (`Totals.Fits`), so the answer is
these totals if they fit and an overflow otherwise (`Totals.checked`).

For the product this is so because each sum is checked when it is made (`Totals.addTicks_eq`). Ticks
that are counted one after the other are checked after each of them, and may overflow in the midst of
the count. But the sums only grow: if they fit after all ticks, they fit after fewer of them
(`Totals.Fits.of_le`); and if they do not, some tick takes them past their width
(`Totals.exists_last_fits`). So the many checks come to the same as the last one alone
(`Totals.addTickRepeatedly_eq`), and the way of counting shows in no answer
(`Stats.counting_does_not_matter`).
-/

namespace DemandPaging

namespace Totals

variable {t : Totals} {frames count more : Nat} {runnable : Bool}

/-- The totals with a number of ticks counted, with exact sums. Whether they fit into their
widths is another question, which `Fits` asks. -/
def ticked (t : Totals) (frames : Nat) (runnable : Bool) (count : Nat) : Totals :=
  { t with
    memoryTicks := t.memoryTicks + frames * count
    runnableTicks := t.runnableTicks + runnable.toNat * count }

/-- The sums over the ticks have 128 bits. The counts of hits, misses and evictions are not
concerned, since ticks leave them alone. -/
structure Fits (t : Totals) : Prop where
  /-- The frames in use. -/
  memory : t.memoryTicks < 2 ^ 128
  /-- The ticks at which some process could run. -/
  runnable : t.runnableTicks < 2 ^ 128

instance : Decidable t.Fits :=
  decidable_of_iff (t.memoryTicks < 2 ^ 128 ∧ t.runnableTicks < 2 ^ 128)
    ⟨fun h => ⟨h.1, h.2⟩, fun h => ⟨h.memory, h.runnable⟩⟩

/-- The totals, unless a sum over the ticks is past its width. What any of the ways of counting comes to
is said by this, with the exact sums. -/
def checked (t : Totals) : Except Fault Totals :=
  if t.Fits then .ok t else .error .overflow

theorem checked_of_fits (h : t.Fits) : t.checked = .ok t := if_pos h

theorem checked_of_not_fits (h : ¬t.Fits) : t.checked = .error .overflow := if_neg h

/-! ### Sums that grow -/

theorem ticked_zero : t.ticked frames runnable 0 = t := rfl

/-- Ticks that are counted in two goes come to the sums of all of them. -/
theorem ticked_ticked (t : Totals) (frames : Nat) (runnable : Bool) (count more : Nat) :
    (t.ticked frames runnable count).ticked frames runnable more =
      t.ticked frames runnable (count + more) := by
  simp only [ticked, Nat.mul_add, Nat.add_assoc]

/-- Sums that fit after some ticks fit after fewer of them. -/
theorem Fits.of_le (h : (t.ticked frames runnable more).Fits) (hle : count ≤ more) :
    (t.ticked frames runnable count).Fits where
  memory := Nat.lt_of_le_of_lt (Nat.add_le_add_left (Nat.mul_le_mul_left _ hle) _) h.memory
  runnable := Nat.lt_of_le_of_lt (Nat.add_le_add_left (Nat.mul_le_mul_left _ hle) _) h.runnable

/-- Some tick is the one that takes the sums past their width. By induction on the ticks, the last one
last. -/
theorem exists_last_fits (h : t.Fits) (hover : ¬(t.ticked frames runnable count).Fits) :
    ∃ passed < count, (t.ticked frames runnable passed).Fits ∧
      ¬(t.ticked frames runnable (passed + 1)).Fits := by
  induction count with
  | zero => exact absurd h hover
  | succ count ih =>
    by_cases hbefore : (t.ticked frames runnable count).Fits
    -- it is the last one
    · exact ⟨count, Nat.lt_succ_self count, hbefore, hover⟩
    · obtain ⟨passed, hlt, hpassed⟩ := ih hbefore
      exact ⟨passed, Nat.lt_succ_of_lt hlt, hpassed⟩

/-- The product of two numbers of 64 bits has 128 bits. -/
theorem product_lt (hframes : frames < 2 ^ 64) (hcount : count < 2 ^ 64) :
    frames * count < 2 ^ 128 := by
  calc
    frames * count < 2 ^ 64 * 2 ^ 64 := Nat.mul_lt_mul'' hframes hcount
    _ = 2 ^ 128 := (Nat.pow_add 2 64 64).symm

/-! ### The ways of counting -/

theorem addTicks_eq :
    t.addTicks frames runnable count = (t.ticked frames runnable count).checked := by
  unfold addTicks Fault.fit
  -- the two sums are checked one after the other, and both have to fit
  by_cases hmemory : t.memoryTicks + frames * count < 2 ^ 128
  · by_cases hrunnable : t.runnableTicks + runnable.toNat * count < 2 ^ 128
    · rw [if_pos hmemory, if_pos hrunnable, checked_of_fits ⟨hmemory, hrunnable⟩]
      rfl
    · rw [if_pos hmemory, if_neg hrunnable, checked_of_not_fits fun h => hrunnable h.runnable]
      rfl
  · rw [if_neg hmemory, checked_of_not_fits fun h => hmemory h.memory]
    rfl

theorem addTick_eq : t.addTick frames runnable = (t.ticked frames runnable 1).checked := by
  rw [← addTicks_eq, addTick, addTicks, Nat.mul_one, Nat.mul_one]

/-- **One after the other.** Ticks that are counted one after the other come to the exact sums, or to an
overflow if these do not fit. By induction on the ticks, the first one first, as they are counted. -/
theorem addTickRepeatedly_eq (h : t.Fits) :
    t.addTickRepeatedly frames runnable count = (t.ticked frames runnable count).checked := by
  induction count generalizing t with
  | zero => rw [addTickRepeatedly, ticked_zero, checked_of_fits h]
  | succ count ih =>
    have hsplit : (t.ticked frames runnable 1).ticked frames runnable count =
        t.ticked frames runnable (count + 1) := by
      rw [ticked_ticked, Nat.add_comm]
    rw [addTickRepeatedly, addTick_eq]
    by_cases hfirst : (t.ticked frames runnable 1).Fits
    -- the other ticks are counted from where the first one leads
    · rw [checked_of_fits hfirst, ← hsplit]
      exact ih hfirst
    -- sums that are past their width after one tick are so after all of them
    · have hall : ¬(t.ticked frames runnable (count + 1)).Fits :=
        fun hall => hfirst (hall.of_le (Nat.le_add_left 1 count))
      rw [checked_of_not_fits hfirst, checked_of_not_fits hall]
      rfl

end Totals

namespace Stats

variable {s : Stats} {frames count : Nat} {runnable : Bool}

/-- The statistics with a choice of how several equal ticks are counted. What has been counted
so far is not changed by it. -/
def countingBy (s : Stats) (counting : TickCounting) : Stats := { s with counting }

/-- Counts several ticks with the same sample by as many single ones. This is the caller's side
of the matter: it calls the operation for one tick again and again, whatever way of counting was
chosen. -/
def noteTickRepeatedly (s : Stats) (frames : Nat) (runnable : Bool) :
    (count : Nat) → Except Fault Stats
  | 0 => .ok s
  | count + 1 => do (← s.noteTick frames runnable).noteTickRepeatedly frames runnable count

/-- The statistics with other totals, unless a sum over the ticks is past its width. Both ways
of counting are shown to be this, with the same totals. -/
def totalling (s : Stats) (totals : Totals) : Except Fault Stats :=
  if totals.Fits then .ok { s with totals } else .error .overflow

theorem totalling_of_fits {totals : Totals} (h : totals.Fits) :
    s.totalling totals = .ok { s with totals } := if_pos h

theorem totalling_of_not_fits {totals : Totals} (h : ¬totals.Fits) :
    s.totalling totals = .error .overflow := if_neg h

theorem totalling_eq_overflow_iff {totals : Totals} :
    s.totalling totals = .error .overflow ↔ ¬totals.Fits := by
  refine ⟨fun heq hfits => ?_, totalling_of_not_fits⟩
  rw [totalling_of_fits hfits] at heq
  cases heq

/-- What is counted in the totals is counted in the statistics, and overflows there as it does here. -/
theorem bind_checked (s : Stats) (totals : Totals) :
    (do return { s with totals := ← totals.checked }) = s.totalling totals := by
  by_cases hfits : totals.Fits
  · rw [Totals.checked_of_fits hfits, totalling_of_fits hfits]
    rfl
  · rw [Totals.checked_of_not_fits hfits, totalling_of_not_fits hfits]
    rfl

theorem noteTick_eq :
    s.noteTick frames runnable = s.totalling (s.totals.ticked frames runnable 1) := by
  rw [noteTick, Totals.addTick_eq, bind_checked]

theorem noteTicks_eq (h : s.totals.Fits) :
    s.noteTicks frames runnable count = s.totalling (s.totals.ticked frames runnable count) := by
  rw [← bind_checked]
  unfold noteTicks
  -- the choice of how to count is made here, and both ways come to the checked sums
  cases s.counting with
  | atOnce => simp only [Totals.addTicks_eq]
  | oneByOne => simp only [Totals.addTickRepeatedly_eq h]

theorem noteTick_eq_ok (h : (s.totals.ticked frames runnable 1).Fits) :
    s.noteTick frames runnable = .ok { s with totals := s.totals.ticked frames runnable 1 } := by
  rw [noteTick_eq, totalling_of_fits h]

theorem noteTicks_eq_ok (h : (s.totals.ticked frames runnable count).Fits) :
    s.noteTicks frames runnable count =
      .ok { s with totals := s.totals.ticked frames runnable count } := by
  have hbefore : s.totals.Fits := h.of_le (Nat.zero_le count)
  rw [noteTicks_eq hbefore, totalling_of_fits h]

/-! ### Single ticks -/

/-- The totals are all that a single tick changes, so single ticks may be counted in them alone. -/
theorem noteTickRepeatedly_eq_bind : s.noteTickRepeatedly frames runnable count =
    do return { s with totals := ← s.totals.addTickRepeatedly frames runnable count } := by
  induction count generalizing s with
  | zero => rfl
  | succ count ih =>
    rw [noteTickRepeatedly, Totals.addTickRepeatedly, noteTick]
    cases s.totals.addTick frames runnable with
    | error fault => rfl
    | ok totals => exact ih

theorem noteTickRepeatedly_eq (h : s.totals.Fits) : s.noteTickRepeatedly frames runnable count =
    s.totalling (s.totals.ticked frames runnable count) := by
  rw [noteTickRepeatedly_eq_bind, Totals.addTickRepeatedly_eq h, bind_checked]

/-- A tick after others overflows if the sums do not fit with it. -/
theorem noteTick_ticked_eq_overflow_iff :
    { s with totals := s.totals.ticked frames runnable count }.noteTick frames runnable =
      .error .overflow ↔ ¬(s.totals.ticked frames runnable (count + 1)).Fits := by
  rw [noteTick_eq, totalling_eq_overflow_iff, Totals.ticked_ticked]

/-- **Where a count stops.** Ticks that are counted one after the other overflow if one of them does,
counted after those before it. -/
theorem noteTickRepeatedly_eq_overflow_iff (h : s.totals.Fits) :
    s.noteTickRepeatedly frames runnable count = .error .overflow ↔
      ∃ passed < count, ∃ t, s.noteTickRepeatedly frames runnable passed = .ok t ∧
        t.noteTick frames runnable = .error .overflow := by
  rw [noteTickRepeatedly_eq h, totalling_eq_overflow_iff]
  constructor
  · -- the sums do not fit in the end, so there is a last tick up to which they do
    intro hover
    obtain ⟨passed, hlt, hpassed, hnext⟩ := Totals.exists_last_fits h hover
    refine ⟨passed, hlt, _, ?_, noteTick_ticked_eq_overflow_iff.2 hnext⟩
    rw [noteTickRepeatedly_eq h, totalling_of_fits hpassed]
  · rintro ⟨passed, hlt, t, hpassed, hnext⟩ hfits
    -- all ticks up to that one fit if all of them do
    rw [noteTickRepeatedly_eq h, totalling_of_fits (hfits.of_le (Nat.le_of_lt hlt))] at hpassed
    cases hpassed
    exact noteTick_ticked_eq_overflow_iff.1 hnext (hfits.of_le hlt)

/-! ### Both ways -/

/-- **Counting ticks.** Let what has been counted be within its width, and let the frames in use and the
number of the ticks have 64 bits. Counted by one product or one after the other, the ticks come to the
same totals, and they overflow in both ways or in neither. Both ways are as good as so many single ticks:
they come to the exact sums if these fit, and otherwise they overflow, as does one of the single ticks.
The product on its own never overflows. -/
theorem counting_does_not_matter (hfits : s.totals.Fits) (hframes : frames < 2 ^ 64)
    (hcount : count < 2 ^ 64) :
    ((s.countingBy .atOnce).noteTicks frames runnable count).map totals =
        ((s.countingBy .oneByOne).noteTicks frames runnable count).map totals ∧
      ((s.countingBy .atOnce).noteTicks frames runnable count = .error .overflow ↔
        (s.countingBy .oneByOne).noteTicks frames runnable count = .error .overflow) ∧
      (∀ way, (s.countingBy way).noteTicks frames runnable count =
          (s.countingBy way).noteTickRepeatedly frames runnable count ∧
        (s.countingBy way).noteTicks frames runnable count =
          (if (s.totals.ticked frames runnable count).Fits then
            .ok { s with counting := way, totals := s.totals.ticked frames runnable count }
          else .error .overflow) ∧
        ((s.countingBy way).noteTicks frames runnable count = .error .overflow ↔
          ∃ passed < count, ∃ t,
            (s.countingBy way).noteTickRepeatedly frames runnable passed = .ok t ∧
              t.noteTick frames runnable = .error .overflow)) ∧
      Fault.fit 128 (frames * count) = .ok (frames * count) := by
  have hfits' : ∀ way, (s.countingBy way).totals.Fits := fun _ => hfits
  have hsums : ∀ way, (s.countingBy way).noteTicks frames runnable count =
      (s.countingBy way).totalling (s.totals.ticked frames runnable count) :=
    fun way => noteTicks_eq (hfits' way)
  have hsingle : ∀ way, (s.countingBy way).noteTicks frames runnable count =
      (s.countingBy way).noteTickRepeatedly frames runnable count :=
    fun way => (hsums way).trans (noteTickRepeatedly_eq (hfits' way)).symm
  refine ⟨?_, ?_, fun way => ⟨hsingle way, hsums way, ?_⟩, ?_⟩
  · -- the two ways may differ in how they are set to count, but not in the totals
    rw [hsums, hsums]
    by_cases hsum : (s.totals.ticked frames runnable count).Fits
    · rw [totalling_of_fits hsum, totalling_of_fits hsum]
      rfl
    · rw [totalling_of_not_fits hsum, totalling_of_not_fits hsum]
  · rw [hsums, hsums, totalling_eq_overflow_iff, totalling_eq_overflow_iff]
  · rw [hsingle]
    exact noteTickRepeatedly_eq_overflow_iff (hfits' way)
  · exact Fault.fit_eq_ok_iff.2 ⟨Totals.product_lt hframes hcount, rfl⟩

/-- Statistics whose sum of frames is half of what it can hold. -/
def halfFull : Stats where
  totalFrames := 2 ^ 64 - 1
  totals := { memoryTicks := 2 ^ 127 }

/-- As many ticks as can be counted, with as many frames as there can be: the product fits, and the sum
does not. -/
theorem counting_does_not_matter_when_halfFull :
    halfFull.totals.Fits ∧ 2 ^ 64 - 1 < 2 ^ 64 ∧
      (∀ way, (halfFull.countingBy way).noteTicks (2 ^ 64 - 1) true (2 ^ 64 - 1) = .error .overflow ∧
        ∃ passed < 2 ^ 64 - 1, ∃ t,
          (halfFull.countingBy way).noteTickRepeatedly (2 ^ 64 - 1) true passed = .ok t ∧
            t.noteTick (2 ^ 64 - 1) true = .error .overflow) ∧
      Fault.fit 128 ((2 ^ 64 - 1) * (2 ^ 64 - 1)) = .ok ((2 ^ 64 - 1) * (2 ^ 64 - 1)) := by
  have hfits : halfFull.totals.Fits := by decide
  have hlimit : 2 ^ 64 - 1 < 2 ^ 64 := by decide
  have hsum : ¬(halfFull.totals.ticked (2 ^ 64 - 1) true (2 ^ 64 - 1)).Fits := by decide
  obtain ⟨-, -, hways, hproduct⟩ :=
    @counting_does_not_matter halfFull (2 ^ 64 - 1) (2 ^ 64 - 1) true hfits hlimit hlimit
  refine ⟨hfits, hlimit, fun way => ?_, hproduct⟩
  obtain ⟨-, hsums, hstops⟩ := hways way
  have hover := hsums.trans (if_neg hsum)
  exact ⟨hover, hstops.1 hover⟩

end Stats

end DemandPaging
