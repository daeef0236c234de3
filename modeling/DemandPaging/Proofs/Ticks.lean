import DemandPaging.Simulator.Basic
import DemandPaging.Proofs.Counting
import DemandPaging.Proofs.Queues
import Mathlib.Data.Nat.ModEq

/-!
# Time that passes

What a simulation becomes when time passes and nothing else happens (`Simulator.waited`): the clock
moves, the processes that wait for the disk have less time left, and the ticks are counted with the
frames in use and with whether some process can run. Time may pass all at once or in parts
(`Simulator.waited_waited`), and how ticks are counted makes no difference (`Simulator.sample_eq_ok`).

How much time a step takes is settled by `Simulator.elapsed_of_canRun`, `Simulator.elapsed_of_slow` and
`Simulator.elapsed_of_fast`.
-/

namespace DemandPaging

/-! ### Waiting processes -/

namespace ProcessTable

variable {t : ProcessTable} {pid : Pid} {p : Process} {wait elapsed more : Nat}

/-- Time that passes in two parts passes as one. Subtraction stops at zero, in parts as at once. -/
theorem passTime_passTime : (t.passTime elapsed).passTime more = t.passTime (elapsed + more) := by
  have hmap : (t.passTime elapsed |>.passTime more).processes =
      (t.passTime (elapsed + more)).processes := by
    refine OrderedMap.ext_get? fun pid => ?_
    show ((t.passTime elapsed).passTime more).get? pid = (t.passTime (elapsed + more)).get? pid
    rw [get?_passTime, get?_passTime, get?_passTime, Option.map_map]
    refine Option.map_congr fun p _ => ?_
    rw [Function.comp_apply]
    by_cases hstate : p.state = .blocked
    -- a process that waits still waits, and time is taken away twice
    · have hpassed : (p.passTime elapsed).state = .blocked := hstate
      rw [if_pos hstate, if_pos hpassed, if_pos hstate]
      simp only [Process.passTime, Nat.sub_sub]
    · -- a process that does not wait is left alone
      rw [if_neg hstate, if_neg hstate, if_neg hstate]
  rw [passTime, passTime, passTime, ProcessTable.mk.injEq]
  exact ⟨hmap, rfl, rfl⟩

theorem passTime_zero : t.passTime 0 = t := by
  have hmap : (t.passTime 0).processes = t.processes := by
    refine OrderedMap.ext_get? fun pid => ?_
    show (t.passTime 0).get? pid = t.get? pid
    rw [get?_passTime]
    cases t.get? pid with
    | none => rfl
    | some p =>
      rw [Option.map_some]
      split <;> rfl
  rw [passTime, ProcessTable.mk.injEq]
  exact ⟨hmap, rfl, rfl⟩

/-- Time that passes changes nothing but how long a process still has to wait, and that only if it waits
for the disk. -/
theorem exists_of_bare?_passTime {q : Process} (h : (t.passTime elapsed).bare? pid = some q) :
    ∃ p, t.bare? pid = some p ∧ q = { p with wait := q.wait } ∧
      (p.state = .blocked → q.wait = p.wait - elapsed) := by
  rw [bare?_passTime] at h
  obtain ⟨p, hp, rfl⟩ := Option.map_eq_some_iff.1 h
  refine ⟨p, hp, ?_, fun hstate => ?_⟩
  · split <;> rfl
  · rw [if_pos hstate]
    rfl

/-- A process that waits for the disk waited before, for as much longer as time has passed. -/
theorem exists_of_blocked_passTime {q : Process} (h : (t.passTime elapsed).bare? pid = some q)
    (hblocked : q.state = .blocked) :
    ∃ p, t.bare? pid = some p ∧ p.state = .blocked ∧ q.wait = p.wait - elapsed := by
  obtain ⟨p, hp, heq, hwait⟩ := exists_of_bare?_passTime h
  have hstate : p.state = .blocked := by
    rw [heq] at hblocked
    exact hblocked
  exact ⟨p, hp, hstate, hwait hstate⟩

/-- The waits are told without looking at pages. -/
theorem mem_waits_iff_bare : (pid, wait) ∈ t.waits ↔
    ∃ p, t.bare? pid = some p ∧ p.state = .blocked ∧ p.wait = wait := by
  rw [mem_waits_iff]
  constructor
  · rintro ⟨p, hp, hstate, rfl⟩
    exact ⟨p.unpaged, bare?_of_get? hp, hstate, rfl⟩
  · rintro ⟨q, hq, hstate, rfl⟩
    obtain ⟨p, hp, rfl⟩ := bare?_eq_some_iff.1 hq
    exact ⟨p, hp, hstate, rfl⟩

/-- The next completion is the least wait. -/
theorem nextCompletion?_eq_some (h : t.nextCompletion? = some wait) :
    (∃ pid p, t.bare? pid = some p ∧ p.state = .blocked ∧ p.wait = wait) ∧
      ∀ {pid p}, t.bare? pid = some p → p.state = .blocked → wait ≤ p.wait := by
  obtain ⟨hmem, hleast⟩ := List.min?_eq_some_iff.1 h
  obtain ⟨⟨pid, found⟩, hwait, rfl⟩ := List.mem_map.1 hmem
  refine ⟨⟨pid, mem_waits_iff_bare.1 hwait⟩, fun {other p} hp hstate => hleast _ ?_⟩
  -- the wait of each blocked process is among those that the least one is taken of
  exact List.mem_map.2 ⟨(other, p.wait), mem_waits_iff_bare.2 ⟨p, hp, hstate, rfl⟩, rfl⟩

theorem exists_nextCompletion (hp : t.bare? pid = some p) (hstate : p.state = .blocked) :
    ∃ wait, t.nextCompletion? = some wait := by
  refine Option.isSome_iff_exists.1 (List.isSome_min?_of_mem (a := p.wait) ?_)
  exact List.mem_map.2 ⟨(pid, p.wait), mem_waits_iff_bare.2 ⟨p, hp, hstate, rfl⟩, rfl⟩

/-- The disk reads that are complete are those without time left. They are taken from the queue, in its
order, and not from the waits. -/
theorem mem_completed_iff (h : t.Lined) :
    pid ∈ t.completed ↔ ∃ p, t.bare? pid = some p ∧ p.state = .blocked ∧ p.wait = 0 := by
  -- the test that `completed` makes, for one process
  have hdue : (t.waits.filter (·.2 = 0)).any (·.1 = pid) = true ↔ (pid, 0) ∈ t.waits := by
    rw [List.any_eq_true]
    constructor
    · rintro ⟨⟨other, wait⟩, hmem, hpid⟩
      obtain ⟨hwait, hzero⟩ := List.mem_filter.1 hmem
      obtain rfl : wait = 0 := of_decide_eq_true hzero
      obtain rfl : other = pid := of_decide_eq_true hpid
      exact hwait
    · intro hmem
      exact ⟨(pid, 0), List.mem_filter.2 ⟨hmem, rfl⟩, decide_eq_true rfl⟩
  rw [completed, List.mem_filter, hdue, mem_waits_iff_bare]
  -- a process that is blocked is in the queue of those
  refine and_iff_right_of_imp ?_
  rintro ⟨p, hp, hstate, -⟩
  exact h.queued.2 ⟨p, hp, hstate⟩

theorem nodup_completed (h : t.Lined) : t.completed.Nodup :=
  (h.nodup .blocked).filter _

end ProcessTable

namespace Simulator

variable {s : Simulator} {elapsed more wait : Nat}

/-! ### A simulation while time passes -/

/-- The simulation after some time in which nothing else happened. This is what `passTime` comes to if
nothing overflows, with the sums exact. -/
def waited (s : Simulator) (elapsed : Nat) : Simulator :=
  { s with
    clock := s.clock + elapsed
    machine := { s.machine with
      stats := { s.machine.stats with
        totals := s.machine.stats.totals.ticked s.machine.frames.allocated s.machine.canRun
          (elapsed / s.config.clockTick) }
      processes := s.machine.processes.passTime elapsed } }

theorem waited_zero : s.waited 0 = s := by
  have htotals : s.machine.stats.totals.ticked s.machine.frames.allocated s.machine.canRun
      (0 / s.config.clockTick) = s.machine.stats.totals := by
    rw [Nat.zero_div]
    rfl
  rw [waited, htotals, ProcessTable.passTime_zero]
  rfl

/-- Time may pass in parts. The first one has to be of whole ticks, as ticks are counted for each part.
-/
theorem waited_waited (h : s.config.clockTick ∣ elapsed) :
    (s.waited elapsed).waited more = s.waited (elapsed + more) := by
  have hticks : (elapsed + more) / s.config.clockTick =
      elapsed / s.config.clockTick + more / s.config.clockTick := Nat.add_div_of_dvd_right h
  have htotals := s.machine.stats.totals.ticked_ticked s.machine.frames.allocated s.machine.canRun
    (elapsed / s.config.clockTick) (more / s.config.clockTick)
  simp only [waited, hticks, ← htotals, ← ProcessTable.passTime_passTime, ← Nat.add_assoc]
  rfl

/-- **Counting ticks.** One tick or several, at once or one by one, come to the same totals. How many
they are is told by the time that has passed. -/
theorem sample_eq_ok (h : (s.waited elapsed).machine.stats.totals.Fits) :
    s.sample elapsed = .ok (s.waited elapsed).machine.stats := by
  unfold sample
  by_cases hone : elapsed = s.config.clockTick
  -- a single tick is counted on its own
  · have hcount : elapsed / s.config.clockTick = 1 := by
      rw [hone, Nat.div_self s.config.clockTick_pos]
    simp only [waited, hcount] at h ⊢
    rw [if_pos hone, Stats.noteTick_eq_ok h]
  · rw [if_neg hone]
    exact Stats.noteTicks_eq_ok h

/-- Time passes if the clock can count it and the sums fit. -/
theorem passTime_eq_ok (hclock : s.clock + s.elapsed < 2 ^ 64)
    (h : (s.waited s.elapsed).machine.stats.totals.Fits) :
    s.passTime = .ok (s.waited s.elapsed) := by
  rw [passTime, Fault.fit, if_pos hclock, sample_eq_ok h]
  rfl

theorem passTime_eq_overflow (hclock : ¬s.clock + s.elapsed < 2 ^ 64) :
    s.passTime = .error .overflow := by
  rw [passTime, Fault.fit, if_neg hclock]
  rfl

/-! ### How long a step takes -/

theorem elapsed_of_canRun (h : s.machine.canRun = true) : s.elapsed = s.config.clockTick := by
  unfold elapsed
  rw [h]
  split <;> rfl

theorem elapsed_of_slow (h : s.config.fastForward = false) : s.elapsed = s.config.clockTick := by
  unfold elapsed
  rw [h, Bool.and_false]
  split <;> rfl

/-- When nothing can run, a step that passes over waiting takes the time until the next completion. It
takes a tick at least, which is no more than that. -/
theorem elapsed_of_fast (h : s.config.fastForward = true) (hidle : s.machine.canRun = false)
    (hnext : s.machine.processes.nextCompletion? = some wait) (hwait : s.config.clockTick ≤ wait) :
    s.elapsed = wait := by
  unfold elapsed
  simp only [hnext, h, hidle, Bool.not_false, Bool.and_self, if_true]
  exact Nat.max_eq_left hwait

end Simulator

end DemandPaging
