import DemandPaging.Number
import DemandPaging.Page
import DemandPaging.Policy.Kind
import DemandPaging.Process.State

/-!
# Faults

Every operation of the library is total. One that is called against its contract does not answer: it
yields a `Fault`, and the value that it was applied to is still there, unchanged, for the caller.

A fault is a `Breach` of a stated contract, a counter that would pass its width, or an index beyond
the end of a table. `Breach` has one constructor for each contract, and `Breach.message` is the one
place where their wording stands.
-/

namespace DemandPaging

/-- A broken contract, with what a reader needs to see which one. There is one constructor for
each, whichever operation asks for it, and none is an error in the input of a simulation. -/
inductive Breach where
  -- a memory without frames
  | emptyFrameTable
  | emptyClock
  | emptyLottery
  -- a frame and the page in it
  | frameOccupied (frame : FrameId) (holder : PageRef)
  | alreadyResident (page : PageRef) (frame : FrameId)
  | noFreeFrame
  | notHeldBy (frame : FrameId) (page : PageRef) (holder? : Option PageRef)
  | recordElsewhere (recorded? : Option FrameId) (frame : FrameId)
  -- a slot in the list of a policy
  | staleSlot (slot : Nat)
  | alreadyQueued (page : PageRef)
  | notQueued (page : PageRef)
  | neverLoaded (page : PageRef)
  -- what a policy is told of, and asked for
  | noListSlot (page : PageRef)
  | notResident (page : PageRef)
  | notOnClock (page : PageRef)
  | nothingToEvict (policy : PolicyKind)
  -- the lines of a process
  | invertedInterval (low high : Nat)
  | overlappingInterval (pid : Pid) (low high otherLow otherHigh : Nat)
  | earlyJump (pid : Pid) (linesLeft : Nat)
  -- processes and their queues
  | duplicateProcess (pid : Pid)
  | emptyQueue (state : ProcessState)
  | missingFromQueue (pid : Pid) (state : ProcessState)
  | unknownProcess (pid : Pid)
  -- pages of processes
  | duplicatePage (pid : Pid) (vpn : Vpn)
  | nothingPending (pid : Pid)
  | pendingUnknown (page : PageRef)
  -- frames, pages and policy that do not agree
  | victimFree (policy : PolicyKind) (frame : FrameId)
  | holderUnknown (frame : FrameId) (page : PageRef)
  | pageAstray (page : PageRef) (frame : FrameId) (holder? : Option PageRef)
  | countsDiffer (allocated resident : Nat)
  | holderElsewhere (frame : FrameId) (page : PageRef) (recorded? : Option FrameId)
  | trackingDiffers (policy : PolicyKind) (tracked resident : List FrameId)
  deriving DecidableEq, Repr

namespace Breach

/-- An optional value in a diagnostic. -/
def optional : Option String → String
  | none => "None"
  | some value => s!"Some({value})"

/-- An optional frame in a diagnostic. -/
def frameText (frame? : Option FrameId) : String :=
  optional (frame?.map toString)

/-- An optional page in a diagnostic. -/
def pageText (page? : Option PageRef) : String :=
  optional (page?.map PageRef.fields)

/-- A list of frames in a diagnostic. -/
def framesText (frames : List FrameId) : String :=
  "[" ++ ", ".intercalate (frames.map toString) ++ "]"

/-- The diagnostic of an equation that should hold: an optional remark and both sides. -/
def unequal (remark left right : String) : String :=
  s!"assertion `left == right` failed{remark}\n  left: {left}\n right: {right}"

/-- The wording of each breach. It is for whoever looks for the mistake, and names the values at
which the contract failed. -/
def message : Breach → String
  | emptyFrameTable => "frame table needs at least one frame"
  | emptyClock => "clock needs at least one frame"
  | emptyLottery => "random needs at least one frame"
  | frameOccupied frame holder => s!"frame {frame} already holds {pageText (some holder)}"
  | alreadyResident page frame =>
    s!"{page} is already resident in frame {frameText (some frame)}"
  | noFreeFrame => "allocate_free_frame called with every frame in use"
  | notHeldBy frame page holder? =>
    unequal s!": evicting frame {frame} which does not hold {page}"
      (pageText holder?) (pageText (some page))
  | recordElsewhere recorded? frame =>
    unequal "" (frameText recorded?) (frameText (some frame))
  | staleSlot slot => s!"stale policy handle NodeId({slot})"
  | alreadyQueued page => s!"{page} is already queued"
  | notQueued page => s!"{page} is not queued"
  | neverLoaded page => s!"{page} was never loaded"
  | noListSlot page => s!"{page} has no list overhead"
  | notResident page => s!"{page} is not resident"
  | notOnClock page => s!"clock: {page} is not resident"
  | nothingToEvict policy => s!"{policy}: choose_victim called with no resident pages"
  | invertedInterval low high => s!"interval [{low}, {high}] has low > high"
  | overlappingInterval pid low high otherLow otherHigh =>
    s!"interval [{low}, {high}] for pid {pid} overlaps [{otherLow}, {otherHigh}]"
  | earlyJump pid linesLeft => s!"pid {pid} jumped with {linesLeft} lines left in its interval"
  | duplicateProcess pid => s!"pid {pid} inserted twice"
  | emptyQueue state => s!"switch_status: no process in {state} queue"
  | missingFromQueue pid state => s!"pid {pid} missing from {state} queue"
  | unknownProcess pid => s!"unknown pid {pid}"
  | duplicatePage pid vpn => s!"pid {pid} already maps vpn {vpn}"
  | nothingPending pid => s!"pid {pid} is blocked without a pending page"
  | pendingUnknown page => s!"pending {page} has no page table entry"
  | victimFree policy frame => s!"{policy} policy chose free frame {frame}"
  | holderUnknown frame page => s!"frame {frame} holds unknown {page}"
  | pageAstray page frame holder? =>
    unequal s!": {page} thinks it is in frame {frame}" (pageText holder?) (pageText (some page))
  | countsDiffer allocated resident =>
    unequal ": allocated frames and resident pages differ" (toString allocated) (toString resident)
  | holderElsewhere frame page recorded? =>
    unequal s!": frame {frame} holds {page} but the page disagrees"
      (frameText recorded?) (frameText (some frame))
  | trackingDiffers policy tracked resident =>
    unequal s!": {policy} policy tracks the wrong frames" (framesText tracked) (framesText resident)

end Breach

/-- Why an operation gave no answer. A simulation keeps the contracts of what it is built from,
so the one that it can run into is an overflow, when more time passes than its clock can count.
-/
inductive Fault where
  /-- A contract was broken. -/
  | breach (cause : Breach)
  /-- A counter would have passed its width. -/
  | overflow
  /-- A table was read or written beyond its end. -/
  | outOfBounds
  deriving DecidableEq, Repr

namespace Fault

/-! ### Operations one after the other

A sequence of operations answers only if each of them does; these are the lemmas by which such a
sequence is taken apart. -/

variable {α β : Type}

@[simp] theorem bind_eq_ok_iff {x : Except Fault α} {f : α → Except Fault β} {b : β} :
    (x >>= f) = .ok b ↔ ∃ a, x = .ok a ∧ f a = .ok b := by
  cases x <;> simp [bind, Except.bind]

theorem ok_bind {a : α} {f : α → Except Fault β} : (Except.ok a >>= f) = f a := rfl

@[simp] theorem pure_eq_ok_iff {a b : α} : (pure a : Except Fault α) = .ok b ↔ a = b := by
  simp [pure, Except.pure]

@[simp] theorem throw_ne_ok {fault : Fault} {a : α} : (throw fault : Except Fault α) ≠ .ok a := by
  simp [throw, throwThe, MonadExceptOf.throw]

/-! ### Operations on a state

Where a state is changed in place, what was done before a fault stays done. -/

section
variable {σ : Type} {first : ExceptT Fault (StateM σ) α} {next : α → ExceptT Fault (StateM σ) β}
  {s s' : σ}

theorem run_get : (get : ExceptT Fault (StateM σ) σ).run s = (.ok s, s) := rfl

theorem run_set : (set s' : ExceptT Fault (StateM σ) PUnit).run s = (.ok ⟨⟩, s') := rfl

theorem run_modify {f : σ → σ} : (modify f : ExceptT Fault (StateM σ) PUnit).run s = (.ok ⟨⟩, f s) :=
  rfl

theorem run_pure {value : α} : (pure value : ExceptT Fault (StateM σ) α).run s = (.ok value, s) := rfl

theorem run_throw {fault : Fault} :
    (throw fault : ExceptT Fault (StateM σ) α).run s = (.error fault, s) := rfl

theorem run_liftM {outcome : Except Fault α} :
    (liftM outcome : ExceptT Fault (StateM σ) α).run s = (outcome, s) := rfl

theorem run_bind_of_ok {value : α} (h : first.run s = (.ok value, s')) :
    (first >>= next).run s = (next value).run s' := by
  simp only [ExceptT.run, bind, ExceptT.bind, ExceptT.mk, StateT.bind] at h ⊢
  rw [h]
  rfl

theorem run_bind_of_error {fault : Fault} (h : first.run s = (.error fault, s')) :
    (first >>= next).run s = (.error fault, s') := by
  simp only [ExceptT.run, bind, ExceptT.bind, ExceptT.mk, StateT.bind] at h ⊢
  rw [h]
  rfl

end

/-! ### Checks -/

/-- Passes when the condition holds, and breaks the contract otherwise. Operations check first
and change then, so a breach leaves nothing half done. -/
def require (holds : Bool) (cause : Breach) : Except Fault Unit :=
  if holds then .ok () else .error (.breach cause)

@[simp] theorem require_eq_ok_iff {holds : Bool} {cause : Breach} :
    require holds cause = .ok () ↔ holds = true := by
  cases holds <;> simp [require]

/-- The value inside, or a breach when there is none. It is how a look-up that cannot fail is
written where the reason lies elsewhere. -/
def demand (value? : Option α) (cause : Breach) : Except Fault α :=
  match value? with
  | some value => .ok value
  | none => .error (.breach cause)

@[simp] theorem demand_eq_ok_iff {value? : Option α} {value : α} {cause : Breach} :
    demand value? cause = .ok value ↔ value? = some value := by
  cases value? <;> simp [demand]

/-- A number that is kept in a counter of the given width. A number that is too large is a
fault; it is never reduced to the width. -/
@[inline] def fit (bits n : Nat) : Except Fault Nat :=
  if n < 2 ^ bits then .ok n else .error .overflow

@[simp] theorem fit_eq_ok_iff {bits n m : Nat} : fit bits n = .ok m ↔ n < 2 ^ bits ∧ n = m := by
  unfold fit
  split
  · simp_all
  · simp only [reduceCtorEq, false_iff, not_and]
    exact fun h => absurd h ‹_›

end Fault

end DemandPaging
