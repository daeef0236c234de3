import DemandPaging.Fault

/-!
# The clock

Second chance: a hand goes round the frames. Of the frames that hold a page it passes over each that
was used since it last came by, and takes that mark away; the first unused one is the victim.

A sweep looks at no more than two rounds of frames, since after one round no mark is left on an
occupied frame; `Clock.sweep` counts them.
-/

namespace DemandPaging

/-- What the clock knows of one frame. -/
structure ClockFrame where
  /-- Whether the frame holds a page. -/
  occupied : Bool := false
  /-- Whether the page was loaded or used since the hand last passed. -/
  referenced : Bool := false
  deriving DecidableEq, Repr

/-- The frames in a circle, and the hand that points at one of them. That it points at a frame
is a field, so a clock has at least one frame and the hand can always be read. -/
structure Clock where
  /-- The frames. -/
  frames : Array ClockFrame
  /-- The frame that the hand points at. -/
  hand : FrameId
  /-- The hand points at a frame. -/
  hand_lt : hand < frames.size := by omega
  deriving DecidableEq

namespace Clock

/-- A clock over `total` empty frames, its hand at the first; there must be at least one. -/
def ofSize (total : Nat) : Except Fault Clock :=
  if h : 0 < total then
    .ok { frames := .replicate total {}, hand := 0, hand_lt := by simpa using h }
  else
    .error (.breach .emptyClock)

/-- The number of frames. -/
def size (clock : Clock) : Nat := clock.frames.size

/-- The frames marked as used, in order. -/
def referencedFrames (clock : Clock) : List FrameId :=
  (List.range clock.size).filter fun frame => clock.frames[frame]?.any (·.referenced)

/-- The frames that hold a page, in order. -/
def occupiedFrames (clock : Clock) : List FrameId :=
  (List.range clock.size).filter fun frame => clock.frames[frame]?.any (·.occupied)

/-- Changes what the clock knows of one frame, which must be one of its frames. The hand is
where it was. -/
def modifyFrame (clock : Clock) (frame : FrameId) (f : ClockFrame → ClockFrame) :
    Except Fault Clock :=
  if frame < clock.size then
    .ok { clock with
      frames := clock.frames.modify frame f
      hand_lt := by simpa using clock.hand_lt }
  else
    .error .outOfBounds

/-- The frame of a page that the clock is told of. -/
def frameOf (page : Page) : Except Fault FrameId :=
  Fault.demand page.frame? (.notOnClock page.ref)

/-- Notes that a page was loaded. A page that was just loaded counts as used: its first chance
lies ahead of it. -/
def noteLoad (clock : Clock) (page : Page) : Except Fault Clock := do
  clock.modifyFrame (← frameOf page) fun _ => { occupied := true, referenced := true }

/-- Notes that a page was used. Nothing moves; the mark is what the hand finds when it next
comes by. -/
def noteAccess (clock : Clock) (page : Page) : Except Fault Clock := do
  clock.modifyFrame (← frameOf page) ({ · with referenced := true })

/-- Forgets a page, wherever it is. A page in memory leaves its frame empty and without a mark,
another leaves the clock as it is. -/
def forget (clock : Clock) (page : Page) : Except Fault Clock :=
  match page.frame? with
  | some frame => clock.modifyFrame frame fun _ => {}
  | none => .ok clock

/-- The frame after the one that the hand points at, going round. -/
def next (clock : Clock) : FrameId := (clock.hand + 1) % clock.size

/-- The clock with its hand on the next frame and the frame that it left changed. Every move of
the hand is of this form, whatever became of the frame. -/
def advance (clock : Clock) (f : ClockFrame → ClockFrame) : Clock where
  frames := clock.frames.modify clock.hand f
  hand := clock.next
  hand_lt := by
    rw [Array.size_modify]
    exact Nat.mod_lt _ (Nat.zero_lt_of_lt clock.hand_lt)

/-- What the clock knows of the frame that the hand points at. -/
def current (clock : Clock) : ClockFrame :=
  have := clock.hand_lt
  clock.frames[clock.hand]

/-- Moves the hand on until it has passed a victim, over at most `steps` frames. Empty frames
are passed over, used ones lose their mark, and the first occupied one without a mark is the
victim. -/
def sweep : (steps : Nat) → Clock → Option (FrameId × Clock)
  | 0, _ => none
  | steps + 1, clock =>
    -- an empty frame is passed over as it is
    if !clock.current.occupied then sweep steps (clock.advance id)
    else if clock.current.referenced then
      sweep steps (clock.advance ({ · with referenced := false }))
    else some (clock.hand, clock.advance ({ · with occupied := false }))

/-- The victim of one sweep, no longer marked as occupied; some frame must hold a page. Two
rounds are enough: after the first no occupied frame has its mark left. -/
def victim (clock : Clock) : Except Fault (FrameId × Clock) :=
  Fault.demand (clock.sweep (2 * clock.size)) (.nothingToEvict .clock)

end Clock

end DemandPaging
