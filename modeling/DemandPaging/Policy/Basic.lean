import DemandPaging.Policy.PageList
import DemandPaging.Policy.Clock
import DemandPaging.Random.Stream

/-!
# Replacement policies

A `Policy` is a kind of policy with its state. It is told of every page in four ways and asked for
victims in one:

* `track` when a process meets a page for the first time,
* `noteLoad` when the page has been put into a frame,
* `noteAccess` when it is used while resident,
* `forget` when its process ends,
* `victim` when a frame is needed and none is free. The frame that it names is no longer tracked: the
  caller evicts the page there, and loads another.

Least recently used and first in first out keep the resident pages in a list, oldest first. They
differ in one thing: an access moves the page to the newest end, or leaves it where it is.
-/

namespace DemandPaging

/-- A replacement policy and its state. -/
inductive Policy where
  /-- The page unused for longest goes first. -/
  | lru (list : PageList)
  /-- The page loaded first goes first. -/
  | fifo (list : PageList)
  /-- Second chance. -/
  | clock (clock : Clock)
  /-- Any of `total` frames, drawn from a stream. -/
  | random (total : Nat) (stream : RandomStream)
  deriving DecidableEq

/-- Takes the oldest page out of the list for eviction and tells its frame. A list without
entries has nothing to evict, and the kind of policy is there for the message alone. -/
def PageList.oldest (list : PageList) (policy : PolicyKind) : Except Fault (FrameId × PageList) := do
  let (frame?, list) ← list.popFront
  return (← Fault.demand frame? (.nothingToEvict policy), list)

namespace Policy

/-- A policy of the given kind for a memory of `total` frames. The seed is for random choice.
The clock and random choice need at least one frame; the lists begin empty whatever the memory
is. -/
def build (kind : PolicyKind) (total seed : Nat) : Except Fault Policy := do
  match kind with
  | .lru => return .lru ∅
  | .fifo => return .fifo ∅
  | .clock => return .clock (← Clock.ofSize total)
  | .random =>
    Fault.require (0 < total) .emptyLottery
    return .random total (.ofSeed seed)

/-- The kind of a policy. -/
def kind : Policy → PolicyKind
  | lru _ => .lru
  | fifo _ => .fifo
  | clock _ => .clock
  | random .. => .random

/-- Takes note of a page before its first load, and gives the mark to keep on it. The lists give
out a slot, which stays with the page until it is forgotten; the others keep nothing. -/
def track (policy : Policy) (page : PageRef) : Overhead × Policy :=
  match policy with
  | lru list => let (slot, list) := list.alloc page; (.listed slot, lru list)
  | fifo list => let (slot, list) := list.alloc page; (.listed slot, fifo list)
  | clock c => (.empty, clock c)
  | random total stream => (.empty, random total stream)

/-- Notes that a page was put into a frame. The lists queue it as the newest, the clock marks
its frame as occupied and used; random choice does not mind. -/
def noteLoad (policy : Policy) (page : Page) : Except Fault Policy := do
  match policy with
  | lru list => return lru (← list.pushBack (← page.slot) (← frameOf))
  | fifo list => return fifo (← list.pushBack (← page.slot) (← frameOf))
  | clock c => return clock (← c.noteLoad page)
  | random total stream => return random total stream
where
  /-- The frame of the page. -/
  frameOf : Except Fault FrameId := Fault.demand page.frame? (.notResident page.ref)

/-- Notes that a resident page was used. It makes no difference to first in first out, where a
page has the age of its load. -/
def noteAccess (policy : Policy) (page : Page) : Except Fault Policy := do
  match policy with
  | lru list => return lru (← list.moveToBack (← page.slot))
  | fifo list => return fifo list
  | clock c => return clock (← c.noteAccess page)
  | random total stream => return random total stream

/-- Drops a page, resident or not, for good. Its slot is freed for another page, so the mark on
it is not to be used again. -/
def forget (policy : Policy) (page : Page) : Except Fault Policy := do
  match policy with
  | lru list => return lru (← list.release (← page.slot))
  | fifo list => return fifo (← list.release (← page.slot))
  | clock c => return clock (← c.forget page)
  | random total stream => return random total stream

/-- Names a frame to evict from, and stops tracking it. Lists and clock name an occupied frame
or find none; random choice names any, and is only asked when all are occupied. -/
def victim (policy : Policy) : Except Fault (FrameId × Policy) := do
  match policy with
  | lru list => let (frame, list) ← list.oldest .lru; return (frame, lru list)
  | fifo list => let (frame, list) ← list.oldest .fifo; return (frame, fifo list)
  | clock c => let (frame, c) ← c.victim; return (frame, clock c)
  | random total stream =>
    let (frame, stream) := RandomStream.below total stream
    return (frame, random total stream)

/-- The frames that the policy takes to hold pages: in the order of eviction for the lists, by number
for the clock; random choice takes note of none. -/
def tracked? : Policy → Option (List FrameId)
  | lru list => some list.frames
  | fifo list => some list.frames
  | clock c => some c.occupiedFrames
  | random .. => none

theorem kind_of_build {kind : PolicyKind} {total seed : Nat} {policy : Policy}
    (h : build kind total seed = .ok policy) : policy.kind = kind := by
  cases kind with
  | lru | fifo => cases h; rfl
  | clock =>
    simp only [build, Fault.bind_eq_ok_iff, Fault.pure_eq_ok_iff] at h
    obtain ⟨_, _, rfl⟩ := h
    rfl
  | random =>
    simp only [build, Fault.bind_eq_ok_iff, Fault.pure_eq_ok_iff] at h
    obtain ⟨_, _, rfl⟩ := h
    rfl

end Policy

end DemandPaging
