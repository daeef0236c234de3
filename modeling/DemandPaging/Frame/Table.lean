import DemandPaging.Frame.FreeFrames

/-!
# The frame table

The frames of a memory and the pages they hold. A page is loaded into a frame and evicted from it in
one operation on both sides, since the frame names the page and the page names the frame. Loading
asks for an existing, empty frame and a page that no frame holds; evicting asks that frame and page
name each other. Each is checked before anything changes.
-/

namespace DemandPaging

/-- The frames of a memory. Which page a frame holds and whether it is free are kept apart, and
`load` and `evict` are the two operations that change either. -/
@[ext] structure FrameTable where
  /-- The page that each frame holds. -/
  holders : Array (Option PageRef)
  /-- Which frames are free. -/
  free : FreeFrames
  deriving DecidableEq

namespace FrameTable

/-- A memory of `total` empty frames; there must be at least one. -/
def ofSize (total : Nat) : Except Fault FrameTable := do
  Fault.require (0 < total) .emptyFrameTable
  return { holders := .replicate total none, free := .ofSize total }

/-- The number of frames. -/
def size (table : FrameTable) : Nat := table.holders.size

/-- The number of frames in use. -/
def allocated (table : FrameTable) : Nat := table.free.usedCount

/-- Whether some frame is free. -/
def hasFree (table : FrameTable) : Bool := 0 < table.free.freeCount

/-- The free frame of the lowest number; there must be one. It is only named here, and is free
until a page is loaded into it. -/
def allocate (table : FrameTable) : Except Fault FrameId :=
  Fault.demand table.free.firstFree? .noFreeFrame

/-- The page that a frame holds. A number beyond the last frame is a fault, unlike a frame that
holds nothing. -/
def holder? (table : FrameTable) (frame : FrameId) : Except Fault (Option PageRef) :=
  match table.holders[frame]? with
  | some holder? => .ok holder?
  | none => .error .outOfBounds

/-- Puts a page that is not in memory into an empty frame. The frame is looked at first, so that
a frame in use is the fault that is reported when the page is in memory too. -/
def load (table : FrameTable) (frame : FrameId) (page : Page) :
    Except Fault (FrameTable × Page) := do
  match ← table.holder? frame, page.frame? with
  | some holder, _ => throw (.breach (.frameOccupied frame holder))
  | none, some elsewhere => throw (.breach (.alreadyResident page.ref elsewhere))
  | none, none =>
    let free ← table.free.occupy frame
    return ({ holders := table.holders.setIfInBounds frame (some page.ref), free },
      { page with frame? := some frame })

/-- Takes a page out of the frame that holds it. The frame must hold that page and the page must
name that frame, checked in this order. -/
def evict (table : FrameTable) (frame : FrameId) (page : Page) :
    Except Fault (FrameTable × Page) := do
  let holder? ← table.holder? frame
  Fault.require (holder? = some page.ref) (.notHeldBy frame page.ref holder?)
  Fault.require (page.frame? = some frame) (.recordElsewhere page.frame? frame)
  let free ← table.free.release frame
  return ({ holders := table.holders.setIfInBounds frame none, free },
    { page with frame? := none })

end FrameTable

end DemandPaging
