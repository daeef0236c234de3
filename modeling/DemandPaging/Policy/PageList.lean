import DemandPaging.Fault

/-!
# The page list

The list that the list-keeping policies put pages in, oldest first. Every page that such a policy
knows has a slot for as long as its process keeps it, whether it is queued or not, so that it can be
moved or dropped without a search. Slots are reused, the one freed last first.

The entries of the list are linked in both directions through their slots. `PageList.entries` reads
the list from its head and is the view through which its operations are to be understood: `pushBack`
appends, `unlink` and `release` drop one entry, `moveToBack` drops one and appends it, `popFront`
drops the first.
-/

namespace DemandPaging

/-- What a slot of a page list holds. The links are slots as well, and are there only while the
page is queued; the frame stays from the last time that it was. -/
structure ListNode where
  /-- The page that the slot belongs to. -/
  page : PageRef
  /-- The frame of the page when it was last queued. -/
  frame? : Option FrameId := none
  /-- The slot of the entry before this one. -/
  prev? : Option Nat := none
  /-- The slot of the entry after this one. -/
  next? : Option Nat := none
  /-- Whether the page is queued. -/
  linked : Bool := false
  deriving DecidableEq, Repr

/-- A list of pages over reusable slots. The links, the two ends and the length must fit each
other, which every operation keeps up; `entries` is the list that they describe. -/
@[ext] structure PageList where
  /-- The slots; one that holds nothing is vacant. -/
  slots : Array (Option ListNode) := #[]
  /-- The vacant slots, the one freed last first. -/
  vacant : List Nat := []
  /-- The slot of the oldest entry. -/
  head? : Option Nat := none
  /-- The slot of the newest entry. -/
  tail? : Option Nat := none
  /-- The number of entries. -/
  length : Nat := 0
  deriving DecidableEq

namespace PageList

/-- The list without slots. -/
def empty : PageList := {}

instance : EmptyCollection PageList := ⟨empty⟩

/-- Whether the list has no entry. -/
def isEmpty (list : PageList) : Bool := list.length == 0

/-- What a slot holds, if it is not vacant. A slot that was never given out holds nothing
either. -/
def node? (list : PageList) (slot : Nat) : Option ListNode :=
  list.slots[slot]?.join

/-- What a slot holds; it must not be vacant. A vacant one means that the caller kept a mark on
a page that it had given up. -/
def node (list : PageList) (slot : Nat) : Except Fault ListNode :=
  Fault.demand (list.node? slot) (.staleSlot slot)

/-- Changes what a slot holds. -/
def modifyNode (list : PageList) (slot : Nat) (f : ListNode → ListNode) : PageList :=
  { list with slots := list.slots.modify slot (·.map f) }

/-- Gives a page a slot. The page is not queued yet. The slot that was freed last is used again
before the list grows. -/
def alloc (list : PageList) (page : PageRef) : Nat × PageList :=
  match list.vacant with
  | slot :: vacant =>
    (slot, { list with slots := list.slots.setIfInBounds slot (some { page }), vacant })
  | [] => (list.slots.size, { list with slots := list.slots.push (some { page }) })

/-- Queues a page at the newest end, with the frame that holds it. -/
def pushBack (list : PageList) (slot : Nat) (frame : FrameId) : Except Fault PageList := do
  let node ← list.node slot
  Fault.require (!node.linked) (.alreadyQueued node.page)
  let list' := list.modifyNode slot fun node =>
    { node with frame? := some frame, prev? := list.tail?, next? := none, linked := true }
  let list' := { list' with tail? := some slot, length := list.length + 1 }
  -- The entry that was newest so far leads to the new one; in an empty list the new one is first.
  match list.tail? with
  | some last => return list'.modifyNode last ({ · with next? := some slot })
  | none => return { list' with head? := some slot }

/-- Takes a page out of the queue; it keeps its slot. -/
def unlink (list : PageList) (slot : Nat) : Except Fault PageList := do
  let node ← list.node slot
  Fault.require node.linked (.notQueued node.page)
  let list := list.modifyNode slot ({ · with prev? := none, next? := none, linked := false })
  -- The neighbours are joined; where there is none, an end of the list moves.
  let list := match node.prev? with
    | some before => list.modifyNode before ({ · with next? := node.next? })
    | none => { list with head? := node.next? }
  let list := match node.next? with
    | some after => list.modifyNode after ({ · with prev? := node.prev? })
    | none => { list with tail? := node.prev? }
  return { list with length := list.length - 1 }

/-- Moves a queued page to the newest end. It is taken out and queued again with the frame that
it had; moving the newest entry leaves the list as it was. -/
def moveToBack (list : PageList) (slot : Nat) : Except Fault PageList := do
  let node ← list.node slot
  let frame ← Fault.demand node.frame? (.neverLoaded node.page)
  (← list.unlink slot).pushBack slot frame

/-- Takes the oldest page out of the queue and tells its frame; nothing when no page is queued.
The page keeps its slot, since it is evicted and not given up. -/
def popFront (list : PageList) : Except Fault (Option FrameId × PageList) := do
  match list.head? with
  | none => return (none, list)
  | some slot =>
    let node ← list.node slot
    return (node.frame?, ← list.unlink slot)

/-- Frees the slot of a page, after taking the page out of the queue if it is there. -/
def release (list : PageList) (slot : Nat) : Except Fault PageList := do
  let node ← list.node slot
  let list ← if node.linked then list.unlink slot else pure list
  return { list with
    slots := list.slots.setIfInBounds slot none
    vacant := slot :: list.vacant }

/-- What the slots hold that are met by following `link` from `slot?` until it leads nowhere; `none`
when a slot on the way is vacant or the way is longer than `steps`. -/
def follow (list : PageList) (link : ListNode → Option Nat) :
    (steps : Nat) → (slot? : Option Nat) → Option (List (Nat × ListNode))
  | _, none => some []
  | 0, some _ => none
  | steps + 1, some slot => do
    let node ← list.node? slot
    let rest ← list.follow link steps (link node)
    return (slot, node) :: rest

/-- The queued pages with their slots, oldest first. A sound list has no more entries than
slots, so as many steps are enough to read it. -/
def entries (list : PageList) : List (Nat × ListNode) :=
  (list.follow ListNode.next? list.slots.size list.head?).getD []

/-- The frames of the queued pages, oldest first. -/
def frames (list : PageList) : List FrameId :=
  list.entries.filterMap (·.2.frame?)

end PageList

/-- The list slot of a page; a page of a list-keeping policy has one. -/
def Page.slot (page : Page) : Except Fault Nat :=
  match page.overhead with
  | .listed slot => .ok slot
  | .empty => .error (.breach (.noListSlot page.ref))

end DemandPaging
