import DemandPaging.Frame.Store
import DemandPaging.Policy.Basic

/-!
# A memory under a policy

`Policy.claim` is how a frame for a page is found: the free one of the lowest number, or if none is
free the one that the policy names. A `PagedMemory` is a page store whose frames are given out in this
way, on two occasions: a page is used (`touch`), or given up for good (`discard`). There are no
processes here and no time passes.
-/

namespace DemandPaging

/-- The frame for a page that is to be loaded, and the page that has to leave it, if any. The
policy is asked only when no frame is free, and must then name a frame that holds a page. -/
def Policy.claim (policy : Policy) (frames : FrameTable) :
    Except Fault (FrameId × Option PageRef × Policy) := do
  if frames.hasFree then
    return (← frames.allocate, none, policy)
  let (frame, policy) ← policy.victim
  let holder ← Fault.demand (← frames.holder? frame) (.victimFree policy.kind frame)
  return (frame, some holder, policy)

/-- A page store and the policy by which its frames are given out. It is the machine without
processes and time, and takes any sequence of uses and drops. -/
structure PagedMemory extends PageStore where
  /-- The policy. -/
  policy : Policy
  deriving DecidableEq

namespace PagedMemory

/-- Adds a page, not in memory and marked by the policy. Any page of its name is replaced, so it
is for names that the store does not know. -/
def track (m : PagedMemory) (ref : PageRef) : Page × PagedMemory :=
  let (overhead, policy) := m.policy.track ref
  let page := { ref, overhead }
  (page, { m.put page with policy })

/-- Makes room for a page, at the cost of another page if no frame is free. The page that has to
leave is written back into the store without a frame, and keeps its mark. -/
def makeRoom (m : PagedMemory) : Except Fault (FrameId × Option PageRef × PagedMemory) := do
  let (frame, owner?, policy) ← m.policy.claim m.frames
  match owner? with
  | none => return (frame, none, { m with policy })
  | some owner =>
    let page ← Fault.demand (m.page? owner) (.holderUnknown frame owner)
    let store ← m.evict frame page
    return (frame, some owner, { store with policy })

/-- Uses a page. If it is in memory the policy is told, and nothing is answered; otherwise the page is
loaded, and its new frame is answered with the page that had to leave it. -/
def touch (m : PagedMemory) (ref : PageRef) :
    Except Fault (Option (FrameId × Option PageRef) × PagedMemory) := do
  let (page, m) := match m.page? ref with
    | some page => (page, m)
    | none => m.track ref
  if page.isResident then
    return (none, { m with policy := ← m.policy.noteAccess page })
  let (frame, owner?, m) ← m.makeRoom
  let store ← m.load frame page
  let policy ← m.policy.noteLoad { page with frame? := some frame }
  return (some (frame, owner?), { store with policy })

/-- Gives up a page for good, and tells the frame that it leaves empty, if any. -/
def discard (m : PagedMemory) (page : Page) : Except Fault (Option FrameId × PagedMemory) := do
  let policy ← m.policy.forget page
  let store ← match page.frame? with
    | some frame => m.evict frame page
    | none => pure m.toPageStore
  return (page.frame?, { store.remove page.ref with policy })

end PagedMemory

end DemandPaging
