import DemandPaging.Frame.Table

/-!
# Pages and their frames

A `PageStore` is a frame table together with the pages that it is used for, without any process: the
two sides of the bookkeeping in one place, so that what they say of each other can be stated.
-/

namespace DemandPaging

/-- A frame table and a family of pages, one for each name. It is what a machine has of them,
without the processes that the pages belong to. -/
structure PageStore where
  /-- The frames. -/
  frames : FrameTable
  /-- The pages, the one changed last first. -/
  pages : List Page := []
  deriving DecidableEq

namespace PageStore

/-- The store with `total` empty frames and without pages. -/
def ofSize (total : Nat) : Except Fault PageStore := do
  return { frames := ← FrameTable.ofSize total }

/-- The page of a name, if there is one. -/
def page? (s : PageStore) (ref : PageRef) : Option Page := s.pages.find? (·.ref = ref)

/-- Removes the page of a name. -/
def remove (s : PageStore) (ref : PageRef) : PageStore :=
  { s with pages := s.pages.filter (·.ref ≠ ref) }

/-- Adds a page, in place of the one of its name if there is one. The order of the pages does
not matter to anything but the text of the store. -/
def put (s : PageStore) (page : Page) : PageStore :=
  { s with pages := page :: (s.remove page.ref).pages }

/-- Puts a page that is not in memory into an empty frame. -/
def load (s : PageStore) (frame : FrameId) (page : Page) : Except Fault PageStore := do
  let (frames, page) ← s.frames.load frame page
  return { s with frames }.put page

/-- Takes a page out of the frame that holds it. -/
def evict (s : PageStore) (frame : FrameId) (page : Page) : Except Fault PageStore := do
  let (frames, page) ← s.frames.evict frame page
  return { s with frames }.put page

theorem page?_put {s : PageStore} {page : Page} {ref : PageRef} :
    (s.put page).page? ref = if ref = page.ref then some page else s.page? ref := by
  simp only [page?, put, remove, List.find?_cons, List.find?_filter]
  split
  · next h => simp_all
  · next h =>
    have : ref ≠ page.ref := fun e => by simp [e] at h
    simp only [this, if_false]
    congr 1
    funext q
    grind

end PageStore

end DemandPaging
