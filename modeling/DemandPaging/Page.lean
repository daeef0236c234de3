/-!
# Pages

A process names memory by virtual page numbers, so a page is known everywhere by the pair of its
process and its number, a `PageRef`. A `Page` is the record that its process keeps of it: the frame
that holds it, if any, and the mark that the replacement policy left on it.
-/

namespace DemandPaging

/-- The number of a process. The trace names processes by positive numbers. -/
abbrev Pid := Nat

/-- A virtual page number. -/
abbrev Vpn := Nat

/-- The number of a physical frame, counted from zero. -/
abbrev FrameId := Nat

/-- The name of a page: its process and its number there. Processes share no pages, so equal
numbers in two processes are two pages. -/
structure PageRef where
  /-- The process that owns the page. -/
  pid : Pid
  /-- The number of the page in that process. -/
  vpn : Vpn
  deriving DecidableEq, Repr

namespace PageRef

instance : ToString PageRef where
  toString p := s!"pid {p.pid} vpn {p.vpn}"

/-- The name written out field by field, as diagnostics show it. -/
def fields (p : PageRef) : String :=
  s!"PageRef \x7b pid: {p.pid}, vpn: {p.vpn} \x7d"

end PageRef

/-- What a replacement policy leaves on a page: nothing, or the slot of the page in its list.
With it the policy finds the page again without a search. -/
inductive Overhead where
  /-- The policy keeps no mark on pages. -/
  | empty
  /-- The page's slot in the list of a list-keeping policy. -/
  | listed (slot : Nat)
  deriving DecidableEq, Repr

instance : ToString Overhead where
  toString
    | .empty => "Empty"
    | .listed slot => s!"ListNode(NodeId({slot}))"

/-- A page as its process records it. The record outlives a stay in memory: when the page is
evicted its frame goes and its mark stays. -/
@[ext] structure Page where
  /-- The page's name. -/
  ref : PageRef
  /-- The frame that holds the page, if it is in memory. -/
  frame? : Option FrameId := none
  /-- The mark of the replacement policy. -/
  overhead : Overhead
  deriving DecidableEq, Repr

/-- A page is resident when some frame holds it. The frame table says the same from its side;
that both agree is kept up by every load and eviction. -/
def Page.isResident (page : Page) : Bool :=
  page.frame?.isSome

@[simp] theorem Page.isResident_iff {page : Page} :
    page.isResident = true ↔ ∃ frame, page.frame? = some frame := by
  simp [Page.isResident, Option.isSome_iff_exists]

end DemandPaging
