import DemandPaging.Simulator.Basic

/-!
# Agreement

The frames, the pages of the processes and the policy each record which pages are in memory.
`Machine.checkAgreement` compares them: every page that names a frame is the one that the frame holds,
as many frames are in use as there are such pages, every page that a frame holds names the frame, and
the policy tracks just the frames that are named, unless it tracks none at all.
-/

namespace DemandPaging.Machine

/-- The frames that pages name, in the order of the pages. Where the records agree no frame is
named twice, so the length is the number of frames in use. -/
def residentFrames (m : Machine) : List FrameId := m.processes.pages.filterMap (·.frame?)

/-- Checks that the frame that a page names, if any, holds the page. Frames that no page names
are left to `checkFrame`. -/
def checkPage (m : Machine) (page : Page) : Except Fault Unit := do
  match page.frame? with
  | none => return
  | some frame =>
    let holder? ← m.frames.holder? frame
    Fault.require (holder? = some page.ref) (.pageAstray page.ref frame holder?)

/-- Checks that the page that a frame holds, if any, names the frame. -/
def checkFrame (m : Machine) (frame : FrameId) : Except Fault Unit := do
  match ← m.frames.holder? frame with
  | none => return
  | some owner =>
    let recorded? := (m.processes.page? owner).bind (·.frame?)
    Fault.require (recorded? = some frame) (.holderElsewhere frame owner recorded?)

/-- Checks that the policy tracks the frames that pages name. Both are sorted first: the lists
track in the order of eviction, and the pages are listed by name. -/
def checkTracking (m : Machine) : Except Fault Unit := do
  match m.policy.tracked? with
  | none => return
  | some tracked =>
    let tracked := tracked.mergeSort
    let resident := m.residentFrames.mergeSort
    Fault.require (tracked = resident) (.trackingDiffers m.policy.kind tracked resident)

/-- Checks that all three records agree. The pages are checked first, then the counts, the
frames and the policy, and the first difference is the one that is reported. -/
def checkAgreement (m : Machine) : Except Fault Unit := do
  m.processes.pages.forM m.checkPage
  let resident := m.residentFrames.length
  Fault.require (m.frames.allocated = resident) (.countsDiffer m.frames.allocated resident)
  (List.range m.frames.size).forM m.checkFrame
  m.checkTracking

end DemandPaging.Machine
