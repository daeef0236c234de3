import DemandPaging.Fault

/-!
# Free frames

`FreeFrames` marks each frame of a memory as free or used, says which free frame has the lowest
number, and knows at any time how many are used. The count is kept rather than taken anew because the
simulation samples it on every tick; that it is the number of marks is a field of the structure.
-/

namespace DemandPaging

/-- The marks of the frames of a memory. The count is kept beside them and is right by
construction, so that no operation can let the two drift apart. -/
structure FreeFrames where
  /-- For each frame, whether it is used. -/
  used : Array Bool
  /-- The number of used frames. -/
  usedCount : Nat := used.count true
  /-- The number is that of the marks. -/
  usedCount_eq : usedCount = used.count true := by rfl
  deriving DecidableEq

namespace FreeFrames

/-- A memory of `total` frames, all free. -/
def ofSize (total : Nat) : FreeFrames where
  used := Array.replicate total false
  usedCount := 0
  usedCount_eq := by simp [Array.count_replicate]

/-- The number of frames, free and used. -/
def size (f : FreeFrames) : Nat := f.used.size

/-- The number of free frames. -/
def freeCount (f : FreeFrames) : Nat := f.size - f.usedCount

/-- The free frame of the lowest number. That it is the lowest makes a simulation repeatable,
whatever the policy. -/
def firstFree? (f : FreeFrames) : Option FrameId :=
  f.used.findIdx? (!·)

/-- Whether a frame is free. -/
def isFree (f : FreeFrames) (frame : FrameId) : Except Fault Bool :=
  match f.used[frame]? with
  | some used => .ok !used
  | none => .error .outOfBounds

/-- Marks a frame as used, whether or not it was. The count goes up only if it was free. -/
def occupy (f : FreeFrames) (frame : FrameId) : Except Fault FreeFrames :=
  if h : frame < f.used.size then
    .ok {
      used := f.used.set frame true
      usedCount := if f.used[frame] then f.usedCount else f.usedCount + 1
      usedCount_eq := by
        rw [Array.count_set, f.usedCount_eq]
        cases hu : f.used[frame]
        · simp
        · have : 0 < f.used.count true := Array.count_pos_iff.2 (hu ▸ Array.getElem_mem h)
          simp; omega }
  else
    .error .outOfBounds

/-- Marks a frame as free, whether or not it was. The count goes down only if it was used. -/
def release (f : FreeFrames) (frame : FrameId) : Except Fault FreeFrames :=
  if h : frame < f.used.size then
    .ok {
      used := f.used.set frame false
      usedCount := if f.used[frame] then f.usedCount - 1 else f.usedCount
      usedCount_eq := by
        rw [Array.count_set, f.usedCount_eq]
        cases f.used[frame] <;> simp }
  else
    .error .outOfBounds

/-! ### What the marks say after each operation -/

@[ext] theorem ext {f g : FreeFrames} (h : f.used = g.used) : f = g := by
  cases f with | mk u n hn => cases g with | mk v m hm => cases h; simp [hn, hm]

theorem used_of_occupy {f g : FreeFrames} {frame : FrameId} (h : f.occupy frame = .ok g) :
    g.used = f.used.setIfInBounds frame true := by
  unfold occupy at h
  split at h <;> cases h
  simp [Array.setIfInBounds, *]

theorem used_of_release {f g : FreeFrames} {frame : FrameId} (h : f.release frame = .ok g) :
    g.used = f.used.setIfInBounds frame false := by
  unfold release at h
  split at h <;> cases h
  simp [Array.setIfInBounds, *]

end FreeFrames

end DemandPaging
