import DemandPaging.Number
import DemandPaging.Policy.Kind
import DemandPaging.Process.State

/-!
# Parameters of a simulation

`Config` holds the parameters as they are given, and `Config.problem?` says what is wrong with them
first, if anything: memory and page size must be positive, the page size a power of two that divides
the memory, the clock tick positive, and the disk penalty a positive number of ticks. A `ValidConfig`
has nothing wrong with it.
-/

namespace DemandPaging

/-- Why parameters are refused. Each reason has the values with it that its message shows. -/
inductive ConfigError where
  /-- There is no memory. -/
  | zeroMemory
  /-- Pages are empty. -/
  | zeroPageSize
  /-- The page size is not a power of two. -/
  | pageSizeNotPowerOfTwo (pageSize : Nat)
  /-- Memory cannot hold one page. -/
  | pageLargerThanMemory (pageSize memoryBytes : Nat)
  /-- Memory is not a whole number of pages. -/
  | unevenPageCount (pageSize memoryBytes : Nat)
  /-- The memory's size in bytes needs more than 64 bits. -/
  | memoryOverflow
  /-- Time would stand still. -/
  | zeroClockTick
  /-- A disk read does not take a positive number of ticks. -/
  | invalidDiskPenalty (diskPenalty clockTick : Nat)
  deriving DecidableEq, Repr

/-- The wording of each refusal. -/
def ConfigError.message : ConfigError → String
  | zeroMemory => "memory size must be positive"
  | zeroPageSize => "page size must be positive"
  | pageSizeNotPowerOfTwo pageSize => s!"page size {pageSize} is not a power of two"
  | pageLargerThanMemory pageSize memoryBytes =>
    s!"page size {pageSize} B is larger than memory size {memoryBytes} B"
  | unevenPageCount pageSize memoryBytes =>
    s!"memory size {memoryBytes} B is not a multiple of page size {pageSize} B"
  | memoryOverflow => "memory size overflows 64 bits"
  | zeroClockTick => "clock tick must be positive"
  | invalidDiskPenalty diskPenalty clockTick =>
    s!"disk penalty {diskPenalty} is not a positive multiple of clock tick {clockTick}"

namespace Config

/-- The bytes of a megabyte. -/
def bytesPerMegabyte : Nat := 2 ^ 20

/-- The memory, in megabytes, when nothing else is asked for. -/
def defaultMegabytes : Nat := 1

/-- The page size when nothing else is asked for. -/
def defaultPageSize : Nat := 4096

/-- The seed when nothing else is asked for. -/
def defaultSeed : Nat := 537

/-- The clock tick when nothing else is asked for. -/
def defaultClockTick : Nat := 1

/-- The disk penalty when nothing else is asked for: with ticks of a nanosecond, two milliseconds. -/
def defaultDiskPenalty : Nat := 2000000 * defaultClockTick

end Config

/-- The parameters of a simulation. Sizes are in bytes, and times in units of which the clock
tick is a whole number. -/
structure Config where
  /-- The size of the memory. -/
  memoryBytes : Nat := Config.defaultMegabytes * Config.bytesPerMegabyte
  /-- The size of a page and of a frame. -/
  pageSize : Nat := Config.defaultPageSize
  /-- The replacement policy. -/
  policy : PolicyKind := .lru
  /-- The seed of the random policy. -/
  seed : Nat := Config.defaultSeed
  /-- The order of the runnable queue. -/
  queueOrder : QueueOrder := .arrival
  /-- How long a disk read takes. -/
  diskPenalty : Nat := Config.defaultDiskPenalty
  /-- How long a reference takes; the unit in which time passes. -/
  clockTick : Nat := Config.defaultClockTick
  /-- Whether time in which nothing can run is passed over at once. -/
  fastForward : Bool := true
  deriving DecidableEq, Repr

namespace Config

/-- Parameters with the memory given in megabytes; its size in bytes must fit into 64 bits.
Everything else that may be wrong with them is left to `problem?`. -/
def ofMegabytes (megabytes pageSize : Nat) : Except ConfigError Config :=
  let memoryBytes := megabytes * bytesPerMegabyte
  if memoryBytes < 2 ^ 64 then .ok { memoryBytes, pageSize } else .error .memoryOverflow

/-- What is wrong with the parameters; of several things the first in this order. Each question
may rely on those before it: a page size is a power of two only if it is not zero, and a
remainder is asked for only of what is not zero. -/
def problem? (c : Config) : Option ConfigError :=
  if c.memoryBytes = 0 then some .zeroMemory
  else if c.pageSize = 0 then some .zeroPageSize
  else if 2 ^ c.pageSize.log2 ≠ c.pageSize then some (.pageSizeNotPowerOfTwo c.pageSize)
  else if c.memoryBytes < c.pageSize then some (.pageLargerThanMemory c.pageSize c.memoryBytes)
  else if c.memoryBytes % c.pageSize ≠ 0 then some (.unevenPageCount c.pageSize c.memoryBytes)
  else if c.clockTick = 0 then some .zeroClockTick
  else if c.diskPenalty = 0 ∨ c.diskPenalty % c.clockTick ≠ 0 then
    some (.invalidDiskPenalty c.diskPenalty c.clockTick)
  else none

/-- The number of frames. For valid parameters the division leaves no rest, and there is at
least one frame. -/
def totalFrames (c : Config) : Nat := c.memoryBytes / c.pageSize

end Config

/-- Parameters with nothing wrong. A simulation has these, so that what its operations ask of
the parameters is proved of them here and never checked again. -/
structure ValidConfig extends Config where
  /-- No requirement is broken. -/
  valid : toConfig.problem? = none
  deriving DecidableEq

/-- The parameters as valid ones, or what is wrong with them. The parameters themselves stay as
they are. -/
def Config.validate (c : Config) : Except ConfigError ValidConfig :=
  match h : c.problem? with
  | some e => .error e
  | none => .ok { c with valid := h }

namespace ValidConfig

variable (c : ValidConfig)

theorem clockTick_pos : 0 < c.clockTick := by
  have h := c.valid
  unfold Config.problem? at h
  grind

theorem totalFrames_pos : 0 < c.totalFrames := by
  have h := c.valid
  unfold Config.problem? at h
  exact Nat.div_pos (by grind) (by grind)

theorem diskPenalty_pos : 0 < c.diskPenalty := by
  have h := c.valid
  unfold Config.problem? at h
  grind

theorem clockTick_dvd_diskPenalty : c.clockTick ∣ c.diskPenalty := by
  have h := c.valid
  unfold Config.problem? at h
  exact Nat.dvd_of_mod_eq_zero (by grind)

end ValidConfig

end DemandPaging
