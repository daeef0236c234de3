import DemandPaging.Number

/-!
# The medium of a trace

A trace is read from a medium: bytes with an offset that reading moves. A medium may refuse to be read
or to be moved, and says why; it then stays as it was.

Only a line feed ends a line, and the last line needs none. `Medium.line` is the line at the offset,
its end included; it is empty at the end of the bytes and nowhere else (`line_isEmpty_iff`).
-/

namespace DemandPaging

/-- Why a medium did not do what it was asked for. Text that is not valid is found by whoever
reads the line; the other reasons come from where the bytes lie. -/
inductive MediumError where
  | notText
  | notFound
  | notDirectory
  | isDirectory
  | invalidOffset
  | nameTooLong
  | other (text : String)
  deriving DecidableEq, Repr

/-- The wording of each reason. -/
def MediumError.message : MediumError → String
  | notText => "stream did not contain valid UTF-8"
  | notFound => "No such file or directory (os error 2)"
  | notDirectory => "Not a directory (os error 20)"
  | isDirectory => "Is a directory (os error 21)"
  | invalidOffset => "Invalid argument (os error 22)"
  | nameTooLong => "File name too long (os error 36)"
  | other text => text

/-- Bytes that are read line by line. Whether it can be moved or read does not change by itself,
so a trace that could be surveyed can be replayed. -/
structure Medium where
  /-- The bytes. -/
  bytes : ByteArray
  /-- The number of bytes before the next one to be read. -/
  offset : Nat := 0
  /-- The greatest offset that the medium can be moved to. -/
  maxOffset : Nat := 2 ^ 64 - 1
  /-- Why the medium cannot be moved, if it cannot. -/
  seekError? : Option MediumError := none
  /-- Why the medium cannot be read, if it cannot. -/
  readError? : Option MediumError := none

namespace Medium

/-- The offset just past the line that `start` lies on. -/
def lineEnd (bytes : ByteArray) (start : Nat) : Nat :=
  if h : start < bytes.size then
    if bytes[start] = '\n'.toUInt8 then start + 1 else lineEnd bytes (start + 1)
  else start
termination_by bytes.size - start

theorem le_lineEnd (bytes : ByteArray) (start : Nat) : start ≤ lineEnd bytes start := by
  fun_induction lineEnd bytes start <;> omega

theorem lineEnd_le (bytes : ByteArray) (start : Nat) :
    lineEnd bytes start ≤ max bytes.size start := by
  fun_induction lineEnd bytes start <;> omega

theorem lt_lineEnd {bytes : ByteArray} {start : Nat} (h : start < bytes.size) :
    start < lineEnd bytes start := by
  unfold lineEnd
  simp only [h, dite_true]
  split
  · omega
  · exact le_lineEnd bytes (start + 1)

/-- The rest of the line at the offset, its end included. It is empty at the end of the bytes
and nowhere else. -/
def line (m : Medium) : ByteArray :=
  m.bytes.extract m.offset (lineEnd m.bytes m.offset)

/-- The medium past that line. -/
def skipLine (m : Medium) : Medium :=
  { m with offset := lineEnd m.bytes m.offset }

/-- The number of bytes still to be read. -/
def remaining (m : Medium) : Nat := m.bytes.size - m.offset

theorem size_line (m : Medium) : m.line.size = lineEnd m.bytes m.offset - m.offset := by
  have := le_lineEnd m.bytes m.offset
  have := lineEnd_le m.bytes m.offset
  simp only [line, ByteArray.size_extract]
  omega

theorem line_isEmpty_iff {m : Medium} : m.line.isEmpty = true ↔ m.bytes.size ≤ m.offset := by
  rw [ByteArray.isEmpty, beq_iff_eq, size_line]
  constructor
  · intro h
    have : m.offset < m.bytes.size → m.offset < lineEnd m.bytes m.offset := lt_lineEnd
    omega
  · intro h
    unfold lineEnd
    simp [Nat.not_lt.2 h]

theorem remaining_skipLine_lt {m : Medium} (h : ¬m.line.isEmpty = true) :
    m.skipLine.remaining < m.remaining := by
  rw [line_isEmpty_iff, Nat.not_le] at h
  have := lt_lineEnd h
  simp only [remaining, skipLine]
  omega

/-- Moves the medium to an offset, which may lie past the end. Nothing is left to be read there;
only an offset beyond `maxOffset` is refused. -/
def seek (m : Medium) (offset : Nat) : Except MediumError Medium :=
  match m.seekError? with
  | some e => .error e
  | none => if offset ≤ m.maxOffset then .ok { m with offset } else .error .invalidOffset

end Medium

end DemandPaging
