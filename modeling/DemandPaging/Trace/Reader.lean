import DemandPaging.Trace.Record

/-!
# Reading a trace

A `TraceReader` reads records from a medium and knows the offset at which it stands, so that a caller
can save the place and return to it. Blank lines are passed over.

The reader's own offset and that of its medium are two things. A line that is not text moves the
medium past it and leaves the reader where that line starts; until the next move of the medium the
offsets are then counted from there. `seek` moves the medium only if the reader stands elsewhere,
`rewind` always does.

Each operation gives its answer together with the reader that it leaves, whether the answer is an
error or not. Reading on ends because each line read makes `Medium.remaining` smaller.
-/

namespace DemandPaging

/-- A reader of trace records. Its position is the offset of the medium, except after a line
that was not text. -/
structure TraceReader where
  /-- Where the bytes come from. -/
  medium : Medium
  /-- The offset at which the reader stands. -/
  position : Nat := 0

namespace TraceReader

/-- A reader at the start of some bytes. -/
def ofBytes (bytes : ByteArray) : TraceReader := { medium := { bytes } }

/-- Moves the medium and the reader to an offset. -/
def moveTo (reader : TraceReader) (offset : Nat) : Except SimulationError Unit × TraceReader :=
  match reader.medium.seek offset with
  | .error e => (.error (.medium e), reader)
  | .ok medium => (.ok (), { medium, position := offset })

/-- Moves to an offset, unless the reader stands there. What the reader takes for its place
decides, not where the medium is. -/
def seek (reader : TraceReader) (offset : Nat) : Except SimulationError Unit × TraceReader :=
  if offset = reader.position then (.ok (), reader) else reader.moveTo offset

/-- Moves to the start. -/
def rewind (reader : TraceReader) : Except SimulationError Unit × TraceReader :=
  reader.moveTo 0

/-- The reader past the line at which its medium stands. -/
def skipLine (reader : TraceReader) : TraceReader where
  medium := reader.medium.skipLine
  position := reader.position + reader.medium.line.size

/-- The next record; none at the end of the trace. A line that is no record is consumed and
answered with an error, and the line after it is the next one. -/
def next (reader : TraceReader) : Except SimulationError (Option TraceRecord) × TraceReader :=
  match reader.medium.readError? with
  | some e => (.error (.medium e), reader)
  | none =>
    if _h : reader.medium.line.isEmpty then (.ok none, reader)
    else match String.fromUTF8? reader.medium.line with
      | none => (.error (.medium .notText), { reader with medium := reader.medium.skipLine })
      | some text =>
        match Text.trim text.toList with
        -- a blank line is passed over
        | [] => next reader.skipLine
        | letters =>
          match TraceRecord.parse (.ofList letters) reader.position with
          | .error e => (.error e, reader.skipLine)
          | .ok page =>
            let record :=
              { page, offset := reader.position, nextOffset := reader.skipLine.position }
            (.ok (some record), reader.skipLine)
termination_by reader.medium.remaining
decreasing_by exact Medium.remaining_skipLine_lt _h

theorem remaining_next_lt {reader after : TraceReader} {record : TraceRecord}
    (h : reader.next = (.ok (some record), after)) :
    after.medium.remaining < reader.medium.remaining := by
  fun_induction next reader with
  | case1 => simp at h
  | case2 => simp at h
  | case3 => simp at h
  | case4 reader _ hline _ _ _ ih =>
    exact Nat.lt_trans (ih h) (Medium.remaining_skipLine_lt hline)
  | case5 => simp at h
  | case6 reader _ hline =>
    simp only [Prod.mk.injEq] at h
    exact h.2 ▸ Medium.remaining_skipLine_lt hline

/-- All records from where the reader stands, after those in `before`, the latest first. They
are gathered backwards and turned round at the end. -/
def recordsAfter (before : List TraceRecord) (reader : TraceReader) :
    Except SimulationError (List TraceRecord) × TraceReader :=
  match _h : reader.next with
  | (.error e, reader) => (.error e, reader)
  | (.ok none, reader) => (.ok before.reverse, reader)
  | (.ok (some record), reader) => recordsAfter (record :: before) reader
termination_by reader.medium.remaining
decreasing_by exact remaining_next_lt _h

/-- All records from where the reader stands; the first line that is no record is an error. The
records before it are lost then, since a trace with an error in it is not simulated. -/
def records (reader : TraceReader) : Except SimulationError (List TraceRecord) × TraceReader :=
  recordsAfter [] reader

end TraceReader

end DemandPaging
