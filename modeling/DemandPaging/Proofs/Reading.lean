import DemandPaging.Survey

/-!
# Reading a trace from any place

A reader that stands where its medium stands is determined by the medium and the offset:
`Medium.readerAt`. As long as it reads records it stays one of these, so reading a record is a
relation between an offset and a record, `Medium.Reads`, and the records of a whole trace are a
chain of such readings, `Medium.Holds`.

The chain can be entered anywhere. From the offset of a record that record is read again
(`Holds.reads_offset`), and from the end of a record's line the record that follows is read
(`Holds.reads_nextOffset`), whatever blank lines lie between.

A survey reads the whole chain and moves the reader back to where it begins (`survey_eq_ok_iff`).
-/

namespace DemandPaging.Medium

variable {m : Medium} {offset : Nat} {record follower : TraceRecord} {records : List TraceRecord}

/-- A reader of the medium that stands at an offset. Its place and that of its medium are the
same, as they are for any reader that has only read records. -/
def readerAt (m : Medium) (offset : Nat) : TraceReader where
  medium := { m with offset }
  position := offset

@[simp] theorem readerAt_position : (m.readerAt offset).position = offset := rfl

/-- A medium that can be moved to each of its bytes and to their end. Without this a survey
could succeed and the replay fail, when a process is to be continued elsewhere. -/
structure Steady (m : Medium) : Prop where
  /-- Moving it does not fail. -/
  canSeek : m.seekError? = none
  /-- No byte is out of reach. -/
  reachable : m.bytes.size ≤ m.maxOffset

/-- From an offset the next record is the given one, and the reader ends just past its line.
Blank lines before the record are read with it. -/
def Reads (m : Medium) (offset : Nat) (record : TraceRecord) : Prop :=
  (m.readerAt offset).next = (.ok (some record), m.readerAt record.nextOffset)

/-! ### One record -/

theorem skipLine_readerAt : (m.readerAt offset).skipLine = m.readerAt (lineEnd m.bytes offset) := by
  have hsize : (m.readerAt offset).medium.line.size = lineEnd m.bytes offset - offset := size_line _
  have hle := le_lineEnd m.bytes offset
  have hend : offset + (lineEnd m.bytes offset - offset) = lineEnd m.bytes offset := by omega
  rw [TraceReader.skipLine, hsize, readerAt_position, hend]
  rfl

/-- **A record stands in one place.** A record that is read from some offset is also read from the
start of its own line; the reader ends just past that line, which lies within the medium. -/
theorem reads_of_next {after : TraceReader}
    (h : (m.readerAt offset).next = (.ok (some record), after)) :
    m.Reads offset record ∧ m.Reads record.offset record ∧ record.nextOffset ≤ m.bytes.size := by
  have key : (m.readerAt record.offset).next = (.ok (some record), after) ∧
      after = m.readerAt record.nextOffset ∧ record.nextOffset ≤ m.bytes.size := by
    generalize hreader : m.readerAt offset = reader at h
    induction reader using TraceReader.next.induct generalizing offset with
    -- the medium refuses, ends, or has a line that is not text: no record is read
    | case1 _ _ hread => rw [TraceReader.next, hread] at h; cases h
    | case2 _ hread hline => rw [TraceReader.next, hread] at h; simp [hline] at h
    | case3 _ hread hline htext =>
      rw [TraceReader.next, hread] at h
      simp only [hline, htext] at h
      cases h
    | case4 reader hread hline text htext hblank ih =>
      -- a blank line: the record is further on
      rw [TraceReader.next, hread] at h
      simp only [hline, htext, hblank, Bool.false_eq_true, dite_false] at h
      subst hreader
      exact ih skipLine_readerAt.symm h
    | case5 _ hread hline text htext e hletters hparse =>
      rw [TraceReader.next, hread] at h
      simp only [hline, htext] at h
      rw [hparse] at h
      cases h
    | case6 reader hread hline text htext page hletters hparse =>
      -- the line has the record on it, and starts where the reader stands
      have hline' := h
      rw [TraceReader.next, hread] at h
      simp only [hline, htext] at h
      rw [hparse] at h
      cases h
      subst hreader
      have hlt : offset < m.bytes.size := by
        rw [line_isEmpty_iff] at hline
        exact Nat.lt_of_not_le hline
      have hend := lineEnd_le m.bytes offset
      refine ⟨hline', ?_, ?_⟩
      · rw [skipLine_readerAt]
        rfl
      · rw [skipLine_readerAt]
        show lineEnd m.bytes offset ≤ m.bytes.size
        omega
  obtain ⟨hown, rfl, hsize⟩ := key
  exact ⟨h, hown, hsize⟩

theorem Reads.lt_size (h : m.Reads offset record) : offset < m.bytes.size := by
  refine Nat.lt_of_not_le fun hge => ?_
  have hline : (m.readerAt offset).medium.line.isEmpty = true := line_isEmpty_iff.2 hge
  rw [Reads, TraceReader.next] at h
  split at h
  · cases h
  · rw [dif_pos hline] at h
    cases h

/-! ### A whole trace -/

/-- From an offset on the trace goes on with the given records, and then ends. There is one such
list for an offset at most, as reading is a function. -/
inductive Holds (m : Medium) : Nat → List TraceRecord → Prop where
  /-- No record is left. -/
  | done {offset after} (hend : (m.readerAt offset).next = (.ok none, after)) : m.Holds offset []
  /-- A record is read, and the others from the end of its line. -/
  | more {offset record rest} (hread : m.Reads offset record)
      (hrest : m.Holds record.nextOffset rest) : m.Holds offset (record :: rest)

/-- Reading on to the end finds the records that the medium holds. By induction on the reading,
each record being read from the end of the line of the one before. -/
theorem holds_of_recordsAfter {before : List TraceRecord} {after : TraceReader}
    (h : TraceReader.recordsAfter before (m.readerAt offset) = (.ok records, after)) :
    ∃ rest, records = before.reverse ++ rest ∧ m.Holds offset rest := by
  generalize hreader : m.readerAt offset = reader at h
  fun_induction TraceReader.recordsAfter before reader generalizing offset with
  | case1 => cases h
  | case2 before reader after hnext =>
    cases h
    exact ⟨[], by rw [List.append_nil], .done (hreader ▸ hnext)⟩
  | case3 before reader record stop hnext ih =>
    subst hreader
    obtain ⟨hread, -, -⟩ := reads_of_next hnext
    have hstop : m.readerAt record.nextOffset = stop := by
      have := hread.symm.trans hnext
      exact (Prod.mk.inj this).2
    obtain ⟨rest, rfl, hrest⟩ := ih hstop h
    refine ⟨record :: rest, ?_, .more hread hrest⟩
    rw [List.reverse_cons, List.append_assoc, List.singleton_append]

theorem holds_of_records (h : (m.readerAt offset).records.1 = .ok records) : m.Holds offset records := by
  have hall : TraceReader.recordsAfter [] (m.readerAt offset) =
      (.ok records, (m.readerAt offset).records.2) := Prod.ext h rfl
  obtain ⟨rest, rfl, hrest⟩ := holds_of_recordsAfter hall
  exact hrest

namespace Holds

theorem reads_offset (h : m.Holds offset records) {k : Nat} (hk : records[k]? = some record) :
    m.Reads record.offset record := by
  induction h generalizing k with
  | done => cases hk
  -- blank lines may lie between the offset and the record, but not within its own line
  | more hread _ ih =>
    cases k with
    | zero =>
      cases hk
      exact (reads_of_next hread).2.1
    | succ k => exact ih hk

theorem reads_nextOffset (h : m.Holds offset records) {k : Nat} (hk : records[k]? = some record)
    (hfollower : records[k + 1]? = some follower) : m.Reads record.nextOffset follower := by
  induction h generalizing k with
  | done => cases hk
  | more _ hrest ih =>
    cases k with
    -- the record after it is the first one of the rest
    | zero =>
      cases hk
      cases hrest with
      | done => cases hfollower
      | more hread _ =>
        cases hfollower
        exact hread
    | succ k => exact ih hk hfollower

end Holds

/-! ### Moving a reader -/

/-- Reading a record moves the medium and does nothing else to it. -/
theorem medium_next (reader : TraceReader) :
    ∃ offset, reader.next.2.medium = { reader.medium with offset } := by
  fun_induction TraceReader.next reader with
  | case1 => exact ⟨_, rfl⟩
  | case2 => exact ⟨_, rfl⟩
  | case3 => exact ⟨_, rfl⟩
  | case4 _ _ _ _ _ _ ih =>
    obtain ⟨offset, h⟩ := ih
    exact ⟨offset, h⟩
  | case5 => exact ⟨_, rfl⟩
  | case6 => exact ⟨_, rfl⟩

theorem medium_recordsAfter (before : List TraceRecord) (reader : TraceReader) :
    ∃ offset, (TraceReader.recordsAfter before reader).2.medium = { reader.medium with offset } := by
  have hstep : ∀ {reader : TraceReader} {outcome stop}, reader.next = (outcome, stop) →
      ∃ offset, stop.medium = { reader.medium with offset } := by
    intro reader outcome stop hnext
    have hmedium := medium_next reader
    rwa [hnext] at hmedium
  fun_induction TraceReader.recordsAfter before reader with
  | case1 _ _ _ _ hnext => exact hstep hnext
  | case2 _ _ _ hnext => exact hstep hnext
  | case3 _ _ _ _ hnext ih =>
    obtain ⟨_, hmiddle⟩ := hstep hnext
    obtain ⟨offset, hlast⟩ := ih
    exact ⟨offset, by rw [hlast, hmiddle]⟩

theorem rewind_eq_ok (h : m.seekError? = none) {reader : TraceReader}
    (hmedium : reader.medium = { m with offset }) : reader.rewind = (.ok (), m.readerAt 0) := by
  have hseek : reader.medium.seek 0 = .ok { m with offset := 0 } := by
    rw [hmedium, Medium.seek, h]
    exact if_pos (Nat.zero_le _)
  rw [TraceReader.rewind, TraceReader.moveTo, hseek]
  rfl

theorem seekError?_of_rewind {reader after : TraceReader} (h : reader.rewind = (.ok (), after)) :
    reader.medium.seekError? = none := by
  cases herror : reader.medium.seekError? with
  | none => rfl
  | some e =>
    rw [TraceReader.rewind, TraceReader.moveTo, Medium.seek, herror] at h
    cases h

/-- A reader of a steady medium moves to any place up to the end. -/
theorem seek_readerAt (h : m.Steady) {target : Nat} (htarget : target ≤ m.bytes.size) :
    (m.readerAt offset).seek target = (.ok (), m.readerAt target) := by
  unfold TraceReader.seek
  split
  -- the reader is there already
  · next heq =>
    rw [heq]
    rfl
  -- the medium has to be moved, and can be
  · have hle : target ≤ m.maxOffset := Nat.le_trans htarget h.reachable
    have hseek : (m.readerAt offset).medium.seek target = .ok { m with offset := target } := by
      simp only [Medium.seek, readerAt, h.canSeek, hle, if_true]
    rw [TraceReader.moveTo, hseek]
    rfl

end DemandPaging.Medium

namespace DemandPaging

/-- **When a survey succeeds.** The medium can be moved, there are records that can be read from the
start, and the survey is one of them. The reader is back at the start. -/
theorem TraceReader.survey_eq_ok_iff {reader after : TraceReader} {order : QueueOrder} {survey : Survey} :
    reader.survey order = .ok (.ok survey, after) ↔
      reader.medium.seekError? = none ∧ after = reader.medium.readerAt 0 ∧
        ∃ records, reader.rewind.2.records.1 = .ok records ∧ records ≠ [] ∧
          Survey.ofRecords records order = .ok survey := by
  by_cases hseek : reader.medium.seekError? = none
  · have hrewind : reader.rewind = (.ok (), reader.medium.readerAt 0) := Medium.rewind_eq_ok hseek rfl
    -- the second move to the start undoes what reading does to the medium
    have hback : (reader.medium.readerAt 0).records.2.rewind = (.ok (), reader.medium.readerAt 0) := by
      obtain ⟨offset, hstop⟩ := Medium.medium_recordsAfter [] (reader.medium.readerAt 0)
      exact Medium.rewind_eq_ok hseek hstop
    rw [TraceReader.survey, hrewind]
    cases hall : (reader.medium.readerAt 0).records with
    | mk found stop =>
      rw [hall] at hback
      cases found with
      | error e => simp [hall]
      | ok records =>
        cases records with
        | nil => simp [hall]
        | cons record rest =>
          cases hsurvey : Survey.ofRecords (record :: rest) order with
          | error fault => simp [hall, hsurvey, bind, Except.bind]
          | ok found =>
            simp [hall, hsurvey, hback, hseek, bind, Except.bind, pure, Except.pure, eq_comm, and_comm]
  · refine iff_of_false (fun h => ?_) fun h => hseek h.1
    cases hrewind : reader.rewind with
    | mk outcome begin =>
      rw [TraceReader.survey, hrewind] at h
      cases outcome with
      | error e => cases h
      | ok => exact hseek (Medium.seekError?_of_rewind hrewind)

end DemandPaging
