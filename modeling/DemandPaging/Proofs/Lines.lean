import DemandPaging.Proofs.Reading

/-!
# A trace line by line

The text of a trace is the list of its lines. `Medium.lineStarts` has the offsets at which they start
(`mem_lineStarts_iff`), and `Medium.lineRecord` says of one line, without a reader, what is on it: a
record, nothing, or something that is neither.

Reading from the start of a line goes over the lines in this order. It passes over those with nothing
on them, stops at the first that is neither (`recordsAfter_of_rejected`), and otherwise finds the
records of all lines (`recordsAfter_of_accepted`).
-/

namespace DemandPaging.Medium

variable {m : Medium} {bytes : ByteArray} {start stop : Nat} {record : TraceRecord}
  {e : SimulationError}

/-- The offsets at which lines start, from a given one on. An end of line that ends the trace
starts no further line. -/
def lineStarts (bytes : ByteArray) (start : Nat) : List Nat :=
  if _h : start < bytes.size then start :: lineStarts bytes (lineEnd bytes start) else []
termination_by bytes.size - start
decreasing_by
  have := lt_lineEnd _h
  omega

/-- What is on the line that starts at an offset: nothing if it is blank, a record, or an error that says
why it is neither. The blanks at the ends of a line do not belong to the text that is at fault. -/
def lineRecord (bytes : ByteArray) (start : Nat) : Except SimulationError (Option TraceRecord) :=
  match String.fromUTF8? (bytes.extract start (lineEnd bytes start)) with
  | none => .error (.medium .notText)
  | some text =>
    match Text.trim text.toList with
    | [] => .ok none
    | letters =>
      match TraceRecord.parse (.ofList letters) start with
      | .error e => .error e
      | .ok page => .ok (some { page, offset := start, nextOffset := lineEnd bytes start })

/-- The line is blank or has a record on it. A reader goes on past such a line, and only past such a one.
-/
def Accepts (bytes : ByteArray) (start : Nat) : Prop := ∃ record?, lineRecord bytes start = .ok record?

/-- The records on the lines from an offset on. A line that is blank or no record has none, so
this is what a reader finds only if it accepts all of them. -/
def lineRecordsFrom (bytes : ByteArray) (start : Nat) : List TraceRecord :=
  (lineStarts bytes start).filterMap fun start => (lineRecord bytes start).toOption.join

/-- The records on the lines of a trace. -/
def lineRecords (bytes : ByteArray) : List TraceRecord := lineRecordsFrom bytes 0

/-! ### Where lines start -/

theorem lineStarts_of_lt (h : start < bytes.size) :
    lineStarts bytes start = start :: lineStarts bytes (lineEnd bytes start) := by
  rw [lineStarts, dif_pos h]

theorem lineStarts_of_le (h : bytes.size ≤ start) : lineStarts bytes start = [] := by
  rw [lineStarts, dif_neg (Nat.not_lt.2 h)]

theorem lineStarts_eq_nil (h : lineStarts bytes start = []) : bytes.size ≤ start := by
  refine Nat.le_of_not_lt fun hlt => ?_
  rw [lineStarts_of_lt hlt] at h
  cases h

theorem lineStarts_eq_cons {rest : List Nat} (h : lineStarts bytes start = stop :: rest) :
    start < bytes.size ∧ start = stop ∧ lineStarts bytes (lineEnd bytes start) = rest := by
  have hlt : start < bytes.size := by
    refine Nat.lt_of_not_le fun hge => ?_
    rw [lineStarts_of_le hge] at h
    cases h
  rw [lineStarts_of_lt hlt] at h
  exact ⟨hlt, List.cons.inj h⟩

theorem le_of_mem_lineStarts (h : stop ∈ lineStarts bytes start) : start ≤ stop := by
  fun_induction lineStarts bytes start with
  -- the offset is this one, or that of a line after it
  | case1 start hlt ih =>
    rcases List.mem_cons.1 h with rfl | h
    · exact Nat.le_refl _
    · exact Nat.le_trans (le_lineEnd bytes start) (ih h)
  | case2 => cases h

/-- Lines start one after the other: each line has at least one byte, so the next one starts later. -/
theorem pairwise_lineStarts : (lineStarts bytes start).Pairwise (· < ·) := by
  fun_induction lineStarts bytes start with
  | case1 start hlt ih =>
    exact List.pairwise_cons.2
      ⟨fun stop hmem => Nat.lt_of_lt_of_le (lt_lineEnd hlt) (le_of_mem_lineStarts hmem), ih⟩
  | case2 => exact .nil

/-- No line feed lies within a line. It is the last byte of the line, if it has one at all. -/
theorem not_newline_of_lt_lineEnd (hle : start ≤ stop) (hlt : stop + 1 < lineEnd bytes start)
    (hsize : stop < bytes.size) : bytes[stop] ≠ '\n'.toUInt8 := by
  fun_induction lineEnd bytes start with
  | case1 => omega
  | case2 start h hother ih =>
    -- the byte at the start is not a line feed, or the line would end after it
    rcases Nat.eq_or_lt_of_le hle with rfl | hlt'
    · exact hother
    · exact ih hlt' hlt
  | case3 => omega

/-- A line that is not the last one ends with a line feed. Only the last one may end with the trace. -/
theorem newline_of_lineEnd_eq (h : lineEnd bytes start = stop + 1) (hsize : stop + 1 < bytes.size) :
    bytes[stop] = '\n'.toUInt8 := by
  fun_induction lineEnd bytes start with
  | case1 start hlt hnewline =>
    cases h
    exact hnewline
  | case2 start hlt hother ih => exact ih h
  | case3 => omega

/-- **Where lines start.** From the start of a line on, lines start there and past each line feed. The
induction goes from line to line; what has to be shown of each line is that its only line feed is at its
end. -/
theorem mem_lineStarts_iff : stop ∈ lineStarts bytes start ↔
    start ≤ stop ∧ ∃ h : stop < bytes.size, stop = start ∨ bytes[stop - 1] = '\n'.toUInt8 := by
  fun_induction lineStarts bytes start with
  | case1 start hlt ih =>
    have hend := lt_lineEnd hlt
    rw [List.mem_cons, ih]
    constructor
    · -- it is the start of this line, of the next one, or of one after that
      rintro (rfl | ⟨hle, hsize, rfl | hnewline⟩)
      · exact ⟨Nat.le_refl _, hlt, .inl rfl⟩
      · have heq : lineEnd bytes start = lineEnd bytes start - 1 + 1 := by omega
        exact ⟨by omega, hsize, .inr (newline_of_lineEnd_eq heq (by omega))⟩
      · exact ⟨by omega, hsize, .inr hnewline⟩
    · -- it is the start of this line, or past a line feed that is not within it
      rintro ⟨hle, hsize, hplace⟩
      by_cases hsame : stop = start
      · exact .inl hsame
      · have hnewline := hplace.resolve_left hsame
        refine .inr ⟨Nat.le_of_not_lt fun hwithin => ?_, hsize, .inr hnewline⟩
        -- the line feed before it would lie within the line
        have hle' : start ≤ stop - 1 := by omega
        exact not_newline_of_lt_lineEnd hle' (by omega) (by omega) hnewline
  -- there is nothing from here on
  | case2 start hge =>
    refine iff_of_false List.not_mem_nil ?_
    rintro ⟨hle, hsize, -⟩
    omega

/-! ### What is on a line -/

/-- A record knows the line that it is on. So its line can be told from it, and two records of one line
are the same record. -/
theorem offset_of_lineRecord (h : lineRecord bytes start = .ok (some record)) :
    record.offset = start := by
  unfold lineRecord at h
  split at h
  · cases h
  split at h
  · cases h
  split at h
  · cases h
  · cases h
    rfl

theorem lineRecord_of_mem (h : record ∈ lineRecordsFrom bytes start) :
    record.offset ∈ lineStarts bytes start ∧
      lineRecord bytes record.offset = .ok (some record) := by
  obtain ⟨stop, hmem, hstop⟩ := List.mem_filterMap.1 h
  obtain ⟨record?, hrecord, rfl⟩ : ∃ record?, lineRecord bytes stop = .ok record? ∧
      record? = some record := by
    -- a line that is at fault gives no record
    cases hfound : lineRecord bytes stop with
    | error e =>
      rw [hfound] at hstop
      cases hstop
    | ok record? =>
      rw [hfound] at hstop
      exact ⟨record?, rfl, hstop⟩
  rw [offset_of_lineRecord hrecord]
  exact ⟨hmem, hrecord⟩

/-- Records follow each other as their lines do, since each of them has the offset of its line. -/
theorem pairwise_lineRecordsFrom :
    (lineRecordsFrom bytes start).Pairwise fun a b => a.offset < b.offset := by
  refine List.pairwise_filterMap.2 (pairwise_lineStarts.imp ?_)
  intro line other hlt a ha b hb
  -- what is found on a line is at its offset
  have hfound : ∀ {line record}, (lineRecord bytes line).toOption.join = some record →
      record.offset = line := by
    intro line record h
    cases hline : lineRecord bytes line with
    | error e =>
      rw [hline] at h
      cases h
    | ok record? =>
      rw [hline] at h
      obtain rfl : record? = some record := h
      exact offset_of_lineRecord hline
  rw [hfound ha, hfound hb]
  exact hlt

/-! ### Reading line by line -/

-- there is no byte left, so the reader says that the trace is at its end
theorem next_of_end (hread : m.readError? = none) (hend : m.bytes.size ≤ start) :
    (m.readerAt start).next = (.ok none, m.readerAt start) := by
  have hline : (m.readerAt start).medium.line.isEmpty = true := line_isEmpty_iff.2 hend
  have hread' : (m.readerAt start).medium.readError? = none := hread
  rw [TraceReader.next, hread']
  simp only [hline, dite_true]

/-- A read from the start of a line. This is the read with the line and its end put in; after a blank
line it is the read from the next line. -/
theorem next_of_line (hread : m.readError? = none) (hlt : start < m.bytes.size) :
    (m.readerAt start).next = match String.fromUTF8? (m.bytes.extract start (lineEnd m.bytes start)) with
      | none => (.error (.medium .notText),
          { m.readerAt start with medium := (m.readerAt start).medium.skipLine })
      | some text => match Text.trim text.toList with
        | [] => (m.readerAt (lineEnd m.bytes start)).next
        | letters => ((TraceRecord.parse (.ofList letters) start).map fun page =>
            some { page, offset := start, nextOffset := lineEnd m.bytes start },
            m.readerAt (lineEnd m.bytes start)) := by
  have hread' : (m.readerAt start).medium.readError? = none := hread
  have hline : (m.readerAt start).medium.line.isEmpty = false := by
    -- the line has a byte at least, so the trace is not at its end
    refine Bool.eq_false_iff.2 fun hempty => ?_
    exact absurd (line_isEmpty_iff.1 hempty) (Nat.not_le.2 hlt)
  have hbytes : (m.readerAt start).medium.line = m.bytes.extract start (lineEnd m.bytes start) := rfl
  rw [TraceReader.next, hread']
  simp only [hline, Bool.false_eq_true, dite_false]
  rw [hbytes, skipLine_readerAt]
  cases String.fromUTF8? (m.bytes.extract start (lineEnd m.bytes start)) with
  | none => rfl
  | some text =>
    -- whether the line is blank is all that the read asks of the text before it parses it
    cases hletters : Text.trim text.toList with
    | nil => simp only [hletters]
    | cons letter letters =>
      simp only [hletters, readerAt_position]
      cases TraceRecord.parse (.ofList (letter :: letters)) start <;> rfl

/-- **One line.** From the start of a line a reader finds what is on it, and if that is nothing it goes
on from the line's end. -/
theorem next_of_lt (hread : m.readError? = none) (hlt : start < m.bytes.size) :
    (∀ e, lineRecord m.bytes start = .error e → (m.readerAt start).next.1 = .error e) ∧
      (lineRecord m.bytes start = .ok none →
        (m.readerAt start).next = (m.readerAt (lineEnd m.bytes start)).next) ∧
      ∀ record, lineRecord m.bytes start = .ok (some record) →
        (m.readerAt start).next = (.ok (some record), m.readerAt (lineEnd m.bytes start)) := by
  rw [next_of_line hread hlt, lineRecord]
  cases String.fromUTF8? (m.bytes.extract start (lineEnd m.bytes start)) with
  -- what is not text has no record
  | none => exact ⟨by rintro e ⟨⟩; rfl, fun h => (by cases h), fun _ h => (by cases h)⟩
  | some text =>
    cases hletters : Text.trim text.toList with
    -- a blank line is passed over
    | nil =>
      simp only [hletters]
      exact ⟨fun _ h => (by cases h), fun _ => trivial, fun _ h => (by cases h)⟩
    | cons letter letters =>
      simp only [hletters]
      -- otherwise the line is at fault or has a record on it, as parsing says
      cases TraceRecord.parse (.ofList (letter :: letters)) start with
      | error e => exact ⟨by rintro e ⟨⟩; rfl, fun h => (by cases h), fun _ h => (by cases h)⟩
      | ok page => exact ⟨fun _ h => (by cases h), fun h => (by cases h), by rintro record ⟨⟩; rfl⟩

/-- What a reader collects from where it stands follows from what it reads next: an error ends it, so
does the end of the trace, and a record is put with the others. -/
theorem recordsAfter_of_next {before : List TraceRecord} {reader : TraceReader} :
    (∀ e, reader.next.1 = .error e → (TraceReader.recordsAfter before reader).1 = .error e) ∧
      (reader.next.1 = .ok none →
        (TraceReader.recordsAfter before reader).1 = .ok before.reverse) ∧
      ∀ record stop, reader.next = (.ok (some record), stop) →
        TraceReader.recordsAfter before reader = TraceReader.recordsAfter (record :: before) stop := by
  rw [TraceReader.recordsAfter]
  split
  · next h =>
    rw [h]
    exact ⟨by rintro e ⟨⟩; rfl, fun h => (by cases h), fun _ _ h => (by cases h)⟩
  · next h =>
    rw [h]
    exact ⟨fun _ h => (by cases h), fun _ => rfl, fun _ _ h => (by cases h)⟩
  · next h =>
    rw [h]
    exact ⟨fun _ h => (by cases h), fun h => (by cases h), by rintro record stop ⟨⟩; rfl⟩

/-- Readers that read the same go on in the same way. A blank line is passed over by reading on, so what
is compared are the next reads and not where the readers stand. -/
theorem recordsAfter_congr {before : List TraceRecord} {reader other : TraceReader}
    (h : reader.next = other.next) :
    TraceReader.recordsAfter before reader = TraceReader.recordsAfter before other := by
  rw [TraceReader.recordsAfter, TraceReader.recordsAfter]
  split <;> split <;> simp_all

/-- Reading on past a line that is blank or has a record on it. -/
theorem recordsAfter_of_lt (hread : m.readError? = none) (hlt : start < m.bytes.size)
    {record? : Option TraceRecord} (h : lineRecord m.bytes start = .ok record?)
    (before : List TraceRecord) :
    TraceReader.recordsAfter before (m.readerAt start) =
      TraceReader.recordsAfter (record?.toList ++ before) (m.readerAt (lineEnd m.bytes start)) := by
  obtain ⟨-, hblank, hrecord⟩ := next_of_lt hread hlt
  -- the read from a blank line is the read from the next one
  cases record? with
  | none => exact recordsAfter_congr (hblank h)
  | some record => exact recordsAfter_of_next.2.2 record _ (hrecord record h)

/-- **A line that is neither.** Reading stops at the first line that is neither blank nor has a record on
it, and says what is wrong with it. The induction is on the lines before that one. -/
theorem recordsAfter_of_rejected (hread : m.readError? = none) (before : List TraceRecord)
    {earlier later : List Nat} (hlines : lineStarts m.bytes start = earlier ++ stop :: later)
    (hearlier : ∀ line ∈ earlier, Accepts m.bytes line) (hstop : lineRecord m.bytes stop = .error e) :
    (TraceReader.recordsAfter before (m.readerAt start)).1 = .error e := by
  induction earlier generalizing before start with
  -- the line at fault is the next one
  | nil =>
    obtain ⟨hlt, rfl, -⟩ := lineStarts_eq_cons hlines
    exact recordsAfter_of_next.1 e ((next_of_lt hread hlt).1 e hstop)
  -- the next line is passed over, with a record more if it has one
  | cons line earlier ih =>
    obtain ⟨hlt, rfl, hrest⟩ := lineStarts_eq_cons hlines
    obtain ⟨record?, hrecord⟩ := hearlier start List.mem_cons_self
    rw [recordsAfter_of_lt hread hlt hrecord]
    exact ih _ hrest fun line hline => hearlier line (List.mem_cons_of_mem _ hline)

theorem lineRecordsFrom_of_lt (hlt : start < bytes.size) {record? : Option TraceRecord}
    (h : lineRecord bytes start = .ok record?) :
    lineRecordsFrom bytes start = record?.toList ++ lineRecordsFrom bytes (lineEnd bytes start) := by
  rw [lineRecordsFrom, lineStarts_of_lt hlt, List.filterMap_cons, h]
  cases record? <;> rfl

/-- **Nothing but records.** If each line is blank or has a record on it then reading finds the records
of all lines, in order. The induction is on the lines that are left. -/
theorem recordsAfter_of_accepted (hread : m.readError? = none) (before : List TraceRecord)
    (hlines : ∀ line ∈ lineStarts m.bytes start, Accepts m.bytes line) :
    (TraceReader.recordsAfter before (m.readerAt start)).1 =
      .ok (before.reverse ++ lineRecordsFrom m.bytes start) := by
  induction hleft : lineStarts m.bytes start generalizing before start with
  -- there is no line left
  | nil =>
    have hnext : (m.readerAt start).next.1 = .ok none := by
      rw [next_of_end hread (lineStarts_eq_nil hleft)]
    rw [recordsAfter_of_next.2.1 hnext, lineRecordsFrom, hleft, List.filterMap_nil, List.append_nil]
  | cons line rest ih =>
    obtain ⟨hlt, rfl, hrest⟩ := lineStarts_eq_cons hleft
    rw [lineStarts_of_lt hlt, hrest] at hlines
    obtain ⟨record?, hrecord⟩ := hlines start List.mem_cons_self
    -- the lines after this one are accepted as well
    have hlines' : ∀ line ∈ lineStarts m.bytes (lineEnd m.bytes start), Accepts m.bytes line := by
      intro line hline
      exact hlines line (List.mem_cons_of_mem _ (hrest ▸ hline))
    rw [recordsAfter_of_lt hread hlt hrecord, ih _ hlines' hrest, lineRecordsFrom_of_lt hlt hrecord,
      List.reverse_append, List.append_assoc]
    cases record? <;> rfl

end DemandPaging.Medium
