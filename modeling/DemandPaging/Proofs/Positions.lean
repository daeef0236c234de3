import DemandPaging.Proofs.Cursor

/-!
# Positions in the order of the lines

A saved position is not always that of a record: blank lines may lie in between. Still two positions at
which records of different lines are read are in the order of these lines (`Chart.position_lt`), so a
queue that is lined up by position is lined up by line, whatever lies between the records.
-/

namespace DemandPaging

namespace Medium

variable {m : Medium} {bytes : ByteArray} {start stop offset other : Nat}
  {record found : TraceRecord} {records : List TraceRecord}

/-! ### Starts of lines -/

/-- A line ends at the first line feed from its start on, so no later than at one that is known of. -/
theorem lineEnd_le_of_newline (h : stop < bytes.size) (hnewline : bytes[stop] = '\n'.toUInt8)
    (hle : start ≤ stop) : lineEnd bytes start ≤ stop + 1 := by
  fun_induction lineEnd bytes start with
  | case1 => omega
  | case2 start hlt hother ih =>
    -- the line goes on, at most to that line feed
    have hne : start ≠ stop := by
      rintro rfl
      exact hother hnewline
    exact ih (by omega)
  | case3 => omega

/-- A line that begins before the end of another one ends there at the latest. The offset may be in the
middle of a line, and the line is then the rest of it. -/
theorem lineEnd_le_of_lt (h : start < lineEnd bytes stop) :
    lineEnd bytes start ≤ lineEnd bytes stop := by
  fun_induction lineEnd bytes stop with
  | case1 stop hlt hnewline => exact lineEnd_le_of_newline hlt hnewline (by omega)
  | case2 stop hlt hother ih => exact ih h
  | case3 stop hge =>
    -- the other line goes to the end of the bytes
    have := lineEnd_le bytes start
    omega

/-- Whether no line goes on past an offset. Offsets at which lines begin are like this, and so is the
end. -/
def StartsLine (m : Medium) (offset : Nat) : Prop :=
  ∀ start < offset, lineEnd m.bytes start ≤ offset

theorem startsLine_zero : m.StartsLine 0 := fun _ h => absurd h (Nat.not_lt_zero _)

theorem startsLine_lineEnd : m.StartsLine (lineEnd m.bytes start) := fun _ => lineEnd_le_of_lt

/-! ### Reading on -/

/-- A record is read from the line at an offset, or that line is blank. This is one turn of the loop that
reads; the lemmas below are inductions on how many bytes are left. -/
theorem Reads.cases (h : m.Reads offset record) :
    (record.offset = offset ∧ record.nextOffset = lineEnd m.bytes offset) ∨
      m.Reads (lineEnd m.bytes offset) record := by
  have hnext : (m.readerAt offset).next = (.ok (some record), m.readerAt record.nextOffset) := h
  rw [TraceReader.next] at hnext
  split at hnext
  · cases hnext
  split at hnext
  · cases hnext
  split at hnext
  · cases hnext
  -- a blank line is passed over, and the reading goes on behind it
  split at hnext
  · rw [skipLine_readerAt] at hnext
    exact .inr hnext
  split at hnext
  · cases hnext
  · obtain ⟨hrecord, -⟩ := Prod.mk.inj hnext
    obtain rfl := Option.some.inj (Except.ok.inj hrecord)
    refine .inl ⟨rfl, ?_⟩
    rw [skipLine_readerAt]
    rfl

/-- A record that is read lies further on, or where the reading began, and has bytes of its own. -/
theorem Reads.le_offset (h : m.Reads offset record) :
    offset ≤ record.offset ∧ record.offset < record.nextOffset := by
  induction hleft : m.bytes.size - offset using Nat.strong_induction_on generalizing offset with
  | _ left ih =>
  subst hleft
  have hlt := lt_lineEnd h.lt_size
  rcases h.cases with ⟨hoffset, hnext⟩ | hrest
  · rw [hoffset, hnext]
    exact ⟨Nat.le_refl _, hlt⟩
  · have := hrest.lt_size
    obtain ⟨hle, hafter⟩ := ih _ (by omega) hrest rfl
    exact ⟨by omega, hafter⟩

/-- A record begins a line if the reading began at one, and ends with its line. -/
theorem Reads.startsLine (h : m.Reads offset record) (hstart : m.StartsLine offset) :
    m.StartsLine record.offset ∧ m.StartsLine record.nextOffset := by
  induction hleft : m.bytes.size - offset using Nat.strong_induction_on generalizing offset with
  | _ left ih =>
  subst hleft
  have hlt := lt_lineEnd h.lt_size
  rcases h.cases with ⟨hoffset, hnext⟩ | hrest
  · rw [hoffset, hnext]
    exact ⟨hstart, startsLine_lineEnd⟩
  · have := hrest.lt_size
    exact ih _ (by omega) hrest startsLine_lineEnd rfl

/-- Reading does not pass over a record that begins a line: a blank line ends before it at the
latest. By induction on the bytes that are left, one line at a time. -/
theorem Reads.offset_le (h : m.Reads offset record) (hfound : m.Reads found.offset found)
    (hstart : m.StartsLine found.offset) (hle : offset ≤ found.offset) :
    record.offset ≤ found.offset := by
  induction hleft : m.bytes.size - offset using Nat.strong_induction_on generalizing offset with
  | _ left ih =>
  subst hleft
  have hlt := lt_lineEnd h.lt_size
  rcases Nat.lt_or_eq_of_le hle with hbefore | rfl
  · rcases h.cases with ⟨hoffset, -⟩ | hrest
    · omega
    · have := hrest.lt_size
      exact ih _ (by omega) hrest (hstart _ hbefore) rfl
  -- the line there has one record only
  · have heq : record = found := by
      have := (Prod.mk.inj ((show _ = _ from h).symm.trans hfound)).1
      exact Option.some.inj (Except.ok.inj this)
    rw [heq]

/-- The records follow each other, and each begins a line. By induction on what the medium holds, since
the next record is read from where the last one ends. -/
theorem Holds.ordered (h : m.Holds offset records) (hstart : m.StartsLine offset) :
    (records.Pairwise fun a b => a.offset < b.offset) ∧
      ∀ record ∈ records, offset ≤ record.offset ∧ m.StartsLine record.offset := by
  induction h with
  | done => exact ⟨.nil, fun _ hmem => absurd hmem List.not_mem_nil⟩
  | @more offset record rest hread _ ih =>
    obtain ⟨hle, hlt⟩ := hread.le_offset
    obtain ⟨hbegin, hend⟩ := hread.startsLine hstart
    obtain ⟨hpairwise, hall⟩ := ih hend
    refine ⟨List.pairwise_cons.2 ⟨fun other hmem => ?_, hpairwise⟩, fun other hmem => ?_⟩
    · -- the next record is read behind this one
      have := (hall other hmem).1
      omega
    · rcases List.mem_cons.1 hmem with rfl | hmem
      · exact ⟨hle, hbegin⟩
      · obtain ⟨hafter, hother⟩ := hall other hmem
        exact ⟨by omega, hother⟩

end Medium

namespace Chart

variable {chart : Chart} {line other position place : Nat} {record found : TraceRecord}

theorem offset_lt (h : chart.record? line = some record) (hother : chart.record? other = some found)
    (hlt : line < other) : record.offset < found.offset := by
  obtain ⟨hpairwise, -⟩ := chart.holds.ordered Medium.startsLine_zero
  cases line with
  | zero => cases h
  | succ line =>
    cases other with
    | zero => cases hother
    | succ other =>
      obtain ⟨hi, rfl⟩ := List.getElem?_eq_some_iff.1 h
      obtain ⟨hj, rfl⟩ := List.getElem?_eq_some_iff.1 hother
      exact List.pairwise_iff_getElem.1 hpairwise _ _ hi hj (by omega)

/-- **Order.** A record of an earlier line is read at a smaller position. The position need not be where
the record begins, as blank lines may lie in front of it. -/
theorem position_lt (h : chart.record? line = some record) (hother : chart.record? other = some found)
    (hreads : chart.medium.Reads position record) (hreads' : chart.medium.Reads place found)
    (hlt : line < other) : position < place := by
  by_contra hge
  -- otherwise the later record is not reached without the earlier one
  obtain ⟨-, hall⟩ := chart.holds.ordered Medium.startsLine_zero
  have hle := hreads.le_offset.1
  have hpassed := hreads'.offset_le (reads_offset h)
    (hall record (Survey.mem_of_record? h)).2 (by omega)
  have := offset_lt h hother hlt
  omega

/-- Positions are in the order of the lines. -/
theorem position_le_iff (h : chart.record? line = some record)
    (hother : chart.record? other = some found) (hreads : chart.medium.Reads position record)
    (hreads' : chart.medium.Reads place found) (hsame : line = other → position = place) :
    position ≤ place ↔ line ≤ other := by
  rcases Nat.lt_trichotomy line other with hlt | rfl | hgt
  · have := position_lt h hother hreads hreads' hlt
    omega
  · rw [hsame rfl]
    simp
  · have := position_lt hother h hreads' hreads hgt
    omega

end Chart

end DemandPaging
