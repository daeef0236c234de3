import DemandPaging.Proofs.Lines
import DemandPaging.Proofs.Standing
import Mathlib.Data.List.TakeWhile

/-!
# Reading lines of text

Bytes that are text are a list of lines, each with the offsets between which it stands and the text that
it has (`Medium.Lines`). For each line it is said without a reader whether it is blank, which is to have
no other characters than blanks, and what a reader answers that comes to it (`TextLine.answer`): the
record that its text is without the blanks at its ends, or what is wrong with that text.

A read from the start of a line answers for the first line from there on that is not blank, and ends
where that line ends (`next_of_lines`). So reads one after the other answer for the lines that are not
blank, one after the other, whether a line has a record on it or not (`nextAfter_of_lines`). As long as
a reader is moved only to where lines start it does not matter what it was asked for before
(`exists_readerAt_of_serve`), and all lines can be found again (`lines_read`).
-/

namespace DemandPaging

/-- Nothing is left of a text if all of it is blank, and only then. It does not matter from which end the
blanks are taken away. -/
theorem Text.trim_eq_nil_iff {cs : List Char} : trim cs = [] ↔ ∀ c ∈ cs, isBlank c = true := by
  rw [trim, List.reverse_eq_nil_iff, List.dropWhile_eq_nil_iff]
  simp only [List.mem_reverse]
  -- by induction on the text, which is blank if its first character and the rest are
  induction cs with
  | nil => rfl
  | cons c cs ih =>
    by_cases hblank : isBlank c = true
    · rw [List.dropWhile_cons_of_pos hblank, ih, List.forall_mem_cons, and_iff_right hblank]
    · rw [List.dropWhile_cons_of_neg hblank]

/-- A line of text, with the offsets that a record on it has. -/
structure TextLine where
  /-- The offset at which it starts. -/
  start : Nat
  /-- The offset just past it. -/
  stop : Nat
  /-- The text, with the line feed if there is one. -/
  text : String

namespace TextLine

/-- Whether there is nothing on the line but blanks. The line feed that ends it is one of them.
-/
def isBlank (line : TextLine) : Bool := line.text.toList.all Text.isBlank

/-- What a reader answers that comes to the line. An error names the offset of the line, and the text
without the blanks at its ends. -/
def answer (line : TextLine) : Except SimulationError (Option TraceRecord) :=
  (TraceRecord.parse (.ofList (Text.trim line.text.toList)) line.start).map fun page =>
    some { page, offset := line.start, nextOffset := line.stop }

/-- A record knows where its line is. -/
theorem offsets_of_answer {line : TextLine} {record : TraceRecord}
    (h : line.answer = .ok (some record)) :
    record.offset = line.start ∧ record.nextOffset = line.stop := by
  unfold answer at h
  cases hparse : TraceRecord.parse (.ofList (Text.trim line.text.toList)) line.start with
  | error e =>
    rw [hparse] at h
    cases h
  | ok page =>
    rw [hparse] at h
    cases h
    exact ⟨rfl, rfl⟩

theorem trim_eq_nil_iff {line : TextLine} :
    Text.trim line.text.toList = [] ↔ line.isBlank = true := by
  rw [Text.trim_eq_nil_iff, isBlank, List.all_eq_true]

end TextLine

namespace Medium

variable {m : Medium} {bytes : ByteArray} {start stop offset : Nat} {line : TextLine}
  {lines rest : List TextLine} {requests : List Request}

/-- The lines from an offset on. Only a line feed ends a line, and the last line needs none. A carriage
return belongs to the text of its line, and is a blank. -/
inductive Lines (bytes : ByteArray) : Nat → List TextLine → Prop where
  /-- There are no bytes left. -/
  | done : Lines bytes bytes.size []
  /-- A line with some text, and the others from its end on. -/
  | line {start stop : Nat} {text : String} {rest : List TextLine} (hlt : start < stop)
    (hle : stop ≤ bytes.size) (htext : String.fromUTF8? (bytes.extract start stop) = some text)
    (hwithin : ∀ place, (h : place < bytes.size) → start ≤ place → place + 1 < stop →
      bytes[place] ≠ '\n'.toUInt8)
    (hend : stop = bytes.size ∨ bytes[stop - 1] = '\n'.toUInt8) (hrest : Lines bytes stop rest) :
    Lines bytes start (⟨start, stop, text⟩ :: rest)

/-- An offset at which one of the lines starts, or at which the last one ends. From such an
offset reading goes on at the beginning of a line. -/
def Borders (bytes : ByteArray) (lines : List TextLine) (offset : Nat) : Prop :=
  offset = bytes.size ∨ ∃ line ∈ lines, line.start = offset

/-- What a reader answers that comes to a line or to the end, and the reader afterwards. It stands behind
the line also if there is no record on it. -/
def reach (m : Medium) : Option TextLine → Except SimulationError (Option TraceRecord) × TraceReader
  | some line => (line.answer, m.readerAt line.stop)
  | none => (.ok none, m.readerAt m.bytes.size)

/-- The answer to a read after a number of others, and the reader afterwards. Reads that were
answered with an error count like the others. -/
def nextAfter (m : Medium) (count : Nat) : Except SimulationError (Option TraceRecord) × TraceReader :=
  ((m.readerAt 0).serve (List.replicate count .next)).next

/-- The requests move a reader only to where lines start, or to the end. Reads and returns to
the start may come between. -/
def StayOn (m : Medium) (lines : List TextLine) (requests : List Request) : Prop :=
  ∀ offset, .seek offset ∈ requests → Borders m.bytes lines offset

/-- The lines of a trace are what is read. The last three clauses are about a reader that was asked for
other things before. -/
structure ReadByLine (m : Medium) (lines : List TextLine) : Prop where
  /-- Reads from the start answer for the lines that are not blank, in order, and then for the end. -/
  in_order : ∀ count, m.nextAfter count = m.reach (lines.filter (!·.isBlank))[count]?
  /-- Moved to where a line starts, a reader answers for the first line from there on that is not
  blank. -/
  from_border : ∀ {requests offset}, m.StayOn lines requests → Borders m.bytes lines offset →
    ∃ there, ((m.readerAt 0).serve requests).seek offset = (.ok (), there) ∧
      there.next = m.reach (lines.find? fun line => offset ≤ line.start && !line.isBlank)
  /-- Moved to where a record starts, it reads that record again. -/
  again : ∀ {requests count record}, m.StayOn lines requests →
    (m.nextAfter count).1 = .ok (some record) →
      ((m.readerAt 0).serve requests).nextAt record.offset = .ok (some record)
  /-- Moved to where a record ends, it reads what came after that record. -/
  onward : ∀ {requests count record}, m.StayOn lines requests →
    (m.nextAfter count).1 = .ok (some record) →
      ((m.readerAt 0).serve requests).nextAt record.nextOffset = (m.nextAfter (count + 1)).1

/-! ### The lines of a trace -/

/-- Bytes are lines of text if what stands from the start of each line to its end is text. By
induction on the lines, each of which begins where the one before it ends. -/
theorem exists_lines (hstart : start ≤ bytes.size)
    (htext : ∀ place ∈ lineStarts bytes start,
      (String.fromUTF8? (bytes.extract place (lineEnd bytes place))).isSome = true) :
    ∃ lines, Lines bytes start lines := by
  -- along the recursion that finds the starts of the lines
  fun_induction lineStarts bytes start with
  | case1 start hlt ih =>
    have hstop := lt_lineEnd hlt
    have hle : lineEnd bytes start ≤ bytes.size := by
      have := lineEnd_le bytes start
      omega
    obtain ⟨text, hline⟩ := Option.isSome_iff_exists.1 (htext start List.mem_cons_self)
    obtain ⟨rest, hrest⟩ := ih hle fun place hmem => htext place (List.mem_cons_of_mem _ hmem)
    refine ⟨_, .line hstop hle hline (fun place h hplace hnext => ?_) ?_ hrest⟩
    · exact not_newline_of_lt_lineEnd hplace hnext h
    · -- the line ends with the bytes or with a line feed
      rcases Nat.eq_or_lt_of_le hle with hall | hmore
      · exact .inl hall
      · have heq : lineEnd bytes start = lineEnd bytes start - 1 + 1 := by omega
        exact .inr (newline_of_lineEnd_eq heq (by omega))
  | case2 start hge =>
    obtain rfl : start = bytes.size := by omega
    exact ⟨[], .done⟩

/-- Where a line ends is not a matter of choice: the first line feed from its start on is the last byte
of it. -/
theorem lineEnd_eq_of_ends (hlt : start < stop) (hle : stop ≤ bytes.size)
    (hwithin : ∀ place, (h : place < bytes.size) → start ≤ place → place + 1 < stop →
      bytes[place] ≠ '\n'.toUInt8)
    (hend : stop = bytes.size ∨ bytes[stop - 1] = '\n'.toUInt8) : lineEnd bytes start = stop := by
  have hsize := lineEnd_le bytes start
  have hfurther : start < lineEnd bytes start := lt_lineEnd (by omega)
  rcases Nat.lt_trichotomy (lineEnd bytes start) stop with hshort | heq | hlong
  -- a line feed would be within one of the two lines
  · have heq : lineEnd bytes start = lineEnd bytes start - 1 + 1 := by omega
    have hnewline := newline_of_lineEnd_eq heq (by omega)
    exact absurd hnewline (hwithin _ (by omega) (by omega) (by omega))
  · exact heq
  · have hnewline := hend.resolve_left (by omega)
    have hle' : start ≤ stop - 1 := by omega
    exact absurd hnewline (not_newline_of_lt_lineEnd hle' (by omega) (by omega))

namespace Lines

theorem start_le (h : Lines bytes start lines) : start ≤ bytes.size := by
  cases h with
  | done => exact Nat.le_refl _
  | line hlt hle => exact (Nat.le_of_lt hlt).trans hle

/-- No line starts before the first one. -/
theorem le_of_mem (h : Lines bytes start lines) (hmem : line ∈ lines) : start ≤ line.start := by
  induction h with
  | done => cases hmem
  | line hlt _ _ _ _ _ ih =>
    rcases List.mem_cons.1 hmem with rfl | hmem
    · exact Nat.le_refl _
    · exact (Nat.le_of_lt hlt).trans (ih hmem)

/-- The lines from a line on. -/
theorem of_mem (h : Lines bytes start lines) (hmem : line ∈ lines) :
    ∃ rest, Lines bytes line.start (line :: rest) := by
  induction h with
  | done => cases hmem
  | line hlt hle htext hwithin hend hrest ih =>
    rcases List.mem_cons.1 hmem with rfl | hmem
    · exact ⟨_, .line hlt hle htext hwithin hend hrest⟩
    · exact ih hmem

theorem borders_start (h : Lines bytes start lines) : Borders bytes lines start := by
  cases h with
  | done => exact .inl rfl
  | line => exact .inr ⟨_, List.mem_cons_self, rfl⟩

theorem borders_stop (h : Lines bytes start lines) (hmem : line ∈ lines) :
    Borders bytes lines line.stop := by
  induction h with
  | done => cases hmem
  | @line _ _ _ rest _ _ _ _ _ hrest ih =>
    -- the border is one of the lines behind the first, and so is one of all lines
    have hborders : Borders bytes rest line.stop := by
      rcases List.mem_cons.1 hmem with rfl | hmem
      · exact hrest.borders_start
      · exact ih hmem
    refine hborders.imp_right ?_
    rintro ⟨other, hother, heq⟩
    exact ⟨other, List.mem_cons_of_mem _ hother, heq⟩

theorem start_le_of_borders (h : Lines bytes start lines) (hborders : Borders bytes lines offset) :
    start ≤ offset := by
  rcases hborders with rfl | ⟨line, hmem, rfl⟩
  · exact h.start_le
  · exact h.le_of_mem hmem

theorem le_size_of_borders (h : Lines bytes start lines) (hborders : Borders bytes lines offset) :
    offset ≤ bytes.size := by
  rcases hborders with rfl | ⟨line, hmem, rfl⟩
  · exact Nat.le_refl _
  · obtain ⟨rest, hlines⟩ := h.of_mem hmem
    exact hlines.start_le

end Lines

/-! ### Reading -/

/-- **A read.** It answers for the first line that is not blank. By induction on the lines, as each blank
one makes it go on with the next. -/
theorem next_of_lines (hread : m.readError? = none) (h : Lines m.bytes start lines) :
    (m.readerAt start).next = m.reach (lines.find? (!·.isBlank)) := by
  induction h with
  | done => exact next_of_end hread (Nat.le_refl _)
  | @line start stop text rest hlt hle htext hwithin hend hrest ih =>
    rw [next_of_line hread (Nat.lt_of_lt_of_le hlt hle), lineEnd_eq_of_ends hlt hle hwithin hend, htext,
      List.find?_cons]
    have hblank : Text.trim text.toList = [] ↔ _ := @TextLine.trim_eq_nil_iff ⟨start, stop, text⟩
    -- a text of blanks is nothing without them, and then the read goes on
    cases hletters : Text.trim text.toList with
    | nil =>
      simp only [hletters, hblank.1 hletters, Bool.not_true]
      exact ih
    | cons letter letters =>
      rw [hletters] at hblank
      have hshown : TextLine.isBlank ⟨start, stop, text⟩ = false := by
        simpa using hblank
      simp only [hletters, hshown, Bool.not_false, reach, TextLine.answer]

/-- Lines before an offset are passed over. The offset is a border, so that no line is cut by it. -/
theorem next_of_borders (hread : m.readError? = none) (h : Lines m.bytes start lines)
    (hborders : Borders m.bytes lines offset) : (m.readerAt offset).next =
      m.reach (lines.find? fun line => offset ≤ line.start && !line.isBlank) := by
  induction h with
  | done =>
    obtain rfl : offset = m.bytes.size := hborders.resolve_right fun ⟨_, hmem, _⟩ => (by cases hmem)
    exact next_of_end hread (Nat.le_refl _)
  | @line start stop text rest hlt hle htext hwithin hend hrest ih =>
    by_cases hhere : offset = start
    · -- no line is before the offset
      subst hhere
      have hlines : Lines m.bytes offset (⟨offset, stop, text⟩ :: rest) :=
        .line hlt hle htext hwithin hend hrest
      rw [next_of_lines hread hlines, ← List.head?_filter, ← List.head?_filter]
      refine congrArg (m.reach ·.head?) (List.filter_congr fun line hmem => ?_)
      rw [decide_eq_true (hlines.le_of_mem hmem), Bool.true_and]
    · -- a border behind the first line is one of the lines after it
      have hborders' : Borders m.bytes rest offset := by
        rcases hborders with heq | ⟨line, hmem, heq⟩
        · exact .inl heq
        · rcases List.mem_cons.1 hmem with rfl | hmem
          · exact absurd heq.symm hhere
          · exact .inr ⟨line, hmem, heq⟩
      have hbefore : ¬offset ≤ start := by
        have := hrest.start_le_of_borders hborders'
        omega
      rw [ih hborders', List.find?_cons, decide_eq_false hbefore, Bool.false_and]

theorem serve_replicate_succ (reader : TraceReader) (count : Nat) :
    reader.serve (List.replicate (count + 1) .next) =
      reader.next.2.serve (List.replicate count .next) := rfl

/-- **Reads one after the other.** They answer for the lines that are not blank, in order, and then for
the end. -/
theorem next_of_serve (hread : m.readError? = none) (h : Lines m.bytes start lines) (count : Nat) :
    ((m.readerAt start).serve (List.replicate count .next)).next =
      m.reach (lines.filter (!·.isBlank))[count]? := by
  induction h generalizing count with
  | done =>
    have hend := next_of_end hread (Nat.le_refl m.bytes.size)
    -- at the end a reader stays there, however often it is asked
    have hstay : (m.readerAt m.bytes.size).serve (List.replicate count .next) =
        m.readerAt m.bytes.size := by
      induction count with
      | zero => rfl
      | succ count ih => rw [serve_replicate_succ, hend, ih]
    rw [hstay, hend]
    rfl
  | @line start stop text rest hlt hle htext hwithin hend hrest ih =>
    have hnext := next_of_lines hread (.line hlt hle htext hwithin hend hrest)
    rw [List.find?_cons] at hnext
    rw [List.filter_cons]
    cases hblank : TextLine.isBlank ⟨start, stop, text⟩ with
    | true =>
      -- a read from a blank line is one from its end
      have hsame : (m.readerAt start).next = (m.readerAt stop).next := by
        rw [hnext, next_of_lines hread hrest, hblank]
        rfl
      rw [Bool.not_true, if_neg Bool.false_ne_true, ← ih]
      cases count with
      | zero => exact hsame
      | succ count => rw [serve_replicate_succ, serve_replicate_succ, hsame]
    | false =>
      rw [hblank] at hnext
      rw [Bool.not_false, if_pos rfl]
      -- the first read answers for this line, and the others for those behind it
      cases count with
      | zero => exact hnext
      | succ count =>
        have hstop : (m.readerAt start).next.2 = m.readerAt stop := by
          rw [hnext]
          rfl
        rw [serve_replicate_succ, hstop, List.getElem?_cons_succ, ih]

/-- A reader that was only moved to where lines start stands where one of them does. A read
takes it from the start of a line to the end of one, and that is where the next line starts. -/
theorem exists_readerAt_of_serve (hsteady : m.Steady) (hread : m.readError? = none)
    (h : Lines m.bytes 0 lines) (hstay : m.StayOn lines requests)
    (hborders : Borders m.bytes lines offset) :
    ∃ place, (m.readerAt offset).serve requests = m.readerAt place ∧ Borders m.bytes lines place := by
  -- by induction on the requests, each of which leads from a border to a border
  induction requests generalizing offset with
  | nil => exact ⟨offset, rfl, hborders⟩
  | cons request requests ih =>
    have hlater : m.StayOn lines requests :=
      fun offset hmem => hstay offset (List.mem_cons_of_mem _ hmem)
    suffices hone : ∃ place, (m.readerAt offset).serveOne request = m.readerAt place ∧
        Borders m.bytes lines place by
      obtain ⟨place, hplace, hborders'⟩ := hone
      rw [TraceReader.serve, List.foldl_cons, hplace]
      exact ih hlater hborders'
    cases request with
    -- a read ends where a line ends or at the end
    | next =>
      rw [TraceReader.serveOne, next_of_borders hread h hborders]
      cases hfind : lines.find? fun line => offset ≤ line.start && !line.isBlank with
      | none => exact ⟨_, rfl, .inl rfl⟩
      | some line => exact ⟨_, rfl, h.borders_stop (List.mem_of_find?_eq_some hfind)⟩
    -- the other requests move the reader to a border at once
    | seek target =>
      have htarget := hstay target List.mem_cons_self
      refine ⟨target, ?_, htarget⟩
      rw [TraceReader.serveOne, seek_readerAt hsteady (h.le_size_of_borders htarget)]
    | rewind =>
      refine ⟨0, ?_, h.borders_start⟩
      rw [TraceReader.serveOne, rewind_eq_ok hsteady.canSeek rfl]

/-- The record that a read has answered is the one on some line, and the next read is from its
end. So the place after a record can be found by the line that it was on. -/
theorem exists_line_of_nextAfter {count : Nat} {record : TraceRecord}
    (horder : ∀ count, m.nextAfter count = m.reach (lines.filter (!·.isBlank))[count]?)
    (hrecord : (m.nextAfter count).1 = .ok (some record)) :
    ∃ line ∈ lines, line.isBlank = false ∧ line.answer = .ok (some record) ∧
      m.nextAfter (count + 1) = (m.readerAt line.stop).next := by
  obtain ⟨line, hline⟩ : ∃ line, (lines.filter (!·.isBlank))[count]? = some line := by
    refine Option.isSome_iff_exists.1 (Option.isSome_iff_ne_none.2 fun hnone => ?_)
    rw [horder, hnone] at hrecord
    cases hrecord
  obtain ⟨hmem, hshown⟩ := List.mem_filter.1 (List.mem_of_getElem? hline)
  refine ⟨line, hmem, by simpa using hshown, ?_, ?_⟩
  · rw [← hrecord, horder, hline, reach]
  · have hafter : (m.readerAt 0).serve (List.replicate (count + 1) .next) = (m.nextAfter count).2 := by
      rw [List.replicate_succ', TraceReader.serve_concat]
      rfl
    rw [nextAfter, hafter, horder, hline, reach]

/-- **Reading line by line.** A trace whose lines are text is read from the start, with an answer for
each line that is not blank, in order, and none after that. Whatever a reader was asked for, as long as
it was moved only to where lines start, all of them can be found again. -/
theorem lines_read (hsteady : m.Steady) (hread : m.readError? = none)
    (htext : ∀ place ∈ lineStarts m.bytes 0,
      (String.fromUTF8? (m.bytes.extract place (lineEnd m.bytes place))).isSome = true) :
    ∃ lines, Lines m.bytes 0 lines ∧ m.ReadByLine lines := by
  obtain ⟨lines, hlines⟩ := exists_lines (Nat.zero_le _) htext
  have horder : ∀ count, m.nextAfter count = m.reach (lines.filter (!·.isBlank))[count]? :=
    next_of_serve hread hlines
  have hseek : ∀ {requests offset}, m.StayOn lines requests → Borders m.bytes lines offset →
      ((m.readerAt 0).serve requests).seek offset = (.ok (), m.readerAt offset) := by
    intro requests offset hstay hborders
    obtain ⟨place, hplace, -⟩ :=
      exists_readerAt_of_serve hsteady hread hlines hstay hlines.borders_start
    rw [hplace, seek_readerAt hsteady (hlines.le_size_of_borders hborders)]
  refine ⟨lines, hlines, horder, fun hstay hborders => ⟨_, hseek hstay hborders, ?_⟩,
    fun hstay hrecord => ?_, fun hstay hrecord => ?_⟩
  · exact next_of_borders hread hlines hborders
  · obtain ⟨line, hmem, hshown, hanswer, -⟩ := exists_line_of_nextAfter horder hrecord
    obtain ⟨hoffset, -⟩ := TextLine.offsets_of_answer hanswer
    obtain ⟨rest, hfrom⟩ := hlines.of_mem hmem
    rw [hoffset, TraceReader.nextAt, hseek hstay (.inr ⟨line, hmem, rfl⟩)]
    show (m.readerAt line.start).next.1 = _
    rw [next_of_lines hread hfrom, List.find?_cons, hshown, Bool.not_false, reach, hanswer]
  · obtain ⟨line, hmem, -, hanswer, hlater⟩ := exists_line_of_nextAfter horder hrecord
    obtain ⟨-, hnextOffset⟩ := TextLine.offsets_of_answer hanswer
    rw [hnextOffset, TraceReader.nextAt, hseek hstay (hlines.borders_stop hmem), hlater]

/-- A record, a blank line, a line with one numeral, and a record without a line feed. -/
def mixed : ByteArray := ⟨#[49, 32, 49, 10, 32, 10, 53, 10, 50, 32, 50]⟩

theorem lines_read_mixed :
    ((({ bytes := mixed } : Medium).Steady ∧ ({ bytes := mixed } : Medium).readError? = none) ∧
      ∀ place ∈ lineStarts mixed 0,
        (String.fromUTF8? (mixed.extract place (lineEnd mixed place))).isSome = true) ∧
      ∃ lines, Lines mixed 0 lines ∧ ({ bytes := mixed } : Medium).ReadByLine lines := by
  have hsteady : ({ bytes := mixed } : Medium).Steady := ⟨rfl, by decide⟩
  have htext : ∀ place ∈ lineStarts mixed 0,
      (String.fromUTF8? (mixed.extract place (lineEnd mixed place))).isSome = true := by
    decide +kernel
  exact ⟨⟨⟨hsteady, rfl⟩, htext⟩, lines_read hsteady rfl htext⟩

/-- The line with one numeral is an error, and the next read goes on with the line after it. -/
example : (({ bytes := mixed } : Medium).nextAfter 1).1 = .error (.malformedRecord 6 "5") ∧
    (({ bytes := mixed } : Medium).nextAfter 2).1 =
      .ok (some { page := ⟨2, 2⟩, offset := 8, nextOffset := 11 }) := by
  decide +kernel

end Medium

end DemandPaging
