import DemandPaging.Proofs.Reading
import Mathlib.Data.List.Induction

/-!
# Where a reader stands

A reader is asked to read, to move or to go back to the start, any number of times and whatever it
answers. `TraceReader.serve` is the reader after such requests. Its medium never falls behind it, but
may be ahead of it: a line that is not text moves the medium past it and not the reader. From there on
the reader *lags* (`TraceReader.Lags`) until its medium is moved again.

* A reader that does not lag stands where its medium stands.
* A place other than the one at which the reader stands is always found: a reader that moves there
  reads what a new reader reads there.
* At the place where a lagging reader stands, moving does nothing. It goes on reading where its medium
  stands, and all offsets that it gives fall short by the same number of bytes (`next_ahead`).

The place of a reader is thus not that of its medium after every sequence of requests
(`otherText_lags`).
-/

namespace DemandPaging

/-- What a reader can be asked for, one thing after the other, in whatever order. -/
inductive Request where
  /-- To read a record. -/
  | next
  /-- To move to an offset. -/
  | seek (offset : Nat)
  /-- To move to the start. -/
  | rewind

/-- The record with its offsets counted from further ahead. Its page is the same: a reader that
lags reads the right text and puts it in the wrong place. -/
def TraceRecord.ahead (record : TraceRecord) (shortfall : Nat) : TraceRecord :=
  { record with
    offset := record.offset + shortfall
    nextOffset := record.nextOffset + shortfall }

/-- The error with its offset counted from further ahead. Only errors in a line name an offset
that a reader has counted. -/
def SimulationError.ahead (shortfall : Nat) : SimulationError → SimulationError
  | malformedRecord offset text => malformedRecord (offset + shortfall) text
  | zeroPid offset => zeroPid (offset + shortfall)
  | e => e

namespace TraceReader

/-- What a read answers, with its offsets counted from further ahead. -/
def ahead (shortfall : Nat) :
    Except SimulationError (Option TraceRecord) → Except SimulationError (Option TraceRecord)
  | .error e => .error (e.ahead shortfall)
  | .ok record? => .ok (record?.map (·.ahead shortfall))

/-- The reader after a request, whatever it answers. -/
def serveOne (reader : TraceReader) : Request → TraceReader
  | .next => reader.next.2
  | .seek offset => (reader.seek offset).2
  | .rewind => reader.rewind.2

/-- The reader after some requests, the first one first. Requests that fail are among them, and
leave the reader as they leave it. -/
def serve (reader : TraceReader) (requests : List Request) : TraceReader :=
  requests.foldl serveOne reader

/-- What moving to an offset and reading there answers. What it leaves is of no interest here. -/
def nextAt (reader : TraceReader) (offset : Nat) : Except SimulationError (Option TraceRecord) :=
  match reader.seek offset with
  | (.error e, _) => .error e
  | (.ok (), reader) => reader.next.1

/-- The line that a read would come to is not text. The read moves the medium past that line,
and the reader stays before it. -/
def Slips (reader : TraceReader) : Prop := reader.next.1 = .error (.medium .notText)

/-- The request moves the medium of the reader: it is sent to another place than its own that the medium
can be at, or to the start, where it goes wherever it is. -/
def Moves (reader : TraceReader) : Request → Prop
  | .next => False
  | .seek offset => offset ≠ reader.position ∧ offset ≤ reader.medium.maxOffset
  | .rewind => True

/-- Among the requests a read has come to a line that is not text, and no request after it has moved the
medium. Told by the requests and what they come to, without a look at where the medium is. -/
inductive Lags (reader : TraceReader) : List Request → Prop where
  /-- The last request came to such a line. -/
  | slip {requests} (hslip : (reader.serve requests).Slips) : reader.Lags (requests ++ [.next])
  /-- The last request has left the medium where the reader does not know it to be. -/
  | stay {requests request} (hlags : reader.Lags requests)
      (hstay : ¬(reader.serve requests).Moves request) : reader.Lags (requests ++ [request])

theorem serve_concat (reader : TraceReader) (requests : List Request) (request : Request) :
    reader.serve (requests ++ [request]) = (reader.serve requests).serveOne request := by
  rw [serve, List.foldl_append]
  rfl

theorem lags_nil (reader : TraceReader) : ¬reader.Lags [] := by
  intro h
  generalize hnil : ([] : List Request) = requests at h
  cases h with
  | slip => exact List.append_ne_nil_of_right_ne_nil _ (List.cons_ne_nil _ _) hnil.symm
  | stay => exact List.append_ne_nil_of_right_ne_nil _ (List.cons_ne_nil _ _) hnil.symm

/-- The lag after one more request, by whether it is the one at which the lag begins. It is for
going over the requests from the last one on, as they are served. -/
theorem lags_concat_iff {reader : TraceReader} {requests : List Request} {request : Request} :
    reader.Lags (requests ++ [request]) ↔
      (request = .next ∧ (reader.serve requests).Slips) ∨
        (reader.Lags requests ∧ ¬(reader.serve requests).Moves request) := by
  constructor
  · -- which of the two it is depends on the last request
    intro h
    generalize hall : requests ++ [request] = all at h
    cases h with
    | slip hslip =>
      obtain ⟨rfl, hlast⟩ := List.append_inj' hall rfl
      exact .inl ⟨(List.singleton_inj.1 hlast), hslip⟩
    | stay hlags hstay =>
      obtain ⟨rfl, hlast⟩ := List.append_inj' hall rfl
      obtain rfl := List.singleton_inj.1 hlast
      exact .inr ⟨hlags, hstay⟩
  · rintro (⟨rfl, hslip⟩ | ⟨hlags, hstay⟩)
    · exact .slip hslip
    · exact .stay hlags hstay

/-! ### One request -/

theorem skipLine_offset (reader : TraceReader) :
    reader.skipLine.medium.offset + reader.position =
      reader.medium.offset + reader.skipLine.position := by
  have hle := Medium.le_lineEnd reader.medium.bytes reader.medium.offset
  have hsize := reader.medium.size_line
  show Medium.lineEnd reader.medium.bytes reader.medium.offset + reader.position =
    reader.medium.offset + (reader.position + reader.medium.line.size)
  omega

/-- **Reading moves both or only the medium.** The reader goes as far as its medium, unless it comes to a
line that is not text; then the medium goes further. By the recursion of the read, which goes on after a
blank line only. -/
theorem offset_next {reader : TraceReader} (hread : reader.medium.readError? ≠ some .notText) :
    (reader.Slips → reader.medium.offset + reader.next.2.position <
        reader.next.2.medium.offset + reader.position) ∧
      (¬reader.Slips → reader.next.2.medium.offset + reader.position =
        reader.medium.offset + reader.next.2.position) := by
  unfold Slips
  fun_induction next reader with
  | case1 reader e herror =>
    refine ⟨fun hslip => ?_, fun _ => rfl⟩
    cases hslip
    exact absurd herror hread
  | case2 => exact ⟨fun hslip => (by cases hslip), fun _ => rfl⟩
  | case3 reader _ hline htext =>
    -- the medium is past the line by the time that it is found not to be text
    refine ⟨fun _ => ?_, fun hslip => absurd rfl hslip⟩
    have hlt : reader.medium.offset < reader.medium.bytes.size := by
      rw [Medium.line_isEmpty_iff] at hline
      exact Nat.lt_of_not_le hline
    exact Nat.add_lt_add_right (Medium.lt_lineEnd hlt) reader.position
  | case4 reader _ hline text htext hblank ih =>
    -- the blank line moves both, and then the read goes on
    obtain ⟨hslips, hkeeps⟩ := ih hread
    have hskip := reader.skipLine_offset
    refine ⟨fun h => ?_, fun h => ?_⟩
    · have := hslips h
      omega
    · have := hkeeps h
      omega
  | case5 reader _ hline text htext e hletters hparse =>
    refine ⟨fun hslip => ?_, fun _ => reader.skipLine_offset⟩
    -- what is wrong with a record is not the reason that a medium gives
    cases hslip
    simp only [TraceRecord.parse] at hparse
    split at hparse <;> cases hparse
  | case6 reader => exact ⟨fun hslip => (by cases hslip), fun _ => reader.skipLine_offset⟩

variable {m : Medium} {reader : TraceReader}

theorem moveTo_eq (hseek : m.seekError? = none) {offset : Nat}
    (hmedium : reader.medium = { m with offset }) (target : Nat) :
    reader.moveTo target =
      if target ≤ m.maxOffset then (.ok (), m.readerAt target)
      else (.error (.medium .invalidOffset), reader) := by
  obtain ⟨medium, position⟩ := reader
  change medium = { m with offset } at hmedium
  subst hmedium
  unfold moveTo Medium.seek
  simp only [hseek]
  split <;> rename_i hmoved <;> split at hmoved <;> cases hmoved
  · next hout => rw [if_neg hout]
  · next hle =>
    rw [if_pos hle, Medium.readerAt]
    simp only [hseek]

/-- A reader that is sent elsewhere, or does not lag, is then where it was sent to: either the medium is
moved, or nothing is done and it is there already. -/
theorem seek_eq_ok (hseek : m.seekError? = none) {offset target : Nat}
    (hmedium : reader.medium = { m with offset }) (htarget : target ≤ m.maxOffset)
    (hplace : target = reader.position → reader.position = offset) :
    reader.seek target = (.ok (), m.readerAt target) := by
  unfold seek
  split
  · -- it is there already, and so is its medium
    next heq =>
    have hstands : reader = m.readerAt target := by
      rw [heq, hplace heq, Medium.readerAt, ← hmedium, ← hplace heq]
    exact Prod.ext rfl hstands
  · rw [moveTo_eq hseek hmedium, if_pos htarget]

/-- **What a request does.** It reads a record, moves the reader and its medium to one place, or does
nothing. A place that the medium cannot be at is refused, and nothing has moved then. -/
theorem serveOne_cases (hseek : m.seekError? = none) {offset : Nat}
    (hmedium : reader.medium = { m with offset }) (request : Request) :
    request = .next ∨ (reader.Moves request ∧ ∃ target, reader.serveOne request = m.readerAt target) ∨
      (request ≠ .next ∧ ¬reader.Moves request ∧ reader.serveOne request = reader) := by
  have hmax : reader.medium.maxOffset = m.maxOffset := by rw [hmedium]
  cases request with
  | next => exact .inl rfl
  | rewind =>
    refine .inr (.inl ⟨trivial, 0, ?_⟩)
    rw [serveOne, Medium.rewind_eq_ok hseek hmedium]
  | seek target =>
    right
    rw [serveOne, seek, Moves, hmax]
    -- sent to its own place it stays, wherever its medium is
    by_cases heq : target = reader.position
    · rw [if_pos heq]
      exact .inr ⟨fun hnext => (by cases hnext), fun hmoves => hmoves.1 heq, rfl⟩
    · rw [if_neg heq, moveTo_eq hseek hmedium]
      split
      · next hle => exact .inl ⟨⟨heq, hle⟩, target, rfl⟩
      · next hout => exact .inr ⟨fun hnext => (by cases hnext), fun hmoves => hout hmoves.2, rfl⟩

theorem parse_ahead (text : String) (offset shortfall : Nat) :
    TraceRecord.parse text (offset + shortfall) =
      (TraceRecord.parse text offset).mapError (·.ahead shortfall) := by
  unfold TraceRecord.parse
  split <;> rfl

/-- **A lagging reader reads on.** Counted from further ahead, a reader of the same medium reads the
same, with offsets that are further ahead. What is read depends on the medium alone, and the position of
the reader only enters the offsets. -/
theorem next_ahead (reader : TraceReader) (shortfall : Nat) :
    ({ reader with position := reader.position + shortfall } : TraceReader).next.1 =
      ahead shortfall reader.next.1 := by
  fun_induction next reader with
  | case1 _ _ herror =>
    rw [next]
    simp only [herror]
    rfl
  | case2 _ hread hline =>
    rw [next]
    simp only [hread, hline, dite_true]
    rfl
  | case3 _ hread hline htext =>
    rw [next]
    simp only [hread, hline, htext]
    rfl
  | case4 reader hread hline text htext hblank ih =>
    rw [← ih, next]
    simp only [hread, hline, htext, hblank, Bool.false_eq_true, dite_false]
    rw [skipLine, skipLine, Nat.add_right_comm]
  | case5 reader hread hline text htext e hletters hparse =>
    rw [next]
    simp only [hread, hline, htext]
    rw [parse_ahead, hparse]
    rfl
  | case6 reader hread hline text htext page record hletters hparse =>
    rw [next]
    simp only [hread, hline, htext]
    rw [parse_ahead, hparse]
    simp only [Except.mapError, ahead, Option.map_some, TraceRecord.ahead, record, skipLine,
      Nat.add_right_comm]
    rfl

/-! ### Many requests -/

/-- What is known of a reader after some requests. That it lags was told from the requests, and is here
found to be what its two places say. -/
structure Stands (m : Medium) (requests : List Request) (reader : TraceReader) : Prop where
  /-- Only the offset of the medium has changed. -/
  medium_eq : reader.medium = { m with offset := reader.medium.offset }
  /-- The medium is not behind. -/
  le_offset : reader.position ≤ reader.medium.offset
  /-- The medium is ahead if the reader lags, and only then. -/
  lags_iff : (m.readerAt 0).Lags requests ↔ reader.position ≠ reader.medium.offset

/-- One more request: a read, one that moves the medium, or one that does nothing. A read that
comes to a line that is not text is the only one that parts the reader from its medium. -/
theorem Stands.serveOne (hseek : m.seekError? = none) (hread : m.readError? ≠ some .notText)
    {requests : List Request} (h : Stands m requests ((m.readerAt 0).serve requests))
    (request : Request) :
    Stands m (requests ++ [request]) ((m.readerAt 0).serve (requests ++ [request])) := by
  have hlags : (m.readerAt 0).Lags (requests ++ [request]) ↔ _ := lags_concat_iff
  rw [serve_concat]
  generalize (m.readerAt 0).serve requests = reader at h hlags
  obtain rfl | ⟨hmoves, target, hserve⟩ | ⟨hne, hstays, hserve⟩ := serveOne_cases hseek h.medium_eq request
  · -- a read keeps the lag, and begins one at a line that is not text
    obtain ⟨offset, hmedium⟩ := Medium.medium_next reader
    have hread' : reader.medium.readError? ≠ some .notText := by
      rw [h.medium_eq]
      exact hread
    obtain ⟨hslips, hkeeps⟩ := offset_next hread'
    have hle := h.le_offset
    have hbefore := h.lags_iff
    show Stands m _ reader.next.2
    by_cases hslip : reader.Slips
    · have hfurther := hslips hslip
      refine ⟨by rw [hmedium, h.medium_eq], by omega, ?_⟩
      rw [hlags]
      exact iff_of_true (.inl ⟨rfl, hslip⟩) (by omega)
    · have hsame := hkeeps hslip
      refine ⟨by rw [hmedium, h.medium_eq], by omega, ?_⟩
      rw [hlags, hbefore]
      constructor
      · rintro (⟨-, hslip'⟩ | ⟨hahead, -⟩)
        · exact absurd hslip' hslip
        · omega
      · intro hahead
        exact .inr ⟨by omega, id⟩
  · rw [hserve]
    -- once moved, the reader and its medium are at one place
    refine ⟨rfl, Nat.le_refl _, ?_⟩
    rw [hlags]
    refine iff_of_false ?_ (fun hahead => hahead rfl)
    rintro (⟨rfl, -⟩ | ⟨-, hstays⟩)
    · exact hmoves
    · exact hstays hmoves
  · rw [hserve]
    -- nothing moved, so the lag is as it was
    refine ⟨h.medium_eq, h.le_offset, ?_⟩
    rw [hlags, ← h.lags_iff]
    constructor
    · rintro (⟨rfl, -⟩ | ⟨hahead, -⟩)
      · exact absurd rfl hne
      · exact hahead
    · exact fun hahead => .inr ⟨hahead, hstays⟩

theorem stands (hseek : m.seekError? = none) (hread : m.readError? ≠ some .notText)
    (requests : List Request) : Stands m requests ((m.readerAt 0).serve requests) := by
  induction requests using List.reverseRecOn with
  | nil => exact ⟨rfl, Nat.le_refl _, iff_of_false (lags_nil _) (fun hahead => hahead rfl)⟩
  | append_singleton requests request ih => exact ih.serveOne hseek hread request

/-- **Where a reader stands after any requests.** The medium of the reader is never behind it, and is
ahead of it exactly if the reader lags. If it does not lag, or for another place than its own, moving
and reading answers what a new reader answers. At its own place a lagging reader answers what a new
reader answers at the place of the medium, with all offsets short by what it lags. -/
theorem nextAt_of_serve (hseek : m.seekError? = none) (hread : m.readError? ≠ some .notText)
    (requests : List Request) :
    ∃ reader, (m.readerAt 0).serve requests = reader ∧
      reader.position ≤ reader.medium.offset ∧
      ((m.readerAt 0).Lags requests ↔ reader.position ≠ reader.medium.offset) ∧
      (∀ offset ≤ m.maxOffset, ¬(m.readerAt 0).Lags requests ∨ offset ≠ reader.position →
        reader.nextAt offset = (m.readerAt 0).nextAt offset) ∧
      (reader.medium.offset ≤ m.maxOffset →
        (m.readerAt 0).nextAt reader.medium.offset =
          ahead (reader.medium.offset - reader.position) (reader.nextAt reader.position)) := by
  have h := stands hseek hread requests
  generalize (m.readerAt 0).serve requests = reader at h
  -- a new reader stands where its medium stands
  have hnew : ∀ offset ≤ m.maxOffset, (m.readerAt 0).nextAt offset = (m.readerAt offset).next.1 := by
    intro offset hle
    rw [nextAt, seek_eq_ok hseek rfl hle fun _ => rfl]
  refine ⟨reader, rfl, h.le_offset, h.lags_iff, fun offset hle hplace => ?_, fun hle => ?_⟩
  · -- sent to its own place, a reader that does not lag is where it should be
    rw [hnew offset hle, nextAt, seek_eq_ok hseek h.medium_eq hle]
    intro hsame
    refine Decidable.not_not.1 fun hahead => ?_
    obtain hnot | hne := hplace
    · exact hnot (h.lags_iff.2 hahead)
    · exact hne hsame
  · -- at its own place a reader stays, and reads where its medium stands
    have hreader : m.readerAt reader.medium.offset =
        { reader with position := reader.position + (reader.medium.offset - reader.position) } := by
      rw [Nat.add_sub_cancel' h.le_offset, h.medium_eq]
      rfl
    have hstay : reader.seek reader.position = (.ok (), reader) := if_pos rfl
    rw [hnew _ hle, nextAt, hstay, hreader]
    exact next_ahead reader _

/-- A line that is not text, and then a record. -/
def otherText : ByteArray := ⟨#[255, 10, 49, 32, 49, 10]⟩

theorem nextAt_of_serve_otherText :
    (({ bytes := otherText } : Medium).seekError? = none ∧
      ({ bytes := otherText } : Medium).readError? ≠ some .notText) ∧
      ∃ reader, (ofBytes otherText).serve [.next, .seek 0, .rewind, .next] = reader ∧
        reader.position ≤ reader.medium.offset ∧
        ((ofBytes otherText).Lags [.next, .seek 0, .rewind, .next] ↔
          reader.position ≠ reader.medium.offset) ∧
        (∀ offset ≤ 2 ^ 64 - 1,
          ¬(ofBytes otherText).Lags [.next, .seek 0, .rewind, .next] ∨ offset ≠ reader.position →
            reader.nextAt offset = (ofBytes otherText).nextAt offset) ∧
        (reader.medium.offset ≤ 2 ^ 64 - 1 →
          (ofBytes otherText).nextAt reader.medium.offset =
            ahead (reader.medium.offset - reader.position) (reader.nextAt reader.position)) :=
  ⟨⟨rfl, by decide⟩, nextAt_of_serve (m := { bytes := otherText }) rfl (by decide) _⟩

/-- The place of a reader is not always that of its medium. After a line that is not text the reader is
where that line starts; told to go there it stays, and reads the record that follows the line. A new
reader comes to the line. -/
theorem otherText_lags :
    ((ofBytes otherText).serve [.next]).position = 0 ∧
      ((ofBytes otherText).serve [.next]).medium.offset = 2 ∧
      ((ofBytes otherText).serve [.next]).nextAt 0 =
        .ok (some { page := ⟨1, 1⟩, offset := 0, nextOffset := 4 }) ∧
      (ofBytes otherText).nextAt 0 = .error (.medium .notText) := by
  decide +kernel

end TraceReader

end DemandPaging
