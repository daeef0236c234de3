import DemandPaging.Trace.Record
import Mathlib.Data.List.Induction
import Mathlib.Data.Nat.Digits.Defs
import Mathlib.Data.Set.List

/-!
# The grammar of records

What a text has to look like to be a record, without the scan that reads it. The words of a text are the
pieces between its blanks that are not empty (`Text.words_eq`). A numeral denotes the number that its
decimal digits give (`Text.Numeral.Denotes`), and a text spells two numbers if it has two words, which
denote them (`TraceRecord.Spells`).

`TraceRecord.parse` answers for each text by what it spells (`TraceRecord.parse_spells`). That zero is
no process comes last: what is wrong with the number of the page is found first.

The value of a numeral is taken as a whole before it is compared with the largest of 64 bits. A loop over
the digits that stops as soon as the digits so far give more comes to the same, for no digit after them
makes it smaller (`Text.Numeral.read?_eq_accumulate`).
-/

namespace DemandPaging

/-! ### Words -/

namespace Text

variable {cs word : List Char}

theorem close_eq {others : List (List Char)} :
    words.close word others = [word.reverse].filter (· ≠ []) ++ others := by
  cases word with
  | nil => rfl
  | cons c word => simp [words.close]

/-- The letters that have been read belong to the first piece. By induction on the text, for whatever was
read before: a blank closes the piece, and any other letter goes on with it. -/
theorem go_eq (word cs : List Char) :
    words.go word cs = (cs.splitOnPPrepend isBlank word).filter (· ≠ []) := by
  induction cs generalizing word with
  | nil => rw [words.go, close_eq, List.append_nil, List.splitOnPPrepend_nil]
  | cons c rest ih =>
    rw [words.go, List.splitOnPPrepend_cons_eq_if]
    split
    · rw [close_eq, ih, List.splitOnPPrepend_nil_right, ← List.filter_append, List.singleton_append]
    · exact ih _

/-- The words of a text are the pieces between its blanks that are not empty. So neither the kind nor the
number of the blanks matters, nor do those at the ends. -/
theorem words_eq (cs : List Char) : words cs = (cs.splitOnP isBlank).filter (· ≠ []) :=
  go_eq [] cs

end Text

/-! ### Numerals -/

namespace Text.Numeral

variable {cs : List Char} {n : Nat}

/-- How a digit is written. Only the ten digits of ASCII count, and not those of other scripts.
-/
def glyph (digit : Fin 10) : Char := Nat.digitChar digit

/-- The characters denote the number: they are its decimal digits, at least one and with any number of
zeros in front, after a plus sign or without one. -/
def Denotes (cs : List Char) (n : Nat) : Prop :=
  ∃ digits : List (Fin 10), digits ≠ [] ∧ (cs = digits.map glyph ∨ cs = '+' :: digits.map glyph) ∧
    n = Nat.ofDigits 10 (digits.reverse.map Fin.val)

theorem glyph_ne_plus (digit : Fin 10) : glyph digit ≠ '+' := by
  revert digit
  decide

theorem toNat_glyph (digit : Fin 10) : (glyph digit).toNat = '0'.toNat + digit := by
  revert digit
  decide

theorem isDigit_iff {c : Char} : c.isDigit = true ↔ c ∈ Set.range glyph := by
  constructor
  · -- a digit is one of ten code points in a row
    intro h
    simp only [Char.isDigit, Bool.and_eq_true, decide_eq_true_eq, ge_iff_le, UInt32.le_iff_toNat_le] at h
    obtain ⟨hlow, hhigh⟩ : 48 ≤ c.toNat ∧ c.toNat ≤ 57 := h
    refine ⟨⟨c.toNat - 48, by omega⟩, Char.toNat_inj.1 ?_⟩
    rw [toNat_glyph]
    exact Nat.add_sub_cancel' hlow
  · rintro ⟨digit, rfl⟩
    revert digit
    decide

/-- The characters are all digits if they are what some digits are written as, and only then. From here
on digits stand for themselves, and code points are not looked at again. -/
theorem all_isDigit_iff : cs.all Char.isDigit = true ↔ ∃ digits : List (Fin 10), digits.map glyph = cs := by
  rw [← Set.mem_range, Set.range_list_map]
  simp only [List.all_eq_true, isDigit_iff]
  rfl

theorem value_concat (ds : List Char) (d : Char) :
    value (ds ++ [d]) = 10 * value ds + (d.toNat - '0'.toNat) := by
  rw [value, List.foldl_append]
  rfl

/-- Each digit counts ten times as much as the one after it. The last digit is split off, as the value is
taken from the left and `Nat.ofDigits` has the last digit first. -/
theorem value_glyphs (digits : List (Fin 10)) :
    value (digits.map glyph) = Nat.ofDigits 10 (digits.reverse.map Fin.val) := by
  induction digits using List.reverseRecOn with
  | nil => rfl
  | append_singleton digits digit ih =>
    rw [List.map_append, List.map_singleton, value_concat, ih, toNat_glyph,
      Nat.add_sub_cancel_left, List.reverse_concat, List.map_cons, Nat.ofDigits_cons, Nat.add_comm]

theorem unsigned_glyphs (digits : List (Fin 10)) : unsigned (digits.map glyph) = digits.map glyph := by
  cases digits with
  | nil => rfl
  | cons digit digits =>
    rw [List.map_cons, unsigned]
    simpa using glyph_ne_plus digit

theorem unsigned_eq_glyphs_iff {digits : List (Fin 10)} :
    unsigned cs = digits.map glyph ↔ cs = digits.map glyph ∨ cs = '+' :: digits.map glyph := by
  constructor
  · intro h
    -- a plus sign is taken away, and all other characters are kept
    match cs with
    | [] => exact .inl h
    | c :: rest =>
      by_cases hplus : c = '+'
      · subst hplus
        exact .inr (congrArg _ h)
      · left
        rwa [unsigned] at h
        simpa using hplus
  · rintro (rfl | rfl)
    · exact unsigned_glyphs digits
    · rfl

/-- **Reading a numeral.** It gives the number that the characters denote if that has at most 64 bits,
and nothing in all other cases. What is left without the sign is written digits, and its value is what
these give. -/
theorem read?_eq_some_iff : read? cs = some n ↔ Denotes cs n ∧ n < 2 ^ 64 := by
  rw [read?, Option.ite_none_right_eq_some, all_isDigit_iff, Option.some.injEq]
  constructor
  · rintro ⟨⟨hne, ⟨digits, hdigits⟩, hlt⟩, rfl⟩
    rw [← hdigits, value_glyphs] at hlt ⊢
    -- the sign alone is no numeral
    have hsome : digits ≠ [] := fun hnil => hne (by rw [← hdigits, hnil, List.map_nil])
    exact ⟨⟨digits, hsome, unsigned_eq_glyphs_iff.1 hdigits.symm, rfl⟩, hlt⟩
  · rintro ⟨⟨digits, hne, hcs, rfl⟩, hlt⟩
    rw [unsigned_eq_glyphs_iff.2 hcs, value_glyphs]
    exact ⟨⟨by simpa using hne, ⟨digits, rfl⟩, hlt⟩, rfl⟩

example : read? "+007".toList = some 7 := by decide

example : read? "18446744073709551616".toList = none := by decide

/-- The value of the digits after a number, which is their value to the base of ten if the
number is zero. It is what the loop has when it has read them. -/
def valueFrom (n : Nat) (ds : List Char) : Nat := ds.foldl (fun n d => 10 * n + (d.toNat - '0'.toNat)) n

/-- Goes on with a value by one digit after the other, as long as it has at most 64 bits. A loop that
checks each product and each sum stops where this one does. -/
def accumulate (n : Nat) : List Char → Option Nat
  | [] => some n
  | d :: ds =>
    let next := 10 * n + (d.toNat - '0'.toNat)
    if d.isDigit ∧ next < 2 ^ 64 then accumulate next ds else none

/-- More digits do not make a number smaller. -/
theorem le_valueFrom (n : Nat) (ds : List Char) : n ≤ valueFrom n ds := by
  induction ds generalizing n with
  | nil => exact le_rfl
  | cons d ds ih =>
    calc n ≤ 10 * n + (d.toNat - '0'.toNat) := by omega
      _ ≤ valueFrom (10 * n + (d.toNat - '0'.toNat)) ds := ih _

/-- The loop comes to an end if all are digits and the value of all of them has at most 64 bits.
By induction on the digits, since a value that is too large stays so. -/
theorem accumulate_eq_some_iff {start : Nat} {ds : List Char} (hstart : start < 2 ^ 64) :
    accumulate start ds = some n ↔ ds.all Char.isDigit = true ∧ valueFrom start ds = n ∧ n < 2 ^ 64 := by
  induction ds generalizing start with
  | nil => simpa [accumulate, valueFrom] using fun h => h ▸ hstart
  | cons d ds ih =>
    rw [accumulate, List.all_cons, Option.ite_none_right_eq_some, Bool.and_eq_true, valueFrom,
      List.foldl_cons, ← valueFrom]
    constructor
    · rintro ⟨⟨hdigit, hnext⟩, hrest⟩
      obtain ⟨hdigits, hvalue⟩ := (ih hnext).1 hrest
      exact ⟨⟨hdigit, hdigits⟩, hvalue⟩
    · rintro ⟨⟨hdigit, hdigits⟩, rfl, hlt⟩
      -- what the digits so far give is at most the whole, so the loop does not stop here
      have hnext := (le_valueFrom _ ds).trans_lt hlt
      exact ⟨⟨hdigit, hnext⟩, (ih hnext).2 ⟨hdigits, rfl, hlt⟩⟩

/-- A numeral can be read digit by digit, with a look at the value after each of them. Which digit it is
that makes the value too large does not show in the answer. -/
theorem read?_eq_accumulate (cs : List Char) :
    read? cs = if unsigned cs = [] then none else accumulate 0 (unsigned cs) := by
  refine Option.ext fun n => ?_
  rw [read?]
  by_cases hnil : unsigned cs = []
  · simp [hnil]
  · rw [if_neg hnil, accumulate_eq_some_iff (by decide), Option.ite_none_right_eq_some]
    constructor
    · rintro ⟨⟨-, hdigits, hlt⟩, hvalue⟩
      cases hvalue
      exact ⟨hdigits, rfl, hlt⟩
    · rintro ⟨hdigits, rfl, hlt⟩
      exact ⟨⟨hnil, hdigits, hlt⟩, rfl⟩

end Text.Numeral

/-! ### Records -/

namespace TraceRecord

variable {text : String} {pid vpn : Nat}

/-- The text spells two numbers: of the pieces between its blanks two are not empty, the first denotes
the one and the second the other number, and none of the numbers has more than 64 bits. -/
def Spells (text : String) (pid vpn : Nat) : Prop :=
  ∃ first second, (text.toList.splitOnP Text.isBlank).filter (· ≠ []) = [first, second] ∧
    (Text.Numeral.Denotes first pid ∧ pid < 2 ^ 64) ∧ Text.Numeral.Denotes second vpn ∧ vpn < 2 ^ 64

theorem numbers?_eq_some_iff : numbers? text.toList = some (pid, vpn) ↔ Spells text pid vpn := by
  simp only [Spells, ← Text.words_eq, ← Text.Numeral.read?_eq_some_iff]
  constructor
  · intro h
    -- with more or fewer than two words there is no answer
    unfold numbers? at h
    split at h
    · next first second hwords =>
      simp only [Option.bind_eq_bind, Option.bind_eq_some_iff, Option.pure_def, Option.some.injEq,
        Prod.mk.injEq] at h
      obtain ⟨_, hfirst, _, hsecond, rfl, rfl⟩ := h
      exact ⟨first, second, hwords, hfirst, hsecond⟩
    · cases h
  · rintro ⟨first, second, hwords, hfirst, hsecond⟩
    simp [numbers?, hwords, hfirst, hsecond]

theorem numbers?_eq_none_iff :
    numbers? text.toList = none ↔ ¬∃ pid vpn, Spells text pid vpn := by
  simp only [← numbers?_eq_some_iff, Option.eq_none_iff_forall_ne_some, Prod.forall, not_exists]

/-- **Reading a record.** A text that spells two numbers, the first of them positive, is the record of
these numbers. It is at fault for process zero if it spells zero and any number, and for its form if it
spells no two numbers; the error has the offset, and the text as it is. -/
theorem parse_spells (text : String) (offset : Nat) :
    (∀ pid vpn, parse text offset = .ok ⟨pid, vpn⟩ ↔ Spells text pid vpn ∧ pid ≠ 0) ∧
    (parse text offset = .error (.zeroPid offset) ↔ ∃ vpn, Spells text 0 vpn) ∧
    (parse text offset = .error (.malformedRecord offset text) ↔ ¬∃ pid vpn, Spells text pid vpn) := by
  rw [← numbers?_eq_none_iff]
  simp only [← numbers?_eq_some_iff]
  unfold parse
  -- no two numbers, then zero as the first of them, then a record
  split
  · next hnone => simp [hnone]
  · next vpn hzero => simp [hzero]
  · next pid vpn hpos hsome =>
    have hne : pid ≠ 0 := hpos
    simp [hsome, hne]

end TraceRecord

end DemandPaging
