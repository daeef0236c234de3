import DemandPaging.Text.Characters

/-!
# Words and quotations

A text is read as its words, and written as a quotation where a message has to show it. The words are the
stretches between blanks.

A quotation is a text between double quotes, in one line, with nothing in it that a reader could not see.
The quote and the backslash are marked by a backslash; null, tab, line feed and carriage return have
letters; every other character without a picture of its own is given by its code point in hexadecimal.
-/

namespace DemandPaging.Text

/-! ### Words -/

/-- The text without the blanks at its ends. -/
def trim (cs : List Char) : List Char :=
  ((cs.dropWhile isBlank).reverse.dropWhile isBlank).reverse

/-- The words of a text: its longest stretches without a blank. Blanks at the ends and several
in a row make no empty words. -/
def words (cs : List Char) : List (List Char) :=
  go [] cs
where
  /-- The words of a text that goes on from the letters in `word`, the latest first. -/
  go (word : List Char) : List Char → List (List Char)
    | [] => close word []
    | c :: rest => if isBlank c then close word (go [] rest) else go (c :: word) rest
  /-- Puts the word that has been read, if it has letters, in front of the others. -/
  close (word : List Char) (others : List (List Char)) : List (List Char) :=
    if word.isEmpty then others else word.reverse :: others

/-! ### Quotations -/

/-- The code point of a character in lower-case hexadecimal, marked as such. -/
def codePoint (c : Char) : List Char :=
  ['\\', 'u', '\x7b'] ++ Nat.toDigits 16 c.toNat ++ ['\x7d']

/-- One character as it stands in a quotation. Characters that would not be seen, or would be
drawn onto the one before them, are given by their code points. -/
def quotedChar (c : Char) : List Char :=
  if c = '\x00' then ['\\', '0']
  else if c = '\t' then ['\\', 't']
  else if c = '\r' then ['\\', 'r']
  else if c = '\n' then ['\\', 'n']
  else if c = '\"' ∨ c = '\\' then ['\\', c]
  else if isExtending c || isIgnorable c || !isPrintable c then codePoint c
  else [c]

/-- A text in double quotes. -/
def quote (text : String) : String :=
  .ofList ('\"' :: text.toList.flatMap quotedChar ++ ['\"'])

end DemandPaging.Text
