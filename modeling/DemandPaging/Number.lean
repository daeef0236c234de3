/-!
# Numbers, read and written

Natural numbers come in as numerals and go out as decimals. A numeral is an optional plus sign and one or
more decimal digits (`Text.Numeral.read?`). Leading zeros are allowed in any number; a value of more than
64 bits is not.

`Decimal.divRoundEven` divides natural numbers and rounds to the nearest, a half to the even
neighbour. On it rest both directions of the exchange between natural numbers and 64-bit floating
point: `Decimal.nearest` is the floating-point number nearest to a natural number, and
`Decimal.fixed` writes a floating-point number with a fixed number of decimal places. The exact value
of the number is rounded, once.
-/

/-! ### Powers

Counters and offsets are bounded by powers of two. On natural numbers `2 ^ n` is always the power that
comes with the language, also where a library that has powers of its own is imported. -/

namespace DemandPaging

@[default_instance 100000]
instance (priority := 2000) naturalPow : Pow Nat Nat := instPowNat

end DemandPaging

/-! ### Numerals -/

namespace DemandPaging.Text.Numeral

/-- The value of a list of decimal digits, the highest first. -/
def value (digits : List Char) : Nat :=
  digits.foldl (fun n d => 10 * n + (d.toNat - '0'.toNat)) 0

/-- The numeral without its sign. One plus sign is taken off, and what follows must be digits.
-/
def unsigned : List Char → List Char
  | '+' :: digits => digits
  | cs => cs

/-- Reads a numeral. It must have a digit, and nothing but digits after its sign; the value must
fit into 64 bits. -/
def read? (cs : List Char) : Option Nat :=
  let digits := unsigned cs
  if digits ≠ [] ∧ digits.all Char.isDigit ∧ value digits < 2 ^ 64 then some (value digits) else none

end DemandPaging.Text.Numeral

/-! ### Rounding -/

namespace DemandPaging.Decimal

/-- The quotient rounded to the nearest natural number, a half to the even one. Floating-point
numbers are rounded in the same way, which is what makes a single division enough here. -/
def divRoundEven (num den : Nat) : Nat :=
  let quotient := num / den
  let rest := num % den
  if 2 * rest < den then quotient
  else if den < 2 * rest then quotient + 1
  else quotient + quotient % 2

/-- The rounded quotient is within half a unit of the exact one. -/
theorem divRoundEven_near {num den : Nat} (h : 0 < den) :
    2 * (divRoundEven num den * den) ≤ 2 * num + den ∧
      2 * num ≤ 2 * (divRoundEven num den * den) + den := by
  have hd := Nat.div_add_mod num den
  have hr := Nat.mod_lt num h
  have hm : den * (num / den) = num / den * den := Nat.mul_comm ..
  simp only [divRoundEven]
  split
  -- the rest is less than a half
  · omega
  · split
    -- more than a half
    · rw [Nat.add_mul]; omega
    -- a half
    · rcases Nat.mod_two_eq_zero_or_one (num / den) with h2 | h2 <;> rw [h2, Nat.add_mul] <;> omega

/-! ### From natural numbers -/

/-- The bits of the floating-point number nearest to a natural number. Rounding up to the next power
of two carries into the exponent, which stands directly above the fraction. -/
def nearestBits (n : Nat) : Nat :=
  if n = 0 then 0
  else
    let exponent := n.log2
    let significand :=
      if exponent ≤ 52 then n <<< (52 - exponent) else divRoundEven n (2 ^ (exponent - 52))
    (exponent + 1023) * 2 ^ 52 + (significand - 2 ^ 52)

/-- The floating-point number nearest to a natural number of up to a thousand bits. -/
def nearest (n : Nat) : Float :=
  .ofBits (.ofNat (nearestBits n))

/-! ### To decimals -/

/-- A natural number with a point in front of its last `places` digits. -/
def pointed (places n : Nat) : String :=
  let fraction := toString (n % 10 ^ places)
  let zeros := String.ofList (.replicate (places - fraction.length) '0')
  s!"{n / 10 ^ places}.{zeros}{fraction}"

/-- A floating-point number, given by its bits, to the given number of decimal places. -/
def fixedOfBits (places bits : Nat) : String :=
  let sign := if bits / 2 ^ 63 % 2 = 1 then "-" else ""
  let exponent := bits / 2 ^ 52 % 2 ^ 11
  let fraction := bits % 2 ^ 52
  if exponent = 2047 then
    if fraction = 0 then s!"{sign}inf" else "NaN"
  else
    -- Numbers below the normal ones have no leading bit, and the least exponent.
    let significand := if exponent = 0 then fraction else 2 ^ 52 + fraction
    let scaled := significand * 2 ^ (max exponent 1) * 10 ^ places
    sign ++ pointed places (divRoundEven scaled (2 ^ 1075))

/-- A floating-point number to the given number of decimal places. -/
def fixed (places : Nat) (x : Float) : String :=
  fixedOfBits places x.toBits.toNat

end DemandPaging.Decimal
