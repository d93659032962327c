import Allotment.Text
/-!
# Decimal numerals

Whole numbers are written with ASCII digits alone.

* `Numeral.digits` writes a number, `Numeral.ofDigits` reads a run of digits; `ofDigits_digits` says that
  reading undoes writing.
* `Numeral.below?` reads a number under a limit, with an optional plus sign in front.
* `Numeral.int64?` reads a signed 64-bit number.
-/

namespace Allotment.Numeral

/-- The decimal digits of a number, without leading zeros. -/
def digits (n : Nat) : List Char :=
  Nat.toDigits 10 n

/-- The number that a run of digits spells; the empty run spells zero. -/
def ofDigits (cs : List Char) : Nat :=
  Nat.ofDigitChars 10 cs 0

/-- A run of one or more digits. -/
def isNumeral (cs : List Char) : Bool :=
  !cs.isEmpty && cs.all Char.isDigit

/-- A number less than `limit`, written as a run of digits with an optional plus sign. -/
def below? (limit : Nat) (cs : List Char) : Option Nat :=
  let ds := match cs with
    | '+' :: r => r
    | r => r
  if isNumeral ds && ofDigits ds < limit then some (ofDigits ds) else none

/-- A 64-bit number, written as a run of digits with an optional sign. -/
def int64? (cs : List Char) : Option Int64 :=
  let (negative, ds) := match cs with
    | '-' :: r => (true, r)
    | '+' :: r => (false, r)
    | r => (false, r)
  if !isNumeral ds then none
  else
    let n : Int := if negative then -(ofDigits ds : Int) else ofDigits ds
    if Int64.minValue.toInt ≤ n ∧ n ≤ Int64.maxValue.toInt then some (Int64.ofInt n) else none

/-- The text of an integer: a minus sign if it is negative, then its digits. -/
def ofInt (n : Int) : List Char :=
  if n < 0 then '-' :: digits n.natAbs else digits n.natAbs

/-! ### Laws -/

theorem ofDigits_digits (n : Nat) : ofDigits (digits n) = n :=
  Nat.ofDigitChars_toDigits (by decide) (by decide)

theorem isDigit_of_mem_digits {n : Nat} {c : Char} (h : c ∈ digits n) : c.isDigit = true :=
  Nat.isDigit_of_mem_toDigits (by decide) (by decide) h

theorem digits_ne_nil (n : Nat) : digits n ≠ [] :=
  List.ne_nil_of_length_pos Nat.length_toDigits_pos

end Allotment.Numeral
