import Allotment.Numeral
import Allotment.Quantity.Suffix
/-!
# The text of a quantity

An amount is written with the largest suffix of its family that divides it. CPU is written in whole cores when it
is a whole number of them, and in thousandths otherwise.

* `Quantity.magnitude` is the absolute value, held within the 64-bit amounts.
* `Quantity.text` is the canonical text; quantities with one text are one and the same to a plan.
-/

namespace Allotment

/-- A whole number with the first suffix that divides it, or with none. -/
def writeWhole (suffixes : List Suffix) (n : Nat) : List Char :=
  if n = 0 then ['0']
  else
    match suffixes.find? (fun s => n % s.size = 0) with
    | some s => Numeral.digits (n / s.size) ++ s.text
    | none => Numeral.digits n

namespace Quantity

/-- The absolute value of the amount, held within the 64-bit amounts. -/
def magnitude (q : Quantity) : Nat :=
  min q.amount.toInt.natAbs greatestAmount

/-- The text of the absolute value. -/
def writeMagnitude (q : Quantity) : List Char :=
  match q.resource, q.family with
  | .cpu, _ =>
    if q.magnitude % 1000 = 0 then writeWhole Suffix.decimals (q.magnitude / 1000)
    else Numeral.digits q.magnitude ++ Suffix.milli.text
  | .memory, .decimal => writeWhole Suffix.decimals q.magnitude
  | .memory, .binary => writeWhole Suffix.binaries q.magnitude

/-- The canonical text, as characters. -/
def chars (q : Quantity) : List Char :=
  if q.amount < 0 then '-' :: q.writeMagnitude else q.writeMagnitude

/-- The canonical text. -/
def text (q : Quantity) : String :=
  String.ofList q.chars

end Quantity

end Allotment
