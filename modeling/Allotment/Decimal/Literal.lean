import Allotment.Numeral
/-!
# Decimal literals of real numbers

A literal is an optional sign, digits with at most one point and at least one digit, and an optional exponent of
ten; or, in any case of letters, `inf`, `infinity` or `nan`. It denotes the double nearest to it.

* `Literal.read?` reads a literal into its exact parts.
* `Literal.toFloat` is the nearest double; `readFloat?` does both.
-/

namespace Allotment.Decimal

/-- The parts of a real number literal. -/
inductive Literal where
  | finite (negative : Bool) (digits : Nat) (exponent : Int)
  | infinite (negative : Bool)
  | nan
  deriving DecidableEq, Repr

/-- The digits and the exponent of a number without sign, as the integer of all digits and a power of ten. -/
def readMantissa? (cs : List Char) : Option (Nat × Int × List Char) :=
  let whole := cs.takeWhile Char.isDigit
  let rest := cs.dropWhile Char.isDigit
  let (fraction, rest) := match rest with
    | '.' :: r => (r.takeWhile Char.isDigit, r.dropWhile Char.isDigit)
    | r => ([], r)
  if whole.isEmpty && fraction.isEmpty then none
  else some (Numeral.ofDigits (whole ++ fraction), -(fraction.length : Int), rest)

/-- The power of ten behind the mark `e` or `E`; nothing at all stands for the power zero. -/
def readExponent? : List Char → Option Int
  | [] => some 0
  | e :: cs =>
    if e = 'e' ∨ e = 'E' then
      let (negative, ds) := match cs with
        | '-' :: r => (true, r)
        | '+' :: r => (false, r)
        | r => (false, r)
      if Numeral.isNumeral ds then
        some (if negative then -(Numeral.ofDigits ds : Int) else Numeral.ofDigits ds)
      else none
    else none

/-- The literal that a text spells. -/
def Literal.read? (cs : List Char) : Option Literal :=
  let (negative, body) := match cs with
    | '-' :: r => (true, r)
    | '+' :: r => (false, r)
    | r => (false, r)
  let word := Text.lower body
  if word = "inf".toList ∨ word = "infinity".toList then some (.infinite negative)
  else if word = "nan".toList then some .nan
  else
    match readMantissa? body with
    | none => none
    | some (digits, shift, rest) =>
      (readExponent? rest).map fun exponent => .finite negative digits (exponent + shift)

/-- Powers of ten from which on a number is infinite or nothing, whatever its digits are. -/
def decimalReach : Int := 400

/-- The double nearest to digits times a power of ten. -/
def nearestFloat (digits : Nat) (exponent : Int) : Float :=
  let top : Int := (Numeral.digits digits).length + exponent
  if digits = 0 ∨ top < -decimalReach then 0.0
  else if decimalReach < top then 1.0 / 0.0
  else Float.ofScientific digits (exponent < 0) exponent.natAbs

/-- The double nearest to a literal. -/
def Literal.toFloat : Literal → Float
  | .finite false digits exponent => nearestFloat digits exponent
  | .finite true digits exponent => -nearestFloat digits exponent
  | .infinite false => 1.0 / 0.0
  | .infinite true => -(1.0 / 0.0)
  | .nan => 0.0 / 0.0

/-- The double that a text spells. -/
def readFloat? (cs : List Char) : Option Float :=
  (Literal.read? cs).map Literal.toFloat

end Allotment.Decimal
