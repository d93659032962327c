import Allotment.Numeral
/-!
# The shortest decimal that reads back

A double is written with the fewest digits that still denote it, and of two such decimals with the one nearer to
it; a tie goes up. There is no exponent: small and large numbers are filled up with zeros.

* `Interval.ofBits` gives the reals that round to a double, as fractions over one denominator.
* `Interval.shortest` finds the digits on the first grid of decimals that meets the interval.
* `floatText` is the text.
-/

namespace Allotment.Decimal

/-- A positive double and the ends of the interval that rounds to it, over a common denominator. -/
structure Interval where
  low : Nat
  value : Nat
  high : Nat
  denominator : Nat
  /-- Whether the ends themselves round to the double. -/
  closed : Bool
  deriving Repr

/-- The interval of the positive double with the given exponent and fraction fields. -/
def Interval.ofFields (exponent fraction : Nat) : Interval :=
  let significand := if exponent = 0 then fraction else Nat.pow 2 52 + fraction
  let power : Int := (if exponent = 0 then 1 else exponent : Nat) - 1077
  -- below a power of two the neighbour is half as far away
  let below := if fraction = 0 ∧ 1 < exponent then 1 else 2
  let scale := Nat.pow 2 power.toNat
  { low := (4 * significand - below) * scale
    value := 4 * significand * scale
    high := (4 * significand + 2) * scale
    denominator := Nat.pow 2 (-power).toNat
    closed := significand % 2 = 0 }

/-- Whether a fraction lies in the interval. -/
def Interval.holds (i : Interval) (n d : Nat) : Bool :=
  if i.closed then i.low * d ≤ n * i.denominator && n * i.denominator ≤ i.high * d
  else i.low * d < n * i.denominator && n * i.denominator < i.high * d

/-- The zeros between the point and the first digit of `n / d`, a fraction less than one, counted up to `fuel`. -/
def leadingZeros (d : Nat) : (fuel : Nat) → (n : Nat) → Nat
  | 0, _ => 0
  | fuel + 1, n => if d ≤ 10 * n then 0 else leadingZeros d fuel (10 * n) + 1

/-- The digits in front of the point, or less than zero by the zeros behind it. -/
def Interval.places (i : Interval) : Int :=
  let whole := i.value / i.denominator
  if whole ≠ 0 then (Numeral.digits whole).length
  else -(leadingZeros i.denominator 400 i.value : Int)

/-- The decimal of a grid, as the number of its steps, that denotes the double, if the grid has one. -/
def Interval.onGrid? (i : Interval) (step : Int) : Option Nat :=
  -- one step is `up / down`
  let up := Nat.pow 10 step.toNat
  let down := Nat.pow 10 (-step).toNat
  let floor := i.value * down / (i.denominator * up)
  let holdsFloor := i.holds (floor * up) down
  let holdsNext := i.holds ((floor + 1) * up) down
  -- twice the distance from the lower neighbour, against one step
  let doubled := 2 * (i.value * down - floor * up * i.denominator)
  if holdsFloor && holdsNext then
    some (if doubled < up * i.denominator then floor else floor + 1)
  else if holdsFloor then some floor
  else if holdsNext then some (floor + 1)
  else none

/-- The first decimal that denotes the double, on the grids of `count` digits and more, `fuel` of them. -/
def Interval.search (i : Interval) : (fuel count : Nat) → Nat × Int
  | 0, _ => (0, 0)
  | fuel + 1, count =>
    match i.onGrid? (i.places - count) with
    | some n => (n, i.places - count)
    | none => i.search fuel (count + 1)

/-- The shortest digits that denote the double, and the power of ten of the last one. Seventeen always do. -/
def Interval.shortest (i : Interval) : Nat × Int :=
  i.search 17 1

/-- Digits times a power of ten, without an exponent. -/
def positional (n : Nat) (step : Int) : List Char :=
  let ds := Numeral.digits n
  if 0 ≤ step then ds ++ List.replicate step.toNat '0'
  else
    let behind := step.natAbs
    let padded := List.replicate (behind + 1 - ds.length) '0' ++ ds
    let whole := padded.take (padded.length - behind)
    let fraction := (padded.drop (padded.length - behind)).reverse.dropWhile (· = '0')
    if fraction.isEmpty then whole else whole ++ '.' :: fraction.reverse

/-- The text of a double. -/
def floatText (x : Float) : List Char :=
  let bits := x.toBits.toNat
  let exponent := bits / Nat.pow 2 52 % Nat.pow 2 11
  let fraction := bits % Nat.pow 2 52
  let sign := if Nat.pow 2 63 ≤ bits then ['-'] else []
  if exponent = 2047 then if fraction = 0 then sign ++ "inf".toList else "NaN".toList
  else if exponent = 0 ∧ fraction = 0 then sign ++ ['0']
  else
    let (n, step) := (Interval.ofFields exponent fraction).shortest
    sign ++ positional n step

end Allotment.Decimal
