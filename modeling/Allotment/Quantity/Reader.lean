import Allotment.Numeral
import Allotment.Quantity.Suffix
/-!
# Reading quantities

A quantity is written as an optional sign, a decimal number with at most one point, and a suffix; blanks around it
do not count. A part of the smallest unit counts as a whole one.

* `Quantity.read` reads an amount of a given resource.
* `QuantityError` lists what can be wrong with a text. The faults are looked for in the order of the list: a text
  with a bad number and an unknown suffix has a bad number.
* Numbers on the way to the result stay under 128 bits; what does not is out of range.
-/

namespace Allotment

/-- What is wrong with the text of a quantity. -/
inductive QuantityError where
  | empty
  | invalid (input : String)
  | unknownSuffix (input suffix : String)
  | outOfRange (input : String)
  deriving DecidableEq, Repr

def QuantityError.message : QuantityError → String
  | empty => "empty quantity"
  | invalid input => s!"invalid quantity '{input}'"
  | unknownSuffix input suffix => s!"unknown suffix '{suffix}' in quantity '{input}'"
  | outOfRange input => s!"quantity '{input}' is out of range"

namespace Quantity

/-- The bound under which every number on the way to an amount has to stay. -/
def wideLimit : Nat := Nat.pow 2 127

/-- The largest power of ten under the bound. -/
def wideExponent : Nat := 38

/-- The sign in front, and the text after it; a text without a sign is not negative. -/
def takeSign : List Char → Bool × List Char
  | '-' :: cs => (true, cs)
  | '+' :: cs => (false, cs)
  | cs => (false, cs)

/-- A digit or a point. -/
def isNumberChar (c : Char) : Bool :=
  c.isDigit || c = '.'

/-- The digits before and after the point. There is at least one digit and at most one point. -/
def splitPoint? (number : List Char) : Option (List Char × List Char) :=
  let whole := number.takeWhile (· ≠ '.')
  let fraction := (number.dropWhile (· ≠ '.')).tail
  if (whole.isEmpty && fraction.isEmpty) || fraction.contains '.' then none
  else some (whole, fraction)

/-- The quotient, rounded up. -/
def ceilDiv (n d : Nat) : Nat :=
  n / d + if n % d = 0 then 0 else 1

/-- A number times a power of ten, rounded up, as long as nothing reaches the bound. -/
def shiftTen? (n : Nat) (exponent : Int) : Option Nat :=
  if exponent < 0 then
    if exponent.natAbs ≤ wideExponent then some (ceilDiv n (Nat.pow 10 exponent.natAbs)) else none
  else if exponent.natAbs ≤ wideExponent ∧ n * Nat.pow 10 exponent.natAbs < wideLimit then
    some (n * Nat.pow 10 exponent.natAbs)
  else none

/-- The power of ten that the last written digit counts. -/
def lastExponent (r : Resource) (s : Suffix) (fraction : List Char) : Int :=
  s.exponent + (if r = .cpu then 3 else 0) - fraction.length

/-- The amount without its sign. -/
def magnitude? (r : Resource) (s : Suffix) (whole fraction : List Char) : Option Nat :=
  let n := Numeral.ofDigits (whole ++ fraction)
  if n < wideLimit ∧ n * s.factor < wideLimit then
    (shiftTen? (n * s.factor) (lastExponent r s fraction)).filter fun m => m ≤ greatestAmount
  else none

/-- The quantity that a text spells, as an amount of the given resource. -/
def read (r : Resource) (input : String) : Except QuantityError Quantity :=
  let cs := Text.trim input.toList
  if cs.isEmpty then .error .empty
  else
    let (negative, rest) := takeSign cs
    let number := rest.takeWhile isNumberChar
    let suffix := rest.dropWhile isNumberChar
    match splitPoint? number with
    | none => .error (.invalid input)
    | some (whole, fraction) =>
      match Suffix.read? suffix with
      | none => .error (.unknownSuffix input (String.ofList suffix))
      | some s =>
        match magnitude? r s whole fraction with
        | none => .error (.outOfRange input)
        | some m => .ok ⟨r, Int64.ofInt (if negative then -(m : Int) else m), s.family⟩

theorem resource_read {r : Resource} {input : String} {q : Quantity} (h : read r input = .ok q) :
    q.resource = r := by
  unfold read at h
  simp only at h
  split at h
  · cases h
  · split at h
    · cases h
    · split at h
      · cases h
      · split at h <;> cases h
        rfl

end Quantity

end Allotment
