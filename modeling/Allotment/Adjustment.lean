import Allotment.Decimal.Literal
import Allotment.Quantity.Reader
/-!
# Adjustments

An adjustment turns one quantity into another of the same resource: by a ratio, or by a margin that is added. Its
strength is a literal, kept as text.

* `Adjustment.apply` never fails: a blank literal, one that does not read, and a sum out of range leave the
  quantity as it is.
* `Adjustment.resource_apply` says that the resource stays the same.
-/

namespace Allotment

/-- How the literal of an adjustment is used. -/
inductive Method where
  | ratio
  | margin
  deriving DecidableEq, Repr

def Method.name : Method → String
  | ratio => "ratio"
  | margin => "margin"

/-- A method and the literal for it. -/
structure Adjustment where
  method : Method
  literal : String
  deriving DecidableEq, Repr

namespace Adjustment

/-- Whether the adjustment has no literal. -/
def isBlank (a : Adjustment) : Bool :=
  (Text.trim a.literal.toList).isEmpty

/-- The ratio that a literal spells, if it is a finite number. -/
def ratio? (literal : List Char) : Option Float :=
  (Decimal.readFloat? literal).filter Float.isFinite

/-- The quantity after the adjustment. -/
def apply (a : Adjustment) (current : Quantity) : Quantity :=
  let literal := Text.trim a.literal.toList
  if literal.isEmpty then current
  else
    match a.method with
    | .ratio =>
      match ratio? literal with
      | some r => current.scale r
      | none => current
    | .margin =>
      match Quantity.read current.resource (String.ofList literal) with
      | .ok margin => (current.add? margin).getD current
      | .error _ => current

theorem apply_of_isBlank {a : Adjustment} (h : a.isBlank = true) (q : Quantity) : a.apply q = q := by
  unfold isBlank at h
  simp [apply, h]

theorem resource_apply (a : Adjustment) (q : Quantity) : (a.apply q).resource = q.resource := by
  unfold apply
  simp only
  split
  · rfl
  · split
    · split <;> rfl
    · split
      · rename_i margin _
        cases h : q.add? margin with
        | none => rfl
        | some s => exact (Quantity.resource_add? h).1
      · rfl

end Adjustment

end Allotment
