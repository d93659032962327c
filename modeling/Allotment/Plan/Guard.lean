import Allotment.Plan.Candidates
/-!
# Guards

A proposal for an axis is first moved into the allowed range, and then has to pass four guards: it reaches the least
difference, it goes in the allowed direction, the axis may be written, and it is not what is there already.

* `AxisPolicy.clamp` moves a value into the allowed range; the maximum wins over the minimum.
* `AxisPolicy.accept?` gives the value that is to be committed, if any.
-/

namespace Allotment

namespace AxisPolicy

/-- A value moved up to the minimum, and then down to the maximum. -/
def clamp (p : AxisPolicy) (q : Quantity) : Quantity :=
  let raised := match p.minAllowed with
    | some floor => raise q floor
    | none => q
  match p.maxAllowed with
  | some ceiling => lower raised ceiling
  | none => raised

/-- What an axis moves from: what it has, or nothing. -/
def baseline (a : Axis) (current : Option Quantity) : Quantity :=
  current.getD (Quantity.zero a.resource)

/-- Whether a value falls short of the least difference. Without a literal there is none. -/
def FallsShort (p : AxisPolicy) (baseline value : Quantity) : Prop :=
  p.minDiff.isBlank = false ∧ value < p.minDiff.apply baseline

instance (p : AxisPolicy) (b v : Quantity) : Decidable (p.FallsShort b v) :=
  inferInstanceAs (Decidable (_ ∧ _))

/-- Whether a move goes in a direction that is not allowed. -/
def Blocks (d : Direction) (baseline value : Quantity) : Prop :=
  match d with
  | .both => False
  | .up => value < baseline
  | .down => baseline < value

instance (d : Direction) (b v : Quantity) : Decidable (Blocks d b v) := by
  cases d <;> unfold Blocks <;> infer_instance

/-- The value to commit for a proposal, if it passes all guards. -/
def accept? (p : AxisPolicy) (a : Axis) (current : Option Quantity) (proposed : Quantity) : Option Quantity :=
  let value := p.clamp proposed
  if p.FallsShort (baseline a current) value then none
  else if Blocks p.direction (baseline a current) value then none
  else if p.mode = .off then none
  else if current.map Quantity.text = some value.text then none
  else some value

end AxisPolicy

end Allotment
