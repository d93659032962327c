import Allotment.Controller.Backend
import Allotment.Inventory
/-!
# An inventory at work

* `Inventory.backend` serves a controller from an inventory in memory, which is both its store and its source.
-/

namespace Allotment.Inventory

/-- A read, which changes nothing. -/
def reading {α : Type} (f : Inventory → Except InventoryError α) : Call Inventory α := fun i =>
  ((f i).mapError InventoryError.message, i)

/-- A write, which changes nothing when it fails. -/
def writing (t : Target) (cs : List Container) : Call Inventory Unit := fun i =>
  match i.write t cs with
  | .ok written => (.ok (), written)
  | .error e => (.error e.message, i)

/-- The calls of a controller to an inventory. No time passes in them. -/
def backend : Backend Inventory where
  policy t := reading fun i => i.policy t
  containers t := reading fun i => i.containers t
  write := writing
  recommendations t := reading fun i => i.recommendations t
  bounds t := reading fun i => i.bounds t
  status t := reading fun i => i.status t
  elapsed _ := 0

end Allotment.Inventory
