import Allotment.Dict
import Allotment.Policy.Cascade
import Allotment.Recommendation
import Allotment.Workload
/-!
# Inventories

An inventory keeps managed workloads in memory, under the keys of their targets. It serves both as the store of
workloads and as the source of recommendations.

* `Inventory.ofList` lets the last workload of a key stay.
* `Inventory.targets` lists the targets in increasing order of their keys.
* Reads and `Inventory.write` find a workload by the key alone; a key that is not there is an `InventoryError`.
-/

namespace Allotment

/-- A managed workload with all that is known about it. -/
structure ManagedWorkload where
  target : Target
  annotations : Annotations
  containers : List Container
  /-- There are none before the recommender has produced a status. -/
  recommendations : Option (List Recommendation)
  bounds : List Bound

/-- Managed workloads under their keys. -/
structure Inventory where
  workloads : Dict ManagedWorkload

/-- A target is not in the inventory. -/
structure InventoryError where
  target : Target
  deriving DecidableEq, Repr

def InventoryError.message (e : InventoryError) : String :=
  s!"{e.target.text} not found in inventory"

namespace Inventory

/-- The inventory of a list of workloads. -/
def ofList (ws : List ManagedWorkload) : Inventory :=
  ⟨Dict.ofPairs (ws.map fun w => (w.target.key, w))⟩

/-- The targets, in increasing order of their keys. -/
def targets (i : Inventory) : List Target :=
  i.workloads.values.map ManagedWorkload.target

/-- Reads something of a workload. -/
def read {α : Type} (i : Inventory) (t : Target) (f : ManagedWorkload → α) : Except InventoryError α :=
  match i.workloads.get? t.key with
  | some w => .ok (f w)
  | none => .error ⟨t⟩

def policy (i : Inventory) (t : Target) : Except InventoryError Annotations :=
  i.read t ManagedWorkload.annotations

def containers (i : Inventory) (t : Target) : Except InventoryError (List Container) :=
  i.read t ManagedWorkload.containers

def recommendations (i : Inventory) (t : Target) : Except InventoryError (Option (List Recommendation)) :=
  i.read t ManagedWorkload.recommendations

def bounds (i : Inventory) (t : Target) : Except InventoryError (List Bound) :=
  i.read t ManagedWorkload.bounds

/-- Recommendations and bounds in one read. -/
def status (i : Inventory) (t : Target) : Except InventoryError Status :=
  i.read t fun w => ⟨w.recommendations, w.bounds⟩

/-- Puts containers in the place of those that a workload has. -/
def write (i : Inventory) (t : Target) (cs : List Container) : Except InventoryError Inventory :=
  match i.workloads.get? t.key with
  | some w => .ok ⟨i.workloads.insert t.key { w with containers := cs }⟩
  | none => .error ⟨t⟩

/-! ### Laws -/

section Laws

variable {α : Type} {i : Inventory} {t : Target} {w : ManagedWorkload}

theorem read_of_known (h : i.workloads.get? t.key = some w) (f : ManagedWorkload → α) : i.read t f = .ok (f w) := by
  rw [read, h]

theorem read_of_unknown (h : i.workloads.get? t.key = none) (f : ManagedWorkload → α) : i.read t f = .error ⟨t⟩ := by
  rw [read, h]

theorem write_of_known (h : i.workloads.get? t.key = some w) (cs : List Container) :
    i.write t cs = .ok ⟨i.workloads.insert t.key { w with containers := cs }⟩ := by
  rw [write, h]

theorem write_of_unknown (h : i.workloads.get? t.key = none) (cs : List Container) : i.write t cs = .error ⟨t⟩ := by
  rw [write, h]

end Laws

/-- What is read of a workload after a write: its containers may be new, all else is as it was. -/
theorem get?_write {i j : Inventory} {t : Target} {cs : List Container} (h : i.write t cs = .ok j) (key : String) :
    j.workloads.get? key =
      (i.workloads.get? key).map fun w => if key = t.key then { w with containers := cs } else w := by
  cases hw : i.workloads.get? t.key with
  | none => exact absurd ((write_of_unknown hw cs).symm.trans h) (by simp)
  | some w =>
    obtain rfl := Except.ok.inj ((write_of_known hw cs).symm.trans h)
    rw [Dict.get?_insert]
    by_cases hk : key = t.key
    · simp [hk, hw]
    · simp [hk]

theorem containers_write {i j : Inventory} {t : Target} {cs : List Container} (h : i.write t cs = .ok j) (u : Target) :
    j.containers u = if u.key = t.key then .ok cs else i.containers u := by
  have hg := get?_write h u.key
  by_cases hk : u.key = t.key
  · cases hw : i.workloads.get? t.key with
    | none => exact absurd ((write_of_unknown hw cs).symm.trans h) (by simp)
    | some w =>
      rw [hk, hw] at hg
      simp [containers, read, hk, hg]
  · simp only [hk, if_false, Option.map_id_fun'] at hg
    simp [containers, read, hk, hg]

end Inventory

end Allotment
