import Allotment.Plan.Guard

/-!
# The order of quantities of one resource

* `a ≤ b` — as much or less of the same resource; on quantities of one resource it is a total order
  (`Quantity.le_of_not_lt`), and quantities of two resources are never related;
* `resource_raise`, `resource_lower`, `AxisPolicy.resource_clamp` — a bound of the other resource moves nothing;
* `AxisPolicy.resource_baseline` — what an axis moves from is an amount of its resource;
* `AxisPolicy.clamp_le`, `AxisPolicy.le_clamp` — a bound of the same resource is kept, the minimum unless the maximum
  is below it.
-/

namespace Allotment

namespace Quantity

/-- As much or less of the same resource. -/
def AtMost (a b : Quantity) : Prop :=
  a.resource = b.resource ∧ a.amount ≤ b.amount

instance : LE Quantity := ⟨AtMost⟩

instance (a b : Quantity) : Decidable (a ≤ b) :=
  inferInstanceAs (Decidable (_ ∧ _))

variable {a b c : Quantity}

theorem le_refl (a : Quantity) : a ≤ a :=
  ⟨rfl, Int64.le_refl _⟩

theorem le_trans (h : a ≤ b) (h' : b ≤ c) : a ≤ c :=
  ⟨h.1.trans h'.1, Int64.le_trans h.2 h'.2⟩

theorem le_of_not_lt (hr : a.resource = b.resource) (h : ¬ b < a) : a ≤ b :=
  ⟨hr, Int64.not_lt.1 fun hlt => h ⟨hr.symm, hlt⟩⟩

end Quantity

section Bounds

variable (q bound : Quantity)

@[simp] theorem resource_raise : (raise q bound).resource = q.resource := by
  unfold raise
  split
  · next h => exact h.1.symm
  · rfl

@[simp] theorem resource_lower : (lower q bound).resource = q.resource := by
  unfold lower
  split
  · next h => exact h.1
  · rfl

variable {q bound}

theorem le_raise (hr : bound.resource = q.resource) : bound ≤ raise q bound := by
  unfold raise
  split
  · exact Quantity.le_refl _
  · next h => exact Quantity.le_of_not_lt hr h

theorem lower_le (hr : q.resource = bound.resource) : lower q bound ≤ bound := by
  unfold lower
  split
  · exact Quantity.le_refl _
  · next h => exact Quantity.le_of_not_lt hr h

theorem le_lower {a : Quantity} (hq : a ≤ q) (hb : a ≤ bound) : a ≤ lower q bound := by
  unfold lower
  split
  · exact hb
  · exact hq

end Bounds

namespace AxisPolicy

variable {p : AxisPolicy} {q m : Quantity}

@[simp] theorem resource_clamp (p : AxisPolicy) (q : Quantity) : (p.clamp q).resource = q.resource := by
  unfold clamp
  cases p.minAllowed <;> cases p.maxAllowed <;> simp

theorem resource_baseline {a : Axis} {current : Option Quantity} (h : ∀ o, current = some o → o.resource = a.resource) :
    (baseline a current).resource = a.resource := by
  cases current with
  | none => rfl
  | some o => exact h o rfl

theorem clamp_le (h : p.maxAllowed = some m) (hr : m.resource = q.resource) : p.clamp q ≤ m := by
  unfold clamp
  rw [h]
  refine lower_le ?_
  cases p.minAllowed <;> simp [hr]

theorem le_clamp (h : p.minAllowed = some m) (hr : m.resource = q.resource)
    (hmax : ∀ n, p.maxAllowed = some n → m ≤ n) : m ≤ p.clamp q := by
  unfold clamp
  rw [h]
  cases hn : p.maxAllowed with
  | none => exact le_raise hr
  | some n => exact le_lower (le_raise hr) (hmax n hn)

end AxisPolicy

end Allotment
