import Allotment.Resource
/-!
# Quantities

A quantity is an amount of one resource: CPU in thousandths of a core, memory in bytes, both as 64-bit numbers.
It also keeps the family of suffixes in which it is written.

* `a < b` compares two amounts of one resource; amounts of two resources are never related.
* `Quantity.add?` is exact or gives nothing; `Quantity.scale` multiplies by a real ratio and cuts toward zero.
* `Quantity.memoryForCpu` is the amount of memory that goes with an amount of CPU.
-/

namespace Allotment

/-- The largest 64-bit amount. -/
def greatestAmount : Nat := Nat.pow 2 63 - 1

/-- An integer as a 64-bit amount, if it is one. -/
def amount? (n : Int) : Option Int64 :=
  if Int64.minValue.toInt ≤ n ∧ n ≤ Int64.maxValue.toInt then some (Int64.ofInt n) else none

/-- The 64-bit amount nearest to an integer. -/
def nearestAmount (n : Int) : Int64 :=
  if n < Int64.minValue.toInt then Int64.minValue
  else if Int64.maxValue.toInt < n then Int64.maxValue
  else Int64.ofInt n

/-- The suffixes of powers of 1000, or those of powers of 1024. -/
inductive SuffixFamily where
  | decimal
  | binary
  deriving DecidableEq, Repr

/-- An amount of a resource and the suffixes that it is written with. -/
structure Quantity where
  resource : Resource
  amount : Int64
  family : SuffixFamily
  deriving DecidableEq, Repr

namespace Quantity

/-- Nothing of a resource. -/
def zero (r : Resource) : Quantity :=
  ⟨r, 0, .decimal⟩

/-- The same resource and the same amount, however it is written. -/
def Same (a b : Quantity) : Prop :=
  a.resource = b.resource ∧ a.amount = b.amount

instance (a b : Quantity) : Decidable (Same a b) :=
  inferInstanceAs (Decidable (_ ∧ _))

/-- Less of the same resource. -/
def Less (a b : Quantity) : Prop :=
  a.resource = b.resource ∧ a.amount < b.amount

instance : LT Quantity := ⟨Less⟩

instance (a b : Quantity) : Decidable (a < b) :=
  inferInstanceAs (Decidable (_ ∧ _))

/-- The order of two amounts of one resource. -/
def order? (a b : Quantity) : Option Ordering :=
  if a.resource = b.resource then
    some (if a.amount < b.amount then .lt else if b.amount < a.amount then .gt else .eq)
  else none

/-- The exact sum of two amounts of one resource, written as the first is. -/
def add? (a b : Quantity) : Option Quantity :=
  if a.resource = b.resource then
    (amount? (a.amount.toInt + b.amount.toInt)).map fun n => { a with amount := n }
  else none

/-- The amount times a ratio, cut toward zero and held within 64 bits. -/
def scale (a : Quantity) (ratio : Float) : Quantity :=
  { a with amount := (a.amount.toFloat * ratio).toInt64 }

/-- Bytes of memory that go with a thousandth of a core. -/
def bytesPerMilli : Int := 1000000

/-- The amount of memory that goes with an amount of CPU. -/
def memoryForCpu (cpu : Quantity) : Quantity :=
  ⟨.memory, nearestAmount (cpu.amount.toInt * bytesPerMilli), .decimal⟩

/-! ### Laws -/

theorem lt_iff {a b : Quantity} : a < b ↔ a.resource = b.resource ∧ a.amount < b.amount :=
  Iff.rfl

theorem resource_add? {a b c : Quantity} (h : a.add? b = some c) :
    c.resource = a.resource ∧ c.family = a.family := by
  unfold add? at h
  split at h
  · obtain ⟨n, _, rfl⟩ := Option.map_eq_some_iff.1 h
    exact ⟨rfl, rfl⟩
  · cases h

@[simp] theorem resource_scale (a : Quantity) (ratio : Float) :
    (a.scale ratio).resource = a.resource := rfl

@[simp] theorem resource_memoryForCpu (cpu : Quantity) : cpu.memoryForCpu.resource = .memory := rfl

end Quantity

end Allotment
