import Allotment.Proofs.Encoding.RoundTrip

/-!
# Decoding undoes encoding

Two records are the same if they have the same name and the same fields set, and each quantity is as much of the same
resource.  The suffixes that a quantity is written with do not count.

* `Quantity.Legible` — a quantity in its place whose text tells the whole amount; `Container.Legible`,
  `Recommendation.Legible`, `Bound.Legible` from it;
* `Container.Same`, `Recommendation.Same`, `Bound.Same` — the same records;
* `decoding_undoes_encoding` — the document of a legible record decodes to the same record.
-/

namespace Allotment

/-! ### Quantities -/

/-- What stands in the place of a resource is an amount of it, if anything, and not the least amount there is, which has
the text of the next one. -/
def Quantity.Legible (r : Resource) (o : Option Quantity) : Prop :=
  ∀ q, o = some q → q.resource = r ∧ q.amount ≠ Int64.minValue

theorem Quantity.Legible.same_reread {r : Resource} {o : Option Quantity} (h : Legible r o) :
    Option.Rel Same (o.map reread) o := by
  cases o with
  | none => exact .none
  | some q => exact .some ⟨rfl, amount_reread (h q rfl).2⟩

/-! ### Records -/

/-- The same fields are set, to as much. -/
def Estimate.Same (e f : Estimate) : Prop :=
  ∀ r, Option.Rel Quantity.Same (PerResource.get e r) (PerResource.get f r)

def Estimate.Legible (e : Estimate) : Prop :=
  ∀ r, Quantity.Legible r (PerResource.get e r)

theorem Estimate.Legible.typed {e : Estimate} (h : e.Legible) : PerResource.Typed e := fun r q hq => (h r q hq).1

theorem Estimate.Legible.same_reread {e : Estimate} (h : e.Legible) : e.reread.Same e := by
  intro r
  rw [get_reread]
  exact (h r).same_reread

namespace Container

structure Same (c d : Container) : Prop where
  name : c.name = d.name
  resources : ∀ a, Option.Rel Quantity.Same (c.get a) (d.get a)

def Legible (c : Container) : Prop :=
  ∀ a : Axis, Quantity.Legible a.resource (c.get a)

theorem Legible.decodes {c : Container} (h : c.Legible) : ∃ d, ofJson (toJson c) = .ok d ∧ d.Same c := by
  have htyped : c.Typed := fun a q hq => (h a q hq).1
  refine ⟨c.reread, ofJson_toJson htyped, c.name_reread, fun a => ?_⟩
  rw [get_reread]
  exact (h a).same_reread

end Container

namespace Recommendation

structure Same (rec rec' : Recommendation) : Prop where
  container : rec.container = rec'.container
  lower : rec.lower.Same rec'.lower
  target : rec.target.Same rec'.target
  upper : rec.upper.Same rec'.upper

structure Legible (rec : Recommendation) : Prop where
  lower : rec.lower.Legible
  target : rec.target.Legible
  upper : rec.upper.Legible

theorem Legible.decodes {rec : Recommendation} (h : rec.Legible) :
    ∃ rec', ofJson (toJson rec) = .ok rec' ∧ rec'.Same rec :=
  ⟨rec.reread, ofJson_toJson ⟨h.lower.typed, h.target.typed, h.upper.typed⟩,
    rfl, h.lower.same_reread, h.target.same_reread, h.upper.same_reread⟩

end Recommendation

namespace Bound

structure Same (b b' : Bound) : Prop where
  container : b.container = b'.container
  least : b.least.Same b'.least
  most : b.most.Same b'.most

structure Legible (b : Bound) : Prop where
  least : b.least.Legible
  most : b.most.Legible

theorem Legible.decodes {b : Bound} (h : b.Legible) : ∃ b', ofJson (toJson b) = .ok b' ∧ b'.Same b :=
  ⟨b.reread, ofJson_toJson ⟨h.least.typed, h.most.typed⟩, rfl, h.least.same_reread, h.most.same_reread⟩

end Bound

/-- **Decoding undoes encoding.**  Whatever its name and whichever of its fields are set, the document of a container, a
recommendation or a bound decodes to the same, if every quantity is an amount of the resource of its place and not the
least amount there is. -/
theorem decoding_undoes_encoding :
    (∀ c : Container, c.Legible → ∃ d, Container.ofJson c.toJson = .ok d ∧ d.Same c) ∧
    (∀ rec : Recommendation, rec.Legible → ∃ rec', Recommendation.ofJson rec.toJson = .ok rec' ∧ rec'.Same rec) ∧
    (∀ b : Bound, b.Legible → ∃ b', Bound.ofJson b.toJson = .ok b' ∧ b'.Same b) :=
  ⟨fun _ h => h.decodes, fun _ h => h.decodes, fun _ h => h.decodes⟩

/-- A container that has CPU on one side and less than no memory on the other. -/
def lopsided : Container :=
  ⟨"web \"1\"", ⟨⟨some ⟨.cpu, 1500, .binary⟩, none⟩, ⟨none, some ⟨.memory, -2048, .decimal⟩⟩⟩⟩

/-- A recommendation without a name, one of whose estimates is empty. -/
def halfEstimated : Recommendation :=
  ⟨"", ⟨some ⟨.cpu, 250, .decimal⟩, some ⟨.memory, 1000000, .binary⟩⟩, Estimate.empty, ⟨none, some ⟨.memory, 0, .decimal⟩⟩⟩

/-- A bound with the greatest amount of memory there is. -/
def widestBound : Bound :=
  ⟨Bound.wildcard, ⟨some ⟨.cpu, 10, .decimal⟩, none⟩, ⟨none, some ⟨.memory, Int64.maxValue, .binary⟩⟩⟩

theorem decoding_undoes_encoding_lopsided :
    (lopsided.Legible ∧ ∃ d, Container.ofJson lopsided.toJson = .ok d ∧ d.Same lopsided) ∧
    (halfEstimated.Legible ∧ ∃ rec', Recommendation.ofJson halfEstimated.toJson = .ok rec' ∧ rec'.Same halfEstimated) ∧
    (widestBound.Legible ∧ ∃ b', Bound.ofJson widestBound.toJson = .ok b' ∧ b'.Same widestBound) := by
  have hlopsided : lopsided.Legible := by
    rintro ⟨r, s⟩ q hq
    cases r <;> cases s <;> cases hq <;> decide
  have hestimated : halfEstimated.Legible := by
    constructor
    all_goals
      intro r q hq
      cases r <;> cases hq <;> decide
  have hbound : widestBound.Legible := by
    constructor
    all_goals
      intro r q hq
      cases r <;> cases hq
      decide
  obtain ⟨hcontainers, hrecommendations, hbounds⟩ := decoding_undoes_encoding
  exact ⟨⟨hlopsided, hcontainers _ hlopsided⟩, ⟨hestimated, hrecommendations _ hestimated⟩, ⟨hbound, hbounds _ hbound⟩⟩

end Allotment
