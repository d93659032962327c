import Allotment.Json.Record
import Allotment.Policy.Options
import Allotment.Workload
/-!
# Words in documents

In a document a choice is written by its name, spelled exactly.

* `Named` is the class of types whose values are written by name; `decodeNamed` reads a name.
-/

namespace Allotment

/-- A type whose values have names. -/
class Named (α : Type) where
  name : α → String
  all : List α

/-- The value of a name in a document. -/
def decodeNamed {α : Type} [Named α] : Decoder α :=
  Json.asWord ((Named.all : List α).map fun a => (Named.name a, a))

/-- The name of a value in a document. -/
def encodeNamed {α : Type} [Named α] (a : α) : Json :=
  .string (Named.name a)

instance : Named Resource := ⟨Resource.name, Resource.all⟩

instance : Named Side := ⟨Side.name, Side.all⟩

instance : Named Axis := ⟨Axis.name, Axis.all⟩

instance : Named WorkloadKind := ⟨WorkloadKind.name, WorkloadKind.all⟩

instance : Named Method := ⟨Method.name, [.ratio, .margin]⟩

instance : Named ApplyMode := ⟨ApplyMode.name, [.enforce, .off]⟩

instance : Named ApplyTarget := ⟨ApplyTarget.name, [.frugal, .balanced, .peak, .auto]⟩

instance : Named Direction := ⟨Direction.name, [.both, .up, .down]⟩

instance : Named UnprovidedMode := ⟨UnprovidedMode.name, [.off, .minAllowed, .maxAllowed, .value]⟩

end Allotment
