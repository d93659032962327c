import Allotment.Json.Record
import Allotment.Recommendation
import Allotment.Workload
/-!
# Workloads and recommendations as documents

* `Container`, `Target`, `Recommendation`, `Bound` and their parts have a `toJson` and an `ofJson`.
* A quantity is written by its canonical text and left out when there is none. Its resource is known from its place.
-/

namespace Allotment

/-- A member for a quantity, unless there is none. -/
def quantityMember (name : String) (q : Option Quantity) : List (String × Json) :=
  match q with
  | some q => [(name, .string q.text)]
  | none => []

namespace Allotments

def toJson (a : Allotments) : Json :=
  .record (quantityMember "cpu_request" a.cpu.request ++ quantityMember "cpu_limit" a.cpu.limit ++
    quantityMember "memory_request" a.memory.request ++ quantityMember "memory_limit" a.memory.limit)

def checks : FieldChecks :=
  [fieldCheck "cpu_request" (Json.asQuantity? .cpu), fieldCheck "cpu_limit" (Json.asQuantity? .cpu),
    fieldCheck "memory_request" (Json.asQuantity? .memory), fieldCheck "memory_limit" (Json.asQuantity? .memory)]

def ofJson : Decoder Allotments := fun j => do
  let m ← j.fields checks
  let cpuRequest ← m.optional "cpu_request" (Json.asQuantity? .cpu) none
  let cpuLimit ← m.optional "cpu_limit" (Json.asQuantity? .cpu) none
  let memoryRequest ← m.optional "memory_request" (Json.asQuantity? .memory) none
  let memoryLimit ← m.optional "memory_limit" (Json.asQuantity? .memory) none
  return ⟨⟨cpuRequest, cpuLimit⟩, ⟨memoryRequest, memoryLimit⟩⟩

end Allotments

namespace Container

def toJson (c : Container) : Json :=
  .record [("name", .string c.name), ("resources", Allotments.toJson c.resources)]

def checks : FieldChecks :=
  [fieldCheck "name" Json.asText, fieldCheck "resources" Allotments.ofJson]

def ofJson : Decoder Container := fun j => do
  let m ← j.fields checks
  let name ← m.required "name" Json.asText
  let resources ← m.optional "resources" Allotments.ofJson Allotments.empty
  return ⟨name, resources⟩

end Container

namespace Estimate

def toJson (e : Estimate) : Json :=
  .record (quantityMember "cpu" e.cpu ++ quantityMember "memory" e.memory)

def checks : FieldChecks :=
  [fieldCheck "cpu" (Json.asQuantity? .cpu), fieldCheck "memory" (Json.asQuantity? .memory)]

def ofJson : Decoder Estimate := fun j => do
  let m ← j.fields checks
  let cpu ← m.optional "cpu" (Json.asQuantity? .cpu) none
  let memory ← m.optional "memory" (Json.asQuantity? .memory) none
  return ⟨cpu, memory⟩

end Estimate

namespace Recommendation

def toJson (rec : Recommendation) : Json :=
  .record [("containerName", .string rec.container), ("lowerBound", Estimate.toJson rec.lower),
    ("target", Estimate.toJson rec.target), ("upperBound", Estimate.toJson rec.upper)]

def checks : FieldChecks :=
  [fieldCheck "containerName" Json.asText, fieldCheck "lowerBound" Estimate.ofJson,
    fieldCheck "target" Estimate.ofJson, fieldCheck "upperBound" Estimate.ofJson]

def ofJson : Decoder Recommendation := fun j => do
  let m ← j.fields checks
  let container ← m.required "containerName" Json.asText
  let lower ← m.optional "lowerBound" Estimate.ofJson Estimate.empty
  let target ← m.optional "target" Estimate.ofJson Estimate.empty
  let upper ← m.optional "upperBound" Estimate.ofJson Estimate.empty
  return ⟨container, lower, target, upper⟩

end Recommendation

namespace Bound

def toJson (b : Bound) : Json :=
  .record [("containerName", .string b.container), ("minAllowed", Estimate.toJson b.least),
    ("maxAllowed", Estimate.toJson b.most)]

def checks : FieldChecks :=
  [fieldCheck "containerName" Json.asText, fieldCheck "minAllowed" Estimate.ofJson,
    fieldCheck "maxAllowed" Estimate.ofJson]

def ofJson : Decoder Bound := fun j => do
  let m ← j.fields checks
  let container ← m.required "containerName" Json.asText
  let least ← m.optional "minAllowed" Estimate.ofJson Estimate.empty
  let most ← m.optional "maxAllowed" Estimate.ofJson Estimate.empty
  return ⟨container, least, most⟩

end Bound

namespace Target

def toJson (t : Target) : Json :=
  .record [("kind", .string t.kind), ("namespace", .string t.space), ("name", .string t.name)]

def checks : FieldChecks :=
  [fieldCheck "kind" Json.asText, fieldCheck "namespace" Json.asText, fieldCheck "name" Json.asText]

def ofJson : Decoder Target := fun j => do
  let m ← j.fields checks
  let kind ← m.required "kind" Json.asText
  let space ← m.required "namespace" Json.asText
  let name ← m.required "name" Json.asText
  return ⟨kind, space, name⟩

end Target

namespace Change

def toJson (c : Change) : Json :=
  .record [("container", .string c.container), ("axis", .string c.axis.name),
    ("old", Json.ofText? (c.old.map Quantity.text)), ("new", .string c.new.text)]

end Change

end Allotment
