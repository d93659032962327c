import Allotment.Encoding.Workload
import Allotment.Inventory
import Allotment.Json.Reader
/-!
# Inventory files

An inventory is kept in a file as a record with a list of targets.

* `Inventory.ofText` reads the text of a file; `LoadError` tells whether the file or its text was at fault.
-/

namespace Allotment

namespace ManagedWorkload

def checks : FieldChecks :=
  [fieldCheck "kind" Json.asText, fieldCheck "namespace" Json.asText, fieldCheck "name" Json.asText,
    fieldCheck "annotations" Json.asTexts, fieldCheck "containers" (Json.asList Container.ofJson),
    fieldCheck "recommendations" (Json.asList? Recommendation.ofJson),
    fieldCheck "policyBounds" (Json.asList Bound.ofJson)]

def ofJson : Decoder ManagedWorkload := fun j => do
  let m ← j.fields checks
  let kind ← m.required "kind" Json.asText
  let space ← m.required "namespace" Json.asText
  let name ← m.required "name" Json.asText
  let annotations ← m.optional "annotations" Json.asTexts []
  let containers ← m.optional "containers" (Json.asList Container.ofJson) []
  let recommendations ← m.optional "recommendations" (Json.asList? Recommendation.ofJson) none
  let bounds ← m.optional "policyBounds" (Json.asList Bound.ofJson) []
  return ⟨⟨kind, space, name⟩, Dict.ofPairs annotations, containers, recommendations, bounds⟩

end ManagedWorkload

/-- Why an inventory could not be loaded. -/
inductive LoadError where
  | unreadable (path : String)
  | invalid (path : String) (cause : DecodeError)
  deriving DecidableEq, Repr

namespace LoadError

def message : LoadError → String
  | unreadable path => s!"failed to read inventory {path}"
  | invalid path _ => s!"invalid inventory {path}"

/-- What was wrong with the text of the file. -/
def cause? : LoadError → Option DecodeError
  | unreadable _ => none
  | invalid _ cause => some cause

end LoadError

namespace Inventory

def checks : FieldChecks :=
  [fieldCheck "targets" (Json.asList ManagedWorkload.ofJson)]

def ofJson : Decoder Inventory := fun j => do
  let m ← j.fields checks
  let workloads ← m.optional "targets" (Json.asList ManagedWorkload.ofJson) []
  return ofList workloads

/-- The inventory that a text describes. -/
def ofText (text : String) : Except DecodeError Inventory := do
  let (value, whole) := Json.read text
  let i ← ofJson value
  if whole then return i else throw .malformed

/-- The inventory in a file, given its text unless it could not be read. -/
def load (path : String) (content : Option String) : Except LoadError Inventory :=
  match content with
  | none => .error (.unreadable path)
  | some text => (ofText text).mapError (.invalid path)

end Inventory

end Allotment
