import Allotment.Json.Value
import Allotment.Quantity.Reader
/-!
# Decoding records

A record is decoded from an object, or from an array that lists its fields in order. What is wrong is reported for
the first fault in the order of the text; a missing field only shows at the closing brace.

* `Json.fields` walks a record and gives its known members; it fails at the first fault.
* `Members.required` and `Members.optional` take single fields out of a walked record.
* `Json.asText`, `Json.asList`, `Json.asQuantity?` and `Json.asWord` decode what is not a record.
-/

namespace Allotment

/-- Why a document does not decode. -/
inductive DecodeError where
  /-- The text is not JSON, or a value has the wrong form. -/
  | malformed
  | missingField (name : String)
  | badQuantity (error : QuantityError)
  deriving DecidableEq, Repr

/-- The text of a fault, if it has one of its own. -/
def DecodeError.message? : DecodeError → Option String
  | malformed => none
  | missingField name => some s!"missing field `{name}`"
  | badQuantity error => some error.message

/-- A way to decode a value. -/
abbrev Decoder (α : Type) := Json → Except DecodeError α

namespace Json

/-- A text. -/
def asText : Decoder String
  | .string s => .ok s
  | _ => .error .malformed

/-- A list whose items all decode, the first fault first. -/
def asList {α : Type} (item : Decoder α) : Decoder (List α)
  | .array items closed => do
    let values ← items.mapM item
    if closed then return values else throw .malformed
  | _ => .error .malformed

/-- A list, or nothing for null. -/
def asList? {α : Type} (item : Decoder α) : Decoder (Option (List α))
  | .null => .ok none
  | j => (asList item j).map some

/-- A quantity of a resource, or nothing for null. -/
def asQuantity? (r : Resource) : Decoder (Option Quantity)
  | .null => .ok none
  | .string s => (Quantity.read r s).mapError .badQuantity |>.map some
  | _ => .error .malformed

/-- One of the given words, written exactly; a word may also stand as the key of a null. -/
def asWord {α : Type} (words : List (String × α)) (j : Json) : Except DecodeError α :=
  let find (w : String) : Except DecodeError α :=
    match words.lookup w with
    | some value => .ok value
    | none => .error .malformed
  match j with
  | .string w => find w
  | .object [(w, .null)] true => find w
  | _ => .error .malformed

/-- Texts under keys; the last text of a key stays. -/
def asTexts : Decoder (List (String × String))
  | .object members closed => do
    let pairs ← members.mapM fun (key, value) => (asText value).map fun s => (key, s)
    if closed then return pairs else throw .malformed
  | _ => .error .malformed

end Json

/-- The fields of a record in order, each with the fault that a value of it has, if any. -/
abbrev FieldChecks := List (String × (Json → Except DecodeError Unit))

/-- A field whose values are decoded in a given way. -/
def fieldCheck {α : Type} (name : String) (decode : Decoder α) : String × (Json → Except DecodeError Unit) :=
  (name, fun j => (decode j).map fun _ => ())

/-- The members of a record that was walked without a fault. -/
structure Members where
  entries : List (String × Json)
  /-- Whether the record was written with the names of its fields. -/
  named : Bool

namespace Members

/-- A field that every record has. -/
def required {α : Type} (m : Members) (name : String) (decode : Decoder α) : Except DecodeError α :=
  match m.entries.lookup name with
  | some j => decode j
  | none => .error (if m.named then .missingField name else .malformed)

/-- A field that has a value of its own when it is left out. -/
def optional {α : Type} (m : Members) (name : String) (decode : Decoder α) (absent : α) :
    Except DecodeError α :=
  match m.entries.lookup name with
  | some j => decode j
  | none => .ok absent

end Members

namespace Json

/-- Walks members in order. Unknown ones are passed over; a known one may not come twice. -/
def walkMembers (checks : FieldChecks) (seen : List String) :
    List (String × Json) → Except DecodeError Unit
  | [] => .ok ()
  | (key, value) :: rest =>
    match checks.lookup key with
    | none => walkMembers checks seen rest
    | some check =>
      if seen.contains key then .error .malformed
      else do
        check value
        walkMembers checks (key :: seen) rest

/-- Walks items, which are the fields in order; there may be fewer of them, but not more. -/
def walkItems : FieldChecks → List Json → Except DecodeError Unit
  | _, [] => .ok ()
  | [], _ :: _ => .error .malformed
  | (_, check) :: checks, item :: items => do
    check item
    walkItems checks items

/-- The members of a record, once its text has no fault. -/
def fields (checks : FieldChecks) : Json → Except DecodeError Members
  | .object members closed => do
    walkMembers checks [] members
    if closed then return ⟨members, true⟩ else throw .malformed
  | .array items closed => do
    walkItems checks items
    if closed then return ⟨(checks.map (·.1)).zip items, false⟩ else throw .malformed
  | _ => .error .malformed

end Json

end Allotment
