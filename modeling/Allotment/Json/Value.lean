/-!
# JSON documents

A document may be damaged. Reading it gives the value up to the first fault, with the place of the fault marked, so
that a decoder which walks the value in the order of the text meets faults where the text has them.

* `Json.array` and `Json.object` say whether their closing bracket was reached. What stands in them was read before
  the fault.
* `Json.broken` stands where no value could be read, `Json.unreadable` for a string that holds half of a surrogate
  pair: it can be passed over, but it denotes no text.
* `Json.list` and `Json.record` build values without faults.
-/

namespace Allotment

/-- A JSON value as far as it could be read. Members of an object keep their order, and keys may repeat. -/
inductive Json where
  | null
  | bool (b : Bool)
  | number (literal : String)
  | string (s : String)
  | unreadable
  | array (items : List Json) (closed : Bool)
  | object (members : List (String × Json)) (closed : Bool)
  | broken
  deriving Repr

namespace Json

instance : Inhabited Json := ⟨.null⟩

/-- A whole array. -/
def list (items : List Json) : Json :=
  .array items true

/-- A whole object. -/
def record (members : List (String × Json)) : Json :=
  .object members true

/-- A string, or null when there is none. -/
def ofText? : Option String → Json
  | some s => .string s
  | none => .null

/-- The first value under a key of an object. -/
def field? (j : Json) (key : String) : Option Json :=
  match j with
  | .object members _ => members.lookup key
  | _ => none

end Json

end Allotment
