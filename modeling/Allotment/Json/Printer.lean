import Allotment.Numeral
import Allotment.Json.Value
/-!
# Writing JSON text

* `Json.text` writes a value without blanks. A fault, which has no text, is written as null.
-/

namespace Allotment.Json

/-- A digit of base sixteen. -/
def hexDigit (n : Nat) : Char :=
  if n < 10 then Char.ofNat ('0'.toNat + n) else Char.ofNat ('a'.toNat + (n - 10))

/-- A character of a string as it is written between quotes. -/
def escape (c : Char) : List Char :=
  if c = '"' then ['\\', '"']
  else if c = '\\' then ['\\', '\\']
  else if c.toNat < 0x20 then ['\\', 'u', '0', '0', hexDigit (c.toNat / 16), hexDigit (c.toNat % 16)]
  else [c]

/-- A string between quotes, added to a text. -/
def addString (out s : String) : String :=
  (s.foldl (fun out c => (escape c).foldl String.push out) (out.push '"')).push '"'

mutual

/-- The text of a value, added to a text. -/
def addValue (out : String) : Json → String
  | .null => out ++ "null"
  | .bool b => out ++ (if b then "true" else "false")
  | .number literal => out ++ literal
  | .string s => addString out s
  | .unreadable => out ++ "null"
  | .broken => out ++ "null"
  | .array items _ => (addItems (out.push '[') items).push ']'
  | .object members _ => (addMembers (out.push '\x7b') members).push '\x7d'

/-- The texts of items, with commas between them, added to a text. -/
def addItems (out : String) : List Json → String
  | [] => out
  | [item] => addValue out item
  | item :: items => addItems ((addValue out item).push ',') items

/-- The texts of members, with commas between them, added to a text. -/
def addMembers (out : String) : List (String × Json) → String
  | [] => out
  | [(key, value)] => addValue ((addString out key).push ':') value
  | (key, value) :: members => addMembers ((addValue ((addString out key).push ':') value).push ',') members

end

/-- The text of a value. -/
def text (j : Json) : String :=
  addValue "" j

/-- A whole number. -/
def ofInt (n : Int) : Json :=
  .number (String.ofList (Numeral.ofInt n))

end Allotment.Json
