import Allotment.Json.Value
/-!
# Reading JSON text

* `Json.read` gives the value of a document up to the first fault, and says whether the document is whole: a value
  with nothing but blanks after it.
* `Json.readValue` reads one value and gives the rest of the text, or no rest once a fault was met.

Nesting is followed by fuel, one unit for each value; a text of `n` characters holds fewer than `n + 1` values, so
the fuel that `Json.read` gives is never used up.
-/

namespace Allotment.Json

/-- The four blanks of the grammar. -/
def isSpace (c : Char) : Bool :=
  c = ' ' || c = '\n' || c = '\t' || c = '\r'

/-- The text from its first character that is not blank. -/
def skipSpace (cs : List Char) : List Char :=
  cs.dropWhile isSpace

/-! ### Strings -/

/-- A character of a string as it is written, or a UTF-16 unit given by its number. -/
inductive Unit16 where
  | plain (c : Char)
  | unit (n : Nat)
  deriving DecidableEq, Repr

def hexDigit? (c : Char) : Option Nat :=
  if '0' ≤ c ∧ c ≤ '9' then some (c.toNat - '0'.toNat)
  else if 'a' ≤ c ∧ c ≤ 'f' then some (c.toNat - 'a'.toNat + 10)
  else if 'A' ≤ c ∧ c ≤ 'F' then some (c.toNat - 'A'.toNat + 10)
  else none

/-- The number that four hexadecimal digits spell. -/
def hex4? (a b c d : Char) : Option Nat := do
  let w ← hexDigit? a
  let x ← hexDigit? b
  let y ← hexDigit? c
  let z ← hexDigit? d
  return ((w * 16 + x) * 16 + y) * 16 + z

/-- The character that stands after a backslash for another one, or for itself. -/
def escaped? : Char → Option Char
  | '"' => some '"'
  | '\\' => some '\\'
  | '/' => some '/'
  | 'b' => some '\x08'
  | 'f' => some '\x0c'
  | 'n' => some '\n'
  | 'r' => some '\r'
  | 't' => some '\t'
  | _ => none

/-- The units of a string up to its closing quote, and the rest of the text. -/
def readUnits? : List Char → Option (List Unit16 × List Char)
  | [] => none
  | '"' :: rest => some ([], rest)
  | '\\' :: 'u' :: a :: b :: c :: d :: rest => do
    let n ← hex4? a b c d
    let (us, rest) ← readUnits? rest
    return (.unit n :: us, rest)
  | '\\' :: e :: rest => do
    let c ← escaped? e
    let (us, rest) ← readUnits? rest
    return (.plain c :: us, rest)
  | c :: rest =>
    if c.toNat < 0x20 then none
    else (readUnits? rest).map fun (us, rest) => (.plain c :: us, rest)

/-- The characters that units denote: a surrogate counts only as half of a pair. -/
def joinUnits? : List Unit16 → Option (List Char)
  | [] => some []
  | .plain c :: us => (joinUnits? us).map (c :: ·)
  | .unit h :: us =>
    if 0xD800 ≤ h ∧ h < 0xDC00 then
      match us with
      | .unit l :: us =>
        if 0xDC00 ≤ l ∧ l < 0xE000 then
          (joinUnits? us).map (Char.ofNat (0x10000 + (h - 0xD800) * 0x400 + (l - 0xDC00)) :: ·)
        else none
      | _ => none
    else if 0xDC00 ≤ h ∧ h < 0xE000 then none
    else (joinUnits? us).map (Char.ofNat h :: ·)

/-- A string after its opening quote: its text unless it has none, and the rest. -/
def readString? (cs : List Char) : Option (Option String × List Char) :=
  (readUnits? cs).map fun (us, rest) => ((joinUnits? us).map String.ofList, rest)

/-! ### Numbers -/

/-- One or more digits, and the rest. -/
def readDigits? (cs : List Char) : Option (List Char × List Char) :=
  let ds := cs.takeWhile Char.isDigit
  if ds.isEmpty then none else some (ds, cs.dropWhile Char.isDigit)

/-- The whole part: a zero by itself or digits that do not begin with one. -/
def readWhole? (cs : List Char) : Option (List Char × List Char) := do
  let (ds, rest) ← readDigits? cs
  if ds.head? = some '0' ∧ ds.length ≠ 1 then none else some (ds, rest)

/-- The point and the digits behind it, if there is a point. -/
def readFraction? : List Char → Option (List Char × List Char)
  | '.' :: cs => (readDigits? cs).map fun (ds, rest) => ('.' :: ds, rest)
  | cs => some ([], cs)

/-- The exponent, if there is one. -/
def readPower? : List Char → Option (List Char × List Char)
  | e :: cs =>
    if e = 'e' ∨ e = 'E' then
      match cs with
      | '+' :: r => (readDigits? r).map fun (ds, rest) => (e :: '+' :: ds, rest)
      | '-' :: r => (readDigits? r).map fun (ds, rest) => (e :: '-' :: ds, rest)
      | r => (readDigits? r).map fun (ds, rest) => (e :: ds, rest)
    else some ([], e :: cs)
  | [] => some ([], [])

/-- A number, as it is written, and the rest. -/
def readNumber? (cs : List Char) : Option (List Char × List Char) := do
  let (sign, rest) := match cs with
    | '-' :: r => (['-'], r)
    | r => ([], r)
  let (whole, rest) ← readWhole? rest
  let (fraction, rest) ← readFraction? rest
  let (power, rest) ← readPower? rest
  return (sign ++ whole ++ fraction ++ power, rest)

/-! ### Values -/

/-- What was read, and the rest of the text unless there was a fault. -/
abbrev Reading (α : Type) := α × Option (List Char)

/-- A literal word, and the rest. -/
def readWord (word : List Char) (value : Json) (cs : List Char) : Reading Json :=
  if word.isPrefixOf cs then (value, some (cs.drop word.length)) else (.broken, none)

mutual

/-- One value; the text begins with it. -/
def readValue : (fuel : Nat) → List Char → Reading Json
  | 0, _ => (.broken, none)
  | fuel + 1, cs =>
    match cs with
    | '{' :: rest =>
      match skipSpace rest with
      | '}' :: rest => (.object [] true, some rest)
      | rest =>
        let (members, rest) := readMembers fuel rest
        (.object members rest.isSome, rest)
    | '[' :: rest =>
      match skipSpace rest with
      | ']' :: rest => (.array [] true, some rest)
      | rest =>
        let (items, rest) := readItems fuel rest
        (.array items rest.isSome, rest)
    | '"' :: rest =>
      match readString? rest with
      | some (some s, rest) => (.string s, some rest)
      | some (none, rest) => (.unreadable, some rest)
      | none => (.broken, none)
    | 'n' :: _ => readWord "null".toList .null cs
    | 't' :: _ => readWord "true".toList (.bool true) cs
    | 'f' :: _ => readWord "false".toList (.bool false) cs
    | _ =>
      match readNumber? cs with
      | some (literal, rest) => (.number (String.ofList literal), some rest)
      | none => (.broken, none)

/-- The items of an array from the next one on, up to its closing bracket. -/
def readItems : (fuel : Nat) → List Char → Reading (List Json)
  | 0, _ => ([], none)
  | fuel + 1, cs =>
    match readValue fuel cs with
    | (item, none) => ([item], none)
    | (item, some rest) =>
      match skipSpace rest with
      | ']' :: rest => ([item], some rest)
      | ',' :: rest =>
        let (items, rest) := readItems fuel (skipSpace rest)
        (item :: items, rest)
      | _ => ([item], none)

/-- The members of an object from the next one on, up to its closing brace. -/
def readMembers : (fuel : Nat) → List Char → Reading (List (String × Json))
  | 0, _ => ([], none)
  | fuel + 1, cs =>
    match cs with
    | '"' :: rest =>
      match readString? rest with
      | some (some key, rest) =>
        match skipSpace rest with
        | ':' :: rest =>
          match readValue fuel (skipSpace rest) with
          | (value, none) => ([(key, value)], none)
          | (value, some rest) =>
            match skipSpace rest with
            | '}' :: rest => ([(key, value)], some rest)
            | ',' :: rest =>
              let (members, rest) := readMembers fuel (skipSpace rest)
              ((key, value) :: members, rest)
            | _ => ([(key, value)], none)
        | _ => ([], none)
      | _ => ([], none)
    | _ => ([], none)

end

/-- The value of a document, and whether the document is one value and nothing else. -/
def read (text : String) : Json × Bool :=
  let cs := skipSpace text.toList
  match readValue (cs.length + 1) cs with
  | (value, none) => (value, false)
  | (value, some rest) => (value, (skipSpace rest).isEmpty)

end Allotment.Json
