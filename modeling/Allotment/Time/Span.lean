import Allotment.Numeral
/-!
# Spans of time

A span is a length of time in whole nanoseconds, less than 2^64 seconds.

* `Span.read` reads a number of seconds, or segments such as `1m30s` that are added up.
* `SpanError` lists what can be wrong with a text; the first fault from the left is told.
-/

namespace Allotment

/-- A length of time in nanoseconds. -/
structure Span where
  nanos : Nat
  deriving DecidableEq, Repr

namespace Span

def nanosPerMilli : Nat := 1000000

def nanosPerSecond : Nat := 1000000000

/-- Seconds and more are counted in 64 bits. -/
def wordLimit : Nat := UInt64.size

/-- The length that no span reaches. -/
def limit : Nat := wordLimit * nanosPerSecond

def ofSeconds (n : Nat) : Span := ⟨n * nanosPerSecond⟩

def ofMillis (n : Nat) : Span := ⟨n * nanosPerMilli⟩

def ofDays (n : Nat) : Span := ofSeconds (n * 86400)

/-- The whole seconds of a span. -/
def seconds (s : Span) : Nat := s.nanos / nanosPerSecond

/-- The nanoseconds beyond the whole seconds. -/
def subsecond (s : Span) : Nat := s.nanos % nanosPerSecond

/-- The whole milliseconds of a span, as a 64-bit word. -/
def millisWord (s : Span) : Nat := s.nanos / nanosPerMilli % wordLimit

/-- A span shorter than `most`, as a number chooses; no span at all if there is no room for one. Only the first 2^64
nanoseconds are chosen from. -/
def jitter (most : Span) (choice : Nat) : Span :=
  let room := min most.nanos (wordLimit - 1)
  if room = 0 then ⟨0⟩ else ⟨choice % room⟩

/-- The units of a segment, with their length in nanoseconds. -/
inductive TimeUnit where
  | millisecond
  | second
  | minute
  | hour
  deriving DecidableEq, Repr

namespace TimeUnit

def text : TimeUnit → List Char
  | millisecond => ['m', 's']
  | second => ['s']
  | minute => ['m']
  | hour => ['h']

def nanos : TimeUnit → Nat
  | millisecond => nanosPerMilli
  | second => nanosPerSecond
  | minute => 60 * nanosPerSecond
  | hour => 3600 * nanosPerSecond

def all : List TimeUnit := [millisecond, second, minute, hour]

/-- The unit that a text spells. -/
def read? (cs : List Char) : Option TimeUnit :=
  all.find? fun u => u.text = cs

theorem read?_text (u : TimeUnit) : read? u.text = some u := by
  cases u <;> decide

end TimeUnit

end Span

/-- What is wrong with the text of a span. -/
inductive SpanError where
  | empty
  | missingUnit (input : String)
  | invalid (input : String)
  | outOfRange (input : String)
  | unknownUnit (input unit : String)
  deriving DecidableEq, Repr

def SpanError.message : SpanError → String
  | empty => "empty duration"
  | missingUnit input => s!"missing unit in duration '{input}'"
  | invalid input => s!"invalid duration '{input}'"
  | outOfRange input => s!"duration '{input}' out of range"
  | unknownUnit input unit => s!"unknown unit '{unit}' in duration '{input}'"

namespace Span

/-- One segment: an amount and a unit, in nanoseconds, after what the segments before it add up to. -/
def addSegment (input : String) (total : Nat) (amount unit : List Char) : Except SpanError Nat :=
  let n := Numeral.ofDigits amount
  if wordLimit ≤ n then .error (.invalid input)
  else
    match TimeUnit.read? unit with
    | none => .error (.unknownUnit input (String.ofList unit))
    | some u =>
      if n * u.nanos < limit ∧ total + n * u.nanos < limit then .ok (total + n * u.nanos)
      else .error (.outOfRange input)

theorem length_dropWhile_lt {p : Char → Bool} {cs : List Char} (h : cs.takeWhile p ≠ []) :
    (cs.dropWhile p).length < cs.length := by
  have hl := congrArg List.length (List.takeWhile_append_dropWhile (p := p) (l := cs))
  rw [List.length_append] at hl
  have := List.length_pos_iff.2 h
  omega

/-- Segments one after the other, added to a total. -/
def readSegments (input : String) (total : Nat) (cs : List Char) : Except SpanError Nat :=
  if cs.isEmpty then .ok total
  else
    let amount := cs.takeWhile Char.isDigit
    let rest := cs.dropWhile Char.isDigit
    if rest.isEmpty then .error (.missingUnit input)
    else if _h : amount = [] then .error (.invalid input)
    else
      match addSegment input total amount (rest.takeWhile fun c => !c.isDigit) with
      | .error e => .error e
      | .ok total => readSegments input total (rest.dropWhile fun c => !c.isDigit)
termination_by cs.length
decreasing_by
  have h1 := length_dropWhile_lt _h
  have h2 := (List.dropWhile_sublist (fun c => !c.isDigit) (l := cs.dropWhile Char.isDigit)).length_le
  omega

/-- The span that a text spells. A number by itself counts seconds. -/
def read (input : String) : Except SpanError Span :=
  let cs := Text.trim input.toList
  if cs.isEmpty then .error .empty
  else
    match Numeral.below? wordLimit cs with
    | some n => .ok (ofSeconds n)
    | none => (readSegments input 0 cs).map Span.mk

/-! ### Laws -/

theorem jitter_lt {most : Span} (h : 0 < most.nanos) (choice : Nat) : (jitter most choice).nanos < most.nanos := by
  have hr : 0 < min most.nanos (wordLimit - 1) := Nat.lt_min.2 ⟨h, by decide⟩
  simp only [jitter, if_neg (Nat.pos_iff_ne_zero.1 hr)]
  exact Nat.lt_of_lt_of_le (Nat.mod_lt _ hr) (Nat.min_le_left _ _)

end Span

end Allotment
