import Allotment.Time.Span
/-!
# The calendar

Instants are counted in nanoseconds from the start of 1970 in universal time, days from the same moment, and dates
are those of the Gregorian calendar, extended to all years.

* `Date.ofDay` gives the date of a day; `daysInMonth` the length of a month; `weekday` counts from Sunday as zero.
* `Instant.last` is the last instant that the calendar knows; `Instant.later?` gives nothing beyond it.
-/

namespace Allotment

/-- A moment, in nanoseconds from the start of 1970. -/
structure Instant where
  nanos : Int
  deriving DecidableEq, Repr

namespace Instant

def ofParts (seconds : Int) (nanos : Int) : Instant :=
  ⟨seconds * Span.nanosPerSecond + nanos⟩

/-- Whole seconds, rounded down. -/
def seconds (t : Instant) : Int := t.nanos / Span.nanosPerSecond

/-- Nanoseconds beyond the whole seconds. -/
def subsecond (t : Instant) : Int := t.nanos % Span.nanosPerSecond

/-- The last nanosecond of the year 262142. -/
def last : Instant := ofParts 8210266876799 999999999

/-- The instant a span later, if the calendar knows it. -/
def later? (t : Instant) (s : Span) : Option Instant :=
  if t.nanos + s.nanos ≤ last.nanos then some ⟨t.nanos + s.nanos⟩ else none

end Instant

/-- A day of the Gregorian calendar. Months and days of the month count from one. -/
structure Date where
  year : Int
  month : Nat
  day : Nat
  deriving DecidableEq, Repr

/-- Whether a year has a leap day. -/
def isLeap (year : Int) : Bool :=
  year % 4 = 0 && (year % 100 ≠ 0 || year % 400 = 0)

/-- The number of days of a month. -/
def daysInMonth (year : Int) (month : Nat) : Nat :=
  if month = 2 then (if isLeap year then 29 else 28)
  else if month = 4 ∨ month = 6 ∨ month = 9 ∨ month = 11 then 30
  else 31

/-- The date of a day, counted from the first of January 1970.

The calendar repeats every 400 years, which are 146097 days. Counting from the first of March puts the leap day at
the end of the year, and months of 30 and 31 days then follow each other as the multiples of 153 over 5. -/
def Date.ofDay (n : Int) : Date :=
  let fromMarch := n + 719468
  let era := fromMarch / 146097
  let dayOfEra := (fromMarch % 146097).toNat
  let yearOfEra := (dayOfEra - dayOfEra / 1460 + dayOfEra / 36524 - dayOfEra / 146096) / 365
  let dayOfYear := dayOfEra - (365 * yearOfEra + yearOfEra / 4 - yearOfEra / 100)
  let monthFromMarch := (5 * dayOfYear + 2) / 153
  let day := dayOfYear - (153 * monthFromMarch + 2) / 5 + 1
  let month := if monthFromMarch < 10 then monthFromMarch + 3 else monthFromMarch - 9
  let year : Int := yearOfEra + era * 400 + (if month ≤ 2 then 1 else 0)
  ⟨year, month, day⟩

/-- The day of the week of a day, with Sunday as zero. The first of January 1970 was a Thursday. -/
def weekday (n : Int) : Nat :=
  ((n + 4) % 7).toNat

end Allotment
