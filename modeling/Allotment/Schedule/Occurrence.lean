import Allotment.Schedule.Basic
/-!
# Occurrences of a schedule

Fields are due at whole minutes. The search for the next occurrence goes from minute to minute, and over a whole
month, day or hour at once when its field does not admit it.

* `CronFields.DueAt` says at which minutes fields are due.
* `CronFields.step` is how far the search may go on from a minute that is not due.
* `Schedule.next?` gives the first occurrence after an instant, if there is one before the horizon and the end of the
  calendar.
-/

namespace Allotment

/-- Minutes of an hour, of a day, and the nanoseconds of a minute. -/
def minutesPerHour : Int := 60

def minutesPerDay : Int := 1440

def nanosPerMinute : Int := 60 * Span.nanosPerSecond

/-- The day that a minute, counted from the start of 1970, belongs to. -/
def dayOfMinute (m : Int) : Int := m / minutesPerDay

/-- The hour of the day of a minute. -/
def hourOfMinute (m : Int) : Nat := (m % minutesPerDay / minutesPerHour).toNat

/-- The minute of the hour of a minute. -/
def minuteOfMinute (m : Int) : Nat := (m % minutesPerHour).toNat

namespace CronFields

/-- Whether fields are due in the month of a day. -/
def MonthDue (f : CronFields) (day : Int) : Prop :=
  f.month.Admits (Date.ofDay day).month

instance (f : CronFields) (day : Int) : Decidable (f.MonthDue day) :=
  inferInstanceAs (Decidable (Field.Admits _ _))

/-- Whether fields are due on a day. When both day fields are restricted, one of them is enough. -/
def DayDue (f : CronFields) (day : Int) : Prop :=
  if f.dayOfMonth.unrestricted ∨ f.dayOfWeek.unrestricted then
    f.dayOfMonth.Admits (Date.ofDay day).day ∧ f.dayOfWeek.Admits (weekday day)
  else
    f.dayOfMonth.Admits (Date.ofDay day).day ∨ f.dayOfWeek.Admits (weekday day)

instance (f : CronFields) (day : Int) : Decidable (f.DayDue day) := by
  unfold DayDue
  infer_instance

/-- Whether fields are due at a minute. -/
def DueAt (f : CronFields) (m : Int) : Prop :=
  f.MonthDue (dayOfMinute m) ∧ f.DayDue (dayOfMinute m) ∧
    f.hour.Admits (hourOfMinute m) ∧ f.minute.Admits (minuteOfMinute m)

instance (f : CronFields) (m : Int) : Decidable (f.DueAt m) :=
  inferInstanceAs (Decidable (_ ∧ _ ∧ _ ∧ _))

/-- The minutes up to the next hour. -/
def toNextHour (m : Int) : Int := minutesPerHour - m % minutesPerHour

/-- The minutes up to the next day. -/
def toNextDay (m : Int) : Int := minutesPerDay - m % minutesPerDay

/-- The minutes up to the next month. -/
def toNextMonth (m : Int) : Int :=
  let date := Date.ofDay (dayOfMinute m)
  ((daysInMonth date.year date.month - date.day : Nat) : Int) * minutesPerDay + toNextDay m

/-- The minutes that the search may go on by from a minute, if fields are not due at it. -/
def step (f : CronFields) (m : Int) : Option Int :=
  if ¬ f.MonthDue (dayOfMinute m) then some (toNextMonth m)
  else if ¬ f.DayDue (dayOfMinute m) then some (toNextDay m)
  else if ¬ f.hour.Admits (hourOfMinute m) then some (toNextHour m)
  else if ¬ f.minute.Admits (minuteOfMinute m) then some 1
  else none

theorem toNextHour_pos (m : Int) : 0 < toNextHour m := by
  have := Int.emod_lt_of_pos m (show (0 : Int) < minutesPerHour by decide)
  unfold toNextHour
  omega

theorem toNextDay_pos (m : Int) : 0 < toNextDay m := by
  have := Int.emod_lt_of_pos m (show (0 : Int) < minutesPerDay by decide)
  unfold toNextDay
  omega

theorem toNextMonth_pos (m : Int) : 0 < toNextMonth m := by
  have := toNextDay_pos m
  unfold toNextMonth minutesPerDay
  simp only
  omega

theorem step_pos {f : CronFields} {m n : Int} (h : f.step m = some n) : 0 < n := by
  unfold step at h
  repeat' split at h
  all_goals cases h
  · exact toNextMonth_pos m
  · exact toNextDay_pos m
  · exact toNextHour_pos m
  · decide

/-- The search holds exactly at minutes that are due. -/
theorem step_eq_none_iff {f : CronFields} {m : Int} : f.step m = none ↔ f.DueAt m := by
  unfold step DueAt
  repeat' split
  all_goals simp_all

/-- The first minute from `m` to `limit` that the search reaches and that is due. -/
def firstDue? (f : CronFields) (m limit : Int) : Option Int :=
  if limit < m then none
  else
    match _h : f.step m with
    | none => some m
    | some n => firstDue? f (m + n) limit
termination_by (limit + 1 - m).toNat
decreasing_by
  have := step_pos _h
  omega

/-- The first occurrence after an instant, up to the horizon. -/
def next? (f : CronFields) (t : Instant) : Option Instant :=
  match t.later? Schedule.horizon with
  | none => none
  | some limit =>
    (f.firstDue? (t.nanos / nanosPerMinute + 1) (limit.nanos / nanosPerMinute)).map
      fun m => ⟨m * nanosPerMinute⟩

end CronFields

/-- The first occurrence after an instant. -/
def Schedule.next? (s : Schedule) (t : Instant) : Option Instant :=
  match s with
  | .every interval => t.later? interval
  | .fields f => f.next? t

end Allotment
