import Allotment.Proofs.Schedule.Grammar
import Allotment.Proofs.Schedule.Search
import Allotment.Proofs.Time.LeapYears

/-!
# When the search for an occurrence gives up too early

The search looks no further than its horizon, five years ahead.  Most schedules that occur at all occur every year or
so.  Only those for 29 February may have to wait longer, and for more than the horizon only where a leap year is left
out at the turn of a century.

* `CronFields.Filled`, `Schedule.filled_of_read` — every field that was read admits something, and all if it is
  unrestricted;
* `CronFields.Suits` — the fields are due on a day at some time; `exists_dueAt_of_suits` gives the minute;
* `CronFields.LeapDaysOnly` — schedules for leap days; `suits_cases` — all others recur soon, or never occur;
* `CronFields.Fires` — the occurrences after an instant, near or far;
* `CronFields.SpansCentury` — the horizon does not reach over the turn of a century;
* `Schedule.next?_gives_up_iff` — the search finds nothing although there is something exactly if both come together.
-/

namespace Allotment

/-! ### What reading gives -/

/-- The field admits some of the values between two bounds, all of them if it is unrestricted, and no others. -/
structure Field.Filled (f : Field) (least greatest : Nat) : Prop where
  inhabited : ∃ v, f.Admits v
  range : ∀ v, f.Admits v → least ≤ v ∧ v ≤ greatest
  whole : f.unrestricted = true → ∀ v, least ≤ v → v ≤ greatest → f.Admits v

/-- All five fields are filled. -/
def CronFields.Filled (f : CronFields) : Prop :=
  ∀ part, (f.part part).Filled part.spec.least part.greatest

/-- A star of step one covers every value of its field. -/
theorem StarText.covers {spec : FieldSpec} {cs : List Char} (hspec : spec.Proper) (h : StarText cs) :
    ∃ i, ItemText spec cs i ∧ ∀ v, spec.least ≤ v → v ≤ spec.greatest → i.Covers v := by
  rcases h with rfl | ⟨ns, rfl, hone⟩
  · exact ⟨_, .plain .star hspec.least, fun v hleast hgreatest => ⟨hleast, hgreatest, Nat.mod_one _⟩⟩
  · exact ⟨_, .stepped .star hspec.least hone (by decide) (by decide),
      fun v hleast hgreatest => ⟨hleast, hgreatest, Nat.mod_one _⟩⟩

theorem CronPart.canonical_eq_self {part : CronPart} {v : Nat} (h : v ≤ part.greatest) : part.canonical v = v := by
  unfold greatest at h
  unfold canonical
  rw [if_neg]
  rintro ⟨hpart, rfl⟩
  rw [if_pos hpart] at h
  omega

theorem CronPart.greatest_le (part : CronPart) : part.greatest ≤ part.spec.greatest := by
  cases part <;> decide

/-- Fields are read from five texts, also those that a descriptor stands for. -/
theorem Schedule.exists_readFields {e : String} {f : CronFields} (h : read e = .ok (.fields f)) :
    ∃ ws, readFields ws = .ok (.fields f) := by
  unfold read at h
  split at h
  · next descriptor _ =>
    unfold readDescriptor at h
    split at h
    · next interval _ =>
      unfold readInterval at h
      simp only at h
      split at h
      · split at h <;> cases h
      · cases h
    · split at h
      · exact ⟨_, h⟩
      · cases h
  · exact ⟨_, h⟩

theorem Schedule.filled_of_read {e : String} {f : CronFields} (h : read e = .ok (.fields f)) : f.Filled := by
  obtain ⟨ws, hws⟩ := exists_readFields h
  obtain ⟨text, rfl⟩ := exists_text_of_readFields hws
  obtain ⟨_, hsame, hfields⟩ := spelledBy_of_readFields hws
  obtain rfl := (Schedule.fields.inj hsame).symm
  intro part
  obtain ⟨hspelled, hinhabited, hrange⟩ := hfields part
  refine ⟨hinhabited, hrange, fun hwhole v hleast hgreatest => ?_⟩
  obtain ⟨p, hp, hstar⟩ := hspelled.unrestricted.1 hwhole
  obtain ⟨i, hi, hcovers⟩ := hstar.covers part.proper
  refine (hspelled.admits v).2 ⟨p, hp, i, hi, v, hcovers v hleast ?_, CronPart.canonical_eq_self hgreatest⟩
  exact Nat.le_trans hgreatest part.greatest_le

namespace CronFields

variable {f : CronFields} {t o : Instant} {n k : Int}

/-! ### Days -/

/-- The fields are due on a day, at some time of it. -/
def Suits (f : CronFields) (day : Int) : Prop := f.MonthDue day ∧ f.DayDue day

instance (f : CronFields) (day : Int) : Decidable (f.Suits day) :=
  inferInstanceAs (Decidable (_ ∧ _))

theorem DueAt.suits (h : f.DueAt k) : f.Suits (dayOfMinute k) := ⟨h.1, h.2.1⟩

theorem exists_dueAt_of_suits (hf : f.Filled) (h : f.Suits n) : ∃ k, dayOfMinute k = n ∧ f.DueAt k := by
  obtain ⟨hour, hhour⟩ := (hf .hour).inhabited
  obtain ⟨minute, hminute⟩ := (hf .minute).inhabited
  have hhours : hour ≤ 23 := ((hf .hour).range hour hhour).2
  have hminutes : minute ≤ 59 := ((hf .minute).range minute hminute).2
  let k : Int := n * 1440 + hour * 60 + minute
  have hday : dayOfMinute k = n := by
    simp only [dayOfMinute, minutesPerDay, k]
    omega
  have hhourOf : hourOfMinute k = hour := by
    simp only [hourOfMinute, minutesPerDay, minutesPerHour, k]
    omega
  have hminuteOf : minuteOfMinute k = minute := by
    simp only [minuteOfMinute, minutesPerHour, k]
    omega
  refine ⟨k, hday, ?_⟩
  unfold DueAt
  rw [hday, hhourOf, hminuteOf]
  exact ⟨h.1, h.2, hhour, hminute⟩

theorem weekday_le (n : Int) : weekday n ≤ 6 := by
  unfold weekday
  omega

/-- The days are chosen by a day of the week, perhaps among others, or by the day of the month alone. -/
theorem dayDue_cases (hf : f.Filled) :
    (∃ w ≤ 6, ∀ n, weekday n = w → f.DayDue n) ∨
      (f.dayOfWeek.unrestricted = true ∧ ∀ n, f.DayDue n ↔ f.dayOfMonth.Admits (Date.ofDay n).day) := by
  have hdays : ∀ n, 1 ≤ (Date.ofDay n).day ∧ (Date.ofDay n).day ≤ 31 := by
    intro n
    have hvalid := Date.valid_ofDay n
    exact ⟨hvalid.day_pos, Nat.le_trans hvalid.day_le (daysInMonth_bounds _ _).2⟩
  unfold DayDue
  by_cases hweek : f.dayOfWeek.unrestricted = true
  · refine .inr ⟨hweek, fun n => ?_⟩
    rw [if_pos (.inr hweek)]
    exact and_iff_left ((hf .dayOfWeek).whole hweek _ (Nat.zero_le _) (weekday_le n))
  · obtain ⟨w, hw⟩ := (hf .dayOfWeek).inhabited
    refine .inl ⟨w, ((hf .dayOfWeek).range w hw).2, ?_⟩
    rintro n rfl
    by_cases hmonth : f.dayOfMonth.unrestricted = true
    · rw [if_pos (.inl hmonth)]
      exact ⟨(hf .dayOfMonth).whole hmonth _ (hdays n).1 (hdays n).2, hw⟩
    · rw [if_neg (not_or.2 ⟨hmonth, hweek⟩)]
      exact .inr hw

/-- The fields are due on 29 February, whatever day of the week it is, and on no other day. -/
structure LeapDaysOnly (f : CronFields) : Prop where
  week : f.dayOfWeek.unrestricted = true
  month : ∀ m, f.month.Admits m ↔ m = 2
  day : f.dayOfMonth.Admits 29
  noEarlier : ∀ d, f.dayOfMonth.Admits d → 29 ≤ d

theorem LeapDaysOnly.suits_iff (hf : f.Filled) (h : f.LeapDaysOnly) : f.Suits n ↔ ∃ y, Date.ofDay n = ⟨y, 2, 29⟩ := by
  have hday : f.DayDue n ↔ f.dayOfMonth.Admits (Date.ofDay n).day := by
    unfold DayDue
    rw [if_pos (.inr h.week)]
    exact and_iff_left ((hf .dayOfWeek).whole h.week _ (Nat.zero_le _) (weekday_le n))
  have hlast := (Date.valid_ofDay n).day_le
  unfold Suits MonthDue
  rw [hday, h.month]
  generalize Date.ofDay n = d at *
  obtain ⟨year, month, day⟩ := d
  simp only [Date.mk.injEq] at hlast ⊢
  constructor
  · rintro ⟨rfl, hadmits⟩
    have hleast := h.noEarlier day hadmits
    have hfeb := daysInMonth_february year
    exact ⟨year, rfl, rfl, by omega⟩
  · rintro ⟨-, -, rfl, rfl⟩
    exact ⟨rfl, h.day⟩

/-- A date of every year that the fields are due on brings them back within two years. -/
theorem recurs_of_valid {m d : Nat} (hmonth : f.month.Admits m) (hvalid : ∀ y, (Date.mk y m d).Valid)
    (hday : ∀ n, (Date.ofDay n).day = d → f.DayDue n) (n : Int) : ∃ k, n < k ∧ k ≤ n + 737 ∧ f.Suits k := by
  obtain ⟨k, y, hafter, hwithin, hdate⟩ := Date.exists_ofDay_after hvalid n
  refine ⟨k, hafter, by omega, ?_, hday k (by rw [hdate])⟩
  unfold MonthDue
  rw [hdate]
  exact hmonth

/-- So does a day of the week, in a month of every year. -/
theorem recurs_of_weekday {m w : Nat} (hm : 1 ≤ m ∧ m ≤ 12) (hmonth : f.month.Admits m) (hw : w ≤ 6)
    (hday : ∀ n, weekday n = w → f.DayDue n) (n : Int) : ∃ k, n < k ∧ k ≤ n + 737 ∧ f.Suits k := by
  have hfirst : ∀ y, (Date.mk y m 1).Valid := fun y =>
    ⟨hm.1, hm.2, Nat.le_refl 1, Nat.le_trans (Nat.le_add_left 1 27) (daysInMonth_bounds y m).1⟩
  obtain ⟨k, y, hafter, hwithin, hdate⟩ := Date.exists_ofDay_after hfirst n
  -- The first such day of the week in the month.
  obtain ⟨j, hj, hweekday⟩ : ∃ j : Nat, j ≤ 6 ∧ weekday (k + j) = w := by
    unfold weekday
    exact ⟨((w - (k + 4)) % 7).toNat, by omega, by omega⟩
  have hlater : Date.ofDay (k + j) = ⟨y, m, 1 + j⟩ := by
    have hlast := (daysInMonth_bounds y m).1
    rw [Date.ofDay_add k j, hdate]
    rw [hdate]
    simp only
    omega
  refine ⟨k + j, by omega, by omega, ?_, hday _ hweekday⟩
  unfold MonthDue
  rw [hlater]
  exact hmonth

/-- Where all days that the fields are due on are missing from some year, these are leap days. -/
theorem leapDaysOnly_of_suits (hf : f.Filled) (hweek : f.dayOfWeek.unrestricted = true)
    (hday : ∀ n, f.DayDue n ↔ f.dayOfMonth.Admits (Date.ofDay n).day)
    (hyearly : ∀ m d, f.month.Admits m → f.dayOfMonth.Admits d → ∃ y, ¬ (Date.mk y m d).Valid) (hn : f.Suits n) :
    f.LeapDaysOnly := by
  have hleap : ∀ y m d, f.month.Admits m → f.dayOfMonth.Admits d → (Date.mk y m d).Valid → m = 2 ∧ d = 29 := by
    intro y m d hm hd hvalid
    obtain ⟨y', hmissing⟩ := hyearly m d hm hd
    exact (Date.valid_of_valid hvalid).resolve_left hmissing
  have hdate := hleap _ _ _ hn.1 ((hday n).1 hn.2) (Date.valid_ofDay n)
  have htwo : f.month.Admits 2 := hdate.1 ▸ hn.1
  have hlast : f.dayOfMonth.Admits 29 := hdate.2 ▸ (hday n).1 hn.2
  refine ⟨hweek, fun m => ⟨fun hm => ?_, fun hm => hm ▸ htwo⟩, hlast, fun d hd => ?_⟩
  · by_contra hne
    have hrange := (hf .month).range m hm
    have hlength := daysInMonth_of_ne_two hne 0
    exact hne (hleap 0 m 29 hm hlast ⟨hrange.1, hrange.2, by simp, by simp only; omega⟩).1
  · by_contra hearlier
    have hpos := ((hf .dayOfMonth).range d hd).1
    have hlength := (daysInMonth_bounds 0 2).1
    have hfeb := (hleap 0 2 d htwo hd ⟨by simp, by simp, hpos, by simp only; omega⟩).2
    omega

/-- Fields that are due at all are due again within two years or so, unless they are for leap days. -/
theorem suits_cases (hf : f.Filled) :
    (∀ n, ∃ k, n < k ∧ k ≤ n + 737 ∧ f.Suits k) ∨ f.LeapDaysOnly ∨ ∀ n, ¬ f.Suits n := by
  have hmonths : ∀ m, f.month.Admits m → 1 ≤ m ∧ m ≤ 12 := (hf .month).range
  rcases dayDue_cases hf with ⟨w, hw, hday⟩ | ⟨hweek, hday⟩
  · obtain ⟨m, hm⟩ := (hf .month).inhabited
    exact .inl (recurs_of_weekday (hmonths m hm) hm hw hday)
  · by_cases hyearly : ∃ m d, f.month.Admits m ∧ f.dayOfMonth.Admits d ∧ ∀ y, (Date.mk y m d).Valid
    · obtain ⟨m, d, hm, hd, hvalid⟩ := hyearly
      exact .inl (recurs_of_valid hm hvalid fun n hn => (hday n).2 (hn ▸ hd))
    · refine .inr ((em (∃ n, f.Suits n)).imp ?_ not_exists.1)
      rintro ⟨n, hn⟩
      refine leapDaysOnly_of_suits hf hweek hday (fun m d hm hd => ?_) hn
      by_contra hvalid
      exact hyearly ⟨m, d, hm, hd, not_exists_not.1 hvalid⟩

theorem LeapDaysOnly.suits_leapDay (hf : f.Filled) (h : f.LeapDaysOnly) {y : Int} (hy : isLeap y = true) :
    f.Suits (leapDayOf y) :=
  (h.suits_iff hf).2 ⟨y, ofDay_eq_leapDay_iff.2 ⟨hy, rfl⟩⟩

/-- Leap days come again after eight years at the latest. -/
theorem LeapDaysOnly.recurs (hf : f.Filled) (h : f.LeapDaysOnly) (n : Int) :
    ∃ k, n < k ∧ k ≤ n + 2921 ∧ f.Suits k := by
  obtain ⟨y, hleap, hbefore, ⟨hafter, hleap'⟩ | ⟨hafter, hleap', hcentury⟩⟩ := exists_leapDay_before n
  · have hgap := leapDayOf_add_four hleap
    exact ⟨leapDayOf (y + 4), hafter, by omega, h.suits_leapDay hf hleap'⟩
  · have hgap := leapDayOf_add_eight hleap hcentury
    exact ⟨leapDayOf (y + 8), hafter, by omega, h.suits_leapDay hf hleap'⟩

/-! ### Occurrences within the horizon and beyond -/

/-- The fields fire after an instant: at a whole minute that is due, before the calendar ends. -/
structure Fires (f : CronFields) (t o : Instant) : Prop where
  whole : o.nanos % nanosPerMinute = 0
  after : t.nanos < o.nanos
  inCalendar : o.nanos ≤ Instant.last.nanos
  due : f.DueAt (o.nanos / nanosPerMinute)

/-- The day of an instant. -/
def dayOfInstant (t : Instant) : Int := dayOfMinute (t.nanos / nanosPerMinute)

theorem horizon_nanos : (Schedule.horizon.nanos : Int) = 1830 * 1440 * nanosPerMinute := by decide

/-- A minute of a day at most so many days later lies before that day is over. -/
theorem minute_lt_of_day_le (days : Int) (h : dayOfMinute k ≤ dayOfInstant t + days) :
    k * nanosPerMinute < t.nanos + (days + 1) * 1440 * nanosPerMinute := by
  unfold dayOfInstant dayOfMinute minutesPerDay at *
  rw [nanosPerMinute_eq] at *
  omega

/-- A minute of a day more than so many days later lies as many whole days after the instant. -/
theorem lt_minute_of_day_lt (days : Int) (h : dayOfInstant t + days < dayOfMinute k) :
    t.nanos + days * 1440 * nanosPerMinute < k * nanosPerMinute := by
  unfold dayOfInstant dayOfMinute minutesPerDay at *
  rw [nanosPerMinute_eq] at *
  omega

theorem lt_minute_of_later_day (h : dayOfInstant t < dayOfMinute k) : t.nanos < k * nanosPerMinute := by
  simpa using lt_minute_of_day_lt 0 (by simpa using h)

theorem minute_le_of_earlier_day (h : dayOfMinute k < dayOfInstant t) : k * nanosPerMinute ≤ t.nanos := by
  simpa using (minute_lt_of_day_le (-1) (Int.le_sub_one_of_lt h)).le

theorem occurs_of_due (hdue : f.DueAt k) (hafter : t.nanos < k * nanosPerMinute)
    (hhorizon : k * nanosPerMinute ≤ t.nanos + Schedule.horizon.nanos) : f.Occurs t ⟨k * nanosPerMinute⟩ := by
  refine ⟨Int.mul_emod_left _ _, hafter, hhorizon, ?_⟩
  simp only [Int.mul_ediv_cancel k (show nanosPerMinute ≠ 0 by decide)]
  exact hdue

theorem exists_due_of_recurs {days : Int} (hf : f.Filled)
    (h : ∃ k, dayOfInstant t < k ∧ k ≤ dayOfInstant t + days ∧ f.Suits k) :
    ∃ k, f.DueAt k ∧ t.nanos < k * nanosPerMinute ∧
      k * nanosPerMinute < t.nanos + (days + 1) * 1440 * nanosPerMinute := by
  obtain ⟨day, hafter, hwithin, hsuits⟩ := h
  obtain ⟨k, rfl, hdue⟩ := exists_dueAt_of_suits hf hsuits
  exact ⟨k, hdue, lt_minute_of_later_day hafter, minute_lt_of_day_le days hwithin⟩

/-- The search from an instant does not reach over the turn of a century: all that is due in the years before lies behind,
and all that is due in the years after lies beyond the horizon. -/
structure SpansCentury (f : CronFields) (t : Instant) (century : Int) : Prop where
  common : CommonCentury century
  behind : ∀ k, f.DueAt k → (Date.ofDay (dayOfMinute k)).year < century → k * nanosPerMinute ≤ t.nanos
  beyond : ∀ k, f.DueAt k → century < (Date.ofDay (dayOfMinute k)).year →
    t.nanos + Schedule.horizon.nanos < k * nanosPerMinute

/-- Fields for leap days are due on the leap day of a leap year. -/
theorem LeapDaysOnly.exists_year (hf : f.Filled) (h : f.LeapDaysOnly) (hdue : f.DueAt k) :
    ∃ y, isLeap y = true ∧ dayOfMinute k = leapDayOf y ∧ (Date.ofDay (dayOfMinute k)).year = y := by
  obtain ⟨y, hdate⟩ := (h.suits_iff hf).1 hdue.suits
  obtain ⟨hleap, hday⟩ := ofDay_eq_leapDay_iff.1 hdate
  exact ⟨y, hleap, hday, by rw [hdate]⟩

/-- Where nothing occurs up to the horizon, a common century is what leap days are kept away by. -/
theorem LeapDaysOnly.exists_spansCentury (hf : f.Filled) (h : f.LeapDaysOnly) (hnone : ∀ o, ¬ f.Occurs t o) :
    ∃ century, f.SpansCentury t century := by
  -- What is due is over, or not before the horizon.
  have hfar : ∀ k, f.DueAt k → t.nanos < k * nanosPerMinute → t.nanos + Schedule.horizon.nanos < k * nanosPerMinute :=
    fun k hdue hafter => Int.not_le.1 fun hle => hnone _ (occurs_of_due hdue hafter hle)
  obtain ⟨y, hleap, hbefore, ⟨hafter, hleap'⟩ | ⟨hafter, hleap', hcentury⟩⟩ := exists_leapDay_before (dayOfInstant t)
  · -- The next leap day is only four years later.
    have hgap := leapDayOf_add_four hleap
    obtain ⟨k, hdue, hlow, hhigh⟩ := exists_due_of_recurs hf
      ⟨leapDayOf (y + 4), hafter, show _ ≤ dayOfInstant t + 1461 by omega, h.suits_leapDay hf hleap'⟩
    have hbeyond := hfar k hdue hlow
    rw [horizon_nanos, nanosPerMinute_eq] at hbeyond
    rw [nanosPerMinute_eq] at hhigh
    omega
  · refine ⟨y + 4, hcentury, fun k hdue hyear => ?behind, fun k hdue hyear => ?beyond⟩
    case behind =>
      obtain ⟨y', hleapYear, hday, rfl⟩ := h.exists_year hf hdue
      have hfour := (isLeap_iff.1 hleapYear).1
      have hfour' := (isLeap_iff.1 hleap).1
      have hmono := leapDayOf_mono (show (Date.ofDay (dayOfMinute k)).year ≤ y by omega)
      by_contra hlater
      have hbeyond := hfar k hdue (Int.not_le.1 hlater)
      have hwithin := minute_lt_of_day_le (k := k) (t := t) 0 (by omega)
      rw [horizon_nanos, nanosPerMinute_eq] at hbeyond
      rw [nanosPerMinute_eq] at hwithin
      omega
    case beyond =>
      obtain ⟨y', hleapYear, hday, rfl⟩ := h.exists_year hf hdue
      have hfour := (isLeap_iff.1 hleapYear).1
      have hfour' := (isLeap_iff.1 hleap).1
      have hmono := leapDayOf_mono (show y + 8 ≤ (Date.ofDay (dayOfMinute k)).year by omega)
      exact hfar k hdue (lt_minute_of_later_day (by omega))

/-- It is enough that the leap day before the century is over, and that the horizon ends before the one after it. -/
theorem LeapDaysOnly.spansCentury {century : Int} (hf : f.Filled) (h : f.LeapDaysOnly)
    (hcommon : CommonCentury century) (hbehind : leapDayOf (century - 4) < dayOfInstant t)
    (hbeyond : dayOfInstant t + 1830 < leapDayOf (century + 4)) : f.SpansCentury t century := by
  have hhundred := hcommon.1
  refine ⟨hcommon, fun k hdue hyear => ?behind, fun k hdue hyear => ?beyond⟩
  all_goals
    obtain ⟨y, hleap, hday, rfl⟩ := h.exists_year hf hdue
    have hfour := (isLeap_iff.1 hleap).1
  case behind =>
    have hmono := leapDayOf_mono (show (Date.ofDay (dayOfMinute k)).year ≤ century - 4 by omega)
    exact minute_le_of_earlier_day (by omega)
  case beyond =>
    have hmono := leapDayOf_mono (show century + 4 ≤ (Date.ofDay (dayOfMinute k)).year by omega)
    rw [horizon_nanos]
    exact lt_minute_of_day_lt 1830 (by omega)

/-- From there nothing occurs up to the horizon. -/
theorem SpansCentury.not_occurs {century : Int} (hf : f.Filled) (h : f.LeapDaysOnly) (hs : f.SpansCentury t century) :
    ¬ f.Occurs t o := by
  intro ho
  obtain ⟨k, rfl, hdue, -, -⟩ := occurs_iff.1 ho
  obtain ⟨y, hleap, -, hyear⟩ := h.exists_year hf hdue
  have hne : y ≠ century := by
    rintro rfl
    have hcentury := hs.common
    rw [isLeap_iff] at hleap
    unfold CommonCentury at hcentury
    omega
  rcases Int.lt_or_gt_of_ne hne with hlt | hgt
  · exact Int.not_lt.2 (hs.behind k hdue (hyear ▸ hlt)) ho.after
  · exact Int.not_le.2 (hs.beyond k hdue (hyear ▸ hgt)) ho.upToHorizon

end CronFields

namespace Schedule

variable {f : CronFields} {t : Instant}

/-- Ten years without their leap days. -/
def tenYears : Span := Span.ofDays 3650

theorem next?_eq_none_iff (ht : t.nanos + tenYears.nanos ≤ Instant.last.nanos) :
    f.next? t = none ↔ ∀ o, ¬ f.Occurs t o := by
  have hshort : (horizon.nanos : Int) ≤ tenYears.nanos := by decide
  have hfound := CronFields.next?_found (f := f) (t := t) (by omega)
  cases hnext : f.next? t with
  | some o =>
    rw [hnext] at hfound
    exact ⟨nofun, fun hnone => absurd hfound.1 (hnone o)⟩
  | none =>
    rw [hnext] at hfound
    exact ⟨fun _ => hfound, fun _ => rfl⟩

/-- **The search finds nothing although there is something to find exactly around a common century**, and only if the
schedule is for 29 February alone. -/
theorem next?_gives_up_iff {e : String} (hread : read e = .ok (.fields f))
    (ht : t.nanos + tenYears.nanos ≤ Instant.last.nanos) :
    ((fields f).next? t = none ∧ ∃ o, f.Fires t o) ↔ f.LeapDaysOnly ∧ ∃ century, f.SpansCentury t century := by
  have hf := filled_of_read hread
  change (f.next? t = none ∧ _) ↔ _
  rw [next?_eq_none_iff ht]
  constructor
  · rintro ⟨hnone, o, ho⟩
    rcases CronFields.suits_cases hf with hrecurs | hleap | hnever
    · obtain ⟨k, hdue, hlow, hhigh⟩ := CronFields.exists_due_of_recurs hf (hrecurs (CronFields.dayOfInstant t))
      refine absurd (CronFields.occurs_of_due hdue hlow ?_) (hnone _)
      rw [CronFields.horizon_nanos]
      rw [CronFields.nanosPerMinute_eq] at hhigh ⊢
      omega
    · exact ⟨hleap, hleap.exists_spansCentury hf hnone⟩
    · exact absurd ho.due.suits (hnever _)
  · rintro ⟨hleap, century, hspans⟩
    obtain ⟨k, hdue, hlow, hhigh⟩ := CronFields.exists_due_of_recurs hf (hleap.recurs hf (CronFields.dayOfInstant t))
    refine ⟨fun o => hspans.not_occurs hf hleap, ⟨k * nanosPerMinute⟩, Int.mul_emod_left _ _, hlow, ?_, ?_⟩
    · have hten : (tenYears.nanos : Int) = 3650 * 1440 * nanosPerMinute := by decide
      rw [hten] at ht
      rw [CronFields.nanosPerMinute_eq] at ht hhigh ⊢
      simp only
      omega
    · simp only [Int.mul_ediv_cancel k (show nanosPerMinute ≠ 0 by decide)]
      exact hdue

/-- Half past six on 29 February, with two more days that February never has, from March 2196. -/
theorem next?_gives_up_around_2200 :
    let f : CronFields := ⟨⟨[30], false⟩, ⟨[6], false⟩, ⟨[29, 30, 31], false⟩, ⟨[2], false⟩, ⟨[0, 1, 2, 3, 4, 5, 6], true⟩⟩
    let t := Instant.ofParts 7137072000 0
    read "30 6 29-31 FEB *" = .ok (.fields f) ∧ t.nanos + tenYears.nanos ≤ Instant.last.nanos ∧
      (f.LeapDaysOnly ∧ ∃ century, f.SpansCentury t century) ∧ (fields f).next? t = none ∧ ∃ o, f.Fires t o := by
  intro f t
  have hread : read "30 6 29-31 FEB *" = .ok (.fields f) := by decide +kernel
  have ht : t.nanos + tenYears.nanos ≤ Instant.last.nanos := by decide
  have hdays : ∀ d ∈ [29, 30, 31], 29 ≤ d := by decide
  have hleap : f.LeapDaysOnly := ⟨rfl, fun m => List.mem_singleton, by decide, hdays⟩
  have hspans : f.SpansCentury t 2200 := hleap.spansCentury (filled_of_read hread) (by decide) (by decide) (by decide)
  exact ⟨hread, ht, ⟨hleap, 2200, hspans⟩, (next?_gives_up_iff hread ht).2 ⟨hleap, 2200, hspans⟩⟩

/-- After February 2096 the search for midnight of the leap day finds nothing, and it is midnight again on the leap day
of 2104. -/
theorem next?_stops_in_2096 :
    let t := Instant.ofParts 3981398400 0
    read "0 0 29 2 *" = .ok (.fields leapDay) ∧ t.nanos + tenYears.nanos ≤ Instant.last.nanos ∧
      (fields leapDay).next? t = none ∧ leapDay.Fires t (Instant.ofParts 4233686400 0) := by
  intro t
  have hread : read "0 0 29 2 *" = .ok (.fields leapDay) := rfl
  have ht : t.nanos + tenYears.nanos ≤ Instant.last.nanos := by decide
  have hf := filled_of_read hread
  have hdays : ∀ d ∈ [29], 29 ≤ d := by decide
  have hleap : leapDay.LeapDaysOnly := ⟨rfl, fun m => List.mem_singleton, by decide, hdays⟩
  have hspans : leapDay.SpansCentury t 2100 := hleap.spansCentury hf (by decide) (by decide) (by decide)
  exact ⟨hread, ht, (next?_eq_none_iff ht).2 fun o => hspans.not_occurs hf hleap, by decide, by decide, by decide, by decide⟩

end Schedule

end Allotment
