import Mathlib.Tactic.IntervalCases
import Allotment.Time.Calendar

/-!
# Days follow each other as in the calendar

The date of a day is computed by divisions. Here it is shown to be what counting on from one date to the next gives.

* `Date.next` — the date after a date, by the lengths of the months;
* `Date.Valid` — a date that the calendar has;
* `marchStart`, `Date.ofMarch` — the years that begin in March, in which a date is a number of days;
* `Date.ofDay_march` — the date of a day, by its March year;
* `Date.ofDay_succ`, `Date.valid_ofDay` — dates of days are valid, and follow each other;
* `Date.ofDay_add` — up to the end of a month only the day of the month moves.
-/

namespace Allotment

/-! ### Years that begin in March -/

/-- The day, counted from the first of March of the year 0, on which a year of the calendar has its first of March. -/
def marchStart (year : Int) : Int :=
  365 * year + year / 4 - year / 100 + year / 400

/-- A March year ends with the February of the next year, which makes it longer or shorter. -/
theorem marchStart_succ (year : Int) :
    marchStart (year + 1) = marchStart year + 337 + daysInMonth (year + 1) 2 := by
  have hleap : isLeap (year + 1) = true ↔
      (year + 1) % 4 = 0 ∧ ((year + 1) % 100 ≠ 0 ∨ (year + 1) % 400 = 0) := by
    simp [isLeap]
  unfold marchStart daysInMonth
  rw [if_pos rfl]
  split
  · next h =>
    have := hleap.1 h
    omega
  · next h =>
    have := mt hleap.2 h
    omega

theorem daysInMonth_february (year : Int) : daysInMonth year 2 = 28 ∨ daysInMonth year 2 = 29 := by
  unfold daysInMonth
  rw [if_pos rfl]
  split <;> omega

theorem marchStart_mono {y y' : Int} (h : y ≤ y') : marchStart y ≤ marchStart y' := by
  unfold marchStart
  omega

theorem marchStart_add_eras (y era : Int) : marchStart (y + era * 400) = marchStart y + era * 146097 := by
  unfold marchStart
  omega

theorem march_unique {y y' k : Int} (h : marchStart y ≤ k ∧ k < marchStart (y + 1))
    (h' : marchStart y' ≤ k ∧ k < marchStart (y' + 1)) : y = y' := by
  rcases lt_trichotomy y y' with hlt | heq | hgt
  · have := marchStart_mono (show y + 1 ≤ y' by omega)
    omega
  · exact heq
  · have := marchStart_mono (show y' + 1 ≤ y by omega)
    omega

section YearOfEra

variable {n i q y : Nat}

/-- The quotient by the days of a year, with a day more every four years and a day less every century, stays within the
century, and as many leap days have passed as there are whole four years. -/
theorem year_of_century (hq : 36524 * q ≤ n ∧ n < 36524 * (q + 1)) (hlast : q < 4)
    (hi : 1460 * i ≤ n ∧ n < 1460 * (i + 1)) (hy : 365 * y + i ≤ n + q ∧ n + q < 365 * (y + 1) + i) :
    (100 * q ≤ y ∧ y < 100 * (q + 1)) ∧ y < 4 * (i + 1) ∧ 4 * i ≤ y + 1 := by
  interval_cases q <;> omega

theorem march_of_century (hq : 36524 * q ≤ n ∧ n < 36524 * (q + 1)) (hlast : q < 4)
    (hi : 1460 * i ≤ n ∧ n < 1460 * (i + 1)) (hy : 365 * y + i ≤ n + q ∧ n + q < 365 * (y + 1) + i) :
    marchStart y ≤ n ∧ (n : Int) < marchStart (y + 1) := by
  obtain ⟨hcentury, hleap, hleap'⟩ := year_of_century hq hlast hi hy
  have h100 : (y : Int) / 100 = q := by omega
  have h400 : (y : Int) / 400 = 0 := by omega
  have h4 : (y : Int) / 4 ≤ i := by omega
  have h4' : (i : Int) ≤ (y + 1) / 4 := by omega
  unfold marchStart
  rw [h100, h400]
  refine ⟨by omega, ?_⟩
  rcases Nat.lt_or_ge (y + 1) (100 * (q + 1)) with hin | hend
  · have h100' : ((y : Int) + 1) / 100 = q := by omega
    have h400' : ((y : Int) + 1) / 400 = 0 := by omega
    omega
  · obtain rfl : y = 100 * q + 99 := by omega
    have hnext : ((100 * q + 99 : Nat) : Int) + 1 = 100 * (q + 1) := by omega
    rw [hnext]
    omega

theorem yearOfEra_bounds (h : n < 146097) (hy : y = (n - n / 1460 + n / 36524 - n / 146096) / 365) :
    marchStart y ≤ n ∧ (n : Int) < marchStart (y + 1) := by
  rcases Nat.lt_or_ge n 146096 with hlt | hge
  · have hlast : n / 146096 = 0 := by omega
    rw [hlast] at hy
    generalize hi : n / 1460 = i at hy
    generalize hq : n / 36524 = q at hy
    exact march_of_century (q := q) (i := i) (by omega) (by omega) (by omega) (by omega)
  · -- The leap day that ends an era would begin a fifth century.
    obtain rfl : n = 146096 := by omega
    subst hy
    decide

end YearOfEra

/-! ### Months of a March year -/

/-- The day of a March year on which a month begins. March is the month 0. -/
def monthStart (m : Nat) : Nat := (153 * m + 2) / 5

/-- The month of the calendar. -/
def monthFromMarch (m : Nat) : Nat := if m < 10 then m + 3 else m - 9

/-- The year of the calendar, in which January and February belong to the next one. -/
def yearFromMarch (year : Int) (m : Nat) : Int := year + if monthFromMarch m ≤ 2 then 1 else 0

theorem monthStart_succ {m : Nat} (hm : m ≤ 10) (year : Int) :
    monthStart (m + 1) = monthStart m + daysInMonth year (monthFromMarch m) := by
  interval_cases m <;> simp [monthStart, monthFromMarch, daysInMonth]

theorem monthStart_lt (m : Nat) : monthStart m < monthStart (m + 1) := by
  unfold monthStart
  omega

theorem monthOfDay_iff {m day : Nat} : (5 * day + 2) / 153 = m ↔ monthStart m ≤ day ∧ day < monthStart (m + 1) := by
  unfold monthStart
  omega

namespace Date

/-- The date of a day of a March year, with the first of March as day 0. -/
def ofMarch (year : Int) (day : Nat) : Date :=
  let m := (5 * day + 2) / 153
  ⟨yearFromMarch year m, monthFromMarch m, day - monthStart m + 1⟩

theorem ofDay_eq_ofMarch (n : Int) :
    ∃ (year : Int) (day : Nat), n + 719468 = marchStart year + day ∧ n + 719468 < marchStart (year + 1) ∧
      ofDay n = ofMarch year day := by
  generalize hk : n + 719468 = k
  generalize hd : (k % 146097).toNat = d
  generalize hy : (d - d / 1460 + d / 36524 - d / 146096) / 365 = y
  have hera : k = d + k / 146097 * 146097 := by omega
  have hlast : d < 146097 := by omega
  obtain ⟨hge, hlt⟩ := yearOfEra_bounds hlast hy.symm
  refine ⟨y + k / 146097 * 400, d - (365 * y + y / 4 - y / 100), ?start, ?bound, ?date⟩
  case start =>
    have hyear : y / 400 = 0 := by omega
    have hfrom : marchStart y = (365 * y + y / 4 - y / 100 : Nat) := by
      unfold marchStart
      omega
    rw [marchStart_add_eras]
    omega
  case bound =>
    have hnext : (y : Int) + k / 146097 * 400 + 1 = (y + 1) + k / 146097 * 400 := by omega
    rw [hnext, marchStart_add_eras]
    omega
  case date =>
    unfold ofDay
    simp only [hk, hd, hy]
    rfl

/-- The date of a day, by the March year that it lies in. -/
theorem ofDay_march {year : Int} {day : Nat} (h : marchStart year + day < marchStart (year + 1)) :
    ofDay (marchStart year + day - 719468) = ofMarch year day := by
  obtain ⟨year', day', hstart, hbound, hdate⟩ := ofDay_eq_ofMarch (marchStart year + day - 719468)
  rw [Int.sub_add_cancel] at hstart hbound
  obtain rfl : year' = year := march_unique ⟨by omega, hbound⟩ ⟨by omega, h⟩
  obtain rfl : day' = day := by omega
  exact hdate

/-! ### From one date to the next -/

/-- The date after a date. -/
def next (d : Date) : Date :=
  if d.day < daysInMonth d.year d.month then ⟨d.year, d.month, d.day + 1⟩
  else if d.month < 12 then ⟨d.year, d.month + 1, 1⟩
  else ⟨d.year + 1, 1, 1⟩

example : (next ⟨2024, 2, 28⟩, next ⟨2100, 2, 28⟩) = (⟨2024, 2, 29⟩, ⟨2100, 3, 1⟩) := by decide

/-- The calendar has a date. -/
structure Valid (d : Date) : Prop where
  month_pos : 1 ≤ d.month
  month_le : d.month ≤ 12
  day_pos : 1 ≤ d.day
  day_le : d.day ≤ daysInMonth d.year d.month

section OfMarch

variable {year : Int} {day m : Nat}

theorem ofMarch_of_month (h : monthStart m ≤ day ∧ day < monthStart (m + 1)) :
    ofMarch year day =
      ⟨yearFromMarch year m, monthFromMarch m, day - monthStart m + 1⟩ := by
  have hm : (5 * day + 2) / 153 = m := monthOfDay_iff.2 h
  unfold ofMarch
  simp only [hm]

/-- The months of a March year, and its last month with the days that are left for it. -/
theorem exists_month (h : marchStart year + day < marchStart (year + 1)) :
    ∃ m ≤ 11, (monthStart m ≤ day ∧ day < monthStart (m + 1)) ∧
      day < monthStart m + daysInMonth (yearFromMarch year m) (monthFromMarch m) := by
  have hyear := marchStart_succ year
  have hfeb := daysInMonth_february (year + 1)
  have hmonth := monthOfDay_iff.1 (rfl : (5 * day + 2) / 153 = _)
  generalize hm : (5 * day + 2) / 153 = m at hmonth
  have hle : m ≤ 11 := by omega
  refine ⟨m, hle, hmonth, ?_⟩
  rcases Nat.lt_or_ge m 11 with hlt | hge
  · rw [← monthStart_succ (by omega)]
    exact hmonth.2
  · obtain rfl : m = 11 := by omega
    change day < 337 + daysInMonth (year + 1) 2
    omega

theorem valid_ofMarch (h : marchStart year + day < marchStart (year + 1)) : (ofMarch year day).Valid := by
  obtain ⟨m, hle, hmonth, hday⟩ := exists_month h
  rw [ofMarch_of_month hmonth]
  have hcalendar : 1 ≤ monthFromMarch m ∧ monthFromMarch m ≤ 12 := by
    unfold monthFromMarch
    split <;> omega
  exact ⟨hcalendar.1, hcalendar.2, Nat.le_add_left 1 _, by simp only; omega⟩

/-- After the last day of a month but February; after December the year moves as well. -/
theorem next_month (hm : m ≤ 10) :
    next ⟨yearFromMarch year m, monthFromMarch m, daysInMonth (yearFromMarch year m) (monthFromMarch m)⟩ =
      ⟨yearFromMarch year (m + 1), monthFromMarch (m + 1), 1⟩ := by
  unfold next
  rw [if_neg (Nat.lt_irrefl _)]
  unfold yearFromMarch
  interval_cases m <;> simp [monthFromMarch]

theorem next_ofMarch (h : marchStart year + (day + 1) < marchStart (year + 1)) :
    (ofMarch year day).next = ofMarch year (day + 1) := by
  have hbound : marchStart year + day < marchStart (year + 1) := by omega
  obtain ⟨m, hle, hmonth, hday⟩ := exists_month hbound
  rw [ofMarch_of_month hmonth]
  rcases Nat.lt_or_ge (day + 1) (monthStart (m + 1)) with hin | hend
  · -- Within a month, which may be the February that ends the year.
    have hnext : marchStart year + (day + 1 : Nat) < marchStart (year + 1) := by exact_mod_cast h
    obtain ⟨m', -, hmonth', hday'⟩ := exists_month hnext
    obtain rfl : m' = m := by
      rw [← monthOfDay_iff.2 hmonth', ← monthOfDay_iff.2 ⟨Nat.le_succ_of_le hmonth.1, hin⟩]
    rw [ofMarch_of_month hmonth', next, if_pos (by simp only; omega)]
    simp only
    congr 1
    omega
  · -- From one month to the next.
    have hfeb := daysInMonth_february (year + 1)
    have hyear := marchStart_succ year
    have hm : m ≤ 10 := by
      rcases Nat.lt_or_ge m 11 with hlt | hge
      · omega
      · obtain rfl : m = 11 := by omega
        unfold monthStart at hend
        omega
    have hnext : monthStart (m + 1) ≤ day + 1 ∧ day + 1 < monthStart (m + 1 + 1) := by
      have := monthStart_lt (m + 1)
      omega
    have hend' := monthStart_succ hm (yearFromMarch year m)
    have hlast : day - monthStart m + 1 = daysInMonth (yearFromMarch year m) (monthFromMarch m) := by omega
    have hfirst : day + 1 - monthStart (m + 1) + 1 = 1 := by omega
    rw [ofMarch_of_month hnext, hlast, hfirst, next_month hm]

theorem next_ofMarch_last (h : marchStart year + (day + 1) = marchStart (year + 1)) :
    (ofMarch year day).next = ofMarch (year + 1) 0 := by
  have hyear := marchStart_succ year
  have hfeb := daysInMonth_february (year + 1)
  have hmonth : monthStart 11 ≤ day ∧ day < monthStart 12 := by
    unfold monthStart
    omega
  have hlast : ¬ day - monthStart 11 + 1 < daysInMonth (year + 1) 2 := by
    unfold monthStart
    omega
  rw [ofMarch_of_month hmonth]
  change next ⟨year + 1, 2, _⟩ = ⟨year + 1 + 0, 3, 1⟩
  simp [next, hlast]

end OfMarch

theorem ofDay_zero : ofDay 0 = ⟨1970, 1, 1⟩ := rfl

/-- **Days follow each other as dates do.** -/
theorem ofDay_succ (n : Int) : ofDay (n + 1) = (ofDay n).next := by
  obtain ⟨year, day, hstart, hbound, hdate⟩ := ofDay_eq_ofMarch n
  rw [hdate]
  rcases Int.lt_or_le (marchStart year + (day + 1)) (marchStart (year + 1)) with hin | hend
  · have hn : n + 1 = marchStart year + (day + 1 : Nat) - 719468 := by omega
    rw [next_ofMarch hin, hn]
    exact ofDay_march (by exact_mod_cast hin)
  · have hlast : marchStart year + (day + 1) = marchStart (year + 1) := by omega
    have hn : n + 1 = marchStart (year + 1) + (0 : Nat) - 719468 := by omega
    have hnext : marchStart (year + 1) < marchStart (year + 1 + 1) := by
      rw [marchStart_succ (year + 1)]
      omega
    rw [next_ofMarch_last hlast, hn]
    exact ofDay_march (by simpa using hnext)

theorem valid_ofDay (n : Int) : (ofDay n).Valid := by
  obtain ⟨year, day, hstart, hbound, hdate⟩ := ofDay_eq_ofMarch n
  rw [hdate]
  exact valid_ofMarch (by omega)

/-- Up to the end of a month only the day of the month moves. -/
theorem ofDay_add (n : Int) (j : Nat) (h : (ofDay n).day + j ≤ daysInMonth (ofDay n).year (ofDay n).month) :
    ofDay (n + j) = ⟨(ofDay n).year, (ofDay n).month, (ofDay n).day + j⟩ := by
  induction j with
  | zero => simp
  | succ j ih =>
    have hj := ih (by omega)
    have hn : n + (j + 1 : Nat) = n + j + 1 := by omega
    rw [hn, ofDay_succ, hj]
    unfold next
    rw [if_pos (by simp only; omega)]
    rfl

end Date

end Allotment
