import Allotment.Proofs.Time.Calendar

/-!
# From dates back to days, and how far apart leap days are

* `Date.toDay` — the day of a date; `Date.ofDay_toDay`, `Date.toDay_ofDay` — a day and its date tell each other;
* `Date.valid_of_valid` — a date that some year has is one that every year has, or a leap day;
* `Date.exists_ofDay_after` — a date that every year has comes again within two years;
* `isLeap_iff`, `exists_leapYear_before` — leap years follow each other after four years, or after eight around the turn
  of a century;
* `leapDayOf` — the leap day of a year; `leapDayOf_add_four`, `leapDayOf_add_eight` — how many days lie between two of them.
-/

namespace Allotment

theorem daysInMonth_bounds (year : Int) (month : Nat) : 28 ≤ daysInMonth year month ∧ daysInMonth year month ≤ 31 := by
  unfold daysInMonth
  split
  · split <;> omega
  · split <;> omega

/-- Only February is shorter than thirty days. -/
theorem daysInMonth_of_ne_two {month : Nat} (h : month ≠ 2) (year : Int) : 30 ≤ daysInMonth year month := by
  unfold daysInMonth
  rw [if_neg h]
  split <;> omega

namespace Date

/-! ### The day of a date -/

/-- The year that began in March before a date. -/
def marchYear (d : Date) : Int := if d.month ≤ 2 then d.year - 1 else d.year

/-- The month of a date, with March as the month 0. -/
def marchMonth (d : Date) : Nat := if d.month ≤ 2 then d.month + 9 else d.month - 3

/-- The day of a date, counted from the first of January 1970. -/
def toDay (d : Date) : Int :=
  marchStart d.marchYear + (monthStart d.marchMonth + (d.day - 1) : Nat) - 719468

variable {d : Date}

theorem Valid.marchMonth_le (h : d.Valid) : d.marchMonth ≤ 11 := by
  have := h.month_le
  unfold marchMonth
  split <;> omega

theorem Valid.monthFromMarch_marchMonth (h : d.Valid) : monthFromMarch d.marchMonth = d.month := by
  have := h.month_pos
  have := h.month_le
  unfold monthFromMarch marchMonth
  split <;> split <;> omega

theorem Valid.yearFromMarch_marchYear (h : d.Valid) : yearFromMarch d.marchYear d.marchMonth = d.year := by
  unfold yearFromMarch
  rw [h.monthFromMarch_marchMonth]
  unfold marchYear
  split <;> omega

/-- A date lies within its month, and within its March year. -/
theorem Valid.within (h : d.Valid) :
    monthStart d.marchMonth + (d.day - 1) < monthStart (d.marchMonth + 1) ∧
      marchStart d.marchYear + (monthStart d.marchMonth + (d.day - 1) : Nat) < marchStart (d.marchYear + 1) := by
  have hyear := marchStart_succ d.marchYear
  have hfeb := daysInMonth_february (d.marchYear + 1)
  have hday := h.day_pos
  have hlast := h.day_le
  rw [← h.yearFromMarch_marchYear, ← h.monthFromMarch_marchMonth] at hlast
  have hle := h.marchMonth_le
  generalize d.marchMonth = m at *
  rcases Nat.lt_or_ge m 11 with hlt | hge
  · have hnext := monthStart_succ (show m ≤ 10 by omega) (yearFromMarch d.marchYear m)
    have hstart : monthStart (m + 1) ≤ monthStart 11 := by
      unfold monthStart
      omega
    have hfebruary : monthStart 11 = 337 := rfl
    omega
  · obtain rfl : m = 11 := by omega
    have hstart : monthStart 11 = 337 ∧ monthStart (11 + 1) = 367 := ⟨rfl, rfl⟩
    have hmonth : daysInMonth (yearFromMarch d.marchYear 11) (monthFromMarch 11) = daysInMonth (d.marchYear + 1) 2 := rfl
    omega

theorem ofDay_toDay (h : d.Valid) : ofDay d.toDay = d := by
  obtain ⟨hmonth, hyear⟩ := h.within
  have hday := h.day_pos
  unfold toDay
  rw [ofDay_march hyear, ofMarch_of_month ⟨Nat.le_add_right _ _, hmonth⟩, h.yearFromMarch_marchYear,
    h.monthFromMarch_marchMonth]
  obtain ⟨year, month, day⟩ := d
  simp only [mk.injEq, true_and]
  simp only at hday
  omega

theorem marchYear_mk (year : Int) {m : Nat} (day : Nat) (hm : m ≤ 11) :
    marchYear ⟨yearFromMarch year m, monthFromMarch m, day⟩ = year ∧
      marchMonth ⟨yearFromMarch year m, monthFromMarch m, day⟩ = m := by
  unfold marchYear marchMonth yearFromMarch monthFromMarch
  simp only
  split <;> split <;> omega

theorem toDay_ofDay (n : Int) : (ofDay n).toDay = n := by
  obtain ⟨year, day, hstart, hbound, hdate⟩ := ofDay_eq_ofMarch n
  have hyear : marchStart year + day < marchStart (year + 1) := by omega
  obtain ⟨m, hm, hmonth, -⟩ := exists_month hyear
  rw [hdate, ofMarch_of_month hmonth]
  unfold toDay
  obtain ⟨hmarchYear, hmarchMonth⟩ := marchYear_mk year (day - monthStart m + 1) hm
  rw [hmarchYear, hmarchMonth]
  simp only
  omega

/-! ### Dates that come every year -/

/-- Only the leap day is missing from some years. -/
theorem valid_of_valid {y y' : Int} {m day : Nat} (h : (mk y m day).Valid) :
    (mk y' m day).Valid ∨ (m = 2 ∧ day = 29) := by
  have hlast : day ≤ daysInMonth y m := h.day_le
  by_cases hm : m = 2
  · subst hm
    have hfeb := daysInMonth_february y
    have hfeb' := daysInMonth_february y'
    rcases Nat.lt_or_ge day 29 with hlt | hge
    · exact .inl ⟨h.month_pos, h.month_le, h.day_pos, by simp only; omega⟩
    · exact .inr ⟨rfl, by omega⟩
  · have hsame : daysInMonth y m = daysInMonth y' m := by
      unfold daysInMonth
      rw [if_neg hm, if_neg hm]
    exact .inl ⟨h.month_pos, h.month_le, h.day_pos, hsame ▸ hlast⟩

/-- A date that every year has comes again within two years. -/
theorem exists_ofDay_after {m day : Nat} (h : ∀ y, (mk y m day).Valid) (n : Int) :
    ∃ k y, n < k ∧ k ≤ n + 731 ∧ ofDay k = ⟨y, m, day⟩ := by
  obtain ⟨year, dayOfYear, hstart, hbound, -⟩ := ofDay_eq_ofMarch n
  -- The date in the next March year.
  let y := if m ≤ 2 then year + 2 else year + 1
  have hyear : marchYear ⟨y, m, day⟩ = year + 1 := by
    unfold marchYear
    simp only [y]
    split <;> omega
  have hwithin := (h y).within.2
  have hnext := marchStart_succ year
  have hnext' := marchStart_succ (year + 1)
  have hfeb := daysInMonth_february (year + 1)
  have hfeb' := daysInMonth_february (year + 1 + 1)
  refine ⟨toDay ⟨y, m, day⟩, y, ?_, ?_, ofDay_toDay (h y)⟩
  · unfold toDay
    rw [hyear]
    omega
  · unfold toDay
    rw [hyear] at hwithin ⊢
    omega

end Date

/-! ### Leap years -/

theorem isLeap_iff {y : Int} : isLeap y = true ↔ y % 4 = 0 ∧ (y % 100 ≠ 0 ∨ y % 400 = 0) := by
  simp [isLeap]

/-- A year that ends a century, and is no leap year although four divides it. -/
def CommonCentury (y : Int) : Prop := y % 100 = 0 ∧ y % 400 ≠ 0

instance (y : Int) : Decidable (CommonCentury y) :=
  inferInstanceAs (Decidable (_ ∧ _))

/-- The last leap year up to a year, and the next one, which comes four years later, or eight if there is a common
century in between. -/
theorem exists_leapYear_before (year : Int) :
    ∃ y ≤ year, isLeap y = true ∧
      ((year < y + 4 ∧ isLeap (y + 4) = true) ∨
        (year < y + 8 ∧ isLeap (y + 8) = true ∧ CommonCentury (y + 4))) := by
  simp only [isLeap_iff, CommonCentury]
  by_cases hleap : year / 4 * 4 % 100 ≠ 0 ∨ year / 4 * 4 % 400 = 0
  · refine ⟨year / 4 * 4, by omega, ⟨by omega, hleap⟩, ?_⟩
    by_cases hnext : (year / 4 * 4 + 4) % 100 ≠ 0 ∨ (year / 4 * 4 + 4) % 400 = 0
    · exact .inl ⟨by omega, by omega, hnext⟩
    · exact .inr ⟨by omega, ⟨by omega, by omega⟩, by omega⟩
  · refine ⟨year / 4 * 4 - 4, by omega, ⟨by omega, by omega⟩, .inr ⟨by omega, ⟨by omega, by omega⟩, by omega⟩⟩

theorem valid_leapDay_iff {y : Int} : (Date.mk y 2 29).Valid ↔ isLeap y = true := by
  constructor
  · intro h
    have hlast : 29 ≤ daysInMonth y 2 := h.day_le
    unfold daysInMonth at hlast
    rw [if_pos rfl] at hlast
    split at hlast
    · assumption
    · omega
  · intro h
    exact ⟨Nat.le_succ 1, by simp, by simp, by simp [daysInMonth, h]⟩

/-- The day of the leap day of a year. -/
def leapDayOf (y : Int) : Int := Date.toDay ⟨y, 2, 29⟩

theorem leapDayOf_eq (y : Int) : leapDayOf y = marchStart (y - 1) + 365 - 719468 := by
  simp [leapDayOf, Date.toDay, Date.marchYear, Date.marchMonth, monthStart]

theorem ofDay_eq_leapDay_iff {n y : Int} : Date.ofDay n = ⟨y, 2, 29⟩ ↔ isLeap y = true ∧ n = leapDayOf y := by
  constructor
  · intro h
    have hvalid := Date.valid_ofDay n
    have hday := Date.toDay_ofDay n
    rw [h] at hvalid hday
    exact ⟨valid_leapDay_iff.1 hvalid, hday.symm⟩
  · rintro ⟨hleap, rfl⟩
    exact Date.ofDay_toDay (valid_leapDay_iff.2 hleap)

theorem leapDayOf_mono {y y' : Int} (h : y ≤ y') : leapDayOf y ≤ leapDayOf y' := by
  have := marchStart_mono (show y - 1 ≤ y' - 1 by omega)
  rw [leapDayOf_eq, leapDayOf_eq]
  omega

theorem leapDayOf_add_four {y : Int} (h : isLeap y = true) : leapDayOf (y + 4) = leapDayOf y + 1461 := by
  rw [isLeap_iff] at h
  rw [leapDayOf_eq, leapDayOf_eq]
  unfold marchStart
  omega

theorem leapDayOf_add_eight {y : Int} (h : isLeap y = true) (hcentury : CommonCentury (y + 4)) :
    leapDayOf (y + 8) = leapDayOf y + 2921 := by
  rw [isLeap_iff] at h
  unfold CommonCentury at hcentury
  rw [leapDayOf_eq, leapDayOf_eq]
  unfold marchStart
  omega

/-- Between which leap days a day lies. -/
theorem exists_leapDay_before (n : Int) :
    ∃ y, isLeap y = true ∧ leapDayOf y ≤ n ∧
      ((n < leapDayOf (y + 4) ∧ isLeap (y + 4) = true) ∨
        (n < leapDayOf (y + 8) ∧ isLeap (y + 8) = true ∧ CommonCentury (y + 4))) := by
  obtain ⟨year, day, hstart, hbound, -⟩ := Date.ofDay_eq_ofMarch (n + 1)
  -- A leap day is the last day of its March year.
  have hleapDay : ∀ {y : Int}, isLeap y = true → leapDayOf y = marchStart y - 1 - 719468 := by
    intro y hy
    rw [isLeap_iff] at hy
    rw [leapDayOf_eq]
    unfold marchStart
    omega
  obtain ⟨y, hle, hleap, hnext⟩ := exists_leapYear_before year
  refine ⟨y, hleap, ?_, hnext.imp ?_ ?_⟩
  · have := marchStart_mono hle
    rw [hleapDay hleap]
    omega
  · rintro ⟨hlt, hleap'⟩
    have := marchStart_mono (show year + 1 ≤ y + 4 by omega)
    rw [hleapDay hleap']
    exact ⟨by omega, hleap'⟩
  · rintro ⟨hlt, hleap', hcentury⟩
    have := marchStart_mono (show year + 1 ≤ y + 8 by omega)
    rw [hleapDay hleap']
    exact ⟨by omega, hleap', hcentury⟩

end Allotment
