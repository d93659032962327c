import Allotment.Proofs.Time.Calendar
import Allotment.Schedule.Occurrence

/-!
# The search for occurrences leaves none out

The search goes over a month, a day or an hour at once where no minute of it can be due. So it finds what a search from
minute to minute finds.

* `not_dueAt_of_step` — what one step passes over is not due;
* `CronFields.FoundFrom`, `firstDue?_found` — what a search has to find, and that this one finds it;
* `CronFields.Occurs`, `CronFields.Earliest` — the occurrences after an instant, and the earliest of them;
* `Schedule.next?_earliest` — the earliest occurrence is what the search finds, and it fails only if there is none.
-/

namespace Allotment

/-! ### Parts of a minute -/

section Parts

variable {m k : Int}

theorem dayOfMinute_eq_of_lt (h : m ≤ k) (h' : k < m + CronFields.toNextDay m) : dayOfMinute k = dayOfMinute m := by
  unfold CronFields.toNextDay minutesPerDay at h'
  unfold dayOfMinute minutesPerDay
  omega

theorem hourOfMinute_eq_of_lt (h : m ≤ k) (h' : k < m + CronFields.toNextHour m) :
    hourOfMinute k = hourOfMinute m := by
  unfold CronFields.toNextHour minutesPerHour at h'
  unfold hourOfMinute minutesPerDay minutesPerHour
  omega

/-- Before the next month begins the days are those of the same month. -/
theorem month_eq_of_lt (h : m ≤ k) (h' : k < m + CronFields.toNextMonth m) :
    (Date.ofDay (dayOfMinute k)).month = (Date.ofDay (dayOfMinute m)).month := by
  have hvalid := (Date.valid_ofDay (dayOfMinute m)).day_le
  have hday : dayOfMinute m ≤ dayOfMinute k := by
    unfold dayOfMinute minutesPerDay
    omega
  obtain ⟨j, hj⟩ := Int.le.dest hday
  have hleft : (Date.ofDay (dayOfMinute m)).day + j ≤
      daysInMonth (Date.ofDay (dayOfMinute m)).year (Date.ofDay (dayOfMinute m)).month := by
    unfold CronFields.toNextMonth CronFields.toNextDay minutesPerDay at h'
    simp only at h'
    unfold dayOfMinute minutesPerDay at hj h' hvalid ⊢
    omega
  rw [← hj, Date.ofDay_add _ _ hleft]

end Parts

namespace CronFields

variable {f : CronFields}

/-- No minute that a step passes over is due: the field that is not due at its start is not due at any of them. -/
theorem not_dueAt_of_step {m n k : Int} (hstep : f.step m = some n) (h : m ≤ k) (h' : k < m + n) : ¬ f.DueAt k := by
  intro hdue
  obtain ⟨hmonth, hday, hhour, hminute⟩ := hdue
  unfold step at hstep
  split at hstep
  · next hnot =>
    obtain rfl := Option.some.inj hstep
    unfold MonthDue at hmonth hnot
    rw [month_eq_of_lt h h'] at hmonth
    exact hnot hmonth
  · split at hstep
    · next hnot =>
      obtain rfl := Option.some.inj hstep
      rw [dayOfMinute_eq_of_lt h h'] at hday
      exact hnot hday
    · split at hstep
      · next hnot =>
        obtain rfl := Option.some.inj hstep
        rw [hourOfMinute_eq_of_lt h h'] at hhour
        exact hnot hhour
      · split at hstep
        · next hnot =>
          obtain rfl := Option.some.inj hstep
          obtain rfl : k = m := by omega
          exact hnot hminute
        · cases hstep

theorem firstDue?_of_step {m n limit : Int} (h : m ≤ limit) (hstep : f.step m = some n) :
    f.firstDue? m limit = f.firstDue? (m + n) limit := by
  rw [firstDue?, if_neg (by omega)]
  split
  · next hnone => rw [hstep] at hnone; cases hnone
  · next n' hsome =>
    rw [hstep] at hsome
    obtain rfl := Option.some.inj hsome
    rfl

theorem firstDue?_of_due {m limit : Int} (h : m ≤ limit) (hstep : f.step m = none) :
    f.firstDue? m limit = some m := by
  rw [firstDue?, if_neg (by omega)]
  split
  · rfl
  · next n' hsome => rw [hstep] at hsome; cases hsome

/-- What a search from a minute up to a limit has to find. -/
def FoundFrom (f : CronFields) (m limit : Int) : Option Int → Prop
  | some k => (m ≤ k ∧ k ≤ limit ∧ f.DueAt k) ∧ ∀ j, m ≤ j → j < k → ¬ f.DueAt j
  | none => ∀ j, m ≤ j → j ≤ limit → ¬ f.DueAt j

/-- A search may begin later, if nothing is due in between. -/
theorem FoundFrom.of_later {m n limit : Int} {found : Option Int} (hn : 0 < n)
    (hskip : ∀ j, m ≤ j → j < m + n → ¬ f.DueAt j) (h : f.FoundFrom (m + n) limit found) :
    f.FoundFrom m limit found := by
  cases found with
  | some k =>
    obtain ⟨⟨hfrom, hlimit, hdue⟩, hearliest⟩ := h
    refine ⟨⟨by omega, hlimit, hdue⟩, fun j hj hjk => ?_⟩
    rcases Int.lt_or_le j (m + n) with hlt | hge
    · exact hskip j hj hlt
    · exact hearliest j hge hjk
  | none =>
    intro j hj hlimit
    rcases Int.lt_or_le j (m + n) with hlt | hge
    · exact hskip j hj hlt
    · exact h j hge hlimit

/-- The search finds what it has to, by induction on its steps. -/
theorem firstDue?_found (f : CronFields) (m limit : Int) : f.FoundFrom m limit (f.firstDue? m limit) := by
  fun_induction firstDue? f m limit with
  | case1 m hlimit => exact fun j hj hj' => absurd hlimit (by omega)
  | case2 m hlimit hstep =>
    exact ⟨⟨Int.le_refl m, by omega, step_eq_none_iff.1 hstep⟩, fun j hj hj' => absurd hj (by omega)⟩
  | case3 m hlimit n hstep ih =>
    exact ih.of_later (step_pos hstep) fun j hj hj' => not_dueAt_of_step hstep hj hj'

/-! ### Occurrences after an instant -/

/-- Fields occur after an instant: at a whole minute that is due, and not beyond the horizon. -/
structure Occurs (f : CronFields) (t o : Instant) : Prop where
  whole : o.nanos % nanosPerMinute = 0
  after : t.nanos < o.nanos
  upToHorizon : o.nanos ≤ t.nanos + Schedule.horizon.nanos
  due : f.DueAt (o.nanos / nanosPerMinute)

/-- No occurrence after an instant is earlier. -/
def Earliest (f : CronFields) (t o : Instant) : Prop :=
  f.Occurs t o ∧ ∀ o', f.Occurs t o' → o.nanos ≤ o'.nanos

theorem nanosPerMinute_eq : nanosPerMinute = 60000000000 := rfl

theorem occurs_iff {t o : Instant} :
    f.Occurs t o ↔ ∃ k, o = ⟨k * nanosPerMinute⟩ ∧ f.DueAt k ∧ t.nanos / nanosPerMinute + 1 ≤ k ∧
      k ≤ (t.nanos + Schedule.horizon.nanos) / nanosPerMinute := by
  constructor
  · rintro ⟨hwhole, hafter, hhorizon, hdue⟩
    refine ⟨o.nanos / nanosPerMinute, ?_, hdue, ?_, ?_⟩
    · exact congrArg Instant.mk (Int.ediv_mul_cancel (Int.dvd_of_emod_eq_zero hwhole)).symm
    · rw [nanosPerMinute_eq] at hwhole ⊢
      omega
    · rw [nanosPerMinute_eq] at hwhole ⊢
      omega
  · rintro ⟨k, rfl, hdue, hafter, hhorizon⟩
    have hminute : k * nanosPerMinute / nanosPerMinute = k := Int.mul_ediv_cancel k (by decide)
    rw [nanosPerMinute_eq] at hafter hhorizon
    refine ⟨Int.mul_emod_left _ _, ?_, ?_, ?_⟩
    · simp only [nanosPerMinute_eq]
      omega
    · simp only [nanosPerMinute_eq]
      omega
    · simp only [hminute]
      exact hdue

theorem next?_eq {t : Instant} (ht : t.nanos + Schedule.horizon.nanos ≤ Instant.last.nanos) :
    f.next? t = (f.firstDue? (t.nanos / nanosPerMinute + 1)
      ((t.nanos + Schedule.horizon.nanos) / nanosPerMinute)).map fun m => ⟨m * nanosPerMinute⟩ := by
  unfold next? Instant.later?
  rw [if_pos ht]

/-- The search finds an occurrence that is the earliest, or there is none. -/
theorem next?_found {t : Instant} (ht : t.nanos + Schedule.horizon.nanos ≤ Instant.last.nanos) :
    match f.next? t with
    | some o => f.Earliest t o
    | none => ∀ o, ¬ f.Occurs t o := by
  have hfound := f.firstDue?_found (t.nanos / nanosPerMinute + 1)
    ((t.nanos + Schedule.horizon.nanos) / nanosPerMinute)
  rw [next?_eq ht]
  cases hsearch : f.firstDue? (t.nanos / nanosPerMinute + 1)
      ((t.nanos + Schedule.horizon.nanos) / nanosPerMinute) with
  | none =>
    rw [hsearch] at hfound
    intro o ho
    obtain ⟨k, -, hdue, hafter, hhorizon⟩ := occurs_iff.1 ho
    exact hfound k hafter hhorizon hdue
  | some m =>
    rw [hsearch] at hfound
    obtain ⟨⟨hafter, hhorizon, hdue⟩, hearliest⟩ := hfound
    refine ⟨occurs_iff.2 ⟨m, rfl, hdue, hafter, hhorizon⟩, fun o ho => ?_⟩
    obtain ⟨k, rfl, hdue', hafter', -⟩ := occurs_iff.1 ho
    have hle : m ≤ k := Int.not_lt.1 fun hlt => hearliest k hafter' hlt hdue'
    simp only [nanosPerMinute_eq]
    omega

theorem Earliest.unique {t o o' : Instant} (h : f.Earliest t o) (h' : f.Earliest t o') : o = o' := by
  have hle := h.2 o' h'.1
  have hle' := h'.2 o h.1
  obtain ⟨n⟩ := o
  obtain ⟨n'⟩ := o'
  exact congrArg Instant.mk (Int.le_antisymm hle hle')

end CronFields

/-- **The search finds the earliest occurrence**, and fails exactly if there is none, as long as the calendar reaches up
to the horizon. -/
theorem Schedule.next?_earliest (f : CronFields) (t : Instant)
    (ht : t.nanos + horizon.nanos ≤ Instant.last.nanos) :
    (∀ o, (fields f).next? t = some o ↔ f.Earliest t o) ∧
      ((fields f).next? t = none ↔ ∀ o, ¬ f.Occurs t o) := by
  have hfound := CronFields.next?_found (f := f) ht
  change (∀ o, f.next? t = some o ↔ _) ∧ (f.next? t = none ↔ _)
  cases hnext : f.next? t with
  | some o =>
    rw [hnext] at hfound
    refine ⟨fun o' => ⟨?finds, ?only⟩, ⟨nofun, fun hnone => absurd hfound.1 (hnone o)⟩⟩
    case finds =>
      intro heq
      obtain rfl := Option.some.inj heq
      exact hfound
    case only =>
      intro hearliest
      exact congrArg some (hfound.unique hearliest)
  | none =>
    rw [hnext] at hfound
    exact ⟨fun o => ⟨nofun, fun hearliest => absurd hearliest.1 (hfound o)⟩, ⟨fun _ => hfound, fun _ => rfl⟩⟩

/-- Midnight of the leap day. -/
def leapDay : CronFields :=
  ⟨⟨[0], false⟩, ⟨[0], false⟩, ⟨[29], false⟩, ⟨[2], false⟩, ⟨[0, 1, 2, 3, 4, 5, 6], true⟩⟩

theorem Schedule.next?_earliest_leapDay :
    Schedule.read "0 0 29 2 *" = .ok (fields leapDay) ∧
      (let t := Instant.ofParts 1709078400 0
       t.nanos + horizon.nanos ≤ Instant.last.nanos ∧ leapDay.Earliest t (Instant.ofParts 1709164800 0)) := by
  have ht : (Instant.ofParts 1709078400 0).nanos + horizon.nanos ≤ Instant.last.nanos := by decide
  have hday : leapDay.step 28484641 = some 1439 := by decide
  have hmidnight : leapDay.step (28484641 + 1439) = none := by decide
  have hsearch : leapDay.firstDue? 28484641 31119840 = some 28486080 := by
    rw [CronFields.firstDue?_of_step (by decide) hday, CronFields.firstDue?_of_due (by decide) hmidnight]
    rfl
  have hnext : leapDay.next? (Instant.ofParts 1709078400 0) = some (Instant.ofParts 1709164800 0) := by
    rw [CronFields.next?_eq ht]
    change (leapDay.firstDue? 28484641 31119840).map _ = _
    rw [hsearch]
    rfl
  exact ⟨rfl, ht, ((next?_earliest leapDay _ ht).1 _).1 hnext⟩

end Allotment
