import Allotment.Proofs.Numeral
import Allotment.Proofs.Reading
import Allotment.Time.Span

/-!
# The grammar of spans

* `Segment` — digits with a unit behind them, an amount of so many nanoseconds; `Segment.Fits` says that the amount is a
  64-bit word, and that so are the seconds it comes to in minutes or hours;
* `SpanText cs s` — the characters `cs` spell the span `s`, as a number of seconds or in segments;
* `readSegments_flatMap_eq_ok_iff`, `exists_segments_of_readSegments` — segments are added up exactly, and nothing but
  segments is;
* `read_eq_ok_iff` — a span is read from just the texts that spell it;
* `read_congr_of_perm` — the order of the segments does not matter.
-/

namespace Allotment.Span

/-- Digits, and the unit that they count. -/
structure Segment where
  digits : List Char
  unit : TimeUnit
  isNumeral : Numeral.isNumeral digits = true

namespace Segment

def text (g : Segment) : List Char := g.digits ++ g.unit.text

def amount (g : Segment) : Nat := Numeral.ofDigits g.digits

def nanos (g : Segment) : Nat := g.amount * g.unit.nanos

/-- The amount is a 64-bit word, and so are the seconds that it comes to in minutes or hours. -/
structure Fits (g : Segment) : Prop where
  amount : g.amount < wordLimit
  minutes : g.unit = .minute → g.amount * 60 < wordLimit
  hours : g.unit = .hour → g.amount * 3600 < wordLimit

/-- What segments come to together. -/
def total : List Segment → Nat
  | [] => 0
  | g :: gs => g.nanos + total gs

@[simp] theorem total_nil : total [] = 0 := rfl

@[simp] theorem total_cons (g : Segment) (gs : List Segment) : total (g :: gs) = g.nanos + total gs := rfl

theorem total_perm {gs gs' : List Segment} (h : gs.Perm gs') : total gs = total gs' := by
  induction h with
  | nil => rfl
  | cons g _ ih => rw [total_cons, total_cons, ih]
  | swap g g' gs => simp only [total_cons, Nat.add_left_comm]
  | trans _ _ ih ih' => rw [ih, ih']

theorem isDigit_of_mem_digits (g : Segment) {c : Char} (hc : c ∈ g.digits) : c.isDigit = true :=
  (Numeral.isNumeral_iff.1 g.isNumeral).2 c hc

theorem digits_ne_nil (g : Segment) : g.digits ≠ [] :=
  (Numeral.isNumeral_iff.1 g.isNumeral).1

end Segment

open Segment

/-- The longest span: the most seconds that 64 bits count, and the most nanoseconds that are not a second more. -/
def longest : Span := ⟨(wordLimit - 1) * nanosPerSecond + 999999999⟩

theorem lt_limit_iff {n : Nat} : n < limit ↔ n ≤ longest.nanos := by
  have hlimit : limit = longest.nanos + 1 := by decide
  rw [hlimit, Nat.lt_succ_iff]

/-- A number by itself spells seconds; segments spell what they come to together, if that is a span at all. -/
inductive SpanText : List Char → Span → Prop
  | seconds {cs : List Char} {n : Nat} (h : NumberText cs n) (hn : n < wordLimit) : SpanText cs (ofSeconds n)
  | segments {gs : List Segment} (hne : gs ≠ []) (hfits : ∀ g ∈ gs, g.Fits) (htotal : total gs ≤ longest.nanos) :
    SpanText (gs.flatMap text) ⟨total gs⟩

/-! ### One segment -/

theorem TimeUnit.text_ne_nil (u : TimeUnit) : u.text ≠ [] := by
  cases u <;> decide

theorem TimeUnit.not_isDigit_of_mem_text {u : TimeUnit} {c : Char} (hc : c ∈ u.text) : c.isDigit = false := by
  have hall : u.text.all (fun c => !c.isDigit) = true := by cases u <;> decide
  simpa using List.all_eq_true.1 hall c hc

theorem TimeUnit.text_of_read? {cs : List Char} {u : TimeUnit} (h : read? cs = some u) : u.text = cs := by
  have hfound := List.find?_some h
  exact of_decide_eq_true hfound

/-- So many times a number of seconds is a span if that many seconds are a word. -/
theorem mul_seconds_lt_limit_iff {n k : Nat} : n * (k * nanosPerSecond) < limit ↔ n * k < wordLimit := by
  rw [limit, ← Nat.mul_assoc, Nat.mul_lt_mul_right (by decide)]

theorem Segment.fits_iff {g : Segment} : g.Fits ↔ g.amount < wordLimit ∧ g.nanos < limit := by
  obtain ⟨digits, unit, hdigits⟩ := g
  have hshort : nanosPerMilli ≤ nanosPerSecond := by decide
  have hsecond : 0 < nanosPerSecond := by decide
  constructor
  · rintro ⟨hamount, hminutes, hhours⟩
    refine ⟨hamount, ?_⟩
    cases unit with
    | millisecond => exact Nat.lt_of_le_of_lt (Nat.mul_le_mul_left _ hshort) (Nat.mul_lt_mul_of_pos_right hamount hsecond)
    | second => exact Nat.mul_lt_mul_of_pos_right hamount hsecond
    | minute => exact mul_seconds_lt_limit_iff.2 (hminutes rfl)
    | hour => exact mul_seconds_lt_limit_iff.2 (hhours rfl)
  · rintro ⟨hamount, hnanos⟩
    refine ⟨hamount, ?_, ?_⟩
    · rintro rfl
      exact mul_seconds_lt_limit_iff.1 hnanos
    · rintro rfl
      exact mul_seconds_lt_limit_iff.1 hnanos

theorem addSegment_eq_ok_iff {input : String} {g : Segment} {total n : Nat} :
    addSegment input total g.digits g.unit.text = .ok n ↔
      g.Fits ∧ total + g.nanos < limit ∧ n = total + g.nanos := by
  have hamount : Numeral.ofDigits g.digits = g.amount := rfl
  have hnanos : g.amount * g.unit.nanos = g.nanos := rfl
  unfold addSegment
  simp only [TimeUnit.read?_text, hamount, hnanos, fits_iff]
  by_cases hword : g.amount < wordLimit
  · rw [if_neg (Nat.not_le_of_lt hword)]
    by_cases hfits : g.nanos < limit ∧ total + g.nanos < limit
    · simp [hword, hfits, eq_comm]
    · rw [if_neg hfits]
      simp only [reduceCtorEq, false_iff]
      rintro ⟨⟨-, hsegment⟩, hsum, -⟩
      exact hfits ⟨hsegment, hsum⟩
  · rw [if_pos (Nat.le_of_not_lt hword)]
    simp [hword]

section Segments

variable {input : String} {total n : Nat} {cs rest : List Char} {gs gs' : List Segment}

/-- A segment is read up to the next digit. -/
theorem readSegments_text_append (g : Segment) (hrest : ∀ c ∈ rest.head?, c.isDigit = true) :
    readSegments input total (g.text ++ rest) =
      addSegment input total g.digits g.unit.text >>= fun total => readSegments input total rest := by
  have hdigits : ∀ c ∈ g.digits, c.isDigit = true := fun c hc => g.isDigit_of_mem_digits hc
  have hunit : ∀ c ∈ g.unit.text, (!c.isDigit) = true := fun c hc => by
    rw [TimeUnit.not_isDigit_of_mem_text hc]
    rfl
  obtain ⟨c, cs, hcs⟩ := List.exists_cons_of_ne_nil g.unit.text_ne_nil
  have hc : ¬ c.isDigit = true := by
    rw [TimeUnit.not_isDigit_of_mem_text (hcs ▸ List.mem_cons_self)]
    decide
  have htake : rest.takeWhile (fun c => !c.isDigit) = [] := by
    cases rest with
    | nil => rfl
    | cons d ds => simp [hrest d rfl]
  have hdrop : rest.dropWhile (fun c => !c.isDigit) = rest := by
    cases rest with
    | nil => rfl
    | cons d ds => simp [hrest d rfl]
  have hamount : (g.text ++ rest).takeWhile Char.isDigit = g.digits := by
    rw [Segment.text, List.append_assoc, List.takeWhile_append_of_pos hdigits, hcs, List.cons_append,
      List.takeWhile_cons_of_neg hc, List.append_nil]
  have hbehind : (g.text ++ rest).dropWhile Char.isDigit = g.unit.text ++ rest := by
    rw [Segment.text, List.append_assoc, List.dropWhile_append_of_pos hdigits, hcs, List.cons_append,
      List.dropWhile_cons_of_neg hc]
  rw [readSegments]
  simp only [hamount, hbehind, List.takeWhile_append_of_pos hunit, List.dropWhile_append_of_pos hunit, htake, hdrop,
    List.append_nil, g.digits_ne_nil, dite_false]
  rw [if_neg (by simp [Segment.text, g.digits_ne_nil]), if_neg (by simp [g.unit.text_ne_nil])]
  cases addSegment input total g.digits g.unit.text with
  | error e => rfl
  | ok total => rfl

theorem isDigit_of_mem_head? (gs : List Segment) : ∀ c ∈ (gs.flatMap text).head?, c.isDigit = true := by
  cases gs with
  | nil => simp
  | cons g gs =>
    obtain ⟨d, ds, hds⟩ := List.exists_cons_of_ne_nil g.digits_ne_nil
    intro c hc
    rw [List.flatMap_cons, Segment.text, hds] at hc
    obtain rfl := Option.some.inj hc
    exact g.isDigit_of_mem_digits (hds ▸ List.mem_cons_self)

/-- Segments are added up exactly, as far as there is room for them. -/
theorem readSegments_flatMap_eq_ok_iff (htotal : total < limit) :
    readSegments input total (gs.flatMap text) = .ok n ↔
      (∀ g ∈ gs, g.Fits) ∧ total + Segment.total gs < limit ∧ n = total + Segment.total gs := by
  induction gs generalizing total with
  | nil =>
    rw [List.flatMap_nil, readSegments]
    simp [htotal, eq_comm]
  | cons g gs ih =>
    rw [List.flatMap_cons, readSegments_text_append g (isDigit_of_mem_head? gs), bind_eq_ok_iff, total_cons,
      List.forall_mem_cons, ← Nat.add_assoc]
    constructor
    · rintro ⟨m, hm, hn⟩
      obtain ⟨hfits, hsum, rfl⟩ := addSegment_eq_ok_iff.1 hm
      obtain ⟨hall, hlimit, hn⟩ := (ih hsum).1 hn
      exact ⟨⟨hfits, hall⟩, hlimit, hn⟩
    · rintro ⟨⟨hfits, hall⟩, hlimit, hn⟩
      have hsum : total + g.nanos < limit := Nat.lt_of_le_of_lt (Nat.le_add_right _ _) hlimit
      exact ⟨_, addSegment_eq_ok_iff.2 ⟨hfits, hsum, rfl⟩, (ih hsum).2 ⟨hall, hlimit, hn⟩⟩

theorem exists_unit_of_addSegment {amount unit : List Char} (h : addSegment input total amount unit = .ok n) :
    ∃ u : TimeUnit, u.text = unit := by
  cases hunit : TimeUnit.read? unit with
  | some u => exact ⟨u, TimeUnit.text_of_read? hunit⟩
  | none =>
    simp only [addSegment, hunit] at h
    split at h
    · cases h
    · cases h

/-- What is read in segments is made of segments. -/
theorem exists_segments_of_readSegments (h : readSegments input total cs = .ok n) :
    ∃ gs : List Segment, cs = gs.flatMap text := by
  fun_induction readSegments input total cs with
  | case1 total cs hempty => exact ⟨[], List.isEmpty_iff.1 hempty⟩
  | case2 => cases h
  | case3 => cases h
  | case4 => cases h
  | case5 total cs _ amount rest _ hamount total' hadd ih =>
    obtain ⟨u, hu⟩ := exists_unit_of_addSegment hadd
    obtain ⟨gs, hgs⟩ := ih h
    have hnumeral : Numeral.isNumeral amount = true :=
      Numeral.isNumeral_iff.2 ⟨hamount, List.all_eq_true.1 List.all_takeWhile⟩
    refine ⟨⟨amount, u, hnumeral⟩ :: gs, ?_⟩
    rw [List.flatMap_cons, ← hgs, Segment.text, hu, List.append_assoc, List.takeWhile_append_dropWhile,
      List.takeWhile_append_dropWhile]

/-! ### The whole text -/

theorem exists_letter (hne : gs ≠ []) : ∃ u : TimeUnit, ∃ c ∈ u.text, c ∈ gs.flatMap text := by
  obtain ⟨g, hg⟩ := List.exists_mem_of_ne_nil _ hne
  obtain ⟨c, hc⟩ := List.exists_mem_of_ne_nil _ g.unit.text_ne_nil
  exact ⟨g.unit, c, hc, List.mem_flatMap.2 ⟨g, hg, List.mem_append_right _ hc⟩⟩

/-- Segments are no number: there are letters among them. -/
theorem below?_flatMap (hne : gs ≠ []) (limit : Nat) : Numeral.below? limit (gs.flatMap text) = none := by
  refine Option.eq_none_iff_forall_ne_some.2 fun n hn => ?_
  obtain ⟨u, c, hc, hmem⟩ := exists_letter hne
  rcases (Numeral.below?_eq_some_iff.1 hn).1.mem.2 c hmem with rfl | hdigit
  · exact absurd hc (by cases u <;> decide)
  · rw [TimeUnit.not_isDigit_of_mem_text hc] at hdigit
    cases hdigit

theorem read_segments_eq_ok_iff {s : Span} (h : Text.trim input.toList = gs.flatMap text) :
    read input = .ok s ↔ gs ≠ [] ∧ (∀ g ∈ gs, g.Fits) ∧ Segment.total gs ≤ longest.nanos ∧ s = ⟨Segment.total gs⟩ := by
  unfold read
  simp only [h]
  by_cases hne : gs = []
  · simp [hne]
  · obtain ⟨-, c, -, hc⟩ := exists_letter hne
    rw [if_neg (mt List.isEmpty_iff.1 (List.ne_nil_of_mem hc)), below?_flatMap hne]
    simp only [map_eq_ok_iff, readSegments_flatMap_eq_ok_iff (show 0 < limit by decide), Nat.zero_add, lt_limit_iff]
    constructor
    · rintro ⟨n, ⟨hfits, htotal, rfl⟩, rfl⟩
      exact ⟨hne, hfits, htotal, rfl⟩
    · rintro ⟨-, hfits, htotal, rfl⟩
      exact ⟨_, ⟨hfits, htotal, rfl⟩, rfl⟩

theorem read_eq_ok_iff {s : Span} : read input = .ok s ↔ SpanText (Text.trim input.toList) s := by
  constructor
  · intro h
    by_cases hgs : ∃ gs : List Segment, Text.trim input.toList = gs.flatMap text
    · obtain ⟨gs, hgs⟩ := hgs
      obtain ⟨hne, hfits, htotal, rfl⟩ := (read_segments_eq_ok_iff hgs).1 h
      exact hgs ▸ .segments hne hfits htotal
    · unfold read at h
      dsimp only at h
      split at h
      · cases h
      · split at h
        · next n hn =>
          obtain rfl := Except.ok.inj h
          obtain ⟨hnumber, hlimit⟩ := Numeral.below?_eq_some_iff.1 hn
          exact .seconds hnumber hlimit
        · obtain ⟨n, hn, -⟩ := map_eq_ok_iff.1 h
          exact absurd (exists_segments_of_readSegments hn) hgs
  · intro h
    generalize hcs : Text.trim input.toList = cs at h
    cases h with
    | seconds h hn =>
      obtain ⟨⟨c, hc, -⟩, -⟩ := h.mem
      unfold read
      simp only [hcs, Numeral.below?_eq_some_iff.2 ⟨h, hn⟩]
      rw [if_neg (mt List.isEmpty_iff.1 (List.ne_nil_of_mem hc))]
    | segments hne hfits htotal => exact (read_segments_eq_ok_iff hcs).2 ⟨hne, hfits, htotal, rfl⟩

/-- Segments in another order are read as the same span, or not read either. -/
theorem read_congr_of_perm {input' : String} (hperm : gs.Perm gs') (h : Text.trim input.toList = gs.flatMap text)
    (h' : Text.trim input'.toList = gs'.flatMap text) (s : Span) : read input = .ok s ↔ read input' = .ok s := by
  have hne : gs = [] ↔ gs' = [] := ⟨fun e => (e ▸ hperm).nil_eq.symm, fun e => (e ▸ hperm).eq_nil⟩
  simp only [read_segments_eq_ok_iff h, read_segments_eq_ok_iff h', total_perm hperm, hperm.mem_iff, Ne, hne]

end Segments

end Allotment.Span
