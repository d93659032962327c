import Mathlib.Data.Rat.Floor
import Mathlib.Tactic.FieldSimp
import Mathlib.Tactic.Linarith
import Mathlib.Tactic.NormNum
import Allotment.Quantity.Reader
import Allotment.Proofs.Text.Blanks

/-!
# The grammar of quantities

* `Quantity.Layout cs negative run suffix` — the parts of a text: a sign or none, the longest run of digits and points,
  and a suffix; every text that is not empty has them (`exists_layout`);
* `Quantity.IsNumber run` — the run is a number: it has a digit, and no more than one point;
* `Quantity.spelled r s run` — the exact amount that the digits and the suffix make, a rational number of smallest units;
* `Quantity.Fits r s run` — nothing on the way to the amount is out of range;
* `Quantity.Reading r input out` — what the text has to be read as; `read_eq_iff_reading`, and it is read so;
* `read_ofList_trim`, `amount_ne_of_read` — blanks around a text do not matter, and no text spells the least amount.
-/

namespace Allotment.Quantity

/-! ### The parts of a text -/

/-- A text and what stands behind its sign. The sign is a minus, a plus or none; it is none only if there is none. -/
inductive Signed : List Char → Bool → List Char → Prop
  | minus (rest : List Char) : Signed ('-' :: rest) true rest
  | plus (rest : List Char) : Signed ('+' :: rest) false rest
  | bare {cs : List Char} (h : ∀ c ∈ cs.head?, c ≠ '-' ∧ c ≠ '+') : Signed cs false cs

/-- The parts of a text: a sign or none, the longest run of digits and points, and a suffix. -/
structure Layout (cs : List Char) (negative : Bool) (run suffix : List Char) : Prop where
  nonempty : cs ≠ []
  signed : Signed cs negative (run ++ suffix)
  run : ∀ c ∈ run, c.isDigit = true ∨ c = '.'
  longest : ∀ c ∈ suffix.head?, ¬ (c.isDigit = true ∨ c = '.')

section Layout

variable {cs rest run suffix : List Char} {negative : Bool}

theorem isNumberChar_iff {c : Char} : isNumberChar c = true ↔ c.isDigit = true ∨ c = '.' := by
  simp [isNumberChar]

theorem takeSign_of_signed (h : Signed cs negative rest) : takeSign cs = (negative, rest) := by
  cases h with
  | minus => rfl
  | plus => rfl
  | bare h =>
    unfold takeSign
    split
    · exact absurd rfl (h '-' rfl).1
    · exact absurd rfl (h '+' rfl).2
    · rfl

theorem exists_signed (cs : List Char) : ∃ negative rest, Signed cs negative rest := by
  by_cases hsign : ∀ c ∈ cs.head?, c ≠ '-' ∧ c ≠ '+'
  · exact ⟨_, _, .bare hsign⟩
  · cases cs with
    | nil => exact absurd (fun c hc => by cases hc) hsign
    | cons c cs =>
      by_cases hminus : c = '-'
      · subst hminus
        exact ⟨_, _, .minus cs⟩
      · by_cases hplus : c = '+'
        · subst hplus
          exact ⟨_, _, .plus cs⟩
        · refine absurd (fun d hd => ?_) hsign
          obtain rfl := Option.some.inj hd
          exact ⟨hminus, hplus⟩

theorem head?_dropWhile_isNumberChar (cs : List Char) :
    ∀ c ∈ (cs.dropWhile isNumberChar).head?, ¬ (c.isDigit = true ∨ c = '.') := by
  intro c hc
  obtain ⟨rest, hrest⟩ := List.head?_eq_some_iff.1 hc
  rw [← isNumberChar_iff, Text.of_dropWhile_eq_cons hrest]
  exact Bool.false_ne_true

/-- Every text has its parts, if it is not empty. -/
theorem exists_layout (h : cs ≠ []) : ∃ negative run suffix, Layout cs negative run suffix := by
  obtain ⟨negative, rest, hsigned⟩ := exists_signed cs
  refine ⟨negative, rest.takeWhile isNumberChar, rest.dropWhile isNumberChar, h, ?_, ?_, head?_dropWhile_isNumberChar _⟩
  · rwa [List.takeWhile_append_dropWhile]
  · exact fun c hc => isNumberChar_iff.1 (List.mem_takeWhile_imp hc)

theorem Layout.takeWhile_eq (h : Layout cs negative run suffix) :
    (run ++ suffix).takeWhile isNumberChar = run ∧ (run ++ suffix).dropWhile isNumberChar = suffix := by
  have hrun : ∀ c ∈ run, isNumberChar c = true := fun c hc => isNumberChar_iff.2 (h.run c hc)
  rw [List.takeWhile_append_of_pos hrun, List.dropWhile_append_of_pos hrun]
  have hlongest := h.longest
  cases suffix with
  | nil => simp
  | cons c cs =>
    have hc : ¬ isNumberChar c = true := mt isNumberChar_iff.1 (hlongest c rfl)
    rw [List.takeWhile_cons_of_neg hc, List.dropWhile_cons_of_neg hc, List.append_nil]
    exact ⟨rfl, rfl⟩

end Layout

/-! ### The number -/

/-- A run of digits and points is a number if it has a digit and no more than one point. -/
structure IsNumber (run : List Char) : Prop where
  digit : ∃ c ∈ run, c.isDigit = true
  point : run.count '.' ≤ 1

/-- The number that all digits spell together. -/
def allDigits (run : List Char) : Nat :=
  Numeral.ofDigits (run.filter Char.isDigit)

/-- How many digits stand behind the point. -/
def fractionDigits (run : List Char) : Nat :=
  ((run.dropWhile (· ≠ '.')).filter Char.isDigit).length

section Number

variable {run whole fraction : List Char}

theorem isDigit_of_mem_whole (hrun : ∀ c ∈ run, c.isDigit = true ∨ c = '.') :
    ∀ c ∈ run.takeWhile (· ≠ '.'), c.isDigit = true := by
  intro c hc
  have hne : c ≠ '.' := by simpa using List.mem_takeWhile_imp hc
  exact (hrun c (List.takeWhile_subset _ hc)).resolve_right hne

theorem dropWhile_point_cases (run : List Char) :
    run.dropWhile (· ≠ '.') = [] ∨ ∃ rest, run.dropWhile (· ≠ '.') = '.' :: rest := by
  cases hdrop : run.dropWhile (· ≠ '.') with
  | nil => exact .inl rfl
  | cons c rest =>
    obtain rfl : c = '.' := by simpa using Text.of_dropWhile_eq_cons hdrop
    exact .inr ⟨rest, rfl⟩

theorem splitPoint?_eq_some_iff :
    splitPoint? run = some (whole, fraction) ↔
      run.takeWhile (· ≠ '.') = whole ∧ (run.dropWhile (· ≠ '.')).tail = fraction ∧ (whole ≠ [] ∨ fraction ≠ []) ∧
        '.' ∉ fraction := by
  unfold splitPoint?
  simp only [Option.ite_none_left_eq_some, Option.some.injEq, Prod.mk.injEq, Bool.or_eq_true, Bool.and_eq_true,
    List.isEmpty_iff, List.contains_iff_mem, not_or, not_and_or]
  constructor
  · rintro ⟨⟨hdigit, hpoint⟩, rfl, rfl⟩
    exact ⟨rfl, rfl, hdigit, hpoint⟩
  · rintro ⟨rfl, rfl, hdigit, hpoint⟩
    exact ⟨⟨hdigit, hpoint⟩, rfl, rfl⟩

/-- The digits in front of the point and behind it are all that there are. -/
theorem digits_of_splitPoint? (hrun : ∀ c ∈ run, c.isDigit = true ∨ c = '.')
    (h : splitPoint? run = some (whole, fraction)) :
    run.filter Char.isDigit = whole ++ fraction ∧ fractionDigits run = fraction.length := by
  obtain ⟨hwhole, hfraction, -, hpoint⟩ := splitPoint?_eq_some_iff.1 h
  have hdigits : whole.filter Char.isDigit = whole := List.filter_eq_self.2 (hwhole ▸ isDigit_of_mem_whole hrun)
  have hrest : (run.dropWhile (· ≠ '.')).filter Char.isDigit = fraction := by
    rcases dropWhile_point_cases run with hnil | ⟨rest, hcons⟩
    · rw [hnil] at hfraction ⊢
      exact hfraction
    · rw [hcons] at hfraction ⊢
      obtain rfl : rest = fraction := hfraction
      rw [List.filter_cons_of_neg (by decide), List.filter_eq_self]
      intro c hc
      refine (hrun c ?_).resolve_right (fun hdot => hpoint (hdot ▸ hc))
      exact List.dropWhile_subset _ (hcons ▸ List.mem_cons_of_mem _ hc)
  refine ⟨?_, by rw [fractionDigits, hrest]⟩
  conv_lhs => rw [← List.takeWhile_append_dropWhile (p := (· ≠ '.')) (l := run)]
  rw [List.filter_append, hwhole, hdigits, hrest]

theorem isNumber_iff (hrun : ∀ c ∈ run, c.isDigit = true ∨ c = '.') :
    IsNumber run ↔ ∃ whole fraction, splitPoint? run = some (whole, fraction) := by
  have hsplit := List.takeWhile_append_dropWhile (p := (· ≠ '.')) (l := run)
  have hwhole := isDigit_of_mem_whole hrun
  have hcount : (run.takeWhile (· ≠ '.')).count '.' = 0 :=
    List.count_eq_zero.2 fun hdot => absurd (hwhole _ hdot) (by decide)
  simp only [splitPoint?_eq_some_iff]
  constructor
  · rintro ⟨⟨c, hc, hdigit⟩, hpoint⟩
    refine ⟨_, _, rfl, rfl, ?_⟩
    rw [← hsplit, List.count_append, hcount, Nat.zero_add] at hpoint
    rw [← hsplit, List.mem_append] at hc
    rcases dropWhile_point_cases run with hnil | ⟨rest, hcons⟩
    · rw [hnil] at hc ⊢
      exact ⟨.inl (List.ne_nil_of_mem (hc.resolve_right List.not_mem_nil)), List.not_mem_nil⟩
    · rw [hcons] at hc hpoint ⊢
      rw [List.count_cons_self] at hpoint
      rw [List.tail_cons]
      refine ⟨hc.imp List.ne_nil_of_mem fun hc => ?_, List.count_eq_zero.1 (by omega)⟩
      refine List.ne_nil_of_mem ((List.mem_cons.1 hc).resolve_left ?_)
      rintro rfl
      exact absurd hdigit (by decide)
  · rintro ⟨whole, fraction, rfl, rfl, hdigit, hpoint⟩
    refine ⟨?_, ?_⟩
    · have hmem : ∀ c ∈ (run.dropWhile (· ≠ '.')).tail, c ∈ run := fun c hc =>
        List.dropWhile_subset _ (List.mem_of_mem_tail hc)
      rcases hdigit with hne | hne
      · obtain ⟨c, hc⟩ := List.exists_mem_of_ne_nil _ hne
        exact ⟨c, List.takeWhile_subset _ hc, hwhole c hc⟩
      · obtain ⟨c, hc⟩ := List.exists_mem_of_ne_nil _ hne
        exact ⟨c, hmem c hc, (hrun c (hmem c hc)).resolve_right fun hdot => hpoint (hdot ▸ hc)⟩
    · rw [← hsplit, List.count_append, hcount, Nat.zero_add]
      rcases dropWhile_point_cases run with hnil | ⟨rest, hcons⟩
      · rw [hnil]
        exact Nat.zero_le _
      · rw [hcons, List.tail_cons] at hpoint
        rw [hcons, List.count_cons_self, List.count_eq_zero.2 hpoint]

end Number

/-! ### The amount -/

/-- The power of ten that the last digit counts, in the smallest units. -/
def shift (r : Resource) (s : Suffix) (run : List Char) : Int :=
  s.exponent + (if r = .cpu then 3 else 0) - fractionDigits run

/-- The exact amount that is spelled, in the smallest units and without its sign. -/
def spelled (r : Resource) (s : Suffix) (run : List Char) : ℚ :=
  (allDigits run * s.factor : Nat) * 10 ^ shift r s run

/-- No number on the way to the amount is out of range, nor is the amount. -/
structure Fits (r : Resource) (s : Suffix) (run : List Char) : Prop where
  digits : allDigits run < 2 ^ 127
  scaled : allDigits run * s.factor < 2 ^ 127
  shift : -38 ≤ shift r s run
  spelled : spelled r s run < 2 ^ 127
  rounded : ⌈Quantity.spelled r s run⌉ ≤ 2 ^ 63 - 1

theorem ceil_div (n : Nat) {d : Nat} (hd : 0 < d) : ⌈(n : ℚ) / d⌉ = (ceilDiv n d : Nat) := by
  have hpos : (0 : ℚ) < d := by exact_mod_cast hd
  have hdiv : d * (n / d) + n % d = n := Nat.div_add_mod n d
  have hmod : n % d < d := Nat.mod_lt n hd
  unfold ceilDiv
  generalize n / d = q at hdiv ⊢
  generalize n % d = t at hdiv hmod ⊢
  obtain rfl := hdiv
  rw [Int.ceil_eq_iff, lt_div_iff₀ hpos, div_le_iff₀ hpos]
  have hhigh : (t : ℚ) < d := by exact_mod_cast hmod
  split
  · next hzero =>
    subst hzero
    push_cast
    constructor <;> linarith
  · next hne =>
    have hlow : (1 : ℚ) ≤ t := by exact_mod_cast Nat.pos_of_ne_zero hne
    push_cast
    constructor <;> linarith

theorem mul_zpow_of_neg (n : Nat) {x : Int} (hx : x < 0) :
    (n : ℚ) * 10 ^ x = (n : ℚ) / (10 ^ x.natAbs : Nat) := by
  have hneg : x = -(x.natAbs : Int) := by omega
  conv_lhs => rw [hneg, zpow_neg, zpow_natCast]
  rw [div_eq_mul_inv]
  push_cast
  rfl

theorem mul_zpow_of_nonneg (n : Nat) {x : Int} (hx : 0 ≤ x) :
    (n : ℚ) * 10 ^ x = (n * 10 ^ x.natAbs : Nat) := by
  have hnat : x = (x.natAbs : Int) := by omega
  conv_lhs => rw [hnat, zpow_natCast]
  push_cast
  rfl

/-- A number is shifted by a power of ten without leaving the bound, or not at all. -/
theorem shiftTen?_eq_some_iff {n m : Nat} {x : Int} (hn : n < 2 ^ 127) (hx : x ≤ 38) :
    shiftTen? n x = some m ↔ -38 ≤ x ∧ (n : ℚ) * 10 ^ x < 2 ^ 127 ∧ (m : Int) = ⌈(n : ℚ) * 10 ^ x⌉ := by
  have hexponent : wideExponent = 38 := rfl
  have hlimit : wideLimit = 2 ^ 127 := rfl
  unfold shiftTen?
  rw [hexponent, hlimit]
  simp only [Nat.pow_eq]
  by_cases hneg : x < 0
  · have hpow : 0 < 10 ^ x.natAbs := Nat.pow_pos (by decide)
    have hwide : (n : ℚ) / (10 ^ x.natAbs : Nat) < 2 ^ 127 := by
      refine lt_of_le_of_lt (div_le_self (Nat.cast_nonneg n) ?_) ?_
      · exact_mod_cast hpow
      · exact_mod_cast hn
    rw [if_pos hneg, mul_zpow_of_neg n hneg, ceil_div n hpow]
    simp only [Option.ite_none_right_eq_some, Option.some.injEq, Nat.cast_inj, hwide, true_and]
    exact and_congr (by omega) eq_comm
  · have hnonneg : 0 ≤ x := by omega
    rw [if_neg hneg, mul_zpow_of_nonneg n hnonneg, Int.ceil_natCast]
    simp only [Option.ite_none_right_eq_some, Option.some.injEq, Nat.cast_inj, and_assoc]
    refine and_congr (by omega) (and_congr ?_ eq_comm)
    norm_cast

theorem shift_le (r : Resource) (s : Suffix) (run : List Char) : shift r s run ≤ 21 := by
  have hexponent : s.exponent ≤ 18 := by cases s <;> decide
  unfold shift
  split <;> omega

section Amount

variable {r : Resource} {s : Suffix} {run whole fraction : List Char} {m : Nat}

theorem magnitude?_eq_some_iff (hdigits : run.filter Char.isDigit = whole ++ fraction)
    (hfraction : fractionDigits run = fraction.length) :
    magnitude? r s whole fraction = some m ↔ Fits r s run ∧ (m : Int) = ⌈spelled r s run⌉ := by
  have hlimit : wideLimit = 2 ^ 127 := rfl
  have hgreatest : greatestAmount = 2 ^ 63 - 1 := by decide
  have hexponent : lastExponent r s fraction = shift r s run := by rw [lastExponent, shift, hfraction]
  have hshift : shift r s run ≤ 38 := Int.le_trans (shift_le r s run) (by decide)
  unfold magnitude?
  rw [← hdigits, hexponent, hlimit, hgreatest]
  simp only [Option.ite_none_right_eq_some, Option.filter_eq_some_iff, decide_eq_true_eq]
  constructor
  · rintro ⟨⟨hn, hscaled⟩, hm, hle⟩
    obtain ⟨hleast, hwide, hceil⟩ := (shiftTen?_eq_some_iff hscaled hshift).1 hm
    refine ⟨⟨hn, hscaled, hleast, hwide, ?_⟩, hceil⟩
    rw [spelled, allDigits, ← hceil]
    omega
  · rintro ⟨⟨hn, hscaled, hleast, hwide, hle⟩, hceil⟩
    refine ⟨⟨hn, hscaled⟩, (shiftTen?_eq_some_iff hscaled hshift).2 ⟨hleast, hwide, hceil⟩, ?_⟩
    rw [← hceil] at hle
    omega

theorem spelled_nonneg (r : Resource) (s : Suffix) (run : List Char) : 0 ≤ spelled r s run :=
  mul_nonneg (Nat.cast_nonneg _) (zpow_nonneg (by norm_num) _)

theorem exists_ceil_spelled (r : Resource) (s : Suffix) (run : List Char) : ∃ m : Nat, ⌈spelled r s run⌉ = m :=
  Int.eq_ofNat_of_zero_le (Int.ceil_nonneg (spelled_nonneg r s run))

end Amount

/-! ### What a text is read as -/

/-- What a text is read as. Blanks around it do not count. -/
inductive Reading (r : Resource) (input : String) : Except QuantityError Quantity → Prop
  | empty (h : ∀ c ∈ input.toList, Text.isBlank c = true) : Reading r input (.error .empty)
  | invalid {negative : Bool} {run suffix : List Char} (h : Layout (Text.trim input.toList) negative run suffix)
    (hnumber : ¬ IsNumber run) : Reading r input (.error (.invalid input))
  | unknownSuffix {negative : Bool} {run suffix : List Char} (h : Layout (Text.trim input.toList) negative run suffix)
    (hnumber : IsNumber run) (hsuffix : ∀ s : Suffix, s.text ≠ suffix) :
    Reading r input (.error (.unknownSuffix input (String.ofList suffix)))
  | outOfRange {negative : Bool} {run : List Char} {s : Suffix}
    (h : Layout (Text.trim input.toList) negative run s.text) (hnumber : IsNumber run) (hfits : ¬ Fits r s run) :
    Reading r input (.error (.outOfRange input))
  | amount {negative : Bool} {run : List Char} {s : Suffix} {n : Int64}
    (h : Layout (Text.trim input.toList) negative run s.text) (hnumber : IsNumber run) (hfits : Fits r s run)
    (hamount : n.toInt = if negative then -⌈spelled r s run⌉ else ⌈spelled r s run⌉) :
    Reading r input (.ok ⟨r, n, s.family⟩)

section Read

variable {r : Resource} {input : String} {negative : Bool} {run suffix : List Char} {s : Suffix}
  {out : Except QuantityError Quantity}

theorem read_of_layout (h : Layout (Text.trim input.toList) negative run suffix) :
    read r input =
      (splitPoint? run).elim (.error (.invalid input)) fun parts =>
        (Suffix.read? suffix).elim (.error (.unknownSuffix input (String.ofList suffix))) fun s =>
          (magnitude? r s parts.1 parts.2).elim (.error (.outOfRange input)) fun m =>
            .ok ⟨r, Int64.ofInt (if negative then -(m : Int) else m), s.family⟩ := by
  obtain ⟨htake, hdrop⟩ := h.takeWhile_eq
  have hempty : (Text.trim input.toList).isEmpty = false := by simpa using h.nonempty
  unfold read
  simp only [hempty, Bool.false_eq_true, if_false, takeSign_of_signed h.signed, htake, hdrop]
  cases splitPoint? run with
  | none => rfl
  | some parts =>
    cases Suffix.read? suffix with
    | none => rfl
    | some s =>
      simp only [Option.elim_some]
      cases magnitude? r s parts.1 parts.2 with
      | none => rfl
      | some m => rfl

theorem read?_eq_none_iff : Suffix.read? suffix = none ↔ ∀ s : Suffix, s.text ≠ suffix := by
  have hall : ∀ s : Suffix, s ∈ Suffix.all := by
    intro s
    cases s <;> decide
  unfold Suffix.read?
  simp [hall]

theorem Reading.read_eq (h : Reading r input out) : read r input = out := by
  cases h with
  | empty h =>
    have htrim : Text.trim input.toList = [] := Text.trim_eq_nil_iff.2 h
    unfold read
    rw [htrim]
    rfl
  | invalid h hnumber =>
    have hsplit : splitPoint? _ = none :=
      Option.eq_none_iff_forall_ne_some.2 fun p hp => hnumber ((isNumber_iff h.run).2 ⟨p.1, p.2, hp⟩)
    rw [read_of_layout h, hsplit, Option.elim_none]
  | unknownSuffix h hnumber hsuffix =>
    obtain ⟨whole, fraction, hsplit⟩ := (isNumber_iff h.run).1 hnumber
    rw [read_of_layout h, hsplit, Option.elim_some, read?_eq_none_iff.2 hsuffix, Option.elim_none]
  | outOfRange h hnumber hfits =>
    obtain ⟨whole, fraction, hsplit⟩ := (isNumber_iff h.run).1 hnumber
    obtain ⟨hdigits, hfraction⟩ := digits_of_splitPoint? h.run hsplit
    have hmagnitude : magnitude? r _ whole fraction = none :=
      Option.eq_none_iff_forall_ne_some.2 fun m hm => hfits ((magnitude?_eq_some_iff hdigits hfraction).1 hm).1
    rw [read_of_layout h, hsplit, Option.elim_some, Suffix.read?_text, Option.elim_some, hmagnitude, Option.elim_none]
  | @amount negative run s n h hnumber hfits hamount =>
    obtain ⟨whole, fraction, hsplit⟩ := (isNumber_iff h.run).1 hnumber
    obtain ⟨hdigits, hfraction⟩ := digits_of_splitPoint? h.run hsplit
    obtain ⟨m, hm⟩ := exists_ceil_spelled r s run
    have hmagnitude : magnitude? r s whole fraction = some m :=
      (magnitude?_eq_some_iff hdigits hfraction).2 ⟨hfits, hm.symm⟩
    rw [read_of_layout h, hsplit, Option.elim_some, Suffix.read?_text, Option.elim_some, hmagnitude, Option.elim_some,
      ← hm, ← hamount, Int64.ofInt_toInt]

theorem toInt_ofInt_amount {m : Nat} (h : (m : Int) ≤ 2 ^ 63 - 1) (negative : Bool) :
    (Int64.ofInt (if negative then -(m : Int) else m)).toInt = if negative then -(m : Int) else m := by
  rw [Int64.toInt_ofInt_of_le]
  · split <;> omega
  · split <;> omega

/-- Every text is read as something. -/
theorem exists_reading (r : Resource) (input : String) : ∃ out, Reading r input out := by
  by_cases hblank : ∀ c ∈ input.toList, Text.isBlank c = true
  · exact ⟨_, .empty hblank⟩
  · obtain ⟨negative, run, suffix, h⟩ := exists_layout (mt Text.trim_eq_nil_iff.1 hblank)
    by_cases hnumber : IsNumber run
    · by_cases hsuffix : ∃ s : Suffix, s.text = suffix
      · obtain ⟨s, rfl⟩ := hsuffix
        by_cases hfits : Fits r s run
        · obtain ⟨m, hm⟩ := exists_ceil_spelled r s run
          refine ⟨_, .amount (n := Int64.ofInt (if negative then -(m : Int) else m)) h hnumber hfits ?_⟩
          rw [hm]
          exact toInt_ofInt_amount (hm ▸ hfits.rounded) negative
        · exact ⟨_, .outOfRange h hnumber hfits⟩
      · exact ⟨_, .unknownSuffix h hnumber (not_exists.1 hsuffix)⟩
    · exact ⟨_, .invalid h hnumber⟩

/-- A text is read as what its parts spell. -/
theorem read_eq_iff_reading : read r input = out ↔ Reading r input out := by
  constructor
  · rintro rfl
    obtain ⟨out, hout⟩ := exists_reading r input
    rwa [hout.read_eq]
  · exact Reading.read_eq

theorem read_ofList_trim {q : Quantity} :
    read r (String.ofList (Text.trim input.toList)) = .ok q ↔ read r input = .ok q := by
  have htrim : Text.trim (String.ofList (Text.trim input.toList)).toList = Text.trim input.toList := by
    rw [String.toList_ofList, Text.trim_trim]
  simp only [read_eq_iff_reading]
  constructor
  · intro h
    cases h with
    | amount h hnumber hfits hamount => exact .amount (htrim ▸ h) hnumber hfits hamount
  · intro h
    cases h with
    | amount h hnumber hfits hamount => exact .amount (htrim.symm ▸ h) hnumber hfits hamount

/-- No text spells the least amount. -/
theorem amount_ne_of_read {q : Quantity} (h : read r input = .ok q) : q.amount ≠ Int64.minValue := by
  rintro hmin
  cases read_eq_iff_reading.1 h with
  | @amount negative run s n _ _ hfits hamount =>
    obtain rfl : n = Int64.minValue := hmin
    have hrounded := hfits.rounded
    have hnonneg := Int.ceil_nonneg (spelled_nonneg r s run)
    rw [Int64.toInt_minValue] at hamount
    split at hamount <;> omega

end Read

end Allotment.Quantity
