import Allotment.Quantity.Printer
import Allotment.Quantity.Reader

/-!
# A quantity and its text

The text of a quantity does not tell everything about it: its resource is told by its place, and its family of suffixes
only by a suffix, if it has one.

* `wholeSuffix`, `writeWhole_eq` — the suffix that a whole amount is written with, which divides it;
* `Quantity.suffix`, `Quantity.coefficient`, `writeMagnitude_eq` — the two parts of a text, and
  `coefficient_mul_unitsPer`, what they make up;
* `Quantity.reread`, `Quantity.read_text` — what is read back from a text; reading it never fails;
* `amount_reread`, `reread_eq_self` — amounts are kept but the least one, and families by `Quantity.KeepsFamily`;
* `text_reread_iff` — the text itself is kept by `Quantity.KeepsText`, and by nothing else.
-/

namespace Allotment

/-! ### Suffixes of whole amounts -/

/-- The suffix that a whole amount is written with. -/
def wholeSuffix (suffixes : List Suffix) (n : Nat) : Suffix :=
  if n = 0 then .unit else (suffixes.find? fun s => n % s.size = 0).getD .unit

theorem size_wholeSuffix_dvd (suffixes : List Suffix) (n : Nat) : (wholeSuffix suffixes n).size ∣ n := by
  have hunit : Suffix.unit.size = 1 := rfl
  unfold wholeSuffix
  split
  · next h => rw [h]; exact Nat.dvd_zero _
  · cases hfind : suffixes.find? fun s => n % s.size = 0 with
    | none => exact hunit ▸ Nat.one_dvd n
    | some s => exact Nat.dvd_of_mod_eq_zero (by simpa using List.find?_some hfind)

theorem writeWhole_eq (suffixes : List Suffix) (n : Nat) :
    writeWhole suffixes n =
      Numeral.digits (n / (wholeSuffix suffixes n).size) ++ (wholeSuffix suffixes n).text := by
  have hunit : Suffix.unit.size = 1 := rfl
  unfold writeWhole wholeSuffix
  split
  · next h => rw [h]; rfl
  · cases suffixes.find? fun s => n % s.size = 0 with
    | none => simp [hunit, Suffix.text]
    | some s => rfl

theorem wholeSuffix_mem (suffixes : List Suffix) (n : Nat) :
    wholeSuffix suffixes n = .unit ∨ wholeSuffix suffixes n ∈ suffixes := by
  unfold wholeSuffix
  split
  · exact .inl rfl
  · cases hfind : suffixes.find? fun s => n % s.size = 0 with
    | none => exact .inl rfl
    | some s => exact .inr (List.mem_of_find?_eq_some hfind)

theorem wholeSuffix_mem_of_dvd {suffixes : List Suffix} {n : Nat} {s : Suffix} (hs : s ∈ suffixes) (hne : n ≠ 0)
    (hdvd : s.size ∣ n) : wholeSuffix suffixes n ∈ suffixes := by
  unfold wholeSuffix
  rw [if_neg hne]
  cases hfind : suffixes.find? fun s => n % s.size = 0 with
  | none => exact absurd (decide_eq_true (Nat.mod_eq_zero_of_dvd hdvd)) (List.find?_eq_none.1 hfind s hs)
  | some s' => exact List.mem_of_find?_eq_some hfind

theorem exponent_wholeSuffix {suffixes : List Suffix} (hs : ∀ s ∈ suffixes, 0 ≤ s.exponent) (n : Nat) :
    0 ≤ (wholeSuffix suffixes n).exponent := by
  rcases wholeSuffix_mem suffixes n with h | h
  · rw [h]
    decide
  · exact hs _ h

theorem family_wholeSuffix_decimals (n : Nat) : (wholeSuffix Suffix.decimals n).family = .decimal := by
  rcases wholeSuffix_mem Suffix.decimals n with h | h
  · rw [h]
    rfl
  · revert h
    generalize wholeSuffix Suffix.decimals n = s
    revert s
    decide

/-- A suffix of powers of 1024 is used as soon as the smallest of them fits. -/
theorem family_wholeSuffix_binaries_iff (n : Nat) :
    (wholeSuffix Suffix.binaries n).family = .binary ↔ n ≠ 0 ∧ 1024 ∣ n := by
  constructor
  · intro hfamily
    have hsize : ∀ s ∈ Suffix.binaries, 1024 ∣ s.size := by decide
    have hdvd := size_wholeSuffix_dvd Suffix.binaries n
    rcases wholeSuffix_mem Suffix.binaries n with h | h
    · rw [h] at hfamily
      cases hfamily
    · refine ⟨?_, Nat.dvd_trans (hsize _ h) hdvd⟩
      rintro rfl
      cases hfamily
  · rintro ⟨hne, hdvd⟩
    have hfamily : ∀ s ∈ Suffix.binaries, s.family = .binary := by decide
    exact hfamily _ (wholeSuffix_mem_of_dvd (s := .kibi) (by decide) hne hdvd)

theorem ne_of_isDigit {c d : Char} (h : c.isDigit = true) (hd : d.isDigit = false) : c ≠ d := by
  rintro rfl
  rw [h] at hd
  cases hd

namespace Quantity

/-! ### What a text spells -/

/-- The suffix that a quantity is written with. -/
def suffix (q : Quantity) : Suffix :=
  match q.resource, q.family with
  | .cpu, _ => if q.magnitude % 1000 = 0 then wholeSuffix Suffix.decimals (q.magnitude / 1000) else .milli
  | .memory, .decimal => wholeSuffix Suffix.decimals q.magnitude
  | .memory, .binary => wholeSuffix Suffix.binaries q.magnitude

/-- The number in front of the suffix. -/
def coefficient (q : Quantity) : Nat :=
  match q.resource with
  | .cpu => if q.magnitude % 1000 = 0 then q.magnitude / 1000 / q.suffix.size else q.magnitude
  | .memory => q.magnitude / q.suffix.size

theorem writeMagnitude_eq (q : Quantity) : q.writeMagnitude = Numeral.digits q.coefficient ++ q.suffix.text := by
  obtain ⟨r, n, f⟩ := q
  unfold writeMagnitude coefficient suffix
  cases r with
  | cpu =>
    simp only
    split
    · exact writeWhole_eq _ _
    · rfl
  | memory => cases f <;> exact writeWhole_eq _ _

/-- How much of a resource one of a suffix is. The unit of CPU is a thousandth of a core. -/
def unitsPer (r : Resource) (s : Suffix) : Nat :=
  s.factor * Nat.pow 10 (lastExponent r s []).natAbs

theorem unitsPer_memory {s : Suffix} (h : 0 ≤ s.exponent) :
    0 ≤ lastExponent .memory s [] ∧ unitsPer .memory s = s.size := by
  have hlast : lastExponent .memory s [] = s.exponent := by simp [lastExponent]
  have hnat : s.exponent.natAbs = s.exponent.toNat := by omega
  rw [unitsPer, hlast, hnat, Suffix.size, Nat.mul_comm]
  exact ⟨h, rfl⟩

theorem unitsPer_cpu {s : Suffix} (h : 0 ≤ s.exponent) :
    0 ≤ lastExponent .cpu s [] ∧ unitsPer .cpu s = 1000 * s.size := by
  have hlast : lastExponent .cpu s [] = s.exponent + 3 := by simp [lastExponent]
  have hnat : (s.exponent + 3).natAbs = s.exponent.toNat + 3 := by omega
  refine ⟨by omega, ?_⟩
  rw [unitsPer, hlast, hnat, Suffix.size, Nat.pow_eq, Nat.pow_eq, Nat.pow_add, Nat.mul_comm s.factor,
    Nat.mul_comm _ (10 ^ 3), Nat.mul_assoc]

theorem div_size_mul {suffixes : List Suffix} {n : Nat} :
    n / (wholeSuffix suffixes n).size * (wholeSuffix suffixes n).size = n :=
  Nat.div_mul_cancel (size_wholeSuffix_dvd suffixes n)

theorem coefficient_mul_unitsPer (q : Quantity) :
    0 ≤ lastExponent q.resource q.suffix [] ∧ q.coefficient * unitsPer q.resource q.suffix = q.magnitude := by
  have hdecimals : ∀ s ∈ Suffix.decimals, 0 ≤ s.exponent := by decide
  have hbinaries : ∀ s ∈ Suffix.binaries, 0 ≤ s.exponent := by decide
  obtain ⟨r, n, f⟩ := q
  unfold coefficient suffix
  cases r with
  | cpu =>
    simp only
    split
    · next hwhole =>
      obtain ⟨hlast, hunits⟩ := unitsPer_cpu (exponent_wholeSuffix hdecimals (magnitude ⟨.cpu, n, f⟩ / 1000))
      refine ⟨hlast, ?_⟩
      rw [hunits, Nat.mul_left_comm, div_size_mul]
      omega
    · have hmilli : unitsPer .cpu .milli = 1 := rfl
      exact ⟨by decide, by rw [hmilli, Nat.mul_one]⟩
  | memory =>
    cases f with
    | decimal =>
      obtain ⟨hlast, hunits⟩ := unitsPer_memory (exponent_wholeSuffix hdecimals (magnitude ⟨.memory, n, .decimal⟩))
      refine ⟨hlast, ?_⟩
      rw [hunits]
      exact div_size_mul
    | binary =>
      obtain ⟨hlast, hunits⟩ := unitsPer_memory (exponent_wholeSuffix hbinaries (magnitude ⟨.memory, n, .binary⟩))
      refine ⟨hlast, ?_⟩
      rw [hunits]
      exact div_size_mul

theorem magnitude_le (q : Quantity) : q.magnitude ≤ greatestAmount :=
  Nat.min_le_right _ _

theorem magnitude?_digits {r : Resource} {s : Suffix} {n m : Nat} (hlast : 0 ≤ lastExponent r s [])
    (hm : n * unitsPer r s = m) (hle : m ≤ greatestAmount) : magnitude? r s (Numeral.digits n) [] = some m := by
  have hfactor : 1 ≤ s.factor := Nat.pos_of_ne_zero (by cases s <;> decide)
  have hexponent : (lastExponent r s []).natAbs ≤ wideExponent := by
    cases r <;> cases s <;> decide
  have hpow : 1 ≤ Nat.pow 10 (lastExponent r s []).natAbs := Nat.pow_pos (by decide)
  have hwide : greatestAmount < wideLimit := by decide
  have hmul : n * s.factor * Nat.pow 10 (lastExponent r s []).natAbs = m := by
    rw [Nat.mul_assoc]
    exact hm
  have hfactored : n * s.factor ≤ m := hmul ▸ Nat.le_mul_of_pos_right _ hpow
  have hn : n ≤ m := Nat.le_trans (Nat.le_mul_of_pos_right _ hfactor) hfactored
  unfold magnitude? shiftTen?
  simp only [List.append_nil, Numeral.ofDigits_digits]
  rw [if_pos ⟨by omega, by omega⟩, if_neg (by omega), if_pos ⟨hexponent, by omega⟩, hmul]
  simp [hle]

theorem isBlank_of_mem_suffix {s : Suffix} {c : Char} (h : c ∈ s.text) : Text.isBlank c = false := by
  have hall : (s.text.all fun c => !Text.isBlank c) = true := by cases s <;> rfl
  simpa using List.all_eq_true.1 hall c h

theorem takeWhile_isNumberChar (n : Nat) (s : Suffix) :
    (Numeral.digits n ++ s.text).takeWhile isNumberChar = Numeral.digits n ∧
      (Numeral.digits n ++ s.text).dropWhile isNumberChar = s.text := by
  have hdigits : ∀ c ∈ Numeral.digits n, isNumberChar c = true := by
    intro c hc
    simp [isNumberChar, Numeral.isDigit_of_mem_digits hc]
  have htake : s.text.takeWhile isNumberChar = [] := by cases s <;> rfl
  have hdrop : s.text.dropWhile isNumberChar = s.text := by cases s <;> rfl
  rw [List.takeWhile_append_of_pos hdigits, List.dropWhile_append_of_pos hdigits, htake, hdrop, List.append_nil]
  exact ⟨rfl, rfl⟩

theorem splitPoint?_digits (n : Nat) : splitPoint? (Numeral.digits n) = some (Numeral.digits n, []) := by
  have hpoint : ∀ c ∈ Numeral.digits n, decide (c ≠ '.') = true := by
    intro c hc
    exact decide_eq_true (ne_of_isDigit (Numeral.isDigit_of_mem_digits hc) (by decide))
  have htake : (Numeral.digits n ++ []).takeWhile (· ≠ '.') = Numeral.digits n ++ [] :=
    List.takeWhile_append_of_pos hpoint
  have hdrop : (Numeral.digits n ++ []).dropWhile (· ≠ '.') = [] := List.dropWhile_append_of_pos hpoint
  rw [List.append_nil] at htake hdrop
  unfold splitPoint?
  simp only [htake, hdrop]
  simp [Numeral.digits_ne_nil]

theorem takeSign_digits (negative : Bool) (n : Nat) (s : Suffix) :
    takeSign ((if negative then ['-'] else []) ++ (Numeral.digits n ++ s.text)) =
      (negative, Numeral.digits n ++ s.text) := by
  cases negative with
  | true => rfl
  | false =>
    cases hdigits : Numeral.digits n with
    | nil => exact absurd hdigits (Numeral.digits_ne_nil n)
    | cons c cs =>
      have hdigit : c.isDigit = true := Numeral.isDigit_of_mem_digits (n := n) (hdigits ▸ List.mem_cons_self)
      simp only [Bool.false_eq_true, if_false, List.nil_append, List.cons_append]
      unfold takeSign
      split
      · next h => exact absurd (List.cons.inj h).1 (ne_of_isDigit hdigit (by decide))
      · next h => exact absurd (List.cons.inj h).1 (ne_of_isDigit hdigit (by decide))
      · rfl

/-- **What a text of the canonical form is read as.** -/
theorem read_digits {r : Resource} {s : Suffix} {negative : Bool} {n m : Nat}
    (hm : magnitude? r s (Numeral.digits n) [] = some m) :
    read r (String.ofList ((if negative then ['-'] else []) ++ (Numeral.digits n ++ s.text))) =
      .ok ⟨r, Int64.ofInt (if negative then -(m : Int) else m), s.family⟩ := by
  have hblank : ∀ c ∈ (if negative then ['-'] else []) ++ (Numeral.digits n ++ s.text), Text.isBlank c = false := by
    intro c hc
    rcases List.mem_append.1 hc with hsign | hc
    · cases negative with
      | true =>
        obtain rfl := List.mem_singleton.1 hsign
        decide
      | false => cases hsign
    · rcases List.mem_append.1 hc with hdigit | hsuffix
      · exact Text.isBlank_of_isDigit (Numeral.isDigit_of_mem_digits hdigit)
      · exact isBlank_of_mem_suffix hsuffix
  have hnotEmpty : ((if negative then ['-'] else []) ++ (Numeral.digits n ++ s.text)).isEmpty = false := by
    simp [Numeral.digits_ne_nil]
  obtain ⟨htake, hdrop⟩ := takeWhile_isNumberChar n s
  unfold read
  simp only [String.toList_ofList, Text.trim_eq_self hblank, hnotEmpty, Bool.false_eq_true, if_false,
    takeSign_digits, htake, hdrop, splitPoint?_digits, Suffix.read?_text, hm]

/-- What is read back from the text of a quantity. The suffix tells the family, and the least of all amounts has no
text of its own. -/
def reread (q : Quantity) : Quantity :=
  ⟨q.resource, Int64.ofInt (if q.amount < 0 then -(q.magnitude : Int) else q.magnitude), q.suffix.family⟩

theorem read_text (q : Quantity) : read q.resource q.text = .ok q.reread := by
  obtain ⟨hlast, hunits⟩ := coefficient_mul_unitsPer q
  have hmagnitude := magnitude?_digits hlast hunits q.magnitude_le
  have hchars : q.chars =
      (if decide (q.amount < 0) then ['-'] else []) ++ (Numeral.digits q.coefficient ++ q.suffix.text) := by
    unfold chars
    rw [writeMagnitude_eq]
    by_cases hneg : q.amount < 0
    · simp [hneg]
    · simp [hneg]
  unfold text reread
  rw [hchars, read_digits hmagnitude]
  simp only [decide_eq_true_eq]

/-! ### What is kept -/

theorem greatestAmount_eq : greatestAmount = 9223372036854775807 := by decide

theorem amount_neg_iff (q : Quantity) : q.amount < 0 ↔ q.amount.toInt < 0 := by
  rw [Int64.lt_iff_toInt_lt, Int64.toInt_zero]

theorem toInt_reread (q : Quantity) :
    q.reread.amount.toInt = if q.amount < 0 then -(q.magnitude : Int) else q.magnitude := by
  have hle := q.magnitude_le
  rw [greatestAmount_eq] at hle
  unfold reread
  simp only
  rw [Int64.toInt_ofInt_of_le]
  · split <;> omega
  · split <;> omega

theorem amount_reread {q : Quantity} (h : q.amount ≠ Int64.minValue) : q.reread.amount = q.amount := by
  have hmin : q.amount.toInt ≠ -2 ^ 63 := by
    rw [← Int64.toInt_minValue]
    exact mt Int64.toInt_inj.1 h
  have hlow := q.amount.le_toInt
  have hhigh := q.amount.toInt_lt
  have hmagnitude : q.magnitude = q.amount.toInt.natAbs := by
    unfold magnitude
    rw [greatestAmount_eq]
    omega
  rw [← Int64.toInt_inj, toInt_reread, hmagnitude]
  simp only [amount_neg_iff]
  split <;> omega

theorem magnitude_reread (q : Quantity) : q.reread.magnitude = q.magnitude := by
  have hle := q.magnitude_le
  have habs : q.reread.amount.toInt.natAbs = q.magnitude := by
    rw [toInt_reread]
    split <;> omega
  unfold magnitude at habs ⊢
  rw [habs]
  exact Nat.min_eq_left hle

theorem neg_reread (q : Quantity) : q.reread.amount < 0 ↔ q.amount < 0 := by
  have hpos : q.amount < 0 → 1 ≤ q.magnitude := by
    intro h
    rw [amount_neg_iff] at h
    unfold magnitude
    rw [greatestAmount_eq]
    omega
  rw [amount_neg_iff, toInt_reread]
  split
  · next h =>
    have := hpos h
    exact ⟨fun _ => h, fun _ => by omega⟩
  · next h => exact ⟨fun hneg => by omega, fun hneg => absurd hneg h⟩

theorem text_eq_of_writeMagnitude {p q : Quantity} (hneg : p.amount < 0 ↔ q.amount < 0)
    (h : p.writeMagnitude = q.writeMagnitude) : p.text = q.text := by
  unfold text chars
  rw [h]
  simp only [hneg]

/-- A text is the same after it was read and written again. Memory of the binary family that 1024 does not divide is
written without a suffix, and then with a decimal one if 1000 divides it. -/
def KeepsText (q : Quantity) : Prop :=
  q.resource = .memory → q.family = .binary → 1000 ∣ q.magnitude → 1024 ∣ q.magnitude

instance (q : Quantity) : Decidable q.KeepsText :=
  inferInstanceAs (Decidable (_ → _ → _ → _))

/-- The family can be told from the text. -/
def KeepsFamily (q : Quantity) : Prop :=
  q.family = .binary → q.magnitude ≠ 0 ∧ 1024 ∣ q.magnitude

instance (q : Quantity) : Decidable q.KeepsFamily :=
  inferInstanceAs (Decidable (_ → _ ∧ _))

theorem family_reread {q : Quantity} (hr : q.resource = .memory) (h : q.KeepsFamily) : q.reread.family = q.family := by
  obtain ⟨r, n, f⟩ := q
  obtain rfl : r = .memory := hr
  cases f with
  | decimal => exact family_wholeSuffix_decimals _
  | binary => exact (family_wholeSuffix_binaries_iff _).2 (h rfl)

theorem reread_eq_self {q : Quantity} (hr : q.resource = .memory) (hmin : q.amount ≠ Int64.minValue)
    (h : q.KeepsFamily) : q.reread = q := by
  have hamount := amount_reread hmin
  have hfamily := family_reread hr h
  obtain ⟨r, n, f⟩ := q
  unfold reread at hamount hfamily ⊢
  simp only at hamount hfamily
  rw [hamount, hfamily]

theorem writeWhole_of_not_dvd {suffixes : List Suffix} {n d : Nat} (hd : ∀ s ∈ suffixes, d ∣ s.size)
    (h : d ∣ n → n = 0) : writeWhole suffixes n = Numeral.digits n := by
  unfold writeWhole
  split
  · next hzero => rw [hzero]; rfl
  · next hne =>
    have hfind : (suffixes.find? fun s => n % s.size = 0) = none := by
      rw [List.find?_eq_none]
      intro s hs hdvd
      have hsize : s.size ∣ n := Nat.dvd_of_mod_eq_zero (of_decide_eq_true hdvd)
      exact hne (h (Nat.dvd_trans (hd s hs) hsize))
    rw [hfind]

theorem writeWhole_decimals_eq_binaries {n : Nat} (h : 1000 ∣ n → 1024 ∣ n)
    (hfamily : (wholeSuffix Suffix.binaries n).family = .decimal) :
    writeWhole Suffix.decimals n = writeWhole Suffix.binaries n := by
  have hbinary : 1024 ∣ n → n = 0 := by
    intro hdvd
    rcases Nat.eq_zero_or_pos n with hzero | hpos
    · exact hzero
    · have hbinary := (family_wholeSuffix_binaries_iff n).2 ⟨Nat.pos_iff_ne_zero.1 hpos, hdvd⟩
      rw [hfamily] at hbinary
      cases hbinary
  have hdecimals : writeWhole Suffix.decimals n = Numeral.digits n :=
    writeWhole_of_not_dvd (d := 1000) (by decide) fun hdvd => hbinary (h hdvd)
  have hbinaries : writeWhole Suffix.binaries n = Numeral.digits n :=
    writeWhole_of_not_dvd (d := 1024) (by decide) hbinary
  rw [hdecimals, hbinaries]

/-- **What keeps its text** is written again as it was read. -/
theorem text_reread {q : Quantity} (h : q.KeepsText) : q.reread.text = q.text := by
  refine text_eq_of_writeMagnitude (neg_reread q) ?_
  have hmagnitude := magnitude_reread q
  have hfamily : q.reread.family = q.suffix.family := rfl
  obtain ⟨r, n, f⟩ := q
  unfold writeMagnitude
  rw [hmagnitude, hfamily]
  cases r with
  | cpu => rfl
  | memory =>
    cases f with
    | decimal =>
      have hdecimal : (suffix ⟨.memory, n, .decimal⟩).family = .decimal := family_wholeSuffix_decimals _
      rw [hdecimal]
      rfl
    | binary =>
      have hsuffix : (suffix ⟨.memory, n, .binary⟩).family =
        (wholeSuffix Suffix.binaries (magnitude ⟨.memory, n, .binary⟩)).family := rfl
      rw [hsuffix]
      cases hfam : (wholeSuffix Suffix.binaries (magnitude ⟨.memory, n, .binary⟩)).family with
      | binary => rfl
      | decimal => exact writeWhole_decimals_eq_binaries (h rfl rfl) hfam

theorem exists_not_isDigit {n : Nat} (hne : n ≠ 0) (hdvd : 1000 ∣ n) :
    ∃ c ∈ writeWhole Suffix.decimals n, c.isDigit = false := by
  have hmem : wholeSuffix Suffix.decimals n ∈ Suffix.decimals :=
    wholeSuffix_mem_of_dvd (s := .kilo) (by decide) hne hdvd
  have hletter : ∀ s ∈ Suffix.decimals, (s.text.any fun c => !c.isDigit) = true := by decide
  obtain ⟨c, hc, hdigit⟩ := List.any_eq_true.1 (hletter _ hmem)
  rw [writeWhole_eq]
  exact ⟨c, List.mem_append_right _ hc, by simpa using hdigit⟩

theorem writeMagnitude_eq_of_text {p q : Quantity} (hneg : p.amount < 0 ↔ q.amount < 0) (h : p.text = q.text) :
    p.writeMagnitude = q.writeMagnitude := by
  have hchars : p.chars = q.chars := String.ofList_injective h
  unfold chars at hchars
  by_cases hq : q.amount < 0
  · rw [if_pos hq, if_pos (hneg.2 hq)] at hchars
    exact (List.cons.inj hchars).2
  · rwa [if_neg hq, if_neg (mt hneg.1 hq)] at hchars

/-- **A text is kept exactly by what `KeepsText` says.** Anything else gets a decimal suffix once it was read. -/
theorem text_reread_iff {q : Quantity} : q.reread.text = q.text ↔ q.KeepsText := by
  refine ⟨fun h hr hf hdvd => ?_, text_reread⟩
  have hwritten := writeMagnitude_eq_of_text (neg_reread q) h
  have hmagnitude := magnitude_reread q
  obtain ⟨r, n, f⟩ := q
  obtain rfl : r = .memory := hr
  obtain rfl : f = .binary := hf
  generalize hm : magnitude ⟨.memory, n, .binary⟩ = m at hdvd hmagnitude ⊢
  by_cases hkibi : 1024 ∣ m
  · exact hkibi
  · have hne : m ≠ 0 := by
      rintro rfl
      exact hkibi (Nat.dvd_zero 1024)
    have hbinary : writeMagnitude ⟨.memory, n, .binary⟩ = Numeral.digits m := by
      unfold writeMagnitude
      rw [hm]
      exact writeWhole_of_not_dvd (d := 1024) (by decide) fun hdvd => absurd hdvd hkibi
    have hfamily : (reread ⟨.memory, n, .binary⟩).family = .decimal := by
      change (wholeSuffix Suffix.binaries (magnitude ⟨.memory, n, .binary⟩)).family = .decimal
      rw [hm]
      cases hfamily : (wholeSuffix Suffix.binaries m).family with
      | decimal => rfl
      | binary => exact absurd ((family_wholeSuffix_binaries_iff m).1 hfamily).2 hkibi
    have hdecimal : (reread ⟨.memory, n, .binary⟩).writeMagnitude = writeWhole Suffix.decimals m := by
      unfold writeMagnitude
      rw [hmagnitude, hfamily]
      rfl
    obtain ⟨c, hc, hdigit⟩ := exists_not_isDigit hne hdvd
    rw [hbinary, hdecimal] at hwritten
    rw [hwritten] at hc
    exact absurd (Numeral.isDigit_of_mem_digits hc) (by simp [hdigit])

end Quantity

end Allotment
