import Mathlib.Data.String.Basic
import Allotment.Proofs.Quantity.Grammar
import Allotment.Proofs.Reading

/-!
# The steps of reading a quantity

A reading is carried out once more within machine words, with every step written down that a word could be too small for
or that could fail otherwise: an operation whose result is not checked, a byte that is looked at, a cut at an offset of
bytes, a division.

* `Word.Holds w n` — the word has room for the number;
* `Step.Safe` — the step does not leave its word and does not fail;
* `Reckoned` — what was computed, or the error that it ended with, and the steps on the way;
* `reckonShift`, `reckonMagnitude`, `reckon` — the reading, carried out so; each gives what the plain one gives
  (`value_reckonShift`, …, `value_reckon`), and its steps are safe (`safe_reckonShift`, …, `safe_reckon`);
* `Quantity.read_exactly` — a text is read as its parts spell, in safe steps alone.
-/

namespace Allotment

/-! ### Words and steps -/

/-- A machine word: how many bits it has, and whether one of them is a sign. -/
structure Word where
  signed : Bool
  bits : Nat
  deriving DecidableEq, Repr

namespace Word

/-- How many numbers that are not negative a word can tell apart. -/
def size (w : Word) : Nat :=
  2 ^ (if w.signed then w.bits - 1 else w.bits)

/-- The word has room for the number. There are as many negative numbers as others, or none. -/
def Holds (w : Word) : Int → Prop
  | .ofNat n => n < w.size
  | .negSucc n => w.signed = true ∧ n < w.size

instance (w : Word) (n : Int) : Decidable (w.Holds n) :=
  match n with
  | .ofNat n => inferInstanceAs (Decidable (n < w.size))
  | .negSucc n => inferInstanceAs (Decidable (w.signed = true ∧ n < w.size))

theorem holds_natCast {w : Word} {n : Nat} : w.Holds n ↔ n < w.size :=
  Iff.rfl

theorem holds_iff {w : Word} {n : Int} :
    w.Holds n ↔ (0 ≤ n ∨ w.signed = true) ∧ -(w.size : Int) ≤ n ∧ n < w.size := by
  cases n with
  | ofNat n =>
    have hnonneg : 0 ≤ Int.ofNat n := Int.natCast_nonneg n
    have hlow : -(w.size : Int) ≤ Int.ofNat n := by omega
    simp only [hnonneg, hlow, true_or, true_and]
    exact Int.ofNat_lt.symm
  | negSucc n =>
    have hneg : ¬ 0 ≤ Int.negSucc n := by omega
    have hhigh : Int.negSucc n < w.size := by omega
    simp only [Holds, hneg, hhigh, false_or, and_true]
    exact and_congr_right fun _ => by omega

/-- Powers of ten are counted in words of 32 bits, with a sign while they are added up. -/
def power : Word := ⟨true, 32⟩

def naturalPower : Word := ⟨false, 32⟩

/-- Numbers on the way to an amount. -/
def wide : Word := ⟨true, 128⟩

/-- An amount. -/
def amount : Word := ⟨true, 64⟩

end Word

/-- A step of a reading that could leave its word or fail. -/
inductive Step where
  | result (w : Word) (n : Int)
  | byte (text : List Char) (offset : Nat)
  | cut (text : List Char) (offset : Nat)
  | division (n d : Int)
  deriving DecidableEq, Repr

/-- A result fits its word, a byte is within its text, a text is cut between two of its characters, and nothing is divided
by zero. -/
def Step.Safe : Step → Prop
  | result w n => w.Holds n
  | byte text offset => offset < String.utf8Len text
  | cut text offset => ∃ before after, text = before ++ after ∧ String.utf8Len before = offset
  | division _ d => d ≠ 0

/-- What was computed or the error that it ended with, and the steps on the way. -/
structure Reckoned (α : Type) where
  value : Except QuantityError α
  steps : List Step

namespace Reckoned

variable {α β : Type}

instance : Monad Reckoned where
  pure a := ⟨.ok a, []⟩
  bind m f :=
    match m.value with
    | .ok a => ⟨(f a).value, m.steps ++ (f a).steps⟩
    | .error e => ⟨.error e, m.steps⟩

/-- Ends with an error. -/
def fail (e : QuantityError) : Reckoned α :=
  ⟨.error e, []⟩

/-- Takes a step. -/
def step (x : Step) : Reckoned Unit :=
  ⟨.ok (), [x]⟩

/-- The result of an operation that is not checked. -/
def result (w : Word) (n : Int) : Reckoned Int :=
  ⟨.ok n, [.result w n]⟩

/-- The result of an operation that ends with an error where the word has no room for it. -/
def checked (w : Word) (e : QuantityError) (n : Int) : Reckoned Int :=
  if w.Holds n then pure n else fail e

@[simp] theorem value_pure (a : α) : (pure a : Reckoned α).value = .ok a := rfl

@[simp] theorem value_fail (e : QuantityError) : (fail e : Reckoned α).value = .error e := rfl

@[simp] theorem value_step (x : Step) : (step x).value = .ok () := rfl

@[simp] theorem value_result (w : Word) (n : Int) : (result w n).value = .ok n := rfl

@[simp] theorem value_checked (w : Word) (e : QuantityError) (n : Int) :
    (checked w e n).value = if w.Holds n then .ok n else .error e := by
  unfold checked
  split <;> rfl

theorem value_checked_eq_ok_iff {w : Word} {e : QuantityError} {n a : Int} :
    (checked w e n).value = .ok a ↔ w.Holds n ∧ n = a := by
  rw [value_checked]
  split
  · next h => simp [h]
  · next h => simp [h]

@[simp] theorem value_bind (m : Reckoned α) (f : α → Reckoned β) :
    (m >>= f).value = m.value >>= fun a => (f a).value := by
  obtain ⟨value, steps⟩ := m
  cases value <;> rfl

/-- All steps on the way are safe. -/
def Safe (m : Reckoned α) : Prop :=
  ∀ x ∈ m.steps, x.Safe

theorem safe_pure (a : α) : (pure a : Reckoned α).Safe := fun _ h => absurd h List.not_mem_nil

theorem safe_fail (e : QuantityError) : (fail e : Reckoned α).Safe := fun _ h => absurd h List.not_mem_nil

theorem safe_step {x : Step} (h : x.Safe) : (step x).Safe := fun _ hx => List.mem_singleton.1 hx ▸ h

theorem safe_result {w : Word} {n : Int} (h : w.Holds n) : (result w n).Safe :=
  fun _ hx => List.mem_singleton.1 hx ▸ h

theorem safe_checked (w : Word) (e : QuantityError) (n : Int) : (checked w e n).Safe := by
  unfold checked
  split
  · exact safe_pure _
  · exact safe_fail _

theorem Safe.bind {m : Reckoned α} {f : α → Reckoned β} (hm : m.Safe) (hf : ∀ a, m.value = .ok a → (f a).Safe) :
    (m >>= f).Safe := by
  obtain ⟨value, steps⟩ := m
  cases value with
  | error e => exact hm
  | ok a =>
    intro x hx
    rcases List.mem_append.1 hx with hx | hx
    · exact hm x hx
    · exact hf a rfl x hx

/-- Goes on from what is known to be the value. -/
theorem Safe.bind_of_value {m : Reckoned α} {f : α → Reckoned β} {a : α} (hm : m.Safe) (ha : m.value = .ok a)
    (hf : (f a).Safe) : (m >>= f).Safe :=
  hm.bind fun _ hb => Except.ok.inj (ha.symm.trans hb) ▸ hf

theorem safe_step_bind {x : Step} {f : Unit → Reckoned β} (h : x.Safe) (hf : (f ()).Safe) : (step x >>= f).Safe :=
  (safe_step h).bind_of_value (value_step x) hf

theorem safe_result_bind {w : Word} {n : Int} {f : Int → Reckoned β} (h : w.Holds n) (hf : (f n).Safe) :
    (result w n >>= f).Safe :=
  (safe_result h).bind_of_value (value_result w n) hf

theorem safe_checked_bind {w : Word} {e : QuantityError} {n : Int} {f : Int → Reckoned β}
    (hf : w.Holds n → (f n).Safe) : (checked w e n >>= f).Safe := by
  refine (safe_checked w e n).bind fun a ha => ?_
  obtain ⟨hholds, rfl⟩ := value_checked_eq_ok_iff.1 ha
  exact hf hholds

end Reckoned

open Reckoned

namespace Quantity

/-! ### The amount -/

/-- A number times a power of ten, rounded up. -/
def reckonShift (e : QuantityError) (n x : Int) : Reckoned Int :=
  if 0 ≤ x then do
    let k ← result .naturalPower x
    let p ← checked .wide e (10 ^ k.toNat)
    checked .wide e (n * p)
  else do
    let x ← result .power (-x)
    let k ← result .naturalPower x
    let p ← checked .wide e (10 ^ k.toNat)
    step (.division n p)
    let q ← result .wide (n.tdiv p)
    let t ← result .wide (n.tmod p)
    result .wide (q + if t ≠ 0 then 1 else 0)

/-- The power of ten that the last written digit counts. -/
def reckonExponent (r : Resource) (s : Suffix) (fraction : List Char) : Reckoned Int := do
  let places ← result .power fraction.length
  let x ← result .power (s.exponent - places)
  if r = .cpu then result .power (x + 3) else return x

/-- The amount without its sign. -/
def reckonMagnitude (e : QuantityError) (r : Resource) (s : Suffix) (whole fraction : List Char) : Reckoned Int := do
  let factor ← result .wide s.factor
  let n ← checked .wide e (Numeral.ofDigits (whole ++ fraction))
  let x ← reckonExponent r s fraction
  let n ← checked .wide e (n * factor)
  let m ← reckonShift e n x
  checked .amount e m

/-- An amount with its sign. -/
def reckonSigned (negative : Bool) (m : Int) : Reckoned Int :=
  if negative then result .amount (-m) else pure m

/-- Whether the sign is a minus, and the text after it. -/
def reckonSign (cs : List Char) : Reckoned (Bool × List Char) := do
  step (.byte cs 0)
  match cs with
  | '-' :: rest => do
    step (.cut cs 1)
    return (true, rest)
  | '+' :: rest => do
    step (.cut cs 1)
    return (false, rest)
  | cs => return (false, cs)

/-- The quantity that a text spells, as an amount of the given resource. -/
def reckon (r : Resource) (input : String) : Reckoned Quantity :=
  let cs := Text.trim input.toList
  if cs.isEmpty then fail .empty
  else do
    let (negative, rest) ← reckonSign cs
    let number := rest.takeWhile isNumberChar
    let suffix := rest.dropWhile isNumberChar
    step (.cut rest (String.utf8Len number))
    match splitPoint? number with
    | none => fail (.invalid input)
    | some (whole, fraction) =>
      match Suffix.read? suffix with
      | none => fail (.unknownSuffix input (String.ofList suffix))
      | some s => do
        let m ← reckonMagnitude (.outOfRange input) r s whole fraction
        let m ← reckonSigned negative m
        return ⟨r, Int64.ofInt m, s.family⟩

/-! ### The values -/

theorem holds_wide_natCast {n : Nat} : Word.wide.Holds n ↔ n < wideLimit :=
  Word.holds_natCast

theorem holds_amount_natCast {n : Nat} : Word.amount.Holds n ↔ n ≤ greatestAmount := by
  have hsize : Word.amount.size = greatestAmount + 1 := by decide
  rw [Word.holds_natCast, hsize, Nat.lt_succ_iff]

theorem pow_ten_lt_iff {k : Nat} : 10 ^ k < wideLimit ↔ k ≤ wideExponent := by
  have hlow : 10 ^ 38 < wideLimit := by decide
  have hhigh : wideLimit ≤ 10 ^ 39 := by decide
  have hexponent : wideExponent = 38 := rfl
  rw [hexponent]
  constructor
  · intro h
    have hlt : k < 39 := (Nat.pow_lt_pow_iff_right (by decide)).1 (Nat.lt_of_lt_of_le h hhigh)
    omega
  · exact fun h => Nat.lt_of_le_of_lt (Nat.pow_le_pow_right (by decide) h) hlow

theorem holds_wide_pow_ten {k : Nat} : Word.wide.Holds (10 ^ k) ↔ k ≤ wideExponent := by
  rw [← pow_ten_lt_iff, ← holds_wide_natCast]
  push_cast
  rfl

/-- What an amount that may be missing is reckoned as. -/
def amountOr (e : QuantityError) : Option Nat → Except QuantityError Int
  | some m => .ok m
  | none => .error e

@[simp] theorem amountOr_some (e : QuantityError) (m : Nat) : amountOr e (some m) = .ok (m : Int) := rfl

@[simp] theorem amountOr_none (e : QuantityError) : amountOr e none = .error e := rfl

theorem amountOr_eq_ok_iff {e : QuantityError} {o : Option Nat} {n : Int} :
    amountOr e o = .ok n ↔ ∃ m : Nat, o = some m ∧ (m : Int) = n := by
  cases o with
  | none => simp
  | some m => simp

theorem value_reckonShift (e : QuantityError) (n : Nat) (x : Int) :
    (reckonShift e n x).value = amountOr e (shiftTen? n x) := by
  have hpow : (10 : Int) ^ x.natAbs = (Nat.pow 10 x.natAbs : Nat) := by simp
  unfold reckonShift shiftTen?
  by_cases hx : 0 ≤ x
  · have hk : x.toNat = x.natAbs := by omega
    rw [if_pos hx, if_neg (by omega)]
    simp only [value_bind, value_result, value_checked, ok_bind, hk, holds_wide_pow_ten]
    by_cases hexponent : x.natAbs ≤ wideExponent
    · rw [if_pos hexponent, ok_bind, hpow, ← Nat.cast_mul]
      simp only [holds_wide_natCast, hexponent, true_and]
      split
      · rw [amountOr_some]
      · rw [amountOr_none]
    · rw [if_neg hexponent, error_bind, if_neg (fun h => hexponent h.1), amountOr_none]
  · have hk : (-x).toNat = x.natAbs := by omega
    rw [if_neg hx, if_pos (by omega)]
    simp only [value_bind, value_result, value_checked, value_step, ok_bind, hk, holds_wide_pow_ten]
    by_cases hexponent : x.natAbs ≤ wideExponent
    · rw [if_pos hexponent, ok_bind, if_pos hexponent, amountOr_some, hpow, ← Int.ofNat_tdiv, ← Int.ofNat_tmod, ceilDiv]
      by_cases hzero : n % Nat.pow 10 x.natAbs = 0
      · rw [hzero]
        rfl
      · rw [if_neg hzero, if_pos (by exact_mod_cast hzero)]
        rfl
    · rw [if_neg hexponent, error_bind, if_neg hexponent, amountOr_none]

theorem value_reckonExponent (r : Resource) (s : Suffix) (fraction : List Char) :
    (reckonExponent r s fraction).value = .ok (lastExponent r s fraction) := by
  unfold reckonExponent lastExponent
  simp only [value_bind, value_result, ok_bind]
  split
  · simp only [value_result, Except.ok.injEq]
    omega
  · simp only [value_pure, Except.ok.injEq]
    omega

theorem value_reckonMagnitude (e : QuantityError) (r : Resource) (s : Suffix) (whole fraction : List Char) :
    (reckonMagnitude e r s whole fraction).value = amountOr e (magnitude? r s whole fraction) := by
  unfold reckonMagnitude magnitude?
  simp only [value_bind, value_result, value_checked, value_reckonExponent, ok_bind, holds_wide_natCast]
  by_cases hn : Numeral.ofDigits (whole ++ fraction) < wideLimit
  · rw [if_pos hn, ok_bind, ← Nat.cast_mul]
    simp only [holds_wide_natCast, hn, true_and]
    by_cases hscaled : Numeral.ofDigits (whole ++ fraction) * s.factor < wideLimit
    · rw [if_pos hscaled, if_pos hscaled, ok_bind, value_reckonShift]
      cases shiftTen? (Numeral.ofDigits (whole ++ fraction) * s.factor) (lastExponent r s fraction) with
      | none => rfl
      | some m =>
        simp only [amountOr_some, ok_bind, holds_amount_natCast, Option.filter_some, decide_eq_true_eq]
        split
        · rfl
        · rfl
    · rw [if_neg hscaled, if_neg hscaled, error_bind, amountOr_none]
  · rw [if_neg hn, error_bind, if_neg (fun h => hn h.1), amountOr_none]

theorem value_reckonSigned (negative : Bool) (m : Int) :
    (reckonSigned negative m).value = .ok (if negative then -m else m) := by
  unfold reckonSigned
  split <;> rfl

theorem value_reckonSign (cs : List Char) : (reckonSign cs).value = .ok (takeSign cs) := by
  obtain ⟨negative, rest, h⟩ := exists_signed cs
  rw [takeSign_of_signed h]
  cases h with
  | minus => rfl
  | plus => rfl
  | bare h =>
    unfold reckonSign
    simp only [value_bind, value_step, ok_bind]
    split
    · exact absurd rfl (h '-' rfl).1
    · exact absurd rfl (h '+' rfl).2
    · rfl

/-- What is reckoned is what is read. -/
theorem value_reckon (r : Resource) (input : String) : (reckon r input).value = read r input := by
  unfold reckon read
  cases hempty : (Text.trim input.toList).isEmpty with
  | true => simp only [hempty, if_true, value_fail]
  | false =>
    simp only [hempty, Bool.false_eq_true, if_false, value_bind, value_step, value_reckonSign, ok_bind]
    generalize takeSign (Text.trim input.toList) = signed
    cases splitPoint? (signed.2.takeWhile isNumberChar) with
    | none => rfl
    | some parts =>
      cases Suffix.read? (signed.2.dropWhile isNumberChar) with
      | none => rfl
      | some s =>
        simp only [value_bind, value_reckonMagnitude]
        cases magnitude? r s parts.1 parts.2 with
        | none => rfl
        | some m =>
          rw [amountOr_some, ok_bind, value_reckonSigned]
          rfl

/-! ### The steps -/

theorem holds_power {n : Int} (h : -2 ^ 31 ≤ n) (h' : n < 2 ^ 31) : Word.power.Holds n := by
  have hsize : (Word.power.size : Int) = 2 ^ 31 := rfl
  rw [Word.holds_iff, hsize]
  exact ⟨.inr rfl, h, h'⟩

theorem holds_naturalPower {n : Int} (h : 0 ≤ n) (h' : n < 2 ^ 32) : Word.naturalPower.Holds n := by
  have hsize : (Word.naturalPower.size : Int) = 2 ^ 32 := rfl
  rw [Word.holds_iff, hsize]
  exact ⟨.inl h, by omega, h'⟩

theorem safe_reckonShift {e : QuantityError} {n : Nat} {x : Int} (hn : n < wideLimit) (hlow : -2 ^ 31 < x)
    (hhigh : x < 2 ^ 31) : (reckonShift e n x).Safe := by
  unfold reckonShift
  split
  · next hx =>
    refine safe_result_bind (holds_naturalPower hx (by omega)) ?_
    exact safe_checked_bind fun _ => safe_checked _ _ _
  · next hx =>
    have hpow : 10 ^ 1 ≤ 10 ^ (-x).toNat := Nat.pow_le_pow_right (by decide) (by omega)
    generalize hd : 10 ^ (-x).toNat = d at hpow
    have hcast : (10 : Int) ^ (-x).toNat = (d : Nat) := by exact_mod_cast hd
    have hquotient : n / d ≤ n / 10 := Nat.div_le_div_left hpow (by decide)
    have hremainder : n % d ≤ n := Nat.mod_le n d
    have hwide : wideLimit = 2 ^ 127 := rfl
    refine safe_result_bind (holds_power (by omega) (by omega)) ?_
    refine safe_result_bind (holds_naturalPower (by omega) (by omega)) ?_
    refine safe_checked_bind fun _ => ?_
    rw [hcast]
    refine safe_step_bind (x := .division n d) (show (d : Int) ≠ 0 by omega) ?_
    rw [← Int.ofNat_tdiv, ← Int.ofNat_tmod]
    refine safe_result_bind (holds_wide_natCast.2 (by omega)) ?_
    refine safe_result_bind (holds_wide_natCast.2 (by omega)) (safe_result ?_)
    split
    · exact holds_wide_natCast.2 (show n / d + 1 < wideLimit by omega)
    · exact holds_wide_natCast.2 (show n / d + 0 < wideLimit by omega)

theorem exponent_mem (s : Suffix) : -9 ≤ s.exponent ∧ s.exponent ≤ 18 := by
  cases s <;> decide

theorem safe_reckonExponent {r : Resource} {s : Suffix} {fraction : List Char} (h : fraction.length < 2 ^ 30) :
    (reckonExponent r s fraction).Safe := by
  have hexponent := exponent_mem s
  unfold reckonExponent
  refine safe_result_bind (holds_power (by omega) (by omega)) ?_
  refine safe_result_bind (holds_power (by omega) (by omega)) ?_
  split
  · exact safe_result (holds_power (by omega) (by omega))
  · exact safe_pure _

theorem safe_reckonMagnitude {e : QuantityError} {r : Resource} {s : Suffix} {whole fraction : List Char}
    (h : fraction.length < 2 ^ 30) : (reckonMagnitude e r s whole fraction).Safe := by
  have hfactor : s.factor < wideLimit := by cases s <;> decide
  have hexponent := exponent_mem s
  have hlast : -2 ^ 31 < lastExponent r s fraction ∧ lastExponent r s fraction < 2 ^ 31 := by
    unfold lastExponent
    split <;> omega
  unfold reckonMagnitude
  refine safe_result_bind (holds_wide_natCast.2 hfactor) ?_
  refine safe_checked_bind fun _ => ?_
  refine (safe_reckonExponent h).bind_of_value (value_reckonExponent r s fraction) ?_
  rw [← Nat.cast_mul]
  refine safe_checked_bind fun hscaled => ?_
  exact (safe_reckonShift (holds_wide_natCast.1 hscaled) hlast.1 hlast.2).bind fun _ _ => safe_checked _ _ _

theorem magnitude?_le {r : Resource} {s : Suffix} {whole fraction : List Char} {m : Nat}
    (h : magnitude? r s whole fraction = some m) : m ≤ greatestAmount := by
  unfold magnitude? at h
  obtain ⟨-, h⟩ := Option.ite_none_right_eq_some.1 h
  exact of_decide_eq_true (Option.filter_eq_some_iff.1 h).2

theorem safe_reckonSigned {negative : Bool} {m : Nat} (h : m ≤ greatestAmount) : (reckonSigned negative m).Safe := by
  have hgreatest : greatestAmount = 2 ^ 63 - 1 := by decide
  have hsize : (Word.amount.size : Int) = 2 ^ 63 := rfl
  unfold reckonSigned
  split
  · refine safe_result ?_
    rw [Word.holds_iff, hsize]
    exact ⟨.inr rfl, by omega, by omega⟩
  · exact safe_pure _

theorem safe_reckonSign {cs : List Char} (h : cs ≠ []) : (reckonSign cs).Safe := by
  have hbytes : 0 < String.utf8Len cs := Nat.pos_of_ne_zero (mt String.utf8Len_eq_zero.1 h)
  unfold reckonSign
  refine safe_step_bind (x := .byte cs 0) hbytes ?_
  split
  · exact safe_step_bind (x := .cut _ 1) ⟨['-'], _, rfl, rfl⟩ (safe_pure _)
  · exact safe_step_bind (x := .cut _ 1) ⟨['+'], _, rfl, rfl⟩ (safe_pure _)
  · exact safe_pure _

theorem length_le_utf8Len (cs : List Char) : cs.length ≤ String.utf8Len cs := by
  induction cs with
  | nil => exact Nat.le_refl 0
  | cons c cs ih =>
    have hpos := Char.utf8Size_pos c
    rw [List.length_cons, String.utf8Len_cons]
    omega

theorem takeSign_sublist (cs : List Char) : (takeSign cs).2.Sublist cs := by
  unfold takeSign
  split
  · exact List.sublist_cons_self _ _
  · exact List.sublist_cons_self _ _
  · exact List.Sublist.refl _

theorem fraction_sublist {run whole fraction : List Char} (h : splitPoint? run = some (whole, fraction)) :
    fraction.Sublist run := by
  obtain ⟨-, rfl, -⟩ := splitPoint?_eq_some_iff.1 h
  exact (List.tail_sublist _).trans (List.dropWhile_sublist _)

/-- No more digits stand behind the point than the text has bytes. -/
theorem length_fraction_le {input : String} {whole fraction : List Char}
    (h : splitPoint? ((takeSign (Text.trim input.toList)).2.takeWhile isNumberChar) = some (whole, fraction)) :
    fraction.length ≤ input.utf8ByteSize := by
  have hsublist : fraction.Sublist input.toList :=
    (fraction_sublist h).trans ((List.takeWhile_sublist _).trans ((takeSign_sublist _).trans (Text.trim_sublist _)))
  rw [← String.utf8Len_toList]
  exact Nat.le_trans (length_le_utf8Len _) (String.utf8Len_le_of_sublist hsublist)

theorem safe_reckon {r : Resource} {input : String} (h : input.utf8ByteSize < 2 ^ 30) : (reckon r input).Safe := by
  unfold reckon
  simp only
  split
  · exact safe_fail _
  · next hempty =>
    refine (safe_reckonSign (by simpa using hempty)).bind_of_value (value_reckonSign _) ?_
    refine safe_step_bind (x := .cut _ _) ⟨_, _, List.takeWhile_append_dropWhile.symm, rfl⟩ ?_
    split
    · exact safe_fail _
    · next whole fraction hsplit =>
      have hfraction := length_fraction_le hsplit
      split
      · exact safe_fail _
      · next s _ =>
        refine (safe_reckonMagnitude (by omega)).bind fun m hm => ?_
        rw [value_reckonMagnitude] at hm
        obtain ⟨m, hmagnitude, rfl⟩ := amountOr_eq_ok_iff.1 hm
        exact (safe_reckonSigned (magnitude?_le hmagnitude)).bind fun _ _ => safe_pure _

/-- A text is read as its parts spell, and if it is shorter than `2 ^ 30` bytes, no step of the reading leaves its word or
fails. -/
theorem read_exactly {r : Resource} {input : String} (h : input.utf8ByteSize < 2 ^ 30) :
    (∀ out, read r input = out ↔ Reading r input out) ∧ (reckon r input).value = read r input ∧
      ∀ x ∈ (reckon r input).steps, x.Safe :=
  ⟨fun _ => read_eq_iff_reading, value_reckon r input, safe_reckon h⟩

/-- A part of a thousandth of a core counts as a whole one, in either direction. -/
theorem read_exactly_part :
    "-.0000000005".utf8ByteSize < 2 ^ 30 ∧ Reading .cpu "-.0000000005" (.ok ⟨.cpu, -1, .decimal⟩) ∧
      ∀ x ∈ (reckon .cpu "-.0000000005").steps, x.Safe := by
  have hsize : "-.0000000005".utf8ByteSize < 2 ^ 30 := by decide
  obtain ⟨hread, -, hsafe⟩ := read_exactly (r := .cpu) hsize
  exact ⟨hsize, (hread _).1 (by decide +kernel), hsafe⟩

end Quantity

end Allotment
