import Mathlib.Data.String.Basic
import Allotment.Proofs.Time.SpanGrammar

/-!
# Scanning a span

A span is read once more as a scan that goes through the text by offsets of bytes and counts in machine words. A step
that cannot be carried out breaks the scan off: a cut that is not between two characters, a sum or a product that does
not fit its word and is not checked.

* `Text.offset?`, `Text.splitAt?` — where a character is found, and the two parts of a text that is cut there;
* `Scanned` — a value, the error that a scan ends with, or a fault that breaks it off;
* `Clock` — a span as seconds in 64 bits and nanoseconds in 32;
* `scanSegment` — one turn, which takes one segment; `ScanFrom`, `Scan` — the turns one after the other, and the whole;
* `scan_iff` — the scan of every text comes to its end, with just what is read from it;
* `read_sums` — the grammar, the order of segments and the scan together.
-/

namespace Allotment

/-! ### Offsets -/

namespace Text

/-- Where the first character of a kind begins, in bytes. -/
def offset? (p : Char → Bool) : List Char → Option Nat
  | [] => none
  | c :: cs => if p c then some 0 else (offset? p cs).map (· + c.utf8Size)

/-- The text in front of an offset and the text behind it; none if the offset is not between two characters. -/
def splitAt? : Nat → List Char → Option (List Char × List Char)
  | 0, cs => some ([], cs)
  | _ + 1, [] => none
  | n + 1, c :: cs =>
    if n + 1 < c.utf8Size then none
    else (splitAt? (n + 1 - c.utf8Size) cs).map fun (before, after) => (c :: before, after)

theorem offset?_eq (p : Char → Bool) (cs : List Char) :
    offset? p cs =
      if cs.dropWhile (fun c => !p c) = [] then none else some (String.utf8Len (cs.takeWhile fun c => !p c)) := by
  induction cs with
  | nil => rfl
  | cons c cs ih =>
    by_cases hc : p c = true
    · rw [offset?, if_pos hc, List.dropWhile_cons_of_neg (by simp [hc]), List.takeWhile_cons_of_neg (by simp [hc])]
      rfl
    · rw [offset?, if_neg hc, ih, List.dropWhile_cons_of_pos (by simp [hc]), List.takeWhile_cons_of_pos (by simp [hc])]
      split
      · rfl
      · rfl

theorem getD_offset? (p : Char → Bool) (cs : List Char) :
    (offset? p cs).getD (String.utf8Len cs) = String.utf8Len (cs.takeWhile fun c => !p c) := by
  rw [offset?_eq]
  split
  · next h =>
    have hall := List.takeWhile_append_dropWhile (p := fun c => !p c) (l := cs)
    rw [h, List.append_nil] at hall
    rw [hall]
    rfl
  · rfl

theorem splitAt?_append (before after : List Char) :
    splitAt? (String.utf8Len before) (before ++ after) = some (before, after) := by
  induction before with
  | nil => cases after <;> rfl
  | cons c cs ih =>
    obtain ⟨n, hn⟩ := Nat.exists_eq_succ_of_ne_zero (mt String.utf8Len_eq_zero.1 (List.cons_ne_nil c cs))
    rw [hn, List.cons_append, splitAt?, ← Nat.succ_eq_add_one, ← hn, String.utf8Len_cons,
      if_neg (Nat.not_lt.2 (Nat.le_add_left _ _)), Nat.add_sub_cancel, ih]
    rfl

/-- A text is cut between two characters or not at all. -/
theorem splitAt?_eq_some_iff {n : Nat} {cs before after : List Char} :
    splitAt? n cs = some (before, after) ↔ cs = before ++ after ∧ String.utf8Len before = n := by
  constructor
  · intro h
    fun_induction splitAt? n cs generalizing before after with
    | case1 cs =>
      obtain ⟨rfl, rfl⟩ := Prod.mk.inj (Option.some.inj h)
      exact ⟨rfl, rfl⟩
    | case2 => cases h
    | case3 => cases h
    | case4 n c cs hle ih =>
      obtain ⟨⟨cs₁, cs₂⟩, hsplit, heq⟩ := Option.map_eq_some_iff.1 h
      obtain ⟨rfl, rfl⟩ := Prod.mk.inj heq
      obtain ⟨rfl, hlen⟩ := ih hsplit
      refine ⟨rfl, ?_⟩
      rw [String.utf8Len_cons, hlen]
      omega
  · rintro ⟨rfl, rfl⟩
    exact splitAt?_append before after

end Text

namespace Span

/-! ### Outcomes and words -/

/-- What comes of a scan: a value, the error that it ends with, or a fault that breaks it off. -/
inductive Scanned (α : Type) where
  | value (a : α)
  | error (e : SpanError)
  | fault

namespace Scanned

variable {α β : Type}

instance : Monad Scanned where
  pure := value
  bind
    | value a, f => f a
    | error e, _ => error e
    | fault, _ => fault

/-- Ends with an error where there is no result. -/
def orError (e : SpanError) : Option α → Scanned α
  | some a => value a
  | none => error e

/-- Breaks off where there is no result. -/
def orFault : Option α → Scanned α
  | some a => value a
  | none => fault

def map (f : α → β) : Scanned α → Scanned β
  | value a => value (f a)
  | error e => error e
  | fault => fault

def ofExcept : Except SpanError α → Scanned α
  | .ok a => value a
  | .error e => error e

@[simp] theorem value_bind (a : α) (f : α → Scanned β) : (value a >>= f) = f a := rfl

@[simp] theorem error_bind (e : SpanError) (f : α → Scanned β) : (error e >>= f) = error e := rfl

@[simp] theorem pure_eq (a : α) : (pure a : Scanned α) = value a := rfl

theorem map_bind {γ : Type} (m : Scanned α) (f : α → Scanned β) (g : β → γ) :
    (m >>= f).map g = m >>= fun a => (f a).map g := by
  cases m <;> rfl

theorem bind_value (m : Scanned α) (f : α → β) : (m >>= fun a => value (f a)) = m.map f := by
  cases m <;> rfl

@[simp] theorem orError_some (e : SpanError) (a : α) : orError e (some a) = value a := rfl

@[simp] theorem orError_none (e : SpanError) : orError e (none : Option α) = error e := rfl

@[simp] theorem orFault_some (a : α) : orFault (some a) = value a := rfl

end Scanned

open Scanned

/-- A number, if a word has room for it. -/
def word? (limit n : Nat) : Option Nat :=
  if n < limit then some n else none

theorem word?_of_lt {limit n : Nat} (h : n < limit) : word? limit n = some n :=
  if_pos h

theorem word?_of_not_lt {limit n : Nat} (h : ¬ n < limit) : word? limit n = none :=
  if_neg h

/-- Nanoseconds are counted in 32 bits. -/
def halfLimit : Nat := UInt32.size

/-- A span as it is kept in words: whole seconds, and the nanoseconds beyond them. -/
structure Clock where
  seconds : Nat
  nanos : Nat
  deriving DecidableEq

namespace Clock

def span (c : Clock) : Span := ⟨c.seconds * nanosPerSecond + c.nanos⟩

/-- So many nanoseconds. -/
def ofNanos (n : Nat) : Clock := ⟨n / nanosPerSecond, n % nanosPerSecond⟩

/-- The sum of two spans; a full second of nanoseconds is carried over. -/
def add (e : SpanError) (a b : Clock) : Scanned Clock := do
  let seconds ← orError e (word? wordLimit (a.seconds + b.seconds))
  let nanos ← orFault (word? halfLimit (a.nanos + b.nanos))
  if nanos < nanosPerSecond then return ⟨seconds, nanos⟩
  else do
    let seconds ← orError e (word? wordLimit (seconds + 1))
    return ⟨seconds, nanos - nanosPerSecond⟩

end Clock

/-! ### The scan -/

/-- An amount of a unit. -/
def scanUnit (input : String) (amount : Nat) : TimeUnit → Scanned Clock
  | .millisecond => do
    let nanos ← orFault (word? halfLimit (nanosPerMilli * (amount % 1000)))
    return ⟨amount / 1000, nanos⟩
  | .second => return ⟨amount, 0⟩
  | .minute => do
    let seconds ← orError (.outOfRange input) (word? wordLimit (amount * 60))
    return ⟨seconds, 0⟩
  | .hour => do
    let seconds ← orError (.outOfRange input) (word? wordLimit (amount * 3600))
    return ⟨seconds, 0⟩

/-- One turn: the segment that the text begins with is added to the total, and what is behind it is left. -/
def scanSegment (input : String) (total : Clock) (cs : List Char) : Scanned (Clock × List Char) := do
  let digits ← orError (.missingUnit input) (Text.offset? (fun c => !c.isDigit) cs)
  if digits = 0 then .error (.invalid input)
  else do
    let (amount, rest) ← orFault (Text.splitAt? digits cs)
    let amount ← orError (.invalid input) (Numeral.below? wordLimit amount)
    let letters := (Text.offset? Char.isDigit rest).getD (String.utf8Len rest)
    let (unit, rest) ← orFault (Text.splitAt? letters rest)
    let unit ← orError (.unknownUnit input (String.ofList unit)) (TimeUnit.read? unit)
    let segment ← scanUnit input amount unit
    let total ← total.add (.outOfRange input) segment
    return (total, rest)

/-- The turns one after the other, from a total and a text on, until nothing is left or a turn does not succeed. -/
inductive ScanFrom (input : String) : Clock → List Char → Scanned Clock → Prop
  | done {total : Clock} : ScanFrom input total [] (.value total)
  | again {total total' : Clock} {cs rest : List Char} {o : Scanned Clock} (hne : cs ≠ [])
    (h : scanSegment input total cs = .value (total', rest)) (hrest : ScanFrom input total' rest o) :
    ScanFrom input total cs o
  | error {total : Clock} {cs : List Char} {e : SpanError} (hne : cs ≠ [])
    (h : scanSegment input total cs = .error e) : ScanFrom input total cs (.error e)
  | fault {total : Clock} {cs : List Char} (hne : cs ≠ []) (h : scanSegment input total cs = .fault) :
    ScanFrom input total cs .fault

/-- The scan of a text without the blanks around it. -/
inductive Scan (input : String) : Scanned Span → Prop
  | empty (h : Text.trim input.toList = []) : Scan input (.error .empty)
  | seconds {n : Nat} (hne : Text.trim input.toList ≠ [])
    (h : Numeral.below? wordLimit (Text.trim input.toList) = some n) : Scan input (.value (ofSeconds n))
  | segments {o : Scanned Clock} (hne : Text.trim input.toList ≠ [])
    (h : Numeral.below? wordLimit (Text.trim input.toList) = none)
    (hscan : ScanFrom input ⟨0, 0⟩ (Text.trim input.toList) o) : Scan input (o.map Clock.span)

/-! ### The steps -/

namespace Clock

@[simp] theorem seconds_ofNanos (n : Nat) : (ofNanos n).seconds = n / nanosPerSecond := rfl

@[simp] theorem nanos_ofNanos (n : Nat) : (ofNanos n).nanos = n % nanosPerSecond := rfl

theorem span_ofNanos (n : Nat) : (ofNanos n).span = ⟨n⟩ := by
  have hn : n / nanosPerSecond * nanosPerSecond + n % nanosPerSecond = n := by
    rw [Nat.mul_comm]
    exact Nat.div_add_mod n nanosPerSecond
  simp only [span, ofNanos, hn]

theorem ofNanos_seconds (n : Nat) : ofNanos (n * nanosPerSecond) = ⟨n, 0⟩ := by
  rw [ofNanos, Nat.mul_div_cancel _ (by decide), Nat.mul_mod_left]

theorem ofNanos_millis (n : Nat) : ofNanos (n * nanosPerMilli) = ⟨n / 1000, nanosPerMilli * (n % 1000)⟩ := by
  have hsecond : nanosPerSecond = nanosPerMilli * 1000 := rfl
  rw [ofNanos, hsecond, Nat.mul_comm n, Nat.mul_div_mul_left _ _ (by decide), Nat.mul_mod_mul_left]

/-- Nanoseconds are a span if their seconds are a word. -/
theorem map_ofNanos_word? (n : Nat) :
    (word? limit n).map ofNanos = (word? wordLimit (ofNanos n).seconds).map fun s => ⟨s, (ofNanos n).nanos⟩ := by
  have hlimit : (ofNanos n).seconds < wordLimit ↔ n < limit := Nat.div_lt_iff_lt_mul (by decide)
  by_cases hn : n < limit
  · rw [word?_of_lt hn, word?_of_lt (hlimit.2 hn)]
    rfl
  · rw [word?_of_not_lt hn, word?_of_not_lt (mt hlimit.1 hn)]
    rfl

/-- A second is carried over if the nanoseconds come to one. -/
theorem carry (m n : Nat) :
    (m % nanosPerSecond + n % nanosPerSecond < nanosPerSecond ∧ ofNanos (m + n) =
      ⟨m / nanosPerSecond + n / nanosPerSecond, m % nanosPerSecond + n % nanosPerSecond⟩) ∨
    (¬ m % nanosPerSecond + n % nanosPerSecond < nanosPerSecond ∧ ofNanos (m + n) =
      ⟨m / nanosPerSecond + n / nanosPerSecond + 1, m % nanosPerSecond + n % nanosPerSecond - nanosPerSecond⟩) := by
  have hsecond : nanosPerSecond = 1000000000 := rfl
  simp only [ofNanos, mk.injEq, hsecond]
  omega

/-- The sum ends with an error just where it is no span; its nanoseconds always fit their word. -/
theorem add_ofNanos (e : SpanError) (m n : Nat) :
    (ofNanos m).add e (ofNanos n) = orError e ((word? limit (m + n)).map ofNanos) := by
  have hnanos : m % nanosPerSecond + n % nanosPerSecond < halfLimit := by
    have hm : m % nanosPerSecond < nanosPerSecond := Nat.mod_lt _ (by decide)
    have hn : n % nanosPerSecond < nanosPerSecond := Nat.mod_lt _ (by decide)
    have hroom : nanosPerSecond + nanosPerSecond ≤ halfLimit := by decide
    omega
  simp only [add, seconds_ofNanos, nanos_ofNanos, word?_of_lt hnanos, orFault_some, Scanned.value_bind]
  rcases carry m n with ⟨hlt, hsum⟩ | ⟨hge, hsum⟩
  · rw [map_ofNanos_word?, hsum]
    simp only [if_pos hlt]
    cases word? wordLimit (m / nanosPerSecond + n / nanosPerSecond) with
    | none => rfl
    | some s => rfl
  · rw [map_ofNanos_word?, hsum]
    simp only [if_neg hge]
    by_cases hword : m / nanosPerSecond + n / nanosPerSecond < wordLimit
    · rw [word?_of_lt hword]
      cases hnext : word? wordLimit (m / nanosPerSecond + n / nanosPerSecond + 1) with
      | none => simp [hnext]
      | some s => simp [hnext]
    · rw [word?_of_not_lt hword, word?_of_not_lt (mt Nat.lt_of_succ_lt hword)]
      rfl

end Clock

/-- An amount that is no span is an error; the rest of its milliseconds always fits its word. -/
theorem scanUnit_eq (input : String) {amount : Nat} (h : amount < wordLimit) (u : TimeUnit) :
    scanUnit input amount u = orError (.outOfRange input) ((word? limit (amount * u.nanos)).map Clock.ofNanos) := by
  have hseconds (k : Nat) : (word? limit (amount * (k * nanosPerSecond))).map Clock.ofNanos =
      (word? wordLimit (amount * k)).map fun s => ⟨s, 0⟩ := by
    rw [← Nat.mul_assoc, Clock.map_ofNanos_word?, Clock.ofNanos_seconds]
  cases u with
  | millisecond =>
    have hrest : nanosPerMilli * (amount % 1000) < halfLimit := by
      have hmillis : nanosPerMilli * (amount % 1000) < nanosPerMilli * 1000 :=
        Nat.mul_lt_mul_of_pos_left (Nat.mod_lt _ (by decide)) (by decide)
      exact Nat.lt_of_lt_of_le hmillis (by decide)
    have hword : amount / 1000 < wordLimit := Nat.lt_of_le_of_lt (Nat.div_le_self _ _) h
    simp only [scanUnit, TimeUnit.nanos, Clock.map_ofNanos_word?, Clock.ofNanos_millis]
    rw [word?_of_lt hrest, word?_of_lt hword]
    rfl
  | second =>
    simp only [scanUnit, TimeUnit.nanos, Clock.map_ofNanos_word?, Clock.ofNanos_seconds]
    rw [word?_of_lt h]
    rfl
  | minute =>
    simp only [scanUnit, TimeUnit.nanos, hseconds]
    cases word? wordLimit (amount * 60) with
    | none => rfl
    | some s => rfl
  | hour =>
    simp only [scanUnit, TimeUnit.nanos, hseconds]
    cases word? wordLimit (amount * 3600) with
    | none => rfl
    | some s => rfl

/-- An amount and a unit are added as a segment is. -/
theorem scanAmount_eq (input : String) (total : Nat) {amount : List Char} (h : Numeral.isNumeral amount = true)
    (unit : List Char) :
    (do
      let n ← orError (.invalid input) (Numeral.below? wordLimit amount)
      let unit ← orError (.unknownUnit input (String.ofList unit)) (TimeUnit.read? unit)
      let segment ← scanUnit input n unit
      (Clock.ofNanos total).add (.outOfRange input) segment) =
      (ofExcept (addSegment input total amount unit)).map Clock.ofNanos := by
  unfold addSegment
  dsimp only
  by_cases hword : Numeral.ofDigits amount < wordLimit
  · rw [Numeral.below?_eq_some_iff.2 ⟨.bare h, hword⟩, if_neg (Nat.not_le_of_lt hword)]
    simp only [orError_some, Scanned.value_bind]
    cases TimeUnit.read? unit with
    | none => rfl
    | some u =>
      simp only [orError_some, Scanned.value_bind, scanUnit_eq input hword]
      by_cases hsegment : Numeral.ofDigits amount * u.nanos < limit
      · rw [word?_of_lt hsegment, Option.map_some, orError_some, Scanned.value_bind, Clock.add_ofNanos]
        by_cases hsum : total + Numeral.ofDigits amount * u.nanos < limit
        · rw [word?_of_lt hsum, if_pos ⟨hsegment, hsum⟩]
          rfl
        · rw [word?_of_not_lt hsum, if_neg fun hfits => hsum hfits.2]
          rfl
      · rw [word?_of_not_lt hsegment, if_neg fun hfits => hsegment hfits.1]
        rfl
  · have hnone : Numeral.below? wordLimit amount = none := by
      refine Option.eq_none_iff_forall_ne_some.2 fun n hn => ?_
      obtain ⟨hnumber, hlimit⟩ := Numeral.below?_eq_some_iff.1 hn
      exact hword ((NumberText.bare h).unique hnumber ▸ hlimit)
    rw [hnone, if_pos (Nat.le_of_not_lt hword)]
    rfl

/-- A turn takes a segment as it is read, and none of its steps fails. -/
theorem scanSegment_eq (input : String) (total : Nat) (cs : List Char) :
    scanSegment input (Clock.ofNanos total) cs =
      let amount := cs.takeWhile Char.isDigit
      let rest := cs.dropWhile Char.isDigit
      if rest = [] then .error (.missingUnit input)
      else if amount = [] then .error (.invalid input)
      else
        ((ofExcept (addSegment input total amount (rest.takeWhile fun c => !c.isDigit))).map Clock.ofNanos).map
          fun total => (total, rest.dropWhile fun c => !c.isDigit) := by
  have hdigits : Text.offset? (fun c => !c.isDigit) cs = if cs.dropWhile Char.isDigit = [] then none
      else some (String.utf8Len (cs.takeWhile Char.isDigit)) := by
    simpa using Text.offset?_eq (fun c => !c.isDigit) cs
  dsimp only
  unfold scanSegment
  rw [hdigits]
  by_cases hrest : cs.dropWhile Char.isDigit = []
  · rw [if_pos hrest, if_pos hrest]
    rfl
  · rw [if_neg hrest, if_neg hrest, orError_some, Scanned.value_bind]
    by_cases hamount : cs.takeWhile Char.isDigit = []
    · rw [if_pos (String.utf8Len_eq_zero.2 hamount), if_pos hamount]
    · have hcut : Text.splitAt? (String.utf8Len (cs.takeWhile Char.isDigit)) cs =
          some (cs.takeWhile Char.isDigit, cs.dropWhile Char.isDigit) :=
        Text.splitAt?_eq_some_iff.2 ⟨List.takeWhile_append_dropWhile.symm, rfl⟩
      have hnumeral : Numeral.isNumeral (cs.takeWhile Char.isDigit) = true :=
        Numeral.isNumeral_iff.2 ⟨hamount, List.all_eq_true.1 List.all_takeWhile⟩
      rw [if_neg (mt String.utf8Len_eq_zero.1 hamount), if_neg hamount, hcut, orFault_some, Scanned.value_bind]
      have hletters : Text.splitAt? ((Text.offset? Char.isDigit (cs.dropWhile Char.isDigit)).getD
          (String.utf8Len (cs.dropWhile Char.isDigit))) (cs.dropWhile Char.isDigit) =
          some ((cs.dropWhile Char.isDigit).takeWhile fun c => !c.isDigit,
            (cs.dropWhile Char.isDigit).dropWhile fun c => !c.isDigit) :=
        Text.splitAt?_eq_some_iff.2
          ⟨List.takeWhile_append_dropWhile.symm, (Text.getD_offset? Char.isDigit _).symm⟩
      simp only [hletters, orFault_some, Scanned.value_bind, Scanned.pure_eq, Scanned.bind_value]
      rw [← scanAmount_eq input total hnumeral]
      simp only [Scanned.map_bind]

/-! ### The turns -/

section Turns

variable {input : String} {total : Clock} {cs : List Char} {o : Scanned Clock}

theorem scanFrom_nil_iff : ScanFrom input total [] o ↔ o = .value total := by
  constructor
  · intro h
    cases h with
    | done => rfl
    | again hne => exact absurd rfl hne
    | error hne => exact absurd rfl hne
    | fault hne => exact absurd rfl hne
  · rintro rfl
    exact .done

theorem scanFrom_iff (hne : cs ≠ []) :
    ScanFrom input total cs o ↔
      match scanSegment input total cs with
      | .value (total', rest) => ScanFrom input total' rest o
      | .error e => o = .error e
      | .fault => o = .fault := by
  constructor
  · intro h
    cases h with
    | done => exact absurd rfl hne
    | again _ h hrest => rwa [h]
    | error _ h => rw [h]
    | fault _ h => rw [h]
  · intro h
    cases hturn : scanSegment input total cs with
    | value next =>
      rw [hturn] at h
      exact .again hne hturn h
    | error e =>
      rw [hturn] at h
      exact h ▸ .error hne hturn
    | fault =>
      rw [hturn] at h
      exact h ▸ .fault hne hturn

/-- A turn from what has been added up so far. -/
theorem scanFrom_ofNanos_turn_iff {n : Nat} (hne : ¬ cs.isEmpty = true) :
    ScanFrom input (Clock.ofNanos n) cs o ↔
      if (cs.dropWhile Char.isDigit).isEmpty then o = .error (.missingUnit input)
      else if cs.takeWhile Char.isDigit = [] then o = .error (.invalid input)
      else
        match addSegment input n (cs.takeWhile Char.isDigit)
          ((cs.dropWhile Char.isDigit).takeWhile fun c => !c.isDigit) with
        | .error e => o = .error e
        | .ok n => ScanFrom input (Clock.ofNanos n) ((cs.dropWhile Char.isDigit).dropWhile fun c => !c.isDigit) o := by
  rw [scanFrom_iff (mt List.isEmpty_iff.2 hne), scanSegment_eq]
  dsimp only
  by_cases hrest : cs.dropWhile Char.isDigit = []
  · rw [if_pos hrest, if_pos (List.isEmpty_iff.2 hrest)]
  · rw [if_neg hrest, if_neg (mt List.isEmpty_iff.1 hrest)]
    by_cases hamount : cs.takeWhile Char.isDigit = []
    · rw [if_pos hamount, if_pos hamount]
    · rw [if_neg hamount, if_neg hamount]
      cases addSegment input n (cs.takeWhile Char.isDigit)
          ((cs.dropWhile Char.isDigit).takeWhile fun c => !c.isDigit) with
      | error e => rfl
      | ok n => rfl

/-- The turns come to an end, with what the segments are read as. -/
theorem scanFrom_ofNanos_iff {n : Nat} :
    ScanFrom input (Clock.ofNanos n) cs o ↔ o = (ofExcept (readSegments input n cs)).map Clock.ofNanos := by
  -- by the recursion of the reading, each call of which is one turn
  fun_induction readSegments input n cs with
  | case1 n cs hempty =>
    rw [List.isEmpty_iff.1 hempty, scanFrom_nil_iff]
    rfl
  | case2 n cs hne rest hrest =>
    rw [scanFrom_ofNanos_turn_iff hne, if_pos hrest]
    rfl
  | case3 n cs hne amount rest hrest hamount =>
    rw [scanFrom_ofNanos_turn_iff hne, if_neg hrest, if_pos hamount]
    rfl
  | case4 n cs hne amount rest hrest hamount e hadd =>
    rw [scanFrom_ofNanos_turn_iff hne, if_neg hrest, if_neg hamount, hadd]
    rfl
  | case5 n cs hne amount rest hrest hamount n' hadd ih =>
    rw [scanFrom_ofNanos_turn_iff hne, if_neg hrest, if_neg hamount, hadd]
    exact ih

/-- The scan of every text comes to its end, with just what is read from it. -/
theorem scan_iff {out : Scanned Span} : Scan input out ↔ out = ofExcept (read input) := by
  have hzero : Clock.ofNanos 0 = ⟨0, 0⟩ := by decide
  have hspan (m : Except SpanError Nat) :
      ((ofExcept m).map Clock.ofNanos).map Clock.span = ofExcept (m.map Span.mk) := by
    cases m with
    | error e => rfl
    | ok n => exact congrArg value (Clock.span_ofNanos n)
  unfold read
  dsimp only
  constructor
  · intro h
    cases h with
    | empty h =>
      rw [h]
      rfl
    | seconds hne h =>
      rw [if_neg (mt List.isEmpty_iff.1 hne), h]
      rfl
    | segments hne h hscan =>
      rw [if_neg (mt List.isEmpty_iff.1 hne), h]
      rw [← hzero, scanFrom_ofNanos_iff] at hscan
      rw [hscan, hspan]
  · rintro rfl
    by_cases hne : Text.trim input.toList = []
    · rw [if_pos (List.isEmpty_iff.2 hne)]
      exact .empty hne
    · rw [if_neg (mt List.isEmpty_iff.1 hne)]
      cases h : Numeral.below? wordLimit (Text.trim input.toList) with
      | some n => exact .seconds hne h
      | none =>
        have hscan : ScanFrom input ⟨0, 0⟩ (Text.trim input.toList)
            ((ofExcept (readSegments input 0 (Text.trim input.toList))).map Clock.ofNanos) := by
          rw [← hzero, scanFrom_ofNanos_iff]
        exact hspan _ ▸ .segments hne h hscan

end Turns

/-- Just the spelled spans are read, in whatever order their segments come, and the scan of a text comes to its end
without a fault. -/
theorem read_sums (input : String) :
    (∀ s, read input = .ok s ↔ SpanText (Text.trim input.toList) s) ∧
      (∀ (input' : String) (gs gs' : List Segment), gs.Perm gs' → Text.trim input.toList = gs.flatMap Segment.text →
        Text.trim input'.toList = gs'.flatMap Segment.text → ∀ s, read input = .ok s ↔ read input' = .ok s) ∧
      ∀ out, Scan input out ↔ out = ofExcept (read input) :=
  ⟨fun _ => read_eq_ok_iff, fun _ _ _ hperm h h' => read_congr_of_perm hperm h h', fun _ => scan_iff⟩

/-- An hour and a half and half a second, the other way round behind a wide blank. -/
theorem read_sums_swapped :
    ∃ gs gs' : List Segment, gs.Perm gs' ∧ Text.trim "1h30m500ms".toList = gs.flatMap Segment.text ∧
      Text.trim "\u3000500ms30m1h".toList = gs'.flatMap Segment.text ∧ read "1h30m500ms" = .ok ⟨5400500000000⟩ ∧
      read "\u3000500ms30m1h" = .ok ⟨5400500000000⟩ ∧ Scan "1h30m500ms" (.value ⟨5400500000000⟩) := by
  let gs : List Segment := [⟨['1'], .hour, by decide⟩, ⟨['3', '0'], .minute, by decide⟩,
    ⟨['5', '0', '0'], .millisecond, by decide⟩]
  have htext : Text.trim "1h30m500ms".toList = gs.flatMap Segment.text := by decide
  have htext' : Text.trim "\u3000500ms30m1h".toList = gs.reverse.flatMap Segment.text := by decide
  have hwords : ∀ g ∈ gs, g.amount < wordLimit ∧ g.nanos < limit := by decide
  have hfits : ∀ g ∈ gs, g.Fits := fun g hg => Segment.fits_iff.2 (hwords g hg)
  obtain ⟨hread, hswap, hscan⟩ := read_sums "1h30m500ms"
  have hspan : read "1h30m500ms" = .ok ⟨5400500000000⟩ := by
    have htotal : Segment.total gs = 5400500000000 := by decide
    refine (hread _).2 ?_
    rw [htext, ← htotal]
    exact .segments (by decide) hfits (by decide)
  have hperm : gs.Perm gs.reverse := (List.reverse_perm gs).symm
  refine ⟨gs, gs.reverse, hperm, htext, htext', hspan, (hswap _ _ _ hperm htext htext' _).1 hspan, ?_⟩
  rw [hscan, hspan]
  rfl

end Span

end Allotment
