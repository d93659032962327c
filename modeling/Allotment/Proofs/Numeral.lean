import Allotment.Numeral

/-!
# Numbers as they are spelled

* `NumberText cs n` — the characters `cs` spell the number `n`;
* `Numeral.below?_eq_some_iff` — a number under a limit is read from just such characters.
-/

namespace Allotment

/-- A run of digits spells a number, with a plus sign in front or without. -/
inductive NumberText : List Char → Nat → Prop
  | bare {ds : List Char} (h : Numeral.isNumeral ds = true) : NumberText ds (Numeral.ofDigits ds)
  | plus {ds : List Char} (h : Numeral.isNumeral ds = true) : NumberText ('+' :: ds) (Numeral.ofDigits ds)

namespace Numeral

theorem isNumeral_iff {ds : List Char} : isNumeral ds = true ↔ ds ≠ [] ∧ ∀ c ∈ ds, c.isDigit = true := by
  simp [isNumeral]

theorem below?_eq_some_iff {limit n : Nat} {cs : List Char} :
    below? limit cs = some n ↔ NumberText cs n ∧ n < limit := by
  have hplus : Char.isDigit '+' = false := by decide
  unfold below?
  simp only [Bool.and_eq_true, decide_eq_true_eq, Option.ite_none_right_eq_some, Option.some.injEq]
  constructor
  · rintro ⟨⟨hnumeral, hlimit⟩, rfl⟩
    refine ⟨?_, hlimit⟩
    split at hnumeral
    · exact .plus hnumeral
    · exact .bare hnumeral
  · rintro ⟨hn, hlimit⟩
    cases hn with
    | plus h => exact ⟨⟨h, hlimit⟩, rfl⟩
    | bare h =>
      split
      · next r =>
        have hdigit := (isNumeral_iff.1 h).2 '+' List.mem_cons_self
        rw [hplus] at hdigit
        cases hdigit
      · exact ⟨⟨h, hlimit⟩, rfl⟩

end Numeral

/-- A number is spelled with digits and the plus sign alone. -/
theorem NumberText.mem {cs : List Char} {n : Nat} (h : NumberText cs n) :
    (∃ c ∈ cs, c.isDigit = true) ∧ ∀ c ∈ cs, c = '+' ∨ c.isDigit = true := by
  cases h with
  | bare h =>
    obtain ⟨hne, hdigits⟩ := Numeral.isNumeral_iff.1 h
    obtain ⟨c, hc⟩ := List.exists_mem_of_ne_nil _ hne
    exact ⟨⟨c, hc, hdigits c hc⟩, fun d hd => .inr (hdigits d hd)⟩
  | plus h =>
    obtain ⟨hne, hdigits⟩ := Numeral.isNumeral_iff.1 h
    obtain ⟨c, hc⟩ := List.exists_mem_of_ne_nil _ hne
    refine ⟨⟨c, List.mem_cons_of_mem _ hc, hdigits c hc⟩, fun d hd => ?_⟩
    exact (List.mem_cons.1 hd).imp id (hdigits d)

theorem NumberText.unique {cs : List Char} {n m : Nat} (h : NumberText cs n) (h' : NumberText cs m) : n = m := by
  have hn := Numeral.below?_eq_some_iff.2 ⟨h, show n < n + m + 1 by omega⟩
  have hm := Numeral.below?_eq_some_iff.2 ⟨h', show m < n + m + 1 by omega⟩
  exact Option.some.inj (hn.symm.trans hm)

end Allotment
