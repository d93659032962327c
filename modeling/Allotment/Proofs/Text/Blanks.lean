import Mathlib.Data.List.DropRight
import Allotment.Text

/-!
# Blanks do not count

* `Text.trim_trim`, `Text.trimmed_trimmed` — a trimmed text has no blanks at its ends;
* `Text.words_trim` — the words of a text are those of the trimmed one.
-/

namespace Allotment.Text

/-! ### Trimming -/

/-- What is dropped ends in front of a character that is not to be dropped. -/
theorem of_dropWhile_eq_cons {p : Char → Bool} {c : Char} {cs rest : List Char} (h : cs.dropWhile p = c :: rest) :
    p c = false := by
  have hhead := List.head?_dropWhile_not p cs
  rw [h] at hhead
  simpa using hhead

theorem trimEnd_cons {c : Char} (h : isBlank c = false) (cs : List Char) : trimEnd (c :: cs) = c :: trimEnd cs := by
  unfold trimEnd
  rw [List.reverse_cons, List.dropWhile_append]
  split
  · next hcs => simp_all
  · simp

theorem trim_eq_nil_iff {cs : List Char} : trim cs = [] ↔ ∀ c ∈ cs, isBlank c = true := by
  constructor
  · intro h
    rw [← List.dropWhile_eq_nil_iff]
    cases hcs : cs.dropWhile isBlank with
    | nil => rfl
    | cons c rest =>
      rw [trim, hcs, trimEnd_cons (of_dropWhile_eq_cons hcs)] at h
      cases h
  · intro h
    rw [trim, List.dropWhile_eq_nil_iff.2 h]
    rfl

theorem trim_sublist (cs : List Char) : (trim cs).Sublist cs := by
  have hend : (trimEnd (cs.dropWhile isBlank)).Sublist (cs.dropWhile isBlank) := by
    unfold trimEnd
    rw [← List.reverse_sublist, List.reverse_reverse]
    exact List.dropWhile_sublist _
  exact hend.trans (List.dropWhile_sublist _)

theorem trimEnd_trimEnd (cs : List Char) : trimEnd (trimEnd cs) = trimEnd cs := by
  unfold trimEnd
  rw [List.reverse_reverse, List.dropWhile_idempotent]

theorem trim_trim (cs : List Char) : trim (trim cs) = trim cs := by
  unfold trim
  cases hcs : cs.dropWhile isBlank with
  | nil => rfl
  | cons c rest =>
    have hc := of_dropWhile_eq_cons hcs
    rw [trimEnd_cons hc, List.dropWhile_cons_of_neg (by simp [hc]), ← trimEnd_cons hc, trimEnd_trimEnd]

theorem trimmed_trimmed (s : String) : trimmed (trimmed s) = trimmed s := by
  simp only [trimmed, String.toList_ofList, trim_trim]

/-! ### Words -/

theorem pieces_append_separator {isSeparator : Char → Bool} {c : Char} (h : isSeparator c = true) (cs : List Char) :
    pieces isSeparator (cs ++ [c]) = pieces isSeparator cs ++ [[]] := by
  induction cs with
  | nil => simp [pieces, h]
  | cons d cs ih =>
    rw [List.cons_append, pieces, pieces]
    by_cases hd : isSeparator d = true
    · rw [if_pos hd, if_pos hd, ih, List.cons_append]
    · rw [if_neg hd, if_neg hd, ih]
      cases hps : pieces isSeparator cs with
      | nil => exact absurd hps (pieces_ne_nil _ _)
      | cons p ps => rfl

theorem words_cons_of_isBlank {c : Char} (h : isBlank c = true) (cs : List Char) : words (c :: cs) = words cs := by
  simp [words, pieces, h]

theorem words_append_of_isBlank {c : Char} (h : isBlank c = true) (cs : List Char) : words (cs ++ [c]) = words cs := by
  simp [words, pieces_append_separator h]

theorem words_dropWhile (cs : List Char) : words (cs.dropWhile isBlank) = words cs := by
  induction cs with
  | nil => rfl
  | cons c cs ih =>
    by_cases h : isBlank c = true
    · rw [List.dropWhile_cons_of_pos h, ih, words_cons_of_isBlank h]
    · rw [List.dropWhile_cons_of_neg h]

theorem words_trimEnd (cs : List Char) : words (trimEnd cs) = words cs := by
  induction cs using List.reverseRecOn with
  | nil => rfl
  | append_singleton cs c ih =>
    by_cases h : isBlank c = true
    · have htrim : trimEnd (cs ++ [c]) = trimEnd cs := by
        unfold trimEnd
        rw [List.reverse_append, List.reverse_singleton, List.singleton_append, List.dropWhile_cons_of_pos h]
      rw [htrim, ih, words_append_of_isBlank h]
    · have htrim : trimEnd (cs ++ [c]) = cs ++ [c] := by
        unfold trimEnd
        rw [List.reverse_append, List.reverse_singleton, List.singleton_append, List.dropWhile_cons_of_neg h]
        simp
      rw [htrim]

theorem words_trim (cs : List Char) : words (trim cs) = words cs := by
  unfold trim
  rw [words_trimEnd, words_dropWhile]

end Allotment.Text
