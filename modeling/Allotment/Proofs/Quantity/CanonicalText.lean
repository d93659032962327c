import Allotment.Proofs.Quantity.RoundTrip

/-!
# Texts that are written again as they were read

A text is read with the family of its suffix, and one without a suffix as of the decimal family.  So the text of a
quantity that had to do without a suffix of its own family may get one of the other.

* `Quantity.LosesFamily` — the quantities that this happens to; `not_keepsText_iff` says that it happens to no others;
* `Quantity.suffix_of_losesFamily`, `Quantity.reread_of_losesFamily` — what becomes of them: nothing but their family is
  lost, and with it their text;
* `Quantity.keepsText_reread` — reading and writing once more changes nothing;
* `Quantity.text_fixed_iff` — the texts that are written again as they were read.
-/

namespace Allotment.Quantity

variable {q : Quantity}

/-- Memory of the binary family that is a multiple of 1000 and not of 1024. -/
def LosesFamily (q : Quantity) : Prop :=
  q.resource = .memory ∧ q.family = .binary ∧ 1000 ∣ q.magnitude ∧ ¬ 1024 ∣ q.magnitude

instance (q : Quantity) : Decidable q.LosesFamily :=
  inferInstanceAs (Decidable (_ ∧ _))

theorem not_keepsText_iff : ¬ q.KeepsText ↔ q.LosesFamily := by
  unfold KeepsText LosesFamily
  simp only [Classical.not_imp]

theorem suffix_of_losesFamily (h : q.LosesFamily) : q.suffix = .unit := by
  obtain ⟨r, n, f⟩ := q
  obtain ⟨hr, hf, -, hkibi⟩ := h
  obtain rfl : r = .memory := hr
  obtain rfl : f = .binary := hf
  have hfamily : ∀ s ∈ Suffix.binaries, s.family = .binary := by decide
  refine (wholeSuffix_mem Suffix.binaries (magnitude ⟨.memory, n, .binary⟩)).resolve_right fun hmem => hkibi ?_
  exact ((family_wholeSuffix_binaries_iff _).1 (hfamily _ hmem)).2

/-- The least amount is held at one that 1000 does not divide. -/
theorem amount_ne_minValue_of_dvd (h : 1000 ∣ q.magnitude) : q.amount ≠ Int64.minValue := by
  intro hmin
  have hmagnitude : q.magnitude = greatestAmount := by
    unfold magnitude
    rw [hmin]
    decide
  rw [hmagnitude] at h
  exact absurd h (by decide)

/-- Read again it is as much memory as before, and of the decimal family. -/
theorem reread_of_losesFamily (h : q.LosesFamily) : q.reread = { q with family := .decimal } := by
  have hamount := amount_reread (amount_ne_minValue_of_dvd h.2.2.1)
  have hfamily : q.reread.family = .decimal := by
    change q.suffix.family = .decimal
    rw [suffix_of_losesFamily h]
    rfl
  have hresource : q.reread.resource = q.resource := rfl
  generalize q.reread = p at hamount hfamily hresource ⊢
  obtain ⟨r, n, f⟩ := p
  simp only at hamount hfamily hresource
  rw [hamount, hfamily, hresource]

/-- And written with a suffix of that family. -/
theorem suffix_reread_of_losesFamily (h : q.LosesFamily) : q.reread.suffix ∈ Suffix.decimals := by
  rw [reread_of_losesFamily h]
  obtain ⟨r, n, f⟩ := q
  obtain ⟨hr, -, hthousand, hkibi⟩ := h
  obtain rfl : r = .memory := hr
  change wholeSuffix Suffix.decimals (magnitude ⟨.memory, n, f⟩) ∈ Suffix.decimals
  generalize magnitude ⟨.memory, n, f⟩ = m at hthousand hkibi ⊢
  have hne : m ≠ 0 := by
    rintro rfl
    exact hkibi (Nat.dvd_zero 1024)
  exact wholeSuffix_mem_of_dvd (s := .kilo) (by decide) hne hthousand

/-- A family that was told by a suffix is told by it again. -/
theorem keepsText_reread (q : Quantity) : q.reread.KeepsText := by
  intro hr hf _
  have hmagnitude := magnitude_reread q
  obtain ⟨r, n, f⟩ := q
  obtain rfl : r = .memory := hr
  rw [hmagnitude]
  cases f with
  | decimal =>
    have hdecimal : (suffix ⟨.memory, n, .decimal⟩).family = .decimal := family_wholeSuffix_decimals _
    exact absurd (hdecimal.symm.trans hf) (by decide)
  | binary => exact ((family_wholeSuffix_binaries_iff _).1 hf).2

/-- **A text is written again as it was read, but for one class of quantities.**  These are written without a suffix and
read as of the decimal family, which has a suffix for them.  Every text is written a second time as it was the first. -/
theorem text_fixed_iff (q : Quantity) :
    ∃ p, read q.resource q.text = .ok p ∧ (p.text = q.text ↔ ¬ q.LosesFamily) ∧
      (q.LosesFamily → q.suffix = .unit ∧ p = { q with family := .decimal } ∧ p.suffix ∈ Suffix.decimals) ∧
      ∃ p', read p.resource p.text = .ok p' ∧ p'.text = p.text := by
  refine ⟨q.reread, q.read_text, ?fixed, fun h => ?lost, q.reread.reread, q.reread.read_text, ?again⟩
  case fixed => rw [text_reread_iff, ← not_keepsText_iff, Decidable.not_not]
  case lost => exact ⟨suffix_of_losesFamily h, reread_of_losesFamily h, suffix_reread_of_losesFamily h⟩
  case again => exact text_reread (keepsText_reread q)

/-- A debt of five thousand bytes in the binary family is written `-5000`, and then `-5k`. -/
theorem text_fixed_iff_thousands :
    let q : Quantity := ⟨.memory, -5000, .binary⟩
    q.LosesFamily ∧ q.text = "-5000" ∧ ∃ p, read .memory q.text = .ok p ∧ p = ⟨.memory, -5000, .decimal⟩ ∧ p.text = "-5k" ∧
      p.text ≠ q.text ∧ ∃ p', read .memory p.text = .ok p' ∧ p'.text = p.text := by
  intro q
  have hlost : q.LosesFamily := by decide +kernel
  obtain ⟨p, hread, hfixed, hfamily, hagain⟩ := text_fixed_iff q
  obtain ⟨-, hp, -⟩ := hfamily hlost
  have hresource : p.resource = .memory := resource_read hread
  rw [hresource] at hagain
  refine ⟨hlost, by decide +kernel, p, hread, hp, ?_, fun htext => hfixed.1 htext hlost, hagain⟩
  rw [hp]
  decide +kernel

end Allotment.Quantity
