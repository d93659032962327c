import Allotment.Proofs.Quantity.Order
import Allotment.Proofs.Quantity.RoundTrip
import Allotment.Plan.Basic

/-!
# Quantities of one text

The last guard of an axis compares texts.  A text gives back its amount, so the guard holds back a value only if it is
as much as what is there already; one amount alone, the least, has the text of another.

* `Quantity.amount_reread_eq` — the amount that a text is read as, for all amounts;
* `Quantity.AtBottom` — the least amount and the next one, which have one text;
* `Quantity.text_eq_text_iff` — amounts that differ have one text exactly at the bottom;
* `AxisPolicy.Passes` — the guards before the last one; `accept?_of_passes` — the last one alone;
* `text_tells_amount` — reading, texts and the last guard together.
-/

namespace Allotment

namespace Quantity

/-- The amount that is read back from a text: the least amount is written as the next one. -/
theorem amount_reread_eq (q : Quantity) :
    q.reread.amount = if q.amount = Int64.minValue then -Int64.maxValue else q.amount := by
  split
  · next hmin =>
    have hneg : q.amount < 0 := by rw [hmin]; decide
    have hmagnitude : q.magnitude = greatestAmount := by
      unfold magnitude
      rw [hmin]
      decide
    rw [← Int64.toInt_inj, toInt_reread, if_pos hneg, hmagnitude]
    decide
  · next hmin => exact amount_reread hmin

/-- The least amount and the next one, in one order or the other. -/
def AtBottom (m n : Int64) : Prop :=
  (m = Int64.minValue ∧ n = -Int64.maxValue) ∨ (m = -Int64.maxValue ∧ n = Int64.minValue)

instance (m n : Int64) : Decidable (AtBottom m n) :=
  inferInstanceAs (Decidable (_ ∨ _))

variable {p q : Quantity}

theorem reread_eq_of_text_eq (hr : p.resource = q.resource) (h : p.text = q.text) : p.reread = q.reread := by
  have hread := p.read_text
  rw [hr, h, q.read_text] at hread
  exact (Except.ok.inj hread).symm

/-- The greatest magnitude is written without a suffix of whole amounts. -/
theorem writeMagnitude_of_greatest (h : q.magnitude = greatestAmount) :
    q.writeMagnitude = Numeral.digits greatestAmount ++
      (match q.resource with | .cpu => Suffix.milli | .memory => Suffix.unit).text := by
  have hthousand : 1000 ∣ greatestAmount → greatestAmount = 0 := by decide
  have hkibi : 1024 ∣ greatestAmount → greatestAmount = 0 := by decide
  obtain ⟨r, n, f⟩ := q
  unfold writeMagnitude
  rw [h]
  cases r with
  | cpu => rfl
  | memory =>
    cases f with
    | decimal => exact (writeWhole_of_not_dvd (by decide) hthousand).trans (List.append_nil _).symm
    | binary => exact (writeWhole_of_not_dvd (by decide) hkibi).trans (List.append_nil _).symm

theorem text_eq_of_atBottom (hr : p.resource = q.resource) (h : AtBottom p.amount q.amount) : p.text = q.text := by
  have hgreatest : ∀ q : Quantity, q.amount = Int64.minValue ∨ q.amount = -Int64.maxValue →
      q.magnitude = greatestAmount ∧ q.amount < 0 := by
    intro q hq
    unfold magnitude
    rcases hq with hq | hq <;> rw [hq] <;> decide
  obtain ⟨hp, hpneg⟩ := hgreatest p (h.imp And.left And.left)
  obtain ⟨hq, hqneg⟩ := hgreatest q (h.symm.imp And.right And.right)
  refine text_eq_of_writeMagnitude (iff_of_true hpneg hqneg) ?_
  rw [writeMagnitude_of_greatest hp, writeMagnitude_of_greatest hq, hr]

/-- Amounts of one resource that differ have one text at the bottom, and nowhere else. -/
theorem text_eq_text_iff (hr : p.resource = q.resource) (hne : p.amount ≠ q.amount) :
    p.text = q.text ↔ AtBottom p.amount q.amount := by
  refine ⟨fun h => ?_, text_eq_of_atBottom hr⟩
  have hreread : p.reread.amount = q.reread.amount := by rw [reread_eq_of_text_eq hr h]
  rw [amount_reread_eq, amount_reread_eq] at hreread
  split at hreread
  · next hp =>
    split at hreread
    · next hq => exact absurd (hp.trans hq.symm) hne
    · exact .inl ⟨hp, hreread.symm⟩
  · split at hreread
    · next hq => exact .inr ⟨hreread, hq⟩
    · exact absurd hreread hne

end Quantity

namespace AxisPolicy

variable {p : AxisPolicy} {a : Axis} {current : Option Quantity} {proposed : Quantity}

/-- All guards but the last one let a value through. -/
def Passes (p : AxisPolicy) (a : Axis) (current : Option Quantity) (value : Quantity) : Prop :=
  ¬ p.FallsShort (baseline a current) value ∧ ¬ Blocks p.direction (baseline a current) value ∧ p.mode = .enforce

instance (p : AxisPolicy) (a : Axis) (current : Option Quantity) (value : Quantity) :
    Decidable (p.Passes a current value) :=
  inferInstanceAs (Decidable (_ ∧ _))

/-- What is left to the last guard. -/
theorem accept?_of_passes (h : p.Passes a current (p.clamp proposed)) :
    p.accept? a current proposed =
      if current.map Quantity.text = some (p.clamp proposed).text then none else some (p.clamp proposed) := by
  obtain ⟨hdiff, hdirection, hmode⟩ := h
  have hon : p.mode ≠ .off := by simp [hmode]
  unfold accept?
  simp only
  rw [if_neg hdiff, if_neg hdirection, if_neg hon]

/-- The last guard holds back a value that differs from what is there only at the bottom. -/
theorem accept?_eq_clamp_iff (h : p.Passes a current (p.clamp proposed))
    (hne : ∀ q, current = some q → q.resource = proposed.resource ∧ q.amount ≠ (p.clamp proposed).amount) :
    p.accept? a current proposed = some (p.clamp proposed) ↔
      ∀ q, current = some q → ¬ Quantity.AtBottom q.amount (p.clamp proposed).amount := by
  rw [accept?_of_passes h]
  cases current with
  | none => simp
  | some q =>
    obtain ⟨hr, hamount⟩ := hne q rfl
    have htext := Quantity.text_eq_text_iff (hr.trans (p.resource_clamp proposed).symm) hamount
    simp only [Option.map_some, Option.some.injEq, htext]
    by_cases hbottom : Quantity.AtBottom q.amount (p.clamp proposed).amount
    · simp [hbottom]
    · simp [hbottom]

end AxisPolicy

/-- **A text tells its amount.** Every quantity reads back from its text with its resource and its amount, the least
amount as the next one; so quantities of one resource and one text, neither of the least amount, are as much as each
other, whatever families they are of; and a value that differs from what an axis has and passes the other guards is
committed, but at the bottom. -/
theorem text_tells_amount :
    (∀ q : Quantity, ∃ p, Quantity.read q.resource q.text = .ok p ∧ p.resource = q.resource ∧
      p.amount = if q.amount = Int64.minValue then -Int64.maxValue else q.amount) ∧
    (∀ p q : Quantity, p.resource = q.resource → p.amount ≠ Int64.minValue → q.amount ≠ Int64.minValue →
      p.text = q.text → p.amount = q.amount) ∧
    ∀ (policy : AxisPolicy) (a : Axis) (current : Option Quantity) (proposed : Quantity),
      policy.Passes a current (policy.clamp proposed) →
      (∀ q, current = some q → q.resource = proposed.resource ∧ q.amount ≠ (policy.clamp proposed).amount) →
      (policy.accept? a current proposed = some (policy.clamp proposed) ↔
        ∀ q, current = some q → ¬ Quantity.AtBottom q.amount (policy.clamp proposed).amount) := by
  refine ⟨fun q => ?read, fun p q hr hp hq htext => ?same, fun policy a current proposed hpasses hne => ?gate⟩
  case read => exact ⟨q.reread, q.read_text, rfl, q.amount_reread_eq⟩
  case same =>
    have hreread := congrArg Quantity.amount (Quantity.reread_eq_of_text_eq hr htext)
    rwa [Quantity.amount_reread hp, Quantity.amount_reread hq] at hreread
  case gate => exact AxisPolicy.accept?_eq_clamp_iff hpasses hne

/-- Four kibibytes and a byte in either family, and one byte more. -/
theorem text_tells_amount_bytes :
    let bytes (n : Int64) (f : SuffixFamily) : Quantity := ⟨.memory, n, f⟩
    let policy := Effective.axisPolicy ⟨Dict.empty, ProcessDefaults.empty⟩ none ⟨.memory, .limit⟩
    (bytes 4097 .binary).text = "4097" ∧ (bytes 4097 .decimal).text = "4097" ∧
      (bytes 4097 .binary).amount = (bytes 4097 .decimal).amount ∧
      policy.Passes ⟨.memory, .limit⟩ (some (bytes 4097 .binary)) (bytes 4098 .decimal) ∧
      policy.accept? ⟨.memory, .limit⟩ (some (bytes 4097 .binary)) (bytes 4098 .decimal) =
        some (bytes 4098 .decimal) := by
  intro bytes policy
  obtain ⟨-, hsame, hgate⟩ := text_tells_amount
  have hpasses : policy.Passes ⟨.memory, .limit⟩ (some (bytes 4097 .binary)) (policy.clamp (bytes 4098 .decimal)) := by
    decide +kernel
  have htext : (bytes 4097 .binary).text = (bytes 4097 .decimal).text := by decide +kernel
  refine ⟨by decide +kernel, by decide +kernel, ?_, hpasses, ?_⟩
  · exact hsame (bytes 4097 .binary) (bytes 4097 .decimal) rfl (by decide) (by decide) htext
  · refine (hgate policy ⟨.memory, .limit⟩ (some (bytes 4097 .binary)) (bytes 4098 .decimal) hpasses ?_).2 ?_
    · intro q hq
      obtain rfl := Option.some.inj hq
      exact ⟨rfl, by decide⟩
    · intro q hq
      obtain rfl := Option.some.inj hq
      decide

/-- A policy that takes one byte off what is recommended, and leaves the limit alone. -/
def bottomNotes : Annotations :=
  Dict.ofPairs [("rightsizer.io/memory-request-calculator-algo", "margin"),
    ("rightsizer.io/memory-request-calculator-value", "-1"), ("rightsizer.io/memory-limit-apply-mode", "off")]

/-- The amount next to the least one, which is both requested and recommended. -/
def nextToLeast : Quantity := ⟨.memory, -Int64.maxValue, .decimal⟩

def bottomContainer : Container := ⟨"app", ⟨⟨none, none⟩, ⟨some nextToLeast, none⟩⟩⟩

def bottomStatus : Status := ⟨some [⟨"app", Estimate.empty, ⟨none, some nextToLeast⟩, Estimate.empty⟩], []⟩

/-- At the bottom a proposal of one byte less passes the other guards and is held back. -/
theorem text_gate_bottom :
    let cascade : Cascade := ⟨bottomNotes, ProcessDefaults.empty⟩
    let policy := Effective.of cascade (some "app")
    let least : Quantity := ⟨.memory, Int64.minValue, .decimal⟩
    let request : Axis := ⟨.memory, .request⟩
    proposal? policy (candidatesFor bottomStatus policy "app") bottomContainer request = some least ∧
      (policy.axis request).clamp least = least ∧ (policy.axis request).Passes request (some nextToLeast) least ∧
      nextToLeast.amount ≠ least.amount ∧ (policy.axis request).accept? request (some nextToLeast) least = none ∧
      plan cascade bottomStatus [bottomContainer] = ⟨[bottomContainer], []⟩ := by
  decide +kernel

end Allotment
