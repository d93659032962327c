import Allotment.Proofs.Plan.Pass
import Allotment.Proofs.Quantity.Order

/-!
# Least differences that do not read

A proposal has to reach what is there, adjusted by the least difference.  An adjustment that cannot be carried out leaves
an amount as it is, so what a proposal has to reach is then what is there already.  Only a blank literal stands for no
least difference at all.

* `Adjustment.Unusable` — a literal that is there, and spells nothing that its method can use;
* `Adjustment.apply_of_unusable` — such an adjustment leaves every quantity as it is;
* `AxisPolicy.withoutMinDiff` — the policy of an axis with a blank least difference instead;
* `AxisPolicy.accept?_of_idle` — a least difference that leaves what is there as it is refuses decreases, and nothing else;
* `AxisPolicy.unusable_minDiff_refuses` — so does one that does not read: it counts as blank except where a decrease would
  be committed.
-/

namespace Allotment

/-- A literal that is not blank and that its method cannot use: it spells no finite ratio, or no quantity of the resource
as a margin. -/
def Adjustment.Unusable (m : Adjustment) (r : Resource) : Prop :=
  m.isBlank = false ∧
    match m.method with
    | .ratio => ratio? (Text.trim m.literal.toList) = none
    | .margin => ∀ q, Quantity.read r (String.ofList (Text.trim m.literal.toList)) ≠ .ok q

theorem Adjustment.apply_of_unusable {m : Adjustment} {q : Quantity} (h : m.Unusable q.resource) : m.apply q = q := by
  obtain ⟨hblank, hliteral⟩ := h
  unfold isBlank at hblank
  unfold apply
  simp only [hblank, Bool.false_eq_true, if_false]
  cases hm : m.method with
  | ratio =>
    rw [hm] at hliteral
    simp only [hliteral]
  | margin =>
    rw [hm] at hliteral
    cases hread : Quantity.read q.resource (String.ofList (Text.trim m.literal.toList)) with
    | ok margin => exact absurd hread (hliteral margin)
    | error e => rfl

namespace AxisPolicy

/-- The policy of an axis with a blank least difference. -/
def withoutMinDiff (p : AxisPolicy) : AxisPolicy :=
  { p with minDiff := { p.minDiff with literal := "" } }

variable {p : AxisPolicy} {a : Axis} {current : Option Quantity} {proposed b v : Quantity}

theorem not_fallsShort_withoutMinDiff : ¬ p.withoutMinDiff.FallsShort b v := by
  rintro ⟨hblank, -⟩
  cases hblank

/-- A least difference that leaves what is there as it is refuses every decrease, and nothing else. -/
theorem accept?_of_idle (hblank : p.minDiff.isBlank = false)
    (hidle : p.minDiff.apply (baseline a current) = baseline a current) :
    p.accept? a current proposed =
      (p.withoutMinDiff.accept? a current proposed).filter fun v => ¬ v < baseline a current := by
  have hshort : ∀ v, p.FallsShort (baseline a current) v ↔ v < baseline a current := by
    intro v
    unfold FallsShort
    rw [hidle]
    exact and_iff_right hblank
  ext v
  rw [Option.filter_eq_some_iff, accept?_eq_some_iff, accept?_eq_some_iff, hshort, decide_eq_true_eq]
  constructor
  · rintro ⟨hv, hnot, hrest⟩
    exact ⟨⟨hv, not_fallsShort_withoutMinDiff, hrest⟩, hnot⟩
  · rintro ⟨⟨hv, -, hrest⟩, hnot⟩
    exact ⟨hv, hnot, hrest⟩

/-- **A least difference that does not read refuses every decrease.**  The guards let through what they let through with a
blank one, as long as it is no less than what is there; so the two agree unless a decrease would be committed. -/
theorem unusable_minDiff_refuses (p : AxisPolicy) (a : Axis) (current : Option Quantity) (proposed : Quantity)
    (hcurrent : ∀ q, current = some q → q.resource = a.resource) (hproposed : proposed.resource = a.resource)
    (h : p.minDiff.Unusable a.resource) :
    (p.accept? a current proposed =
      (p.withoutMinDiff.accept? a current proposed).filter fun v => ¬ v < baseline a current) ∧
    (p.accept? a current proposed = p.withoutMinDiff.accept? a current proposed ↔
      ∀ v, p.withoutMinDiff.accept? a current proposed = some v → baseline a current ≤ v) := by
  have hbase : (baseline a current).resource = a.resource := resource_baseline hcurrent
  have hfilter : p.accept? a current proposed =
      (p.withoutMinDiff.accept? a current proposed).filter fun v => ¬ v < baseline a current :=
    accept?_of_idle h.1 (Adjustment.apply_of_unusable (hbase.symm ▸ h))
  refine ⟨hfilter, ?_⟩
  rw [hfilter]
  constructor
  · intro heq v hv
    have hresource : v.resource = a.resource := by
      obtain ⟨rfl, -⟩ := accept?_eq_some_iff.1 hv
      rw [resource_clamp, hproposed]
    rw [hv, Option.filter_eq_some_iff] at heq
    exact Quantity.le_of_not_lt (hbase.trans hresource.symm) (of_decide_eq_true heq.2)
  · intro hle
    cases hv : p.withoutMinDiff.accept? a current proposed with
    | none => rfl
    | some v =>
      have hnot : ¬ v < baseline a current := fun hlt => Int64.not_le.2 hlt.2 (hle v hv).2
      exact Option.filter_eq_some_iff.2 ⟨rfl, decide_eq_true hnot⟩

/-- A policy whose least difference is a word. -/
def wordyMinDiff (method : Method) : AxisPolicy :=
  ⟨.enforce, .balanced, ⟨.ratio, ""⟩, none, none, ⟨method, "lots"⟩, .both⟩

theorem unusable_wordyMinDiff (method : Method) : (wordyMinDiff method).minDiff.Unusable .cpu := by
  refine ⟨by cases method <;> decide, ?_⟩
  cases method with
  | ratio => rfl
  | margin =>
    intro q hq
    have hnone : (Quantity.read .cpu (String.ofList (Text.trim "lots".toList))).toOption = none := by decide
    rw [show Quantity.read .cpu (String.ofList (Text.trim "lots".toList)) = .ok q from hq] at hnone
    cases hnone

/-- From a tenth of a core the request goes up to 150 thousandths, as it does with a blank least difference.  From a fifth
of a core it does not come down to them. -/
theorem unusable_minDiff_refuses_wordy :
    (∀ method, (wordyMinDiff method).minDiff.Unusable .cpu) ∧
    (wordyMinDiff .margin).accept? ⟨.cpu, .request⟩ (some ⟨.cpu, 100, .decimal⟩) ⟨.cpu, 150, .decimal⟩ =
      (wordyMinDiff .margin).withoutMinDiff.accept? ⟨.cpu, .request⟩ (some ⟨.cpu, 100, .decimal⟩) ⟨.cpu, 150, .decimal⟩ ∧
    (wordyMinDiff .ratio).accept? ⟨.cpu, .request⟩ (some ⟨.cpu, 200, .decimal⟩) ⟨.cpu, 150, .decimal⟩ = none := by
  have hplaces : ∀ n q, some (Quantity.mk .cpu n .decimal) = some q → q.resource = .cpu := by
    rintro n q ⟨⟩
    rfl
  have hup := unusable_minDiff_refuses (wordyMinDiff .margin) ⟨.cpu, .request⟩ (some ⟨.cpu, 100, .decimal⟩)
    ⟨.cpu, 150, .decimal⟩ (hplaces 100) rfl (unusable_wordyMinDiff .margin)
  have hdown := unusable_minDiff_refuses (wordyMinDiff .ratio) ⟨.cpu, .request⟩ (some ⟨.cpu, 200, .decimal⟩)
    ⟨.cpu, 150, .decimal⟩ (hplaces 200) rfl (unusable_wordyMinDiff .ratio)
  refine ⟨unusable_wordyMinDiff, hup.2.2 fun v hv => ?_, hdown.1.trans (by decide)⟩
  obtain ⟨rfl, -⟩ := accept?_eq_some_iff.1 hv
  decide

/-- A blank least difference lets the request come down, so one that does not read is not treated as blank. -/
theorem unusable_minDiff_not_blank :
    ¬ ∀ (p : AxisPolicy) (a : Axis) (current : Option Quantity) (proposed : Quantity),
      (∀ q, current = some q → q.resource = a.resource) → proposed.resource = a.resource →
      p.minDiff.Unusable a.resource → p.accept? a current proposed = p.withoutMinDiff.accept? a current proposed := by
  intro h
  have hcurrent : ∀ q, some (Quantity.mk .cpu 200 .decimal) = some q → q.resource = .cpu := by
    rintro q ⟨⟩
    rfl
  have heq := h (wordyMinDiff .ratio) ⟨.cpu, .request⟩ (some ⟨.cpu, 200, .decimal⟩) ⟨.cpu, 150, .decimal⟩ hcurrent rfl
    (unusable_wordyMinDiff .ratio)
  have hblank : (wordyMinDiff .ratio).withoutMinDiff.accept? ⟨.cpu, .request⟩ (some ⟨.cpu, 200, .decimal⟩)
      ⟨.cpu, 150, .decimal⟩ = some ⟨.cpu, 150, .decimal⟩ := by decide
  have hwordy : (wordyMinDiff .ratio).accept? ⟨.cpu, .request⟩ (some ⟨.cpu, 200, .decimal⟩) ⟨.cpu, 150, .decimal⟩ =
      none := by decide
  rw [hblank, hwordy] at heq
  cases heq

end AxisPolicy

end Allotment
