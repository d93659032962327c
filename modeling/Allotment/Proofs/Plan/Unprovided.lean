import Allotment.Proofs.Keys
import Allotment.Proofs.Plan.Typing

/-!
# Requests without a recommendation

A container that nothing is recommended for may still get requests: from the bound that stands for it, or from what is
configured. Each resource is looked at for itself.

* `Governs bounds name b` — `b` is the bound of a container: its own, or the one for all if it has none of its own;
  this is the bound that is found (`Bound.lookup?_eq_some_iff`);
* `Extreme r own configured q` — `q` is the last in an order of the amounts that are there, of which there are two at
  most; `combine_eq_some_iff` — that is how amounts are combined;
* `Unprovided.Gives`, `Unprovided.GivesNothing` — what each mode is to give, and when it is to give nothing;
* `unprovided_exactly` — and that is what it gives: it depends on one bound, and on its own resource.
-/

namespace Allotment

/-! ### The bound of a container -/

section Bounds

variable {bounds bounds' : List Bound} {name : String} {b : Bound}

/-- The bound of a container of a name. -/
inductive Governs (bounds : List Bound) (name : String) (b : Bound) : Prop
  | own (h : FirstOf Bound.container bounds name b)
  | wildcard (hnone : ∀ a ∈ bounds, a.container ≠ name) (h : FirstOf Bound.container bounds Bound.wildcard b)

theorem Bound.lookup?_eq_some_iff : Bound.lookup? bounds name = some b ↔ Governs bounds name b := by
  unfold Bound.lookup?
  rw [Option.or_eq_some_iff, find?_key_eq_some_iff, find?_key_eq_none_iff, find?_key_eq_some_iff]
  constructor
  · rintro (h | ⟨hnone, h⟩)
    · exact .own h
    · exact .wildcard hnone h
  · rintro (h | ⟨hnone, h⟩)
    · exact .inl h
    · exact .inr ⟨hnone, h⟩

/-- A container with a bound of its own is not reached by any other bound. -/
theorem lookup?_of_firstOf (h : FirstOf Bound.container bounds name b) :
    Bound.lookup? bounds name = Bound.lookup? [b] name := by
  rw [Bound.lookup?_eq_some_iff.2 (.own h), Bound.lookup?_eq_some_iff.2 (.own (.singleton h.key_eq))]

/-- What a bound says about one resource, and about which containers. -/
def Bound.about (r : Resource) (b : Bound) : String × Option Quantity × Option Quantity :=
  (b.container, PerResource.get b.least r, PerResource.get b.most r)

theorem map_lookup? (r : Resource) (bounds : List Bound) (name : String) :
    (Bound.lookup? bounds name).map (Bound.about r) =
      ((bounds.map (Bound.about r)).find? fun s => s.1 = name).or
        ((bounds.map (Bound.about r)).find? fun s => s.1 = Bound.wildcard) := by
  rw [Bound.lookup?, Option.map_or, List.find?_map, List.find?_map]
  rfl

end Bounds

/-! ### The greatest and the least -/

section Extremes

variable {r : Quantity → Quantity → Prop} {f : Quantity → Quantity → Quantity} {x y : Option Quantity} {q : Quantity}

/-- The last in an order of the amounts that are there, which are at most two: an own one and a configured one. Of two
that stand level, the own one. -/
structure Extreme (r : Quantity → Quantity → Prop) (own : Quantity → Prop) (configured : Option Quantity)
    (q : Quantity) : Prop where
  there : own q ∨ configured = some q
  last : ∀ a, own a ∨ configured = some a → r a q
  level : ∀ a, own a → r q a → q = a

/-- The greatest of the amounts that are there. -/
abbrev Greatest : (Quantity → Prop) → Option Quantity → Quantity → Prop :=
  Extreme fun a b => a ≤ b

/-- The least of the amounts that are there. -/
abbrev Least : (Quantity → Prop) → Option Quantity → Quantity → Prop :=
  Extreme fun a b => b ≤ a

/-- A choice between two amounts of one resource takes the later one in an order, and the first if they stand level. -/
structure Chooses (r : Quantity → Quantity → Prop) (f : Quantity → Quantity → Quantity) : Prop where
  refl : ∀ a, r a a
  first : ∀ a b, r b a → f a b = a
  second : ∀ a b, a.resource = b.resource → ¬ r b a → r a b ∧ f a b = b

theorem chooses_raise : Chooses (fun a b => a ≤ b) raise := by
  refine ⟨Quantity.le_refl, fun a b h => ?_, fun a b hr h => ?_⟩
  · have hnot : ¬ a < b := fun hlt => Int64.not_lt.2 h.2 hlt.2
    rw [raise, if_neg hnot]
  · have hlt : a < b := Decidable.not_not.1 fun hnot => h (Quantity.le_of_not_lt hr.symm hnot)
    exact ⟨⟨hr, Int64.le_of_lt hlt.2⟩, by rw [raise, if_pos hlt]⟩

theorem chooses_lower : Chooses (fun a b => b ≤ a) lower := by
  refine ⟨Quantity.le_refl, fun a b h => ?_, fun a b hr h => ?_⟩
  · have hnot : ¬ b < a := fun hlt => Int64.not_lt.2 h.2 hlt.2
    rw [lower, if_neg hnot]
  · have hlt : b < a := Decidable.not_not.1 fun hnot => h (Quantity.le_of_not_lt hr hnot)
    exact ⟨⟨hr.symm, Int64.le_of_lt hlt.2⟩, by rw [lower, if_pos hlt]⟩

/-- Amounts of one resource are combined to the last of those that are there. -/
theorem combine_eq_some_iff (hf : Chooses r f) (hxy : ∀ a b, x = some a → y = some b → a.resource = b.resource) :
    combine f x y = some q ↔ Extreme r (fun a => x = some a) y q := by
  cases x with
  | none =>
    constructor
    · rintro h
      obtain rfl : y = some q := h
      exact ⟨.inr rfl, by simpa using hf.refl q, by simp⟩
    · rintro ⟨hq | hq, -, -⟩
      · cases hq
      · exact hq
  | some a =>
    cases y with
    | none =>
      constructor
      · intro h
        obtain rfl : a = q := Option.some.inj h
        exact ⟨.inl rfl, by simpa using hf.refl a, by simp⟩
      · rintro ⟨hq | hq, -, -⟩
        · exact hq
        · cases hq
    | some b =>
      have hr : a.resource = b.resource := hxy a b rfl rfl
      by_cases hba : r b a
      · -- The own amount is the last, also if both stand level.
        rw [combine, hf.first a b hba]
        constructor
        · intro h
          obtain rfl : a = q := Option.some.inj h
          refine ⟨.inl rfl, ?_, by simp⟩
          rintro c (hc | hc)
          · exact Option.some.inj hc ▸ hf.refl a
          · exact Option.some.inj hc ▸ hba
        · rintro ⟨hq | hq, -, hlevel⟩
          · exact hq
          · obtain rfl := Option.some.inj hq
            rw [hlevel a rfl hba]
      · obtain ⟨hab, hsecond⟩ := hf.second a b hr hba
        rw [combine, hsecond]
        constructor
        · intro h
          obtain rfl : b = q := Option.some.inj h
          refine ⟨.inr rfl, ?_, ?_⟩
          · rintro c (hc | hc)
            · exact Option.some.inj hc ▸ hab
            · exact Option.some.inj hc ▸ hf.refl b
          · intro c hc hbc
            obtain rfl := Option.some.inj hc
            exact absurd hbc hba
        · rintro ⟨hq | hq, hlast, -⟩
          · obtain rfl := Option.some.inj hq
            exact absurd (hlast b (.inr rfl)) hba
          · exact hq

theorem combine_eq_none_iff : combine f x y = none ↔ x = none ∧ y = none := by
  cases x <;> cases y <;> simp [combine]

end Extremes

/-! ### What a mode gives -/

/-- An amount that the bound of a container has for a resource. -/
def Says (bounds : List Bound) (name : String) (part : Bound → Estimate) (r : Resource) (q : Quantity) : Prop :=
  ∃ b, Governs bounds name b ∧ PerResource.get (part b) r = some q

/-- The request that a container without a recommendation is to get, by the mode that is set for a resource. -/
inductive Unprovided.Gives (u : Unprovided) (bounds : List Bound) (name : String) (r : Resource) (q : Quantity) : Prop
  | minAllowed (hmode : u.mode = .minAllowed) (h : Greatest (Says bounds name Bound.least r) u.floor q)
  | maxAllowed (hmode : u.mode = .maxAllowed) (h : Least (Says bounds name Bound.most r) u.ceiling q)
  | value (hmode : u.mode = .value) (h : Quantity.read r u.value = .ok q)

/-- When such a container is to get no request. -/
inductive Unprovided.GivesNothing (u : Unprovided) (bounds : List Bound) (name : String) (r : Resource) : Prop
  | off (hmode : u.mode = .off)
  | minAllowed (hmode : u.mode = .minAllowed) (hbound : ∀ q, ¬ Says bounds name Bound.least r q) (h : u.floor = none)
  | maxAllowed (hmode : u.mode = .maxAllowed) (hbound : ∀ q, ¬ Says bounds name Bound.most r q) (h : u.ceiling = none)
  | value (hmode : u.mode = .value) (e : QuantityError) (h : Quantity.read r u.value = .error e)

section Modes

variable {bounds : List Bound} {name : String} {r : Resource} {u : Unprovided} {part : Bound → Estimate} {q : Quantity}

theorem says_iff :
    ((Bound.lookup? bounds name).bind fun b => PerResource.get (part b) r) = some q ↔ Says bounds name part r q := by
  rw [Option.bind_eq_some_iff]
  unfold Says
  simp only [Bound.lookup?_eq_some_iff]

theorem not_says_iff :
    ((Bound.lookup? bounds name).bind fun b => PerResource.get (part b) r) = none ↔
      ∀ q, ¬ Says bounds name part r q := by
  rw [Option.eq_none_iff_forall_not_mem]
  exact forall_congr' fun q => not_congr says_iff

/-- An amount of a bound and a configured one are combined as amounts of one resource. -/
theorem combine_bound_eq_some_iff {order : Quantity → Quantity → Prop} {f : Quantity → Quantity → Quantity}
    (hf : Chooses order f) {configured : Option Quantity} (hpart : ∀ b ∈ bounds, PerResource.Typed (part b))
    (hconfigured : ∀ q, configured = some q → q.resource = r) :
    combine f ((Bound.lookup? bounds name).bind fun b => PerResource.get (part b) r) configured = some q ↔
      Extreme order (Says bounds name part r) configured q := by
  rw [combine_eq_some_iff hf fun a b ha hb =>
    (Bound.resource_lookup? hpart ha).trans (hconfigured b hb).symm]
  simp only [says_iff]

theorem unprovided?_eq_some_iff (hu : u.Typed r) (hb : ∀ b ∈ bounds, b.Typed) :
    unprovided? name r u bounds = some q ↔ u.Gives bounds name r q := by
  unfold unprovided?
  simp only
  cases hmode : u.mode with
  | off =>
    constructor
    · intro h
      cases h
    · rintro (⟨h, -⟩ | ⟨h, -⟩ | ⟨h, -⟩) <;> cases hmode.symm.trans h
  | minAllowed =>
    refine (combine_bound_eq_some_iff chooses_raise (fun b hmem => (hb b hmem).least) hu.floor).trans
      ⟨.minAllowed hmode, ?_⟩
    rintro (⟨-, h⟩ | ⟨h, -⟩ | ⟨h, -⟩)
    · exact h
    all_goals cases hmode.symm.trans h
  | maxAllowed =>
    refine (combine_bound_eq_some_iff chooses_lower (fun b hmem => (hb b hmem).most) hu.ceiling).trans
      ⟨.maxAllowed hmode, ?_⟩
    rintro (⟨h, -⟩ | ⟨-, h⟩ | ⟨h, -⟩)
    · cases hmode.symm.trans h
    · exact h
    · cases hmode.symm.trans h
  | value =>
    have hread : (Quantity.read r u.value).toOption = some q ↔ Quantity.read r u.value = .ok q := by
      cases Quantity.read r u.value <;> simp [Except.toOption]
    refine hread.trans ⟨.value hmode, ?_⟩
    rintro (⟨h, -⟩ | ⟨h, -⟩ | ⟨-, h⟩)
    · cases hmode.symm.trans h
    · cases hmode.symm.trans h
    · exact h

theorem unprovided?_eq_none_iff : unprovided? name r u bounds = none ↔ u.GivesNothing bounds name r := by
  unfold unprovided?
  simp only
  cases hmode : u.mode with
  | off => exact iff_of_true rfl (.off hmode)
  | minAllowed =>
    rw [combine_eq_none_iff, not_says_iff]
    refine ⟨fun h => .minAllowed hmode h.1 h.2, ?_⟩
    rintro (h | ⟨-, hbound, h⟩ | ⟨h, -⟩ | ⟨h, -⟩)
    · cases hmode.symm.trans h
    · exact ⟨hbound, h⟩
    all_goals cases hmode.symm.trans h
  | maxAllowed =>
    rw [combine_eq_none_iff, not_says_iff]
    refine ⟨fun h => .maxAllowed hmode h.1 h.2, ?_⟩
    rintro (h | ⟨h, -⟩ | ⟨-, hbound, h⟩ | ⟨h, -⟩)
    · cases hmode.symm.trans h
    · cases hmode.symm.trans h
    · exact ⟨hbound, h⟩
    · cases hmode.symm.trans h
  | value =>
    cases hread : Quantity.read r u.value with
    | error e => exact iff_of_true rfl (.value hmode e hread)
    | ok q =>
      refine iff_of_false (by simp [Except.toOption]) ?_
      rintro (h | ⟨h, -⟩ | ⟨h, -⟩ | ⟨-, e, h⟩)
      · cases hmode.symm.trans h
      · cases hmode.symm.trans h
      · cases hmode.symm.trans h
      · cases hread.symm.trans h

/-- The request of a resource depends on what bounds say about it. -/
theorem unprovided?_congr {bounds' : List Bound} (h : bounds'.map (Bound.about r) = bounds.map (Bound.about r)) :
    unprovided? name r u bounds' = unprovided? name r u bounds := by
  have hfound : (Bound.lookup? bounds' name).map (Bound.about r) = (Bound.lookup? bounds name).map (Bound.about r) := by
    rw [map_lookup?, map_lookup?, h]
  have hpart : ∀ part : String × Option Quantity × Option Quantity → Option Quantity,
      ((Bound.lookup? bounds' name).bind fun b => part (b.about r)) =
        (Bound.lookup? bounds name).bind fun b => part (b.about r) := by
    intro part
    simpa only [Option.bind_map, Function.comp_def] using congrArg (fun s => s.bind part) hfound
  unfold unprovided?
  have hleast := hpart fun s => s.2.1
  have hmost := hpart fun s => s.2.2
  simp only [Bound.about] at hleast hmost
  simp only [hleast, hmost]

end Modes

theorem get_unprovided_request (name : String) (policy : Effective) (bounds : List Bound) (r : Resource) :
    (Candidates.unprovided name policy bounds).get ⟨r, .request⟩ =
      unprovided? name r (PerResource.get policy.unprovided r) bounds := by
  rw [Candidates.unprovided, Candidates.get, PerAxis.get_ofFn]

theorem get_unprovided_limit (name : String) (policy : Effective) (bounds : List Bound) (r : Resource) :
    (Candidates.unprovided name policy bounds).get ⟨r, .limit⟩ = none := by
  rw [Candidates.unprovided, Candidates.get, PerAxis.get_ofFn]

/-- **What a container without a recommendation gets**, if all amounts are in their places: no limits, and for each
resource the request that the mode of this resource is to give, or none where it is to give nothing. A bound of its own
keeps every other bound from it, also for a resource that this bound leaves open; and the request of a resource depends
only on what the policy and the bounds say about that resource. -/
theorem unprovided_exactly (name : String) (policy : Effective) (bounds : List Bound)
    (hpolicy : ∀ r, (PerResource.get policy.unprovided r).Typed r) (hbounds : ∀ b ∈ bounds, b.Typed) :
    let c := Candidates.unprovided name policy bounds
    (∀ r, c.get ⟨r, .limit⟩ = none) ∧
      (∀ r q, c.get ⟨r, .request⟩ = some q ↔ (PerResource.get policy.unprovided r).Gives bounds name r q) ∧
      (∀ r, c.get ⟨r, .request⟩ = none ↔ (PerResource.get policy.unprovided r).GivesNothing bounds name r) ∧
      (∀ b, FirstOf Bound.container bounds name b → Candidates.unprovided name policy [b] = c) ∧
      ∀ r policy' bounds', PerResource.get policy'.unprovided r = PerResource.get policy.unprovided r →
        bounds'.map (Bound.about r) = bounds.map (Bound.about r) →
          (Candidates.unprovided name policy' bounds').get ⟨r, .request⟩ = c.get ⟨r, .request⟩ := by
  refine ⟨get_unprovided_limit name policy bounds, fun r q => ?gives, fun r => ?nothing, fun b h => ?own,
    fun r policy' bounds' hsame hmap => ?apart⟩
  case gives =>
    rw [get_unprovided_request]
    exact unprovided?_eq_some_iff (hpolicy r) hbounds
  case nothing =>
    rw [get_unprovided_request]
    exact unprovided?_eq_none_iff
  case own =>
    unfold Candidates.unprovided unprovided?
    simp only [lookup?_of_firstOf h]
  case apart =>
    rw [get_unprovided_request, get_unprovided_request, hsame]
    exact unprovided?_congr hmap

/-- A policy that takes what bounds allow at least, of CPU no less than a fortieth of a core. -/
def leastNotes : Annotations :=
  Dict.ofPairs [("rightsizer.io/cpu-unprovided-default-mode", "min-allowed"),
    ("rightsizer.io/cpu-min-allowed-recommendation", "25m"),
    ("rightsizer.io/memory-unprovided-default-mode", "min-allowed")]

/-- The own bound of a container, which is silent about memory. -/
def cpuBound (name : String) (least : Int64) : Bound :=
  ⟨name, ⟨some ⟨.cpu, least, .decimal⟩, none⟩, Estimate.empty⟩

/-- A bound for all containers in front of two for the container `app`. -/
def shadowingBounds : List Bound :=
  [⟨Bound.wildcard, ⟨some ⟨.cpu, 50, .decimal⟩, some ⟨.memory, 64, .decimal⟩⟩, Estimate.empty⟩, cpuBound "app" 10,
    cpuBound "app" 400]

/-- The container `app` gets the configured amount of CPU, which is more than its first own bound has, and no memory,
although the bound for all has some; another container gets what the bound for all has. -/
theorem unprovided_exactly_shadowed :
    let policy := Effective.of ⟨leastNotes, ProcessDefaults.empty⟩ (some "app")
    let app := Candidates.unprovided "app" policy shadowingBounds
    let web := Candidates.unprovided "web" policy shadowingBounds
    (∀ r, (PerResource.get policy.unprovided r).Typed r) ∧ (∀ b ∈ shadowingBounds, b.Typed) ∧
      (PerResource.get policy.unprovided .cpu).Gives shadowingBounds "app" .cpu ⟨.cpu, 25, .decimal⟩ ∧
      (PerResource.get policy.unprovided .memory).GivesNothing shadowingBounds "app" .memory ∧
      (PerResource.get policy.unprovided .cpu).Gives shadowingBounds "web" .cpu ⟨.cpu, 50, .decimal⟩ ∧
      Candidates.unprovided "app" policy [cpuBound "app" 10] = app ∧ web.get ⟨.cpu, .limit⟩ = none := by
  intro policy app web
  have hpolicy : ∀ r, (PerResource.get policy.unprovided r).Typed r := (Effective.typed_of _ _).unprovided
  have hbounds : ∀ b ∈ shadowingBounds, b.Typed := by
    simp only [shadowingBounds, List.forall_mem_cons]
    refine ⟨⟨?_, ?_⟩, ⟨?_, ?_⟩, ⟨?_, ?_⟩, by simp⟩
    all_goals
      intro r q hq
      cases r <;> cases hq <;> rfl
  obtain ⟨-, hgives, hnothing, hown, -⟩ := unprovided_exactly "app" policy shadowingBounds hpolicy hbounds
  obtain ⟨hlimits, hgives', -⟩ := unprovided_exactly "web" policy shadowingBounds hpolicy hbounds
  have hfirst : FirstOf Bound.container shadowingBounds "app" (cpuBound "app" 10) :=
    ⟨[_], [_], rfl, rfl, by decide⟩
  exact ⟨hpolicy, hbounds, (hgives .cpu _).1 (by decide +kernel), (hnothing .memory).1 (by decide +kernel),
    (hgives' .cpu _).1 (by decide +kernel), hown _ hfirst, hlimits .cpu⟩

end Allotment
