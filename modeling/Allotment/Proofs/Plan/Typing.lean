import Allotment.Proofs.Plan.Pass
import Allotment.Proofs.Quantity.Order

/-!
# Every quantity in its place

The resource of a quantity is kept with it, and quantities of two resources are never related, so a quantity along an
axis of the other resource would slip through every bound.  There are none:

* `PerAxis.Typed`, `PerResource.Typed` — every quantity that is there is an amount of the resource of its place;
  `Container.Typed`, `Recommendation.Typed`, `Bound.Typed`, `Status.Typed` from these;
* `Effective.typed_of` — a policy that was read from texts has its amounts in their places;
* `typed_candidatesFor`, `resource_proposal?` — then so have candidates and proposals;
* `typed_foldl_step`, `typed_plan` — and a pass, and a plan, keep it so.
-/

namespace Allotment

/-! ### Places -/

/-- Every amount is one of the resource that it is kept for. -/
def PerResource.Typed (e : PerResource (Option Quantity)) : Prop :=
  ∀ r q, e.get r = some q → q.resource = r

/-- Every amount is one of the resource of its axis. -/
def PerAxis.Typed (p : PerAxis (Option Quantity)) : Prop :=
  ∀ a q, PerAxis.get p a = some q → q.resource = a.resource

/-- Every quantity of a container is in its place. -/
def Container.Typed (c : Container) : Prop :=
  PerAxis.Typed c.resources

structure Recommendation.Typed (rec : Recommendation) : Prop where
  lower : PerResource.Typed rec.lower
  target : PerResource.Typed rec.target
  upper : PerResource.Typed rec.upper

structure Bound.Typed (b : Bound) : Prop where
  least : PerResource.Typed b.least
  most : PerResource.Typed b.most

/-- Every estimate and every bound has its amounts in their places. -/
structure Status.Typed (s : Status) : Prop where
  recommendations : ∀ rec ∈ s.recommendations.getD [], rec.Typed
  bounds : ∀ b ∈ s.bounds, b.Typed

/-! ### Policies -/

/-- The bounds of an axis are amounts of its resource. -/
structure AxisPolicy.Typed (p : AxisPolicy) (r : Resource) : Prop where
  minAllowed : ∀ q, p.minAllowed = some q → q.resource = r
  maxAllowed : ∀ q, p.maxAllowed = some q → q.resource = r

structure Unprovided.Typed (u : Unprovided) (r : Resource) : Prop where
  floor : ∀ q, u.floor = some q → q.resource = r
  ceiling : ∀ q, u.ceiling = some q → q.resource = r

structure Effective.Typed (e : Effective) : Prop where
  axes : ∀ a, (e.axis a).Typed a.resource
  unprovided : ∀ r, (PerResource.get e.unprovided r).Typed r

theorem Cascade.resource_value? {c : Cascade} {r : Resource} {setting : String} {container : Option String}
    {q : Quantity} (h : c.value? (Quantity.read r) setting container = some q) : q.resource = r := by
  obtain ⟨text, hread⟩ := exists_of_value? h
  exact Quantity.resource_read hread

theorem Effective.typed_of (c : Cascade) (container : Option String) : (Effective.of c container).Typed := by
  refine ⟨fun a => ?_, fun r => ?_⟩
  · rw [axis_of]
    exact ⟨fun _ h => Cascade.resource_value? h, fun _ h => Cascade.resource_value? h⟩
  · simp only [of, PerResource.get_ofFn]
    exact ⟨fun _ h => Cascade.resource_value? h, fun _ h => Cascade.resource_value? h⟩

/-! ### Candidates -/

theorem Recommendation.Typed.band? {rec : Recommendation} (h : rec.Typed) {t : ApplyTarget} {e : Estimate}
    (he : rec.band? t = some e) : PerResource.Typed e := by
  cases t <;> simp only [Recommendation.band?, Option.some.injEq, reduceCtorEq] at he
  · exact he ▸ h.lower
  · exact he ▸ h.target
  · exact he ▸ h.upper

theorem typed_ofRecommendation {rec : Recommendation} (h : rec.Typed) (policy : Effective) :
    PerAxis.Typed (Candidates.ofRecommendation rec policy) := by
  intro a q hq
  rw [Candidates.ofRecommendation, PerAxis.get_ofFn] at hq
  obtain ⟨e, he, hq⟩ := Option.bind_eq_some_iff.1 hq
  exact h.band? he _ _ hq

theorem resource_combine {f : Quantity → Quantity → Quantity} (hf : ∀ a b, (f a b).resource = a.resource)
    {r : Resource} {x y : Option Quantity} (hx : ∀ q, x = some q → q.resource = r)
    (hy : ∀ q, y = some q → q.resource = r) {q : Quantity} (h : combine f x y = some q) : q.resource = r := by
  cases x with
  | none => exact hy q h
  | some a =>
    cases y with
    | none => exact hx q h
    | some b =>
      obtain rfl := Option.some.inj h
      rw [hf]
      exact hx a rfl

theorem Bound.mem_of_lookup? {bounds : List Bound} {container : String} {b : Bound}
    (h : Bound.lookup? bounds container = some b) : b ∈ bounds := by
  rcases Option.or_eq_some_iff.1 h with h | ⟨-, h⟩
  · exact List.mem_of_find?_eq_some h
  · exact List.mem_of_find?_eq_some h

/-- What the bound of a container says about a resource is an amount of it. -/
theorem Bound.resource_lookup? {bounds : List Bound} {part : Bound → Estimate}
    (hpart : ∀ b ∈ bounds, PerResource.Typed (part b)) {container : String} {r : Resource} {q : Quantity}
    (h : ((Bound.lookup? bounds container).bind fun b => PerResource.get (part b) r) = some q) : q.resource = r := by
  obtain ⟨b, hl, hq⟩ := Option.bind_eq_some_iff.1 h
  exact hpart b (Bound.mem_of_lookup? hl) r q hq

theorem resource_unprovided? {container : String} {r : Resource} {u : Unprovided} {bounds : List Bound}
    (hu : u.Typed r) (hb : ∀ b ∈ bounds, b.Typed) {q : Quantity}
    (h : unprovided? container r u bounds = some q) : q.resource = r := by
  unfold unprovided? at h
  simp only at h
  split at h
  · cases h
  · exact resource_combine resource_raise (fun _ => Bound.resource_lookup? fun b hmem => (hb b hmem).least) hu.floor h
  · exact resource_combine resource_lower (fun _ => Bound.resource_lookup? fun b hmem => (hb b hmem).most) hu.ceiling h
  · cases hread : Quantity.read r u.value with
    | error e => simp [hread, Except.toOption] at h
    | ok a =>
      simp only [hread, Except.toOption, Option.some.injEq] at h
      exact h ▸ Quantity.resource_read hread

theorem typed_unprovided {container : String} {policy : Effective} {bounds : List Bound} (hp : policy.Typed)
    (hb : ∀ b ∈ bounds, b.Typed) : PerAxis.Typed (Candidates.unprovided container policy bounds) := by
  intro a q hq
  rw [Candidates.unprovided, PerAxis.get_ofFn] at hq
  split at hq
  · exact resource_unprovided? (hp.unprovided _) hb hq
  · cases hq

theorem typed_candidatesFor {status : Status} {policy : Effective} (hs : status.Typed) (hp : policy.Typed)
    (container : String) : PerAxis.Typed (candidatesFor status policy container) := by
  unfold candidatesFor
  split
  · next rec h => exact typed_ofRecommendation (hs.recommendations rec (List.mem_of_find?_eq_some h)) policy
  · exact typed_unprovided hp hs.bounds

/-! ### Proposals and passes -/

section Pass

variable {policy : Effective} {candidates : Candidates} {c : Container} {p : Pass} {a : Axis} {q : Quantity}

theorem resource_requestProposal (policy : Effective) (c : Container) {r : Resource} (hq : q.resource = r) :
    (requestProposal policy c r q).resource = r := by
  unfold requestProposal
  cases r with
  | cpu => rw [Adjustment.resource_apply, hq]
  | memory =>
    simp only
    split
    · split
      · rw [Derivation.memory, Adjustment.resource_apply, Quantity.resource_memoryForCpu]
      · rw [Adjustment.resource_apply, hq]
    · rw [Adjustment.resource_apply, hq]

theorem resource_ownLimitProposal? (hc : c.Typed) (hcand : PerAxis.Typed candidates) {r : Resource}
    (h : ownLimitProposal? policy candidates c r = some q) : q.resource = r := by
  unfold ownLimitProposal? at h
  split at h
  · obtain ⟨request, hr, rfl⟩ := Option.map_eq_some_iff.1 h
    rw [Adjustment.resource_apply]
    exact hc ⟨r, .request⟩ request hr
  · exact hcand ⟨r, .limit⟩ q h

theorem resource_limitProposal? (hc : c.Typed) (hcand : PerAxis.Typed candidates) {r : Resource}
    (h : limitProposal? policy candidates c r = some q) : q.resource = r := by
  unfold limitProposal? at h
  cases r with
  | cpu => exact resource_ownLimitProposal? hc hcand h
  | memory =>
    simp only at h
    split at h
    · obtain ⟨cpu, -, rfl⟩ := Option.map_eq_some_iff.1 h
      rw [Derivation.memory, Adjustment.resource_apply, Quantity.resource_memoryForCpu]
    · exact resource_ownLimitProposal? hc hcand h

theorem resource_proposal? (hc : c.Typed) (hcand : PerAxis.Typed candidates)
    (h : proposal? policy candidates c a = some q) : q.resource = a.resource := by
  obtain ⟨r, s⟩ := a
  unfold proposal? at h
  split at h
  · cases h
  · next candidate hcandidate =>
    cases s with
    | request =>
      obtain rfl := Option.some.inj h
      exact resource_requestProposal policy c (hcand ⟨r, .request⟩ candidate hcandidate)
    | limit => exact resource_limitProposal? hc hcand h

theorem typed_step (hcand : PerAxis.Typed candidates) (h : p.container.Typed) :
    (p.step policy candidates a).container.Typed := by
  rcases p.step_cases policy candidates a with ⟨-, hs⟩ | ⟨v, hv, hs⟩
  · rw [hs]
    exact h
  · obtain ⟨q, hq, hacc⟩ := commitment?_eq_some_iff.1 hv
    obtain ⟨rfl, -⟩ := AxisPolicy.accept?_eq_some_iff.1 hacc
    rw [hs]
    intro b w hw
    have hget := p.container.get_set a b ((policy.axis a).clamp q)
    by_cases hb : b = a
    · rw [if_pos hb] at hget
      obtain rfl := Option.some.inj (hget.symm.trans hw)
      rw [AxisPolicy.resource_clamp, resource_proposal? h hcand hq, hb]
    · rw [if_neg hb] at hget
      exact h b w (hget.symm.trans hw)

theorem typed_foldl_step (hcand : PerAxis.Typed candidates) (as : List Axis) :
    ∀ {p : Pass}, p.container.Typed → (as.foldl (Pass.step policy candidates) p).container.Typed := by
  induction as with
  | nil => exact fun h => h
  | cons a as ih => exact fun h => ih (typed_step hcand h)

theorem typed_planContainer (hcand : PerAxis.Typed candidates) (hc : c.Typed) :
    (planContainer policy candidates c).container.Typed := by
  have hstart : (Pass.mk c []).container.Typed := hc
  exact typed_foldl_step hcand Axis.all hstart

end Pass

theorem typed_planOne (cascade : Cascade) {status : Status} (hs : status.Typed) {c : Container} (hc : c.Typed) :
    (planOne cascade status c).container.Typed := by
  have hp : (Effective.of cascade (some c.name)).Typed := Effective.typed_of _ _
  exact typed_planContainer (typed_candidatesFor hs hp c.name) hc

theorem typed_plan (cascade : Cascade) {status : Status} (hs : status.Typed) {cs : List Container}
    (hcs : ∀ c ∈ cs, c.Typed) : ∀ c ∈ (plan cascade status cs).containers, c.Typed := by
  intro c hc
  simp only [plan, List.map_map, List.mem_map, Function.comp_apply] at hc
  obtain ⟨b, hb, rfl⟩ := hc
  exact typed_planOne cascade hs (hcs b hb)

end Allotment
