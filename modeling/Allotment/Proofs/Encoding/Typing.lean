import Allotment.Encoding.Inventory
import Allotment.Proofs.Plan.Typing
import Allotment.Proofs.Reading

/-!
# Decoded documents have their quantities in place

The text of a quantity does not tell its resource: a decoder takes it from the field that the text stands in.

* `Json.resource_asQuantity?` — a decoded quantity is an amount of the resource that was asked for;
* `Json.forall_of_asList` — what holds of every decoded item holds along a decoded list;
* `Container.typed_of_ofJson`, `Recommendation.typed_of_ofJson`, `Bound.typed_of_ofJson` — hence every quantity of a
  decoded container, recommendation or bound is in its place;
* `ManagedWorkload.typed_of_ofJson` — and so is every quantity of a decoded workload, its status included.
-/

namespace Allotment

/-! ### Steps of a decoder -/

/-- A field that may be left out holds what was decoded, or its value for that case. -/
theorem Members.optional_eq_ok {α : Type} {m : Members} {name : String} {decode : Decoder α} {absent a : α}
    (h : m.optional name decode absent = .ok a) : (∃ j, decode j = .ok a) ∨ a = absent := by
  unfold optional at h
  split at h
  · exact .inl ⟨_, h⟩
  · exact .inr (Except.ok.inj h).symm

namespace Json

theorem resource_asQuantity? {r : Resource} {j : Json} {o : Option Quantity} (h : asQuantity? r j = .ok o) :
    ∀ q, o = some q → q.resource = r := by
  rintro q rfl
  unfold asQuantity? at h
  split at h
  · cases h
  · obtain ⟨a, ha, he⟩ := map_eq_ok_iff.1 h
    obtain rfl := Option.some.inj he
    cases hread : Quantity.read r _ with
    | error e =>
      rw [hread] at ha
      cases ha
    | ok b =>
      rw [hread] at ha
      cases ha
      exact Quantity.resource_read hread
  · cases h

theorem resource_optional {m : Members} {name : String} {r : Resource} {o : Option Quantity}
    (h : m.optional name (asQuantity? r) none = .ok o) : ∀ q, o = some q → q.resource = r := by
  rcases Members.optional_eq_ok h with ⟨j, hj⟩ | rfl
  · exact resource_asQuantity? hj
  · rintro q ⟨⟩

theorem forall_of_mapM {α : Type} {item : Decoder α} {P : α → Prop} (hitem : ∀ j a, item j = .ok a → P a)
    {items : List Json} : ∀ {as : List α}, items.mapM item = .ok as → ∀ a ∈ as, P a := by
  induction items with
  | nil =>
    intro as h a ha
    obtain rfl := Except.ok.inj h
    cases ha
  | cons j js ih =>
    intro as h a ha
    rw [List.mapM_cons] at h
    obtain ⟨b, hb, h⟩ := bind_eq_ok_iff.1 h
    obtain ⟨bs, hbs, h⟩ := bind_eq_ok_iff.1 h
    obtain rfl := Except.ok.inj h
    rcases List.mem_cons.1 ha with rfl | ha
    · exact hitem j a hb
    · exact ih hbs a ha

theorem forall_of_asList {α : Type} {item : Decoder α} {P : α → Prop} (hitem : ∀ j a, item j = .ok a → P a)
    {j : Json} {as : List α} (h : asList item j = .ok as) : ∀ a ∈ as, P a := by
  unfold asList at h
  split at h
  · next items closed =>
    obtain ⟨values, hvalues, h⟩ := bind_eq_ok_iff.1 h
    cases closed with
    | true =>
      obtain rfl := Except.ok.inj h
      exact forall_of_mapM hitem hvalues
    | false => cases h
  · cases h

theorem forall_of_asList? {α : Type} {item : Decoder α} {P : α → Prop} (hitem : ∀ j a, item j = .ok a → P a)
    {j : Json} {as : Option (List α)} (h : asList? item j = .ok as) : ∀ a ∈ as.getD [], P a := by
  unfold asList? at h
  split at h
  · obtain rfl := Except.ok.inj h
    exact fun a ha => absurd ha List.not_mem_nil
  · obtain ⟨bs, hbs, rfl⟩ := map_eq_ok_iff.1 h
    exact forall_of_asList hitem hbs

end Json

/-! ### Records -/

theorem Estimate.typed_of_ofJson {j : Json} {e : Estimate} (h : Estimate.ofJson j = .ok e) :
    PerResource.Typed e := by
  obtain ⟨m, -, h⟩ := bind_eq_ok_iff.1 h
  obtain ⟨cpu, hcpu, h⟩ := bind_eq_ok_iff.1 h
  obtain ⟨memory, hmemory, h⟩ := bind_eq_ok_iff.1 h
  obtain rfl := Except.ok.inj h
  intro r q hq
  cases r with
  | cpu => exact Json.resource_optional hcpu q hq
  | memory => exact Json.resource_optional hmemory q hq

theorem Allotments.typed_of_ofJson {j : Json} {a : Allotments} (h : Allotments.ofJson j = .ok a) :
    PerAxis.Typed a := by
  obtain ⟨m, -, h⟩ := bind_eq_ok_iff.1 h
  obtain ⟨cpuRequest, hcr, h⟩ := bind_eq_ok_iff.1 h
  obtain ⟨cpuLimit, hcl, h⟩ := bind_eq_ok_iff.1 h
  obtain ⟨memoryRequest, hmr, h⟩ := bind_eq_ok_iff.1 h
  obtain ⟨memoryLimit, hml, h⟩ := bind_eq_ok_iff.1 h
  obtain rfl := Except.ok.inj h
  rintro ⟨r, s⟩ q hq
  cases r <;> cases s
  · exact Json.resource_optional hcr q hq
  · exact Json.resource_optional hcl q hq
  · exact Json.resource_optional hmr q hq
  · exact Json.resource_optional hml q hq

theorem typed_optional_estimate {m : Members} {name : String} {e : Estimate}
    (h : m.optional name Estimate.ofJson Estimate.empty = .ok e) : PerResource.Typed e := by
  rcases Members.optional_eq_ok h with ⟨j, hj⟩ | rfl
  · exact Estimate.typed_of_ofJson hj
  · intro r q hq
    cases r <;> cases hq

theorem Container.typed_of_ofJson {j : Json} {c : Container} (h : Container.ofJson j = .ok c) : c.Typed := by
  obtain ⟨m, -, h⟩ := bind_eq_ok_iff.1 h
  obtain ⟨name, -, h⟩ := bind_eq_ok_iff.1 h
  obtain ⟨resources, hr, h⟩ := bind_eq_ok_iff.1 h
  obtain rfl := Except.ok.inj h
  rcases Members.optional_eq_ok hr with ⟨j, hj⟩ | rfl
  · exact Allotments.typed_of_ofJson hj
  · intro a q hq
    simp only [Allotments.empty, PerAxis.get_ofFn] at hq
    cases hq

theorem Recommendation.typed_of_ofJson {j : Json} {rec : Recommendation} (h : Recommendation.ofJson j = .ok rec) :
    rec.Typed := by
  obtain ⟨m, -, h⟩ := bind_eq_ok_iff.1 h
  obtain ⟨container, -, h⟩ := bind_eq_ok_iff.1 h
  obtain ⟨lower, hl, h⟩ := bind_eq_ok_iff.1 h
  obtain ⟨target, ht, h⟩ := bind_eq_ok_iff.1 h
  obtain ⟨upper, hu, h⟩ := bind_eq_ok_iff.1 h
  obtain rfl := Except.ok.inj h
  exact ⟨typed_optional_estimate hl, typed_optional_estimate ht, typed_optional_estimate hu⟩

theorem Bound.typed_of_ofJson {j : Json} {b : Bound} (h : Bound.ofJson j = .ok b) : b.Typed := by
  obtain ⟨m, -, h⟩ := bind_eq_ok_iff.1 h
  obtain ⟨container, -, h⟩ := bind_eq_ok_iff.1 h
  obtain ⟨least, hl, h⟩ := bind_eq_ok_iff.1 h
  obtain ⟨most, hm, h⟩ := bind_eq_ok_iff.1 h
  obtain rfl := Except.ok.inj h
  exact ⟨typed_optional_estimate hl, typed_optional_estimate hm⟩

/-- Every quantity of a workload, and of what is recommended for it, is in its place. -/
structure ManagedWorkload.Typed (w : ManagedWorkload) : Prop where
  containers : ∀ c ∈ w.containers, c.Typed
  status : Status.Typed ⟨w.recommendations, w.bounds⟩

theorem ManagedWorkload.typed_of_ofJson {j : Json} {w : ManagedWorkload} (h : ManagedWorkload.ofJson j = .ok w) :
    w.Typed := by
  obtain ⟨m, -, h⟩ := bind_eq_ok_iff.1 h
  obtain ⟨kind, -, h⟩ := bind_eq_ok_iff.1 h
  obtain ⟨space, -, h⟩ := bind_eq_ok_iff.1 h
  obtain ⟨name, -, h⟩ := bind_eq_ok_iff.1 h
  obtain ⟨annotations, -, h⟩ := bind_eq_ok_iff.1 h
  obtain ⟨containers, hc, h⟩ := bind_eq_ok_iff.1 h
  obtain ⟨recommendations, hr, h⟩ := bind_eq_ok_iff.1 h
  obtain ⟨bounds, hb, h⟩ := bind_eq_ok_iff.1 h
  obtain rfl := Except.ok.inj h
  refine ⟨?containers, ?recommendations, ?bounds⟩
  case containers =>
    rcases Members.optional_eq_ok hc with ⟨j, hj⟩ | rfl
    · exact Json.forall_of_asList (fun _ _ => Container.typed_of_ofJson) hj
    · exact fun c hmem => absurd hmem List.not_mem_nil
  case recommendations =>
    rcases Members.optional_eq_ok hr with ⟨j, hj⟩ | rfl
    · exact Json.forall_of_asList? (fun _ _ => Recommendation.typed_of_ofJson) hj
    · exact fun rec hmem => absurd hmem List.not_mem_nil
  case bounds =>
    rcases Members.optional_eq_ok hb with ⟨j, hj⟩ | rfl
    · exact Json.forall_of_asList (fun _ _ => Bound.typed_of_ofJson) hj
    · exact fun b hmem => absurd hmem List.not_mem_nil

end Allotment
