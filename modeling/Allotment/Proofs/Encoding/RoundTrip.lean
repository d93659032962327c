import Allotment.Proofs.Encoding.Typing
import Allotment.Proofs.Quantity.RoundTrip

/-!
# Records that are written and read again

A document has the texts of the quantities. So a record that is decoded from its own document has each quantity as it is
read from its text, and is the same otherwise.

* `Container.reread`, `Estimate.reread`, `Recommendation.reread`, `Bound.reread` — a record with every quantity read from
  its text;
* `Json.walkMembers_ok`, `Json.fields_record` — what a decoder meets in a document that was written;
* `quantityMembers` — the members for the quantities of a record, some of which may be missing;
* `Container.ofJson_toJson`, `Container.asList_toJson`, `Recommendation.ofJson_toJson`, `Bound.ofJson_toJson` — decoding
  undoes encoding, up to that.
-/

namespace Allotment

/-- A container with every quantity read from its text. -/
def Container.reread (c : Container) : Container :=
  ⟨c.name, PerAxis.ofFn fun a => (c.get a).map Quantity.reread⟩

@[simp] theorem Container.name_reread (c : Container) : c.reread.name = c.name := rfl

@[simp] theorem Container.get_reread (c : Container) (a : Axis) :
    c.reread.get a = (c.get a).map Quantity.reread := by
  unfold get reread
  rw [PerAxis.get_ofFn]
  rfl

/-- An estimate with every quantity read from its text. -/
def Estimate.reread (e : Estimate) : Estimate :=
  PerResource.ofFn fun r => (PerResource.get e r).map Quantity.reread

@[simp] theorem Estimate.get_reread (e : Estimate) (r : Resource) :
    PerResource.get e.reread r = (PerResource.get e r).map Quantity.reread :=
  PerResource.get_ofFn _ r

def Recommendation.reread (rec : Recommendation) : Recommendation :=
  ⟨rec.container, rec.lower.reread, rec.target.reread, rec.upper.reread⟩

def Bound.reread (b : Bound) : Bound :=
  ⟨b.container, b.least.reread, b.most.reread⟩

/-! ### Members of a written record -/

theorem lookup_quantityMember (name key : String) (q : Option Quantity) :
    (quantityMember name q).lookup key = if key = name then q.map fun q => .string q.text else none := by
  cases q with
  | none => simp [quantityMember]
  | some q =>
    unfold quantityMember
    by_cases h : key = name
    · simp [h]
    · have hkey : (key == name) = false := beq_eq_false_iff_ne.2 h
      simp [List.lookup_cons, h, hkey]

theorem mem_quantityMember {name : String} {q : Option Quantity} {p : String × Json}
    (h : p ∈ quantityMember name q) : ∃ v, q = some v ∧ p = (name, .string v.text) := by
  cases q with
  | none => cases h
  | some v => exact ⟨v, rfl, List.mem_singleton.1 h⟩

theorem keys_quantityMember (name : String) (q : Option Quantity) :
    ((quantityMember name q).map Prod.fst).Sublist [name] := by
  cases q with
  | none => exact List.nil_sublist _
  | some v => exact List.Sublist.refl _

/-- Known members that decode, under different names, are walked without a fault. -/
theorem Json.walkMembers_ok {checks : FieldChecks} {members : List (String × Json)} :
    ∀ {seen : List String}, (members.map Prod.fst).Nodup → (∀ p ∈ members, p.1 ∉ seen) →
      (∀ p ∈ members, ∃ check, checks.lookup p.1 = some check ∧ check p.2 = .ok ()) →
      walkMembers checks seen members = .ok () := by
  induction members with
  | nil => exact fun _ _ _ => rfl
  | cons p ps ih =>
    intro seen hnodup hseen hchecks
    obtain ⟨hp, hps⟩ := List.nodup_cons.1 hnodup
    obtain ⟨check, hlookup, hcheck⟩ := hchecks p List.mem_cons_self
    have hnot := hseen p List.mem_cons_self
    have hrest : walkMembers checks (p.1 :: seen) ps = .ok () := by
      refine ih hps (fun p' hp' => ?_) fun p' hp' => hchecks p' (List.mem_cons_of_mem _ hp')
      rw [List.mem_cons, not_or]
      refine ⟨fun heq => ?_, hseen p' (List.mem_cons_of_mem _ hp')⟩
      exact hp (heq ▸ List.mem_map_of_mem hp')
    obtain ⟨key, value⟩ := p
    unfold walkMembers
    simp only [hlookup]
    rw [if_neg (by simpa using hnot), hcheck]
    exact hrest

/-- A record of known members that decode, under different names, has these members. -/
theorem Json.fields_record {checks : FieldChecks} {members : List (String × Json)}
    (hnodup : (members.map Prod.fst).Nodup)
    (hchecks : ∀ p ∈ members, ∃ check, checks.lookup p.1 = some check ∧ check p.2 = .ok ()) :
    (record members).fields checks = .ok ⟨members, true⟩ :=
  bind_eq_ok_iff.2 ⟨(), walkMembers_ok hnodup (fun _ _ => List.not_mem_nil) hchecks, rfl⟩

/-- A value that decodes has no fault. -/
theorem fieldCheck_of_ok {α : Type} (name : String) {decode : Decoder α} {j : Json} {a : α} (h : decode j = .ok a) :
    (fieldCheck name decode).2 j = .ok () :=
  map_eq_ok_iff.2 ⟨a, h, rfl⟩

/-! ### Quantities -/

theorem Json.asQuantity?_text {r : Resource} {q : Quantity} (h : q.resource = r) :
    asQuantity? r (.string q.text) = .ok (some q.reread) := by
  obtain rfl := h
  simp only [asQuantity?, Quantity.read_text]
  rfl

theorem Members.optional_quantity {m : Members} {name : String} {r : Resource} {q : Option Quantity}
    (hm : m.entries.lookup name = q.map fun q => .string q.text) (hq : ∀ v, q = some v → v.resource = r) :
    m.optional name (Json.asQuantity? r) none = .ok (q.map Quantity.reread) := by
  unfold optional
  rw [hm]
  cases q with
  | none => rfl
  | some v => exact Json.asQuantity?_text (hq v rfl)

/-! ### Records of quantities -/

section QuantityMembers

variable {ι : Type} {name : ι → String} {resource : ι → Resource} {amount : ι → Option Quantity} {places : List ι}

/-- The members for the quantities of a record, one for each place that has one. -/
def quantityMembers (name : ι → String) (amount : ι → Option Quantity) (places : List ι) : List (String × Json) :=
  places.flatMap fun i => quantityMember (name i) (amount i)

theorem keys_quantityMembers :
    ∀ places : List ι, ((quantityMembers name amount places).map Prod.fst).Sublist (places.map name)
  | [] => List.Sublist.refl _
  | i :: places => by
    rw [quantityMembers, List.flatMap_cons, List.map_append]
    exact (keys_quantityMember (name i) (amount i)).append (keys_quantityMembers places)

theorem nodup_keys_quantityMembers (h : (places.map name).Nodup) :
    ((quantityMembers name amount places).map Prod.fst).Nodup :=
  (keys_quantityMembers places).nodup h

theorem lookup_quantityMembers_of_notMem {key : String} (h : key ∉ places.map name) :
    (quantityMembers name amount places).lookup key = none := by
  rw [List.lookup_eq_none_iff]
  intro p hp
  have hkey : p.1 ≠ key := fun heq => h (heq ▸ (keys_quantityMembers places).subset (List.mem_map_of_mem hp))
  simpa using hkey.symm

/-- Under the name of a place stands the text of its quantity, if it has one. -/
theorem lookup_quantityMembers {i : ι} :
    ∀ {places : List ι}, (places.map name).Nodup → i ∈ places →
      (quantityMembers name amount places).lookup (name i) = (amount i).map fun q => .string q.text
  | j :: places, hnames, hi => by
    obtain ⟨hj, hrest⟩ := List.nodup_cons.1 hnames
    rw [quantityMembers, List.flatMap_cons, List.lookup_append, lookup_quantityMember]
    rcases List.mem_cons.1 hi with rfl | hi
    · have hnone : (quantityMembers name amount places).lookup (name i) = none := lookup_quantityMembers_of_notMem hj
      rw [quantityMembers] at hnone
      rw [if_pos rfl, hnone, Option.or_none]
    · have hne : name i ≠ name j := fun heq => hj (heq ▸ List.mem_map_of_mem hi)
      rw [if_neg hne, Option.none_or]
      exact lookup_quantityMembers hrest hi

/-- Written quantities of their places are members without a fault. -/
theorem fields_quantityMembers {checks : FieldChecks} (hnames : (places.map name).Nodup)
    (hchecks : ∀ i, checks.lookup (name i) = some (fieldCheck (name i) (Json.asQuantity? (resource i))).2)
    (h : ∀ i q, amount i = some q → q.resource = resource i) :
    (Json.record (quantityMembers name amount places)).fields checks = .ok ⟨quantityMembers name amount places, true⟩ := by
  refine Json.fields_record (nodup_keys_quantityMembers hnames) fun p hp => ?_
  obtain ⟨i, -, hp⟩ := List.mem_flatMap.1 hp
  obtain ⟨q, hq, rfl⟩ := mem_quantityMember hp
  exact ⟨_, hchecks i, fieldCheck_of_ok (name i) (Json.asQuantity?_text (h i q hq))⟩

end QuantityMembers

namespace Allotments

variable {a : Allotments}

/-- The field of an axis. -/
def fieldName : Axis → String
  | ⟨.cpu, .request⟩ => "cpu_request"
  | ⟨.cpu, .limit⟩ => "cpu_limit"
  | ⟨.memory, .request⟩ => "memory_request"
  | ⟨.memory, .limit⟩ => "memory_limit"

/-- The members of a document for allotments, in the order of the axes. -/
def members (a : Allotments) : List (String × Json) :=
  Axis.all.flatMap fun ax => quantityMember (fieldName ax) (PerAxis.get a ax)

theorem toJson_eq (a : Allotments) : toJson a = .record a.members := by
  simp [toJson, members, Axis.all, fieldName, PerAxis.get, PerResource.get, PerSide.get]

theorem nodup_fieldName : (Axis.all.map fieldName).Nodup := by decide

theorem lookup_checks (ax : Axis) :
    checks.lookup (fieldName ax) = some (fieldCheck (fieldName ax) (Json.asQuantity? ax.resource)).2 := by
  obtain ⟨r, s⟩ := ax
  cases r <;> cases s <;> rfl

theorem optional_members (h : PerAxis.Typed a) (ax : Axis) :
    (Members.mk a.members true).optional (fieldName ax) (Json.asQuantity? ax.resource) none =
      .ok ((PerAxis.get a ax).map Quantity.reread) :=
  Members.optional_quantity (lookup_quantityMembers nodup_fieldName ax.mem_all) (h ax)

theorem ofJson_toJson (h : PerAxis.Typed a) :
    ofJson (toJson a) = .ok (PerAxis.ofFn fun ax => (PerAxis.get a ax).map Quantity.reread) := by
  have hfields : (toJson a).fields checks = .ok ⟨a.members, true⟩ := by
    rw [toJson_eq]
    exact fields_quantityMembers nodup_fieldName lookup_checks h
  refine bind_eq_ok_iff.2 ⟨_, hfields, ?_⟩
  refine bind_eq_ok_iff.2 ⟨_, optional_members h ⟨.cpu, .request⟩, ?_⟩
  refine bind_eq_ok_iff.2 ⟨_, optional_members h ⟨.cpu, .limit⟩, ?_⟩
  refine bind_eq_ok_iff.2 ⟨_, optional_members h ⟨.memory, .request⟩, ?_⟩
  exact bind_eq_ok_iff.2 ⟨_, optional_members h ⟨.memory, .limit⟩, rfl⟩

end Allotments

namespace Estimate

variable {e : Estimate}

/-- The members of a document for an estimate. -/
def members (e : Estimate) : List (String × Json) :=
  quantityMembers Resource.name (PerResource.get e) Resource.all

theorem toJson_eq (e : Estimate) : toJson e = .record e.members := by
  simp [toJson, members, quantityMembers, Resource.all, Resource.name, PerResource.get]

theorem nodup_name : (Resource.all.map Resource.name).Nodup := by decide

theorem lookup_checks (r : Resource) :
    checks.lookup r.name = some (fieldCheck r.name (Json.asQuantity? r)).2 := by
  cases r <;> rfl

theorem optional_members (h : PerResource.Typed e) (r : Resource) :
    (Members.mk e.members true).optional r.name (Json.asQuantity? r) none =
      .ok ((PerResource.get e r).map Quantity.reread) :=
  Members.optional_quantity (lookup_quantityMembers nodup_name (by cases r <;> decide)) (h r)

theorem ofJson_toJson (h : PerResource.Typed e) : ofJson (toJson e) = .ok e.reread := by
  have hfields : (toJson e).fields checks = .ok ⟨e.members, true⟩ := by
    rw [toJson_eq]
    exact fields_quantityMembers nodup_name lookup_checks h
  refine bind_eq_ok_iff.2 ⟨_, hfields, ?_⟩
  refine bind_eq_ok_iff.2 ⟨_, optional_members h .cpu, ?_⟩
  exact bind_eq_ok_iff.2 ⟨_, optional_members h .memory, rfl⟩

end Estimate

/-! ### Named records -/

namespace Container

/-- **A container is read back from its document** as it is, but for what the texts of its quantities do not tell. -/
theorem ofJson_toJson {c : Container} (h : c.Typed) : ofJson (toJson c) = .ok c.reread := by
  have hresources := Allotments.ofJson_toJson h
  have hfields : (toJson c).fields checks = .ok
      ⟨[("name", .string c.name), ("resources", Allotments.toJson c.resources)], true⟩ := by
    refine Json.fields_record (by simp) ?_
    simp only [List.forall_mem_cons]
    exact ⟨⟨_, rfl, rfl⟩, ⟨_, rfl, fieldCheck_of_ok "resources" hresources⟩, fun _ h => absurd h List.not_mem_nil⟩
  refine bind_eq_ok_iff.2 ⟨_, hfields, ?_⟩
  refine bind_eq_ok_iff.2 ⟨c.name, rfl, ?_⟩
  exact bind_eq_ok_iff.2 ⟨_, hresources, rfl⟩

theorem asList_toJson {cs : List Container} (h : ∀ c ∈ cs, c.Typed) :
    Json.asList ofJson (.list (cs.map toJson)) = .ok (cs.map reread) := by
  have hitems : (cs.map toJson).mapM ofJson = .ok (cs.map reread) := by
    induction cs with
    | nil => rfl
    | cons c cs ih =>
      obtain ⟨hc, hcs⟩ := List.forall_mem_cons.1 h
      rw [List.map_cons, List.mapM_cons]
      exact bind_eq_ok_iff.2 ⟨_, ofJson_toJson hc, bind_eq_ok_iff.2 ⟨_, ih hcs, rfl⟩⟩
  exact bind_eq_ok_iff.2 ⟨_, hitems, rfl⟩

end Container

/-- A recommendation is read back as it is, up to the texts of its quantities. -/
theorem Recommendation.ofJson_toJson {rec : Recommendation} (h : rec.Typed) : ofJson (toJson rec) = .ok rec.reread := by
  have hlower := Estimate.ofJson_toJson h.lower
  have htarget := Estimate.ofJson_toJson h.target
  have hupper := Estimate.ofJson_toJson h.upper
  have hfields : (toJson rec).fields checks = .ok
      ⟨[("containerName", .string rec.container), ("lowerBound", Estimate.toJson rec.lower),
        ("target", Estimate.toJson rec.target), ("upperBound", Estimate.toJson rec.upper)], true⟩ := by
    refine Json.fields_record (by simp) ?_
    simp only [List.forall_mem_cons]
    exact ⟨⟨_, rfl, rfl⟩, ⟨_, rfl, fieldCheck_of_ok "lowerBound" hlower⟩, ⟨_, rfl, fieldCheck_of_ok "target" htarget⟩,
      ⟨_, rfl, fieldCheck_of_ok "upperBound" hupper⟩, fun _ h => absurd h List.not_mem_nil⟩
  refine bind_eq_ok_iff.2 ⟨_, hfields, ?_⟩
  refine bind_eq_ok_iff.2 ⟨rec.container, rfl, ?_⟩
  refine bind_eq_ok_iff.2 ⟨_, hlower, ?_⟩
  refine bind_eq_ok_iff.2 ⟨_, htarget, ?_⟩
  exact bind_eq_ok_iff.2 ⟨_, hupper, rfl⟩

/-- A bound is read back as it is, up to the texts of its quantities. -/
theorem Bound.ofJson_toJson {b : Bound} (h : b.Typed) : ofJson (toJson b) = .ok b.reread := by
  have hleast := Estimate.ofJson_toJson h.least
  have hmost := Estimate.ofJson_toJson h.most
  have hfields : (toJson b).fields checks = .ok
      ⟨[("containerName", .string b.container), ("minAllowed", Estimate.toJson b.least),
        ("maxAllowed", Estimate.toJson b.most)], true⟩ := by
    refine Json.fields_record (by simp) ?_
    simp only [List.forall_mem_cons]
    exact ⟨⟨_, rfl, rfl⟩, ⟨_, rfl, fieldCheck_of_ok "minAllowed" hleast⟩, ⟨_, rfl, fieldCheck_of_ok "maxAllowed" hmost⟩,
      fun _ h => absurd h List.not_mem_nil⟩
  refine bind_eq_ok_iff.2 ⟨_, hfields, ?_⟩
  refine bind_eq_ok_iff.2 ⟨b.container, rfl, ?_⟩
  refine bind_eq_ok_iff.2 ⟨_, hleast, ?_⟩
  exact bind_eq_ok_iff.2 ⟨_, hmost, rfl⟩

end Allotment
