import Allotment.Proofs.Plan.History

/-!
# Comparisons are made among amounts of one resource

Amounts of two resources are not related, and a guard that compares them lets everything through.  To say which
comparisons are made, a plan is carried out once more, with every comparison of quantities written down.

* `Weighed` — what was computed, with the comparisons that were made on the way; `Weighed.less` makes one;
* `weighAccept?`, `weighUnprovided?`, …, `weighPlan` — the guards, the search for a request and the whole plan, carried
  out so; each gives what the plain one gives (`value_weighAccept?`, …, `value_weighPlan`);
* `Weighed.InKind` — all comparisons were made between amounts of the resource of their axis; `inKind_weighPlan`;
* `Round.InKind` — every quantity that a round handles is an amount of the resource of its axis;
* `rounds_in_kind` — so it is in every round of a history that starts with decoded documents.
-/

namespace Allotment

/-! ### Comparisons -/

theorem Quantity.lt_iff_order? {a b : Quantity} : a < b ↔ a.order? b = some .lt := by
  rw [Quantity.lt_iff]
  unfold order?
  constructor
  · rintro ⟨hr, hlt⟩
    rw [if_pos hr, if_pos hlt]
  · intro h
    obtain ⟨hr, h⟩ := Option.ite_none_right_eq_some.1 h
    refine ⟨hr, ?_⟩
    by_contra hlt
    rw [if_neg hlt] at h
    split at h <;> cases h

/-- A comparison of two quantities that was made for an axis. -/
structure Comparison where
  axis : Axis
  left : Quantity
  right : Quantity
  deriving DecidableEq, Repr

/-- Both sides are amounts of the resource of the axis. -/
structure Comparison.InKind (x : Comparison) : Prop where
  left : x.left.resource = x.axis.resource
  right : x.right.resource = x.axis.resource

/-- Two amounts of one resource are in some order. -/
theorem Comparison.InKind.isSome_order? {x : Comparison} (h : x.InKind) : (x.left.order? x.right).isSome = true := by
  unfold Quantity.order?
  rw [if_pos (h.left.trans h.right.symm)]
  rfl

/-- What was computed, and the comparisons that were made on the way. -/
structure Weighed (α : Type) where
  value : α
  comparisons : List Comparison

namespace Weighed

variable {α β : Type}

instance : Monad Weighed where
  pure a := ⟨a, []⟩
  bind m f := ⟨(f m.value).value, m.comparisons ++ (f m.value).comparisons⟩

instance : LawfulMonad Weighed :=
  .mk' _ (fun m => by cases m; simp [Functor.map]) (fun _ _ => rfl) (fun m f g => by simp [bind])

/-- Compares two quantities for an axis.  Where there is no order between them, the answer is no. -/
def less (a : Axis) (x y : Quantity) : Weighed Bool :=
  ⟨x.order? y = some .lt, [⟨a, x, y⟩]⟩

@[simp] theorem value_pure (a : α) : (pure a : Weighed α).value = a := rfl

@[simp] theorem value_bind (m : Weighed α) (f : α → Weighed β) : (m >>= f).value = (f m.value).value := rfl

@[simp] theorem value_map (f : α → β) (m : Weighed α) : (f <$> m).value = f m.value := rfl

@[simp] theorem value_less (a : Axis) (x y : Quantity) : (less a x y).value = decide (x < y) :=
  decide_eq_decide.2 Quantity.lt_iff_order?.symm

theorem value_foldlM (f : β → α → Weighed β) (as : List α) (b : β) :
    (as.foldlM f b).value = as.foldl (fun b a => (f b a).value) b := by
  induction as generalizing b with
  | nil => rfl
  | cons a as ih => rw [List.foldlM_cons, value_bind, ih, List.foldl_cons]

theorem value_mapM (f : α → Weighed β) (as : List α) : (as.mapM f).value = as.map fun a => (f a).value := by
  induction as with
  | nil => rfl
  | cons a as ih => simp only [List.mapM_cons, value_bind, value_pure, ih, List.map_cons]

/-- All comparisons were made between amounts of the resource of their axis. -/
def InKind (m : Weighed α) : Prop :=
  ∀ x ∈ m.comparisons, x.InKind

theorem inKind_pure (a : α) : (pure a : Weighed α).InKind := fun _ h => absurd h List.not_mem_nil

theorem InKind.bind {m : Weighed α} {f : α → Weighed β} (hm : m.InKind) (hf : (f m.value).InKind) :
    (m >>= f).InKind := by
  intro x hx
  rcases List.mem_append.1 hx with hx | hx
  · exact hm x hx
  · exact hf x hx

theorem InKind.map {m : Weighed α} (hm : m.InKind) (f : α → β) : (f <$> m).InKind :=
  hm.bind (inKind_pure _)

theorem inKind_less {a : Axis} {x y : Quantity} (hx : x.resource = a.resource) (hy : y.resource = a.resource) :
    (less a x y).InKind := by
  intro z hz
  obtain rfl := List.mem_singleton.1 hz
  exact ⟨hx, hy⟩

theorem InKind.ite {c : Prop} [Decidable c] {m n : Weighed α} (hm : m.InKind) (hn : n.InKind) :
    (if c then m else n).InKind := by
  split
  · exact hm
  · exact hn

/-- Along a fold it is enough that an invariant holds of what was computed so far. -/
theorem inKind_foldlM {f : β → α → Weighed β} {P : β → Prop} (hf : ∀ b a, P b → (f b a).InKind ∧ P (f b a).value) :
    ∀ (as : List α) {b : β}, P b → (as.foldlM f b).InKind
  | [], _, _ => inKind_pure _
  | a :: as, b, hb => by
    obtain ⟨hstep, hnext⟩ := hf b a hb
    rw [List.foldlM_cons]
    exact hstep.bind (inKind_foldlM hf as hnext)

theorem inKind_mapM {f : α → Weighed β} : ∀ {as : List α}, (∀ a ∈ as, (f a).InKind) → (as.mapM f).InKind
  | [], _ => inKind_pure _
  | a :: as, h => by
    obtain ⟨ha, has⟩ := List.forall_mem_cons.1 h
    rw [List.mapM_cons]
    exact ha.bind ((inKind_mapM has).bind (inKind_pure _))

end Weighed

open Weighed

/-! ### Bounds -/

def weighRaise (a : Axis) (q floor : Quantity) : Weighed Quantity := do
  return if ← less a q floor then floor else q

def weighLower (a : Axis) (q ceiling : Quantity) : Weighed Quantity := do
  return if ← less a ceiling q then ceiling else q

section Bounds

variable {a : Axis} {q bound : Quantity}

@[simp] theorem value_weighRaise : (weighRaise a q bound).value = raise q bound := by
  simp [weighRaise, raise]

@[simp] theorem value_weighLower : (weighLower a q bound).value = lower q bound := by
  simp [weighLower, lower]

theorem inKind_weighRaise (hq : q.resource = a.resource) (hb : bound.resource = a.resource) :
    (weighRaise a q bound).InKind :=
  (inKind_less hq hb).bind (inKind_pure _)

theorem inKind_weighLower (hq : q.resource = a.resource) (hb : bound.resource = a.resource) :
    (weighLower a q bound).InKind :=
  (inKind_less hb hq).bind (inKind_pure _)

/-- An amount, moved by a bound if there is one. -/
def weighBound (move : Quantity → Quantity → Weighed Quantity) (q : Quantity) (bound : Option Quantity) :
    Weighed Quantity :=
  match bound with
  | some b => move q b
  | none => pure q

theorem inKind_weighBound {move : Quantity → Quantity → Weighed Quantity} {b : Option Quantity}
    (hb : ∀ m, b = some m → (move q m).InKind) : (weighBound move q b).InKind := by
  cases b with
  | none => exact inKind_pure q
  | some m => exact hb m rfl

end Bounds

/-! ### Guards -/

namespace AxisPolicy

def weighClamp (p : AxisPolicy) (a : Axis) (q : Quantity) : Weighed Quantity := do
  let raised ← weighBound (weighRaise a) q p.minAllowed
  weighBound (weighLower a) raised p.maxAllowed

def weighShort (p : AxisPolicy) (a : Axis) (baseline value : Quantity) : Weighed Bool :=
  if p.minDiff.isBlank then pure false else less a value (p.minDiff.apply baseline)

def weighBlocks (d : Direction) (a : Axis) (baseline value : Quantity) : Weighed Bool :=
  match d with
  | .both => pure false
  | .up => less a value baseline
  | .down => less a baseline value

/-- The guards, one after the other; one that a value does not pass is the last. -/
def weighAccept? (p : AxisPolicy) (a : Axis) (current : Option Quantity) (proposed : Quantity) :
    Weighed (Option Quantity) := do
  let value ← p.weighClamp a proposed
  if ← p.weighShort a (baseline a current) value then
    return none
  if ← weighBlocks p.direction a (baseline a current) value then
    return none
  return if p.mode = .off then none else if current.map Quantity.text = some value.text then none else some value

variable {p : AxisPolicy} {a : Axis} {current : Option Quantity} {b q v : Quantity} {d : Direction}

@[simp] theorem value_weighClamp : (p.weighClamp a q).value = p.clamp q := by
  unfold weighClamp clamp weighBound
  cases p.minAllowed <;> cases p.maxAllowed <;> simp

@[simp] theorem value_weighShort : (p.weighShort a b v).value = decide (p.FallsShort b v) := by
  unfold weighShort FallsShort
  split <;> simp [*]

@[simp] theorem value_weighBlocks : (weighBlocks d a b v).value = decide (Blocks d b v) := by
  cases d with
  | both => exact (decide_eq_false id).symm
  | up => exact value_less a v b
  | down => exact value_less a b v

@[simp] theorem value_weighAccept? : (p.weighAccept? a current q).value = p.accept? a current q := by
  simp only [weighAccept?, accept?, value_bind, value_weighClamp, value_weighShort, decide_eq_true_eq]
  split
  · rfl
  · simp only [value_bind, value_weighBlocks, decide_eq_true_eq]
    split <;> rfl

theorem inKind_weighClamp (hp : p.Typed a.resource) (hq : q.resource = a.resource) : (p.weighClamp a q).InKind := by
  have hraised : (weighBound (weighRaise a) q p.minAllowed).value.resource = a.resource := by
    unfold weighBound
    cases p.minAllowed <;> simp [hq]
  exact (inKind_weighBound fun m hm => inKind_weighRaise hq (hp.minAllowed m hm)).bind
    (inKind_weighBound fun m hm => inKind_weighLower hraised (hp.maxAllowed m hm))

theorem inKind_weighShort (hb : b.resource = a.resource) (hv : v.resource = a.resource) : (p.weighShort a b v).InKind :=
  .ite (inKind_pure _) (inKind_less hv ((p.minDiff.resource_apply b).trans hb))

theorem inKind_weighBlocks (hb : b.resource = a.resource) (hv : v.resource = a.resource) :
    (weighBlocks d a b v).InKind := by
  cases d with
  | both => exact inKind_pure _
  | up => exact inKind_less hv hb
  | down => exact inKind_less hb hv

theorem inKind_weighAccept? (hp : p.Typed a.resource) (hc : ∀ o, current = some o → o.resource = a.resource)
    (hq : q.resource = a.resource) : (p.weighAccept? a current q).InKind := by
  have hb : (baseline a current).resource = a.resource := resource_baseline hc
  have hv : (p.weighClamp a q).value.resource = a.resource := by rw [value_weighClamp, resource_clamp, hq]
  unfold weighAccept?
  refine (inKind_weighClamp hp hq).bind ((inKind_weighShort hb hv).bind (.ite (inKind_pure _) ?_))
  exact (inKind_weighBlocks hb hv).bind (.ite (inKind_pure _) (inKind_pure _))

end AxisPolicy

/-! ### Candidates -/

/-- Both amounts combined; the one that is present if only one is. -/
def weighCombine (f : Quantity → Quantity → Weighed Quantity) (x y : Option Quantity) : Weighed (Option Quantity) :=
  match x with
  | some q => some <$> weighBound f q y
  | none => pure y

def weighUnprovided? (container : String) (r : Resource) (policy : Unprovided) (bounds : List Bound) :
    Weighed (Option Quantity) :=
  let bound := Bound.lookup? bounds container
  match policy.mode with
  | .off => pure none
  | .minAllowed =>
    weighCombine (weighRaise ⟨r, .request⟩) (bound.bind fun b => PerResource.get b.least r) policy.floor
  | .maxAllowed =>
    weighCombine (weighLower ⟨r, .request⟩) (bound.bind fun b => PerResource.get b.most r) policy.ceiling
  | .value => pure (Quantity.read r policy.value).toOption

def weighUnprovided (container : String) (policy : Effective) (bounds : List Bound) : Weighed Candidates := do
  let cpu ← weighUnprovided? container .cpu (PerResource.get policy.unprovided .cpu) bounds
  let memory ← weighUnprovided? container .memory (PerResource.get policy.unprovided .memory) bounds
  return ⟨⟨cpu, none⟩, ⟨memory, none⟩⟩

def weighCandidatesFor (status : Status) (policy : Effective) (container : String) : Weighed Candidates :=
  match (status.recommendations.getD []).find? fun rec => rec.container = container with
  | some rec => pure (Candidates.ofRecommendation rec policy)
  | none => weighUnprovided container policy status.bounds

section Candidates

variable {container : String} {r : Resource} {u : Unprovided} {policy : Effective} {bounds : List Bound} {status : Status}

theorem value_weighCombine {f : Quantity → Quantity → Weighed Quantity} {x y : Option Quantity} :
    (weighCombine f x y).value = combine (fun a b => (f a b).value) x y := by
  cases x <;> cases y <;> rfl

@[simp] theorem value_weighUnprovided? :
    (weighUnprovided? container r u bounds).value = unprovided? container r u bounds := by
  unfold weighUnprovided? unprovided?
  cases u.mode <;> simp [value_weighCombine]

@[simp] theorem value_weighUnprovided :
    (weighUnprovided container policy bounds).value = Candidates.unprovided container policy bounds := by
  simp [weighUnprovided, Candidates.unprovided, PerAxis.ofFn, PerResource.ofFn, PerSide.ofFn]

@[simp] theorem value_weighCandidatesFor :
    (weighCandidatesFor status policy container).value = candidatesFor status policy container := by
  unfold weighCandidatesFor candidatesFor
  cases (status.recommendations.getD []).find? fun rec => rec.container = container with
  | none => exact value_weighUnprovided
  | some rec => rfl

theorem inKind_weighCombine {f : Quantity → Quantity → Weighed Quantity} {x y : Option Quantity}
    (h : ∀ a b, x = some a → y = some b → (f a b).InKind) : (weighCombine f x y).InKind := by
  cases x with
  | none => exact inKind_pure y
  | some a => exact (inKind_weighBound fun b hb => h a b rfl hb).map some

theorem inKind_weighUnprovided? (hu : u.Typed r) (hb : ∀ b ∈ bounds, b.Typed) :
    (weighUnprovided? container r u bounds).InKind := by
  unfold weighUnprovided?
  simp only
  split
  · exact inKind_pure none
  · exact inKind_weighCombine fun a b ha hf =>
      inKind_weighRaise (Bound.resource_lookup? (fun b hmem => (hb b hmem).least) ha) (hu.floor b hf)
  · exact inKind_weighCombine fun a b ha hf =>
      inKind_weighLower (Bound.resource_lookup? (fun b hmem => (hb b hmem).most) ha) (hu.ceiling b hf)
  · exact inKind_pure _

theorem inKind_weighCandidatesFor (hs : status.Typed) (hp : policy.Typed) :
    (weighCandidatesFor status policy container).InKind := by
  unfold weighCandidatesFor
  split
  · exact inKind_pure _
  · have hrequest : ∀ r, (weighUnprovided? container r (PerResource.get policy.unprovided r) status.bounds).InKind :=
      fun r => inKind_weighUnprovided? (hp.unprovided r) hs.bounds
    exact (hrequest .cpu).bind ((hrequest .memory).bind (inKind_pure _))

end Candidates

/-! ### Plans -/

def weighStep (policy : Effective) (candidates : Candidates) (p : Pass) (a : Axis) : Weighed Pass :=
  let current := p.container.get a
  match proposal? policy candidates p.container a with
  | none => pure p
  | some proposed => do
    match ← (policy.axis a).weighAccept? a current proposed with
    | none => return p
    | some value =>
      return { container := p.container.set a value
               changes := p.changes ++ [⟨p.container.name, a, current, value⟩] }

def weighOne (cascade : Cascade) (status : Status) (c : Container) : Weighed Pass := do
  let policy := Effective.of cascade (some c.name)
  let candidates ← weighCandidatesFor status policy c.name
  Axis.all.foldlM (weighStep policy candidates) ⟨c, []⟩

/-- A plan, and all comparisons of quantities that are made for it. -/
def weighPlan (cascade : Cascade) (status : Status) (containers : List Container) : Weighed Plan := do
  let passes ← containers.mapM (weighOne cascade status)
  return ⟨passes.map Pass.container, passes.flatMap Pass.changes⟩

section Plans

variable {policy : Effective} {candidates : Candidates} {p : Pass} {a : Axis} {status : Status} {c : Container}

@[simp] theorem value_weighStep : (weighStep policy candidates p a).value = p.step policy candidates a := by
  unfold weighStep Pass.step
  cases proposal? policy candidates p.container a with
  | none => rfl
  | some q =>
    simp only [value_bind, AxisPolicy.value_weighAccept?, Option.bind_some]
    split <;> simp [*]

@[simp] theorem value_weighOne (cascade : Cascade) : (weighOne cascade status c).value = planOne cascade status c := by
  simp only [weighOne, value_bind, value_foldlM, value_weighCandidatesFor, value_weighStep, planOne, planContainer]

/-- Writing comparisons down changes nothing in a plan. -/
theorem value_weighPlan (cascade : Cascade) (status : Status) (cs : List Container) :
    (weighPlan cascade status cs).value = plan cascade status cs := by
  simp only [weighPlan, value_bind, value_pure, value_mapM, value_weighOne, plan]

theorem inKind_weighStep (hpolicy : policy.Typed) (hcand : PerAxis.Typed candidates) (hp : p.container.Typed) :
    (weighStep policy candidates p a).InKind := by
  unfold weighStep
  cases hproposal : proposal? policy candidates p.container a with
  | none => exact inKind_pure p
  | some q =>
    refine (AxisPolicy.inKind_weighAccept? (hpolicy.axes a) (hp a) (resource_proposal? hp hcand hproposal)).bind ?_
    split <;> exact inKind_pure _

theorem inKind_weighOne (cascade : Cascade) (hs : status.Typed) (hc : c.Typed) : (weighOne cascade status c).InKind := by
  have hpolicy : (Effective.of cascade (some c.name)).Typed := Effective.typed_of _ _
  refine (inKind_weighCandidatesFor hs hpolicy).bind ?_
  rw [value_weighCandidatesFor]
  have hcand := typed_candidatesFor hs hpolicy c.name
  refine inKind_foldlM (P := fun p => p.container.Typed) (fun p a hp => ⟨inKind_weighStep hpolicy hcand hp, ?_⟩) _ hc
  rw [value_weighStep]
  exact typed_step hcand hp

theorem inKind_weighPlan (cascade : Cascade) (hs : status.Typed) {cs : List Container} (hcs : ∀ c ∈ cs, c.Typed) :
    (weighPlan cascade status cs).InKind :=
  (inKind_mapM fun c hc => inKind_weighOne cascade hs (hcs c hc)).bind (inKind_pure _)

end Plans

/-! ### Histories -/

/-- Every entry of a status was read from a document. -/
structure Status.Decoded (s : Status) : Prop where
  recommendations : ∀ rec ∈ s.recommendations.getD [], ∃ j, Recommendation.ofJson j = .ok rec
  bounds : ∀ b ∈ s.bounds, ∃ j, Bound.ofJson j = .ok b

theorem Status.Decoded.typed {s : Status} (h : s.Decoded) : s.Typed := by
  refine ⟨fun rec hrec => ?_, fun b hb => ?_⟩
  · obtain ⟨j, hj⟩ := h.recommendations rec hrec
    exact Recommendation.typed_of_ofJson hj
  · obtain ⟨j, hj⟩ := h.bounds b hb
    exact Bound.typed_of_ofJson hj

/-- Both quantities of a change are amounts of the resource of its axis. -/
structure Change.Typed (ch : Change) : Prop where
  old : ∀ q, ch.old = some q → q.resource = ch.axis.resource
  new : ch.new.resource = ch.axis.resource

namespace Round

/-- The plan that is made in a round, and all comparisons that are made for it. -/
def weigh (r : Round) (cs : List Container) : Weighed Plan :=
  weighPlan r.cascade r.status cs

/-- The candidates that a container has in a round. -/
def candidates (r : Round) (container : String) : Candidates :=
  candidatesFor r.status (Effective.of r.cascade (some container)) container

/-- Every quantity that a round handles is an amount of the resource of its axis. -/
structure InKind (r : Round) (cs : List Container) : Prop where
  containers : ∀ c ∈ cs, c.Typed
  policies : ∀ container, (Effective.of r.cascade container).Typed
  candidates : ∀ container, PerAxis.Typed (r.candidates container)
  /-- What a proposal has to reach. -/
  thresholds : ∀ c ∈ cs, ∀ a : Axis,
    ((r.policy c.name a).minDiff.apply (AxisPolicy.baseline a (c.get a))).resource = a.resource
  written : ∀ c ∈ (r.plan cs).containers, c.Typed
  changes : ∀ ch ∈ (r.plan cs).changes, ch.Typed
  /-- The comparisons are those of the plan that is made. -/
  value_weigh : (r.weigh cs).value = r.plan cs
  comparisons : ∀ x ∈ (r.weigh cs).comparisons, x.InKind ∧ (x.left.order? x.right).isSome = true

variable {r : Round} {cs : List Container}

theorem typed_change (hr : r.status.Typed) (hcs : ∀ c ∈ cs, c.Typed) {ch : Change} (h : ch ∈ (r.plan cs).changes) :
    ch.Typed := by
  obtain ⟨p, hp, hch⟩ := List.mem_flatMap.1 h
  obtain ⟨c, hc, rfl⟩ := List.mem_map.1 hp
  have hafter := typed_planOne r.cascade hr (hcs c hc)
  rw [planOne, changes_planContainer, Container.mem_difference] at hch
  obtain ⟨-, -, hold, hnew⟩ := hch
  exact ⟨fun q hq => hcs c hc ch.axis q (hold.symm.trans hq), hafter ch.axis ch.new hnew⟩

theorem inKind_of_typed (hr : r.status.Typed) (hcs : ∀ c ∈ cs, c.Typed) : r.InKind cs := by
  refine ⟨hcs, fun container => Effective.typed_of _ _, fun container => ?candidates, fun c hc a => ?thresholds,
    typed_plan r.cascade hr hcs, fun ch => typed_change hr hcs, value_weighPlan _ _ cs, fun x hx => ?comparisons⟩
  case candidates => exact typed_candidatesFor hr (Effective.typed_of _ _) container
  case thresholds => exact (Adjustment.resource_apply _ _).trans (AxisPolicy.resource_baseline (hcs c hc a))
  case comparisons =>
    have hkind := inKind_weighPlan r.cascade hr hcs x hx
    exact ⟨hkind, hkind.isSome_order?⟩

end Round

/-- **Quantities stay on axes of their own resource.**  In every history of plans over containers, recommendations and
bounds that were read from documents, with any policy and any defaults in each round, every bound of a policy, every
candidate, every threshold, every quantity that is written and both sides of every change are amounts of the resource of
their axis.  So are both sides of every comparison that is made, and no comparison is left undecided. -/
theorem rounds_in_kind (rs : List Round) (cs : List Container) (hcs : ∀ c ∈ cs, ∃ j, Container.ofJson j = .ok c)
    (hrs : ∀ r ∈ rs, r.status.Decoded) :
    ∀ l r l', rs = l ++ r :: l' → r.InKind (afterRounds l cs) := by
  rintro l r l' rfl
  simp only [List.mem_append, List.mem_cons] at hrs
  have hstart : ∀ c ∈ cs, c.Typed := by
    intro c hc
    obtain ⟨j, hj⟩ := hcs c hc
    exact Container.typed_of_ofJson hj
  have hbefore : ∀ c ∈ afterRounds l cs, c.Typed := typed_afterRounds (fun s hs => (hrs s (.inl hs)).typed) hstart
  exact Round.inKind_of_typed (hrs r (.inr (.inl rfl))).typed hbefore

/-- A container that has nothing yet. -/
def sidecar : Container :=
  ⟨"sidecar", Allotments.empty⟩

/-- A round in which every guard of the CPU request has something to say, and in which a container without a
recommendation gets the least that its bound allows. -/
def boundedRound : Round :=
  ⟨⟨Dict.ofPairs [("rightsizer.io/cpu-request-min-allowed", "50m"), ("rightsizer.io/cpu-request-max-allowed", "200m"),
      ("rightsizer.io/cpu-request-min-diff-algo", "margin"), ("rightsizer.io/cpu-request-min-diff-value", "10m"),
      ("rightsizer.io/cpu-request-scale-direction", "up"), ("rightsizer.io/cpu-unprovided-default-mode", "min-allowed"),
      ("rightsizer.io/cpu-min-allowed-recommendation", "25m")], ProcessDefaults.empty⟩,
    ⟨some [⟨"app", Estimate.empty, ⟨some ⟨.cpu, 250, .decimal⟩, none⟩, Estimate.empty⟩],
      [⟨Bound.wildcard, ⟨some ⟨.cpu, 10, .decimal⟩, none⟩, Estimate.empty⟩]⟩⟩

theorem decoded_boundedRound : boundedRound.status.Decoded := by
  refine ⟨fun rec hrec => ?_, fun b hb => ?_⟩
  · obtain rfl := List.mem_singleton.1 hrec
    exact ⟨.record [("containerName", .string "app"), ("target", .record [("cpu", .string "250m")])], rfl⟩
  · obtain rfl := List.mem_singleton.1 hb
    exact ⟨.record [("containerName", .string "*"), ("minAllowed", .record [("cpu", .string "10m")])], rfl⟩

/-- The comparisons of a first round, and a second round after it. -/
theorem rounds_in_kind_sidecar :
    (∀ c ∈ [tenthOfCore, sidecar], ∃ j, Container.ofJson j = .ok c) ∧
      (∀ r ∈ [boundedRound, boundedRound], r.status.Decoded) ∧
      boundedRound.InKind (afterRounds [boundedRound] [tenthOfCore, sidecar]) ∧
      ((boundedRound.weigh [tenthOfCore, sidecar]).comparisons.map fun x => (x.left.amount, x.right.amount)) =
        [(250, 50), (200, 250), (200, 110), (200, 100), (10, 25), (25, 50), (200, 50), (50, 10), (50, 0)] := by
  have hcs : ∀ c ∈ [tenthOfCore, sidecar], ∃ j, Container.ofJson j = .ok c := by
    simp only [List.forall_mem_cons]
    exact ⟨⟨.record [("name", .string "app"), ("resources", .record [("cpu_request", .string "100m")])], rfl⟩,
      ⟨.record [("name", .string "sidecar")], rfl⟩, fun _ h => absurd h List.not_mem_nil⟩
  have hrs : ∀ r ∈ [boundedRound, boundedRound], r.status.Decoded := by
    intro r hr
    obtain rfl : r = boundedRound := by simpa using hr
    exact decoded_boundedRound
  exact ⟨hcs, hrs, rounds_in_kind _ _ hcs hrs [boundedRound] boundedRound [] rfl, by decide +kernel⟩

end Allotment
