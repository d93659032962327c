import Allotment.Proofs.Encoding.RoundTrip
import Allotment.Proofs.Plan.Settled

/-!
# Plans that are written down

A plan is kept as a document and decoded before the next one is made. What is read back may be written with another
family of suffixes, and to a plan the text counts.

* `Quantity.Alike` — two quantities that no guard can tell apart: as much, and of one text;
* `clamp_alike`, `accept?_of_alike` — guards treat alike quantities alike;
* `Container.Durable` — the quantities of a container keep what a plan reads of them;
* `proposal?_reread`, `AtRest.reread` — then a container that was read back is at rest where it was before;
* `plan_persisted` — a plan whose containers are durable has nothing to change once it was written and read back.
-/

namespace Allotment

namespace Quantity

/-- As much of the same resource, and written the same way. -/
structure Alike (p q : Quantity) : Prop where
  same : p.Same q
  text : p.text = q.text

theorem Alike.refl (q : Quantity) : q.Alike q := ⟨⟨rfl, rfl⟩, rfl⟩

/-- The text of an amount of CPU does not depend on its family. -/
theorem Same.alike_of_cpu {p q : Quantity} (h : p.Same q) (hr : q.resource = .cpu) : p.Alike q := by
  obtain ⟨r, n, f⟩ := p
  obtain ⟨r', n', f'⟩ := q
  obtain ⟨hres, hamount⟩ := h
  obtain rfl : r = r' := hres
  obtain rfl : n = n' := hamount
  obtain rfl : r = .cpu := hr
  exact ⟨⟨rfl, rfl⟩, rfl⟩

theorem lt_congr {p p' q q' : Quantity} (hp : p.Same p') (hq : q.Same q') : p < q ↔ p' < q' := by
  rw [lt_iff, lt_iff, hp.1, hp.2, hq.1, hq.2]

theorem Same.memoryForCpu {p q : Quantity} (h : p.Same q) : p.memoryForCpu = q.memoryForCpu := by
  unfold Quantity.memoryForCpu
  rw [h.2]

end Quantity

open Quantity

theorem Adjustment.apply_same (a : Adjustment) {p q : Quantity} (h : p.Same q) : (a.apply p).Same (a.apply q) := by
  obtain ⟨r, n, f⟩ := p
  obtain ⟨r', n', f'⟩ := q
  obtain ⟨hres, hamount⟩ := h
  obtain rfl : r = r' := hres
  obtain rfl : n = n' := hamount
  unfold apply
  simp only
  split
  · exact ⟨rfl, rfl⟩
  · split
    · split <;> exact ⟨rfl, rfl⟩
    · split
      · next margin hmargin =>
        unfold add?
        simp only
        split
        · cases amount? (n.toInt + margin.amount.toInt) <;> exact ⟨rfl, rfl⟩
        · exact ⟨rfl, rfl⟩
      · exact ⟨rfl, rfl⟩

/-! ### Guards -/

theorem raise_alike {q q' : Quantity} (h : q.Alike q') (floor : Quantity) :
    (raise q floor).Alike (raise q' floor) := by
  have hiff := lt_congr h.same (Alike.refl floor).same
  unfold raise
  by_cases hlt : q < floor
  · rw [if_pos hlt, if_pos (hiff.1 hlt)]
    exact .refl floor
  · rwa [if_neg hlt, if_neg (mt hiff.2 hlt)]

theorem lower_alike {q q' : Quantity} (h : q.Alike q') (ceiling : Quantity) :
    (lower q ceiling).Alike (lower q' ceiling) := by
  have hiff := lt_congr (Alike.refl ceiling).same h.same
  unfold lower
  by_cases hlt : ceiling < q
  · rw [if_pos hlt, if_pos (hiff.1 hlt)]
    exact .refl ceiling
  · rwa [if_neg hlt, if_neg (mt hiff.2 hlt)]

namespace AxisPolicy

theorem clamp_alike (p : AxisPolicy) {q q' : Quantity} (h : q.Alike q') : (p.clamp q).Alike (p.clamp q') := by
  unfold clamp
  cases p.minAllowed with
  | none =>
    cases p.maxAllowed with
    | none => exact h
    | some ceiling => exact lower_alike h ceiling
  | some floor =>
    have hraised := raise_alike h floor
    cases p.maxAllowed with
    | none => exact hraised
    | some ceiling => exact lower_alike hraised ceiling

theorem fallsShort_congr (p : AxisPolicy) {b b' v v' : Quantity} (hb : b.Same b') (hv : v.Same v') :
    p.FallsShort b v ↔ p.FallsShort b' v' :=
  and_congr_right fun _ => lt_congr hv (p.minDiff.apply_same hb)

theorem blocks_congr (d : Direction) {b b' v v' : Quantity} (hb : b.Same b') (hv : v.Same v') :
    Blocks d b v ↔ Blocks d b' v' := by
  cases d with
  | both => exact Iff.rfl
  | up => exact lt_congr hv hb
  | down => exact lt_congr hb hv

/-- The guards let a proposal through, if they let an alike one through from an alike baseline. -/
theorem accept?_of_alike {p : AxisPolicy} {a : Axis} {current current' : Option Quantity} {q q' v' : Quantity}
    (hbase : (baseline a current).Same (baseline a current'))
    (htext : current.map Quantity.text = current'.map Quantity.text) (hq : q.Alike q')
    (h : p.accept? a current' q' = some v') : p.accept? a current q = some (p.clamp q) := by
  obtain ⟨rfl, hshort, hblocks, hmode, hnew⟩ := accept?_eq_some_iff.1 h
  have hclamp := p.clamp_alike hq
  refine accept?_eq_some_iff.2 ⟨rfl, ?_, ?_, hmode, ?_⟩
  · exact mt (p.fallsShort_congr hbase hclamp.same).1 hshort
  · exact mt (blocks_congr p.direction hbase hclamp.same).1 hblocks
  · rw [htext, hclamp.text]
    exact hnew

end AxisPolicy

/-! ### Containers that keep what a plan reads -/

/-- The quantities of a container keep what a plan reads of them: each its amount and its text, and a memory request
its family as well, if a limit follows it. -/
structure Container.Durable (policy : Effective) (c : Container) : Prop where
  amount : ∀ a q, c.get a = some q → q.amount ≠ Int64.minValue
  text : ∀ a q, c.get a = some q → q.KeepsText
  followed : (policy.axis ⟨.memory, .limit⟩).target = .auto → policy.memoryFromCpu.limit.enabled = false →
    ∀ q, c.get ⟨.memory, .request⟩ = some q → q.KeepsFamily

section Durable

variable {policy : Effective} {candidates : Candidates} {c : Container} {a : Axis} {q q' : Quantity}

theorem same_reread (hd : c.Durable policy) (h : c.get a = some q) : q.Same q.reread :=
  ⟨rfl, (amount_reread (hd.amount a q h)).symm⟩

theorem baseline_reread (hd : c.Durable policy) (a : Axis) :
    (AxisPolicy.baseline a (c.get a)).Same (AxisPolicy.baseline a (c.reread.get a)) := by
  rw [Container.get_reread]
  cases h : c.get a with
  | none => exact ⟨rfl, rfl⟩
  | some q => exact same_reread hd h

theorem text_get_reread (hd : c.Durable policy) (a : Axis) :
    (c.get a).map Quantity.text = (c.reread.get a).map Quantity.text := by
  rw [Container.get_reread]
  cases h : c.get a with
  | none => rfl
  | some q => exact congrArg some (text_reread (hd.text a q h)).symm

theorem memory_reread (hd : c.Durable policy) (d : Derivation) (h : c.get a = some q) :
    d.memory q.reread = d.memory q := by
  unfold Derivation.memory
  rw [(same_reread hd h).memoryForCpu]

theorem requestProposal_reread (hd : c.Durable policy) (r : Resource) (candidate : Quantity) :
    requestProposal policy c.reread r candidate = requestProposal policy c r candidate := by
  cases r with
  | cpu => rfl
  | memory =>
    unfold requestProposal
    simp only [Container.get_reread]
    split
    · cases h : c.get ⟨.cpu, .request⟩ with
      | none => rfl
      | some cpu => exact memory_reread hd _ h
    · rfl

/-- A limit that follows its request follows the amount of CPU, or the very same quantity of memory. -/
theorem ownLimitProposal?_reread (hd : c.Durable policy) (hc : c.Typed) {r : Resource}
    (hown : r = .memory → policy.memoryFromCpu.limit.enabled = false)
    (h : ownLimitProposal? policy candidates c.reread r = some q') :
    ∃ q, ownLimitProposal? policy candidates c r = some q ∧ q.Alike q' := by
  unfold ownLimitProposal? at h ⊢
  split at h
  · next hauto =>
    rw [if_pos hauto]
    rw [Container.get_reread, Option.map_map] at h
    obtain ⟨request, hrequest, rfl⟩ := Option.map_eq_some_iff.1 h
    refine ⟨_, by rw [hrequest]; rfl, ?_⟩
    have hres := hc ⟨r, .request⟩ request hrequest
    cases r with
    | cpu =>
      have hsame := (policy.axis ⟨.cpu, .limit⟩).adjustment.apply_same (same_reread hd hrequest)
      exact hsame.alike_of_cpu (by rw [Adjustment.resource_apply]; exact hres)
    | memory =>
      have hfamily := hd.followed hauto (hown rfl) request hrequest
      have hself := reread_eq_self hres (hd.amount _ _ hrequest) hfamily
      rw [Function.comp_apply, hself]
      exact .refl _
  · next hnot =>
    rw [if_neg hnot]
    exact ⟨q', h, .refl q'⟩

theorem limitProposal?_reread (hd : c.Durable policy) (hc : c.Typed) {r : Resource}
    (h : limitProposal? policy candidates c.reread r = some q') :
    ∃ q, limitProposal? policy candidates c r = some q ∧ q.Alike q' := by
  cases r with
  | cpu => exact ownLimitProposal?_reread hd hc nofun h
  | memory =>
    unfold limitProposal? at h ⊢
    simp only at h ⊢
    split at h
    · next hfrom =>
      rw [if_pos hfrom]
      obtain ⟨cpu', hcpu', rfl⟩ := Option.map_eq_some_iff.1 h
      rw [Container.get_reread, Container.get_reread] at hcpu'
      cases hlimit : c.get ⟨.cpu, .limit⟩ with
      | some limit =>
        rw [hlimit] at hcpu'
        obtain rfl := Option.some.inj hcpu'
        refine ⟨_, rfl, ?_⟩
        rw [memory_reread hd _ hlimit]
        exact .refl _
      | none =>
        rw [hlimit] at hcpu'
        obtain ⟨request, hrequest, rfl⟩ := Option.map_eq_some_iff.1 hcpu'
        rw [hrequest]
        refine ⟨_, rfl, ?_⟩
        rw [memory_reread hd _ hrequest]
        exact .refl _
    · next hown =>
      rw [if_neg hown]
      exact ownLimitProposal?_reread hd hc (fun _ => by simpa using hown) h

theorem proposal?_reread (hd : c.Durable policy) (hc : c.Typed)
    (h : proposal? policy candidates c.reread a = some q') :
    ∃ q, proposal? policy candidates c a = some q ∧ q.Alike q' := by
  obtain ⟨r, s⟩ := a
  unfold proposal? at h ⊢
  cases hcandidate : candidates.get (Axis.request ⟨r, s⟩) with
  | none =>
    rw [hcandidate] at h
    cases h
  | some candidate =>
    rw [hcandidate] at h
    cases s with
    | request =>
      obtain rfl := Option.some.inj h
      refine ⟨_, rfl, ?_⟩
      rw [requestProposal_reread hd]
      exact .refl _
    | limit => exact limitProposal?_reread hd hc h

/-- A durable container that was read back is at rest along every axis along which it was at rest before. -/
theorem AtRest.reread (hd : c.Durable policy) (hc : c.Typed) (h : AtRest policy candidates c a) :
    AtRest policy candidates c.reread a := by
  refine Option.eq_none_iff_forall_ne_some.2 fun v' hv' => ?_
  obtain ⟨q', hq', haccept'⟩ := commitment?_eq_some_iff.1 hv'
  obtain ⟨q, hq, halike⟩ := proposal?_reread hd hc hq'
  have haccept := AxisPolicy.accept?_of_alike (baseline_reread hd a) (text_get_reread hd a) halike haccept'
  have hcommitted := commitment?_eq_some_iff.2 ⟨q, hq, haccept⟩
  unfold AtRest at h
  rw [h] at hcommitted
  cases hcommitted

end Durable

/-! ### Plans -/

/-- **A persisted plan is stable** if its containers are durable: they can be decoded from their document, and the next
plan with the same policy and the same status has no changes. -/
theorem plan_persisted (cascade : Cascade) {status : Status} (hs : status.Typed) {cs : List Container}
    (hcs : ∀ c ∈ cs, c.Typed)
    (hd : ∀ c ∈ (plan cascade status cs).containers, c.Durable (Effective.of cascade (some c.name))) :
    ∃ again, Json.asList Container.ofJson (.list ((plan cascade status cs).containers.map Container.toJson)) =
        .ok again ∧ plan cascade status again = ⟨again, []⟩ := by
  have htyped := typed_plan cascade hs hcs
  refine ⟨_, Container.asList_toJson htyped, plan_of_settled fun c' hc' => ?_⟩
  obtain ⟨c, hc, rfl⟩ := List.mem_map.1 hc'
  have hsettled := settled_plan cascade status cs c hc
  unfold planOne at hsettled ⊢
  refine planContainer_of_atRest fun a => AtRest.reread (hd c hc) (htyped c hc) ?_
  have hrest := atRest_planContainer (Effective.of cascade (some c.name))
    (candidatesFor status (Effective.of cascade (some c.name)) c.name) c a
  rwa [hsettled] at hrest

/-- A container with nothing but a memory request and a limit of the same amount. -/
def evenContainer (q : Option Quantity) : Container := ⟨"app", ⟨⟨none, none⟩, ⟨q, q⟩⟩⟩

/-- A status in which that container is recommended an amount of memory. -/
def evenStatus (q : Quantity) : Status :=
  ⟨some [⟨"app", Estimate.empty, ⟨none, some q⟩, Estimate.empty⟩], []⟩

theorem get_evenContainer {q : Option Quantity} {a : Axis} {v : Quantity} (h : (evenContainer q).get a = some v) :
    a.resource = .memory ∧ q = some v := by
  obtain ⟨r, s⟩ := a
  cases r <;> cases s
  · cases h
  · cases h
  · exact ⟨rfl, h⟩
  · exact ⟨rfl, h⟩

theorem typed_evenStatus {q : Quantity} (h : q.resource = .memory) : (evenStatus q).Typed := by
  refine ⟨fun rec hrec => ?_, fun b hb => absurd hb List.not_mem_nil⟩
  obtain rfl := List.mem_singleton.1 hrec
  have hempty : PerResource.Typed Estimate.empty := by
    intro r v hv
    cases r <;> cases hv
  refine ⟨hempty, fun r v hv => ?_, hempty⟩
  cases r with
  | cpu => cases hv
  | memory =>
    obtain rfl := Option.some.inj hv
    exact h

/-- A quarter of a gibibyte stays. -/
theorem plan_persisted_quarter :
    let quarter : Quantity := ⟨.memory, 268435456, .binary⟩
    let cascade : Cascade := ⟨Dict.empty, ProcessDefaults.empty⟩
    (plan cascade (evenStatus quarter) [evenContainer none]).containers = [evenContainer (some quarter)] ∧
      ∃ again, Json.asList Container.ofJson (.list [(evenContainer (some quarter)).toJson]) = .ok again ∧
        plan cascade (evenStatus quarter) again = ⟨again, []⟩ := by
  intro quarter cascade
  have hplan : (plan cascade (evenStatus quarter) [evenContainer none]).containers = [evenContainer (some quarter)] := by
    decide +kernel
  have htyped : ∀ c ∈ [evenContainer none], c.Typed := by
    intro c hc a v hv
    obtain rfl := List.mem_singleton.1 hc
    cases (get_evenContainer hv).2
  have hdurable : ∀ c ∈ (plan cascade (evenStatus quarter) [evenContainer none]).containers,
      c.Durable (Effective.of cascade (some c.name)) := by
    intro c hc
    rw [hplan] at hc
    obtain rfl := List.mem_singleton.1 hc
    refine ⟨fun a v hv => ?_, fun a v hv => ?_, fun _ _ v hv => ?_⟩
    all_goals
      obtain rfl := Option.some.inj (get_evenContainer hv).2
      decide
  have hpersisted := plan_persisted cascade (typed_evenStatus rfl) htyped hdurable
  rw [hplan] at hpersisted
  exact ⟨hplan, hpersisted⟩

/-- A thousand bytes in the binary family are written without a suffix, and with one after they were read. -/
theorem plan_persisted_thousand :
    let thousand : Quantity := ⟨.memory, 1000, .binary⟩
    let cascade : Cascade := ⟨Dict.empty, ProcessDefaults.empty⟩
    Quantity.read .memory "0.9765625Ki" = .ok thousand ∧
      (plan cascade (evenStatus thousand) [evenContainer none]).containers = [evenContainer (some thousand)] ∧
      Json.asList Container.ofJson (.list [(evenContainer (some thousand)).toJson]) =
        .ok [evenContainer (some ⟨.memory, 1000, .decimal⟩)] ∧
      (plan cascade (evenStatus thousand) [evenContainer (some ⟨.memory, 1000, .decimal⟩)]).changes =
        [⟨"app", ⟨.memory, .request⟩, some ⟨.memory, 1000, .decimal⟩, thousand⟩,
          ⟨"app", ⟨.memory, .limit⟩, some ⟨.memory, 1000, .decimal⟩, thousand⟩] := by
  refine ⟨?_, ?_, ?_, ?_⟩
  · rfl
  · decide +kernel
  · rfl
  · decide +kernel

end Allotment
