import Allotment.Proofs.Encoding.Typing
import Allotment.Proofs.Plan.Difference

/-!
# What a policy promises over a whole history

A workload is planned again and again, each time with the policy and the status of that moment.

* `AxisPolicy.Permits p a old new` — what the policy of an axis promises of a change along it;
* `permits_planContainer` — every change of a pass is permitted: clamping comes before the other guards, so the value
  that they saw is the one that is committed;
* `Round`, `afterRounds` — one plan of a history, and the containers after some of them;
* `Restrained rs before after` — what a policy that switches an axis off, or lets it move one way only, promises over
  rounds `rs`;
* `rounds_permitted` — every change of a history is permitted, and every stretch of it is restrained.
-/

namespace Allotment

/-! ### One change -/

/-- What the policy of an axis promises of a change along it. -/
structure AxisPolicy.Permits (p : AxisPolicy) (a : Axis) (old : Option Quantity) (new : Quantity) : Prop where
  enforced : p.mode = .enforce
  le_max : ∀ m, p.maxAllowed = some m → new ≤ m
  /-- A minimum above the maximum promises nothing. -/
  min_le : ∀ m, p.minAllowed = some m → (∀ n, p.maxAllowed = some n → m ≤ n) → m ≤ new
  up : p.direction = .up → baseline a old ≤ new
  down : p.direction = .down → new ≤ baseline a old
  minDiff : p.minDiff.isBlank = false → p.minDiff.apply (baseline a old) ≤ new

/-- What the guards let through is permitted, among quantities of one resource. -/
theorem AxisPolicy.permits_of_accept? {p : AxisPolicy} {a : Axis} {old : Option Quantity} {q new : Quantity}
    (hp : p.Typed a.resource) (hold : ∀ o, old = some o → o.resource = a.resource)
    (hq : q.resource = a.resource) (h : p.accept? a old q = some new) : p.Permits a old new := by
  obtain ⟨rfl, hshort, hblock, hmode, -⟩ := accept?_eq_some_iff.1 h
  have hnew : (p.clamp q).resource = a.resource := by rw [resource_clamp, hq]
  have hbase : (baseline a old).resource = a.resource := resource_baseline hold
  refine ⟨hmode, fun m hm => ?_, fun m hm hmn => ?_, fun hd => ?_, fun hd => ?_, fun hd => ?_⟩
  · exact clamp_le hm (by rw [hp.maxAllowed m hm, hq])
  · exact le_clamp hm (by rw [hp.minAllowed m hm, hq]) hmn
  · rw [hd] at hblock
    exact Quantity.le_of_not_lt (by rw [hbase, hnew]) hblock
  · rw [hd] at hblock
    exact Quantity.le_of_not_lt (by rw [hbase, hnew]) hblock
  · refine Quantity.le_of_not_lt ?_ fun hlt => hshort ⟨hd, hlt⟩
    rw [Adjustment.resource_apply, hbase, hnew]

theorem permits_planContainer {policy : Effective} {candidates : Candidates} {c : Container}
    (hpolicy : policy.Typed) (hcand : PerAxis.Typed candidates) (hc : c.Typed) {ch : Change}
    (h : ch ∈ (planContainer policy candidates c).changes) :
    (policy.axis ch.axis).Permits ch.axis ch.old ch.new := by
  rw [changes_planContainer, Container.mem_difference] at h
  obtain ⟨hne, -, hold, hnew⟩ := h
  -- The change was made by the step for its axis, on a container that had the old quantity still.
  obtain ⟨l, hl, hget⟩ := Pass.get_foldl_of_mem policy candidates ⟨c, []⟩ Axis.nodup_all ch.axis.mem_all
  have hbefore := Pass.get_foldl_of_notMem policy candidates ⟨c, []⟩ hl
  have htyped : (l.foldl (Pass.step policy candidates) ⟨c, []⟩).container.Typed :=
    typed_foldl_step hcand l (show (Pass.mk c []).container.Typed from hc)
  generalize l.foldl (Pass.step policy candidates) ⟨c, []⟩ = m at hget hbefore htyped
  replace hget : (planContainer policy candidates c).container.get ch.axis =
      (m.step policy candidates ch.axis).container.get ch.axis := hget
  rcases m.step_cases policy candidates ch.axis with ⟨-, hs⟩ | ⟨v, hv, hs⟩
  · rw [hs, hbefore] at hget
    exact absurd (by rw [Container.textAt, Container.textAt, hget]) hne
  · obtain ⟨q, hq, hacc⟩ := commitment?_eq_some_iff.1 hv
    rw [hs, Container.get_set, if_pos rfl, hnew] at hget
    obtain rfl := Option.some.inj hget
    rw [hbefore] at hacc
    rw [hold]
    exact AxisPolicy.permits_of_accept? (hpolicy.axes _) (hc ch.axis) (resource_proposal? htyped hcand hq) hacc

/-! ### One round -/

/-- What one plan of a history is made with. -/
structure Round where
  cascade : Cascade
  status : Status

namespace Round

/-- The policy of an axis of a container at the time of a round. -/
def policy (r : Round) (container : String) (a : Axis) : AxisPolicy :=
  (Effective.of r.cascade (some container)).axis a

/-- The plan that is made in a round. -/
def plan (r : Round) (cs : List Container) : Plan :=
  Allotment.plan r.cascade r.status cs

/-- What becomes of one container in a round. -/
def container (r : Round) (c : Container) : Container :=
  (planOne r.cascade r.status c).container

variable {r : Round} {c : Container} {a : Axis}

theorem permits_planOne (hr : r.status.Typed) (hc : c.Typed) {ch : Change}
    (h : ch ∈ (planOne r.cascade r.status c).changes) :
    ch.container = c.name ∧ (r.policy c.name ch.axis).Permits ch.axis ch.old ch.new := by
  have hp : (Effective.of r.cascade (some c.name)).Typed := Effective.typed_of _ _
  refine ⟨?_, permits_planContainer hp (typed_candidatesFor hr hp c.name) hc h⟩
  rw [planOne, changes_planContainer, Container.mem_difference] at h
  exact h.2.1

/-- An axis that is not what it was before has what its policy permits. -/
theorem get_container (hr : r.status.Typed) (hc : c.Typed) (a : Axis) :
    (r.container c).get a = c.get a ∨
      ∃ new, (r.container c).get a = some new ∧ (r.policy c.name a).Permits a (c.get a) new := by
  have hrev : c.Revises (r.container c) := revises_planContainer _ _ c
  by_cases hmem : a ∈ (c.difference (r.container c)).map Change.axis
  · obtain ⟨ch, hch, rfl⟩ := List.mem_map.1 hmem
    obtain ⟨-, -, hold, hnew⟩ := Container.mem_difference.1 hch
    have hchange : ch ∈ (planOne r.cascade r.status c).changes := by
      rw [planOne, changes_planContainer]
      exact hch
    refine .inr ⟨ch.new, hnew, ?_⟩
    rw [← hold]
    exact (permits_planOne hr hc hchange).2
  · exact .inl (hrev.rest a hmem)

end Round

/-! ### A history -/

/-- The containers of a workload after some rounds. -/
def afterRounds (rs : List Round) (cs : List Container) : List Container :=
  rs.foldl (fun cs r => (r.plan cs).containers) cs

/-- What some rounds promise together of a container before and after them. -/
structure Restrained (rs : List Round) (before after : Container) : Prop where
  name : after.name = before.name
  off : ∀ a, (∀ r ∈ rs, (r.policy before.name a).mode = .off) → after.get a = before.get a
  /-- What is there stays, and does not get less. -/
  up : ∀ a, (∀ r ∈ rs, (r.policy before.name a).direction = .up) →
    ∀ q, before.get a = some q → ∃ q', after.get a = some q' ∧ q ≤ q'
  down : ∀ a, (∀ r ∈ rs, (r.policy before.name a).direction = .down) →
    AxisPolicy.baseline a (after.get a) ≤ AxisPolicy.baseline a (before.get a)

namespace Restrained

variable {rs : List Round} {r : Round} {b c d : Container}

theorem refl (c : Container) : Restrained [] c c :=
  ⟨rfl, fun _ _ => rfl, fun _ _ q hq => ⟨q, hq, Quantity.le_refl q⟩, fun _ _ => Quantity.le_refl _⟩

/-- One more round in front. -/
theorem cons (hr : r.status.Typed) (hc : c.Typed) (h : Restrained rs (r.container c) d) :
    Restrained (r :: rs) c d := by
  have hname : (r.container c).name = c.name := (revises_planContainer _ _ c).name
  have hround := Round.get_container hr hc
  obtain ⟨hn, hoff, hup, hdown⟩ := h
  rw [hname] at hn hoff hup hdown
  refine ⟨hn, fun a ha => ?_, fun a ha q hq => ?_, fun a ha => ?_⟩
  · obtain ⟨hfirst, hrest⟩ := List.forall_mem_cons.1 ha
    rw [hoff a hrest]
    rcases hround a with h | ⟨new, -, hp⟩
    · exact h
    · rw [hp.enforced] at hfirst
      cases hfirst
  · obtain ⟨hfirst, hrest⟩ := List.forall_mem_cons.1 ha
    rcases hround a with h | ⟨new, hnew, hp⟩
    · exact hup a hrest q (h.trans hq)
    · have hle := hp.up hfirst
      rw [hq] at hle
      obtain ⟨q', hq', hle'⟩ := hup a hrest new hnew
      exact ⟨q', hq', Quantity.le_trans hle hle'⟩
  · obtain ⟨hfirst, hrest⟩ := List.forall_mem_cons.1 ha
    have hlast := hdown a hrest
    rcases hround a with h | ⟨new, hnew, hp⟩
    · rwa [h] at hlast
    · rw [hnew] at hlast
      exact Quantity.le_trans hlast (hp.down hfirst)

end Restrained

/-- In a history every container goes its own way. -/
theorem afterRounds_eq_map (rs : List Round) (cs : List Container) :
    afterRounds rs cs = cs.map fun c => rs.foldl (fun c r => r.container c) c := by
  unfold afterRounds
  induction rs generalizing cs with
  | nil => simp
  | cons r rs ih =>
    rw [List.foldl_cons, ih]
    simp only [Round.plan, plan, List.map_map, List.foldl_cons]
    rfl

theorem typed_afterRounds {rs : List Round} (hrs : ∀ r ∈ rs, r.status.Typed) {cs : List Container}
    (hcs : ∀ c ∈ cs, c.Typed) : ∀ c ∈ afterRounds rs cs, c.Typed := by
  unfold afterRounds
  induction rs generalizing cs with
  | nil => exact hcs
  | cons r rs ih =>
    obtain ⟨hr, hrs⟩ := List.forall_mem_cons.1 hrs
    exact ih hrs (typed_plan r.cascade hr hcs)

theorem restrained_foldl {rs : List Round} (hrs : ∀ r ∈ rs, r.status.Typed) {c : Container} (hc : c.Typed) :
    Restrained rs c (rs.foldl (fun c r => r.container c) c) := by
  induction rs generalizing c with
  | nil => exact .refl c
  | cons r rs ih =>
    obtain ⟨hr, hrs⟩ := List.forall_mem_cons.1 hrs
    exact .cons hr hc (ih hrs (typed_planOne r.cascade hr hc))

/-- **Every change obeys the policy of its axis.**  In every history of plans over quantities in their places, as those
of decoded workloads are (`ManagedWorkload.typed_of_ofJson`), with any policy and any status in each round, each change
is permitted by the policy of its axis at that time; hence, over every stretch of the history, an axis that is off does
not change, one that may only go up keeps what it has or more, and one that may only go down does not get more. -/
theorem rounds_permitted (rs : List Round) (cs : List Container) (hcs : ∀ c ∈ cs, c.Typed)
    (hrs : ∀ r ∈ rs, r.status.Typed) :
    (∀ l r l', rs = l ++ r :: l' → ∀ ch ∈ (r.plan (afterRounds l cs)).changes,
        (r.policy ch.container ch.axis).Permits ch.axis ch.old ch.new) ∧
      ∀ l m l', rs = l ++ m ++ l' →
        List.Forall₂ (Restrained m) (afterRounds l cs) (afterRounds (l ++ m) cs) := by
  constructor
  · rintro l r l' rfl ch hch
    simp only [List.mem_append, List.mem_cons] at hrs
    obtain ⟨p, hp, hch⟩ := List.mem_flatMap.1 hch
    obtain ⟨c, hc, rfl⟩ := List.mem_map.1 hp
    have htyped := typed_afterRounds (fun s hs => hrs s (.inl hs)) hcs c hc
    obtain ⟨hname, hpermits⟩ := Round.permits_planOne (hrs r (.inr (.inl rfl))) htyped hch
    rwa [hname]
  · rintro l m l' rfl
    simp only [List.mem_append] at hrs
    have htyped := typed_afterRounds (fun s hs => hrs s (.inl (.inl hs))) hcs
    have hafter : afterRounds (l ++ m) cs = afterRounds m (afterRounds l cs) := List.foldl_append
    rw [hafter, afterRounds_eq_map m, List.forall₂_map_right_iff, List.forall₂_same]
    exact fun c hc => restrained_foldl (fun s hs => hrs s (.inl (.inr hs))) (htyped c hc)

/-- A container that requests a tenth of a core. -/
def tenthOfCore : Container :=
  ⟨"app", ⟨⟨some ⟨.cpu, 100, .decimal⟩, none⟩, ⟨none, none⟩⟩⟩

/-- A round in which so much CPU is recommended, under a policy that lets the request go up to a fifth of a core, and
never down. -/
def cpuRound (target : Quantity) : Round :=
  ⟨⟨Dict.ofPairs [("rightsizer.io/cpu-request-scale-direction", "up"),
      ("rightsizer.io/cpu-request-max-allowed", "200m")], ProcessDefaults.empty⟩,
    ⟨some [⟨"app", Estimate.empty, ⟨some target, none⟩, Estimate.empty⟩], []⟩⟩

/-- A quarter of a core is recommended, and then less again. -/
def cpuRounds : List Round :=
  [cpuRound ⟨.cpu, 250, .decimal⟩, cpuRound ⟨.cpu, 150, .decimal⟩]

theorem typed_tenthOfCore : tenthOfCore.Typed := by
  have hdoc : Container.ofJson (.record [("name", .string "app"),
      ("resources", .record [("cpu_request", .string "100m")])]) = .ok tenthOfCore := rfl
  exact Container.typed_of_ofJson hdoc

theorem typed_cpuRound {cpu : Quantity} (hcpu : cpu.resource = .cpu) : (cpuRound cpu).status.Typed := by
  have hempty : PerResource.Typed Estimate.empty := by
    intro r q hq
    cases r <;> cases hq
  refine ⟨fun rec hmem => ?_, fun b hb => absurd hb List.not_mem_nil⟩
  obtain rfl := List.mem_singleton.1 hmem
  refine ⟨hempty, fun r q hq => ?_, hempty⟩
  cases r with
  | cpu => exact Option.some.inj hq ▸ hcpu
  | memory => cases hq

/-- The request goes up to what is allowed, and stays there. -/
theorem rounds_permitted_up :
    (∀ c ∈ [tenthOfCore], c.Typed) ∧ (∀ r ∈ cpuRounds, r.status.Typed) ∧
      (∀ ch ∈ ((cpuRound ⟨.cpu, 250, .decimal⟩).plan [tenthOfCore]).changes,
        ((cpuRound ⟨.cpu, 250, .decimal⟩).policy ch.container ch.axis).Permits ch.axis ch.old ch.new) ∧
      List.Forall₂ (Restrained cpuRounds) [tenthOfCore] (afterRounds cpuRounds [tenthOfCore]) ∧
      (afterRounds cpuRounds [tenthOfCore]).map (fun c => c.get ⟨.cpu, .request⟩) = [some ⟨.cpu, 200, .decimal⟩] := by
  have hcs : ∀ c ∈ [tenthOfCore], c.Typed := by
    intro c hc
    obtain rfl := List.mem_singleton.1 hc
    exact typed_tenthOfCore
  have hrs : ∀ r ∈ cpuRounds, r.status.Typed := by
    intro r hr
    simp only [cpuRounds, List.mem_cons, List.not_mem_nil, or_false] at hr
    obtain rfl | rfl := hr <;> exact typed_cpuRound rfl
  obtain ⟨hpermits, hrestrained⟩ := rounds_permitted cpuRounds [tenthOfCore] hcs hrs
  exact ⟨hcs, hrs, hpermits [] _ [cpuRound ⟨.cpu, 150, .decimal⟩] rfl, hrestrained [] cpuRounds [] rfl, rfl⟩

end Allotment
