import Allotment.Proofs.Plan.Pass

/-!
# A plan leaves nothing to plan

* `AtRest policy candidates c a` — nothing is committed along the axis `a` of the container `c` as it stands;
* `planContainer_of_atRest`, `atRest_planContainer` — a container at rest along all axes is left alone, and a pass
  brings every container to rest;
* `Settled cascade status cs` — no container of `cs` is changed by a plan; `settled_plan` and `plan_of_settled`;
* `plan_plan` — planning what was planned, with the same inputs, changes nothing.
-/

namespace Allotment

section Container

variable {policy : Effective} {candidates : Candidates} {p : Pass} {c : Container} {a : Axis}

/-- Nothing is committed along an axis of a container as it stands. -/
def AtRest (policy : Effective) (candidates : Candidates) (c : Container) (a : Axis) : Prop :=
  commitment? policy candidates c a = none

/-- After the step for an axis the container is at rest along it: the proposal is the same as before, and it is
either refused again, or what is there already. -/
theorem atRest_step : AtRest policy candidates (p.step policy candidates a).container a := by
  unfold AtRest
  rcases p.step_cases policy candidates a with ⟨hn, h⟩ | ⟨v, hv, h⟩
  · rw [h]
    exact hn
  · obtain ⟨q, hq, hacc⟩ := commitment?_eq_some_iff.1 hv
    obtain ⟨rfl, -⟩ := AxisPolicy.accept?_eq_some_iff.1 hacc
    have hlower : ∀ b : Axis, b.rank < a.rank →
        (p.container.set a ((policy.axis a).clamp q)).get b = p.container.get b := by
      intro b hb
      have hne : b ≠ a := by
        rintro rfl
        exact Nat.lt_irrefl _ hb
      rw [Container.get_set, if_neg hne]
    rw [h]
    unfold commitment?
    rw [proposal?_congr hlower, hq, Container.get_set, if_pos rfl]
    exact AxisPolicy.accept?_clamp_self _ _ _

/-- Steps for axes of higher rank keep an axis at rest. -/
theorem AtRest.foldl {as : List Axis} (h : AtRest policy candidates p.container a)
    (has : ∀ b ∈ as, a.rank < b.rank) :
    AtRest policy candidates (as.foldl (Pass.step policy candidates) p).container a := by
  unfold AtRest at h ⊢
  rw [← h]
  refine commitment?_congr fun b hb => Pass.get_foldl_of_notMem _ _ _ fun hmem => ?_
  have := has b hmem
  omega

theorem atRest_foldl {as : List Axis} (has : as.Pairwise fun a b => a.rank < b.rank) :
    ∀ p : Pass, ∀ a ∈ as, AtRest policy candidates (as.foldl (Pass.step policy candidates) p).container a := by
  induction as with
  | nil =>
    intro p a ha
    cases ha
  | cons b as ih =>
    obtain ⟨hb, has⟩ := List.pairwise_cons.1 has
    intro p a ha
    rw [List.foldl_cons]
    rcases List.mem_cons.1 ha with rfl | ha
    · exact atRest_step.foldl hb
    · exact ih has _ a ha

/-- A pass brings a container to rest along every axis. -/
theorem atRest_planContainer (policy : Effective) (candidates : Candidates) (c : Container) (a : Axis) :
    AtRest policy candidates (planContainer policy candidates c).container a :=
  atRest_foldl Axis.pairwise_rank_all _ a a.mem_all

theorem foldl_of_atRest (as : List Axis) (h : ∀ a ∈ as, AtRest policy candidates p.container a) :
    as.foldl (Pass.step policy candidates) p = p := by
  induction as with
  | nil => rfl
  | cons a as ih =>
    have hstep : p.step policy candidates a = p := by
      rcases p.step_cases policy candidates a with ⟨-, hp⟩ | ⟨v, hv, -⟩
      · exact hp
      · rw [h a List.mem_cons_self] at hv
        cases hv
    rw [List.foldl_cons, hstep, ih fun b hb => h b (List.mem_cons_of_mem _ hb)]

theorem planContainer_of_atRest (h : ∀ a, AtRest policy candidates c a) :
    planContainer policy candidates c = ⟨c, []⟩ :=
  foldl_of_atRest Axis.all fun a _ => h a

theorem name_planContainer (policy : Effective) (candidates : Candidates) (c : Container) :
    (planContainer policy candidates c).container.name = c.name :=
  Pass.name_foldl policy candidates ⟨c, []⟩ Axis.all

end Container

section Workload

variable (cascade : Cascade) (status : Status)

theorem name_planOne (c : Container) : (planOne cascade status c).container.name = c.name :=
  name_planContainer _ _ c

/-- No container is changed by a plan. -/
def Settled (cs : List Container) : Prop :=
  ∀ c ∈ cs, planOne cascade status c = ⟨c, []⟩

theorem planOne_planOne (c : Container) :
    planOne cascade status (planOne cascade status c).container = ⟨(planOne cascade status c).container, []⟩ := by
  rw [planOne, name_planOne]
  exact planContainer_of_atRest (atRest_planContainer _ _ c)

theorem settled_plan (cs : List Container) : Settled cascade status (plan cascade status cs).containers := by
  intro c hc
  simp only [plan, List.map_map, List.mem_map, Function.comp_apply] at hc
  obtain ⟨b, -, rfl⟩ := hc
  exact planOne_planOne cascade status b

variable {cascade status}

theorem plan_of_settled {cs : List Container} (h : Settled cascade status cs) :
    plan cascade status cs = ⟨cs, []⟩ := by
  have hmap : cs.map (planOne cascade status) = cs.map fun c => ⟨c, []⟩ := List.map_congr_left h
  simp [plan, hmap, Function.comp_def, List.flatMap_map]

/-- **Planning is idempotent.**  A second plan over the containers of the first one, with the same policy and the same
status, has no changes and gives back exactly these containers. -/
theorem plan_plan (cascade : Cascade) (status : Status) (cs : List Container) :
    plan cascade status (plan cascade status cs).containers = ⟨(plan cascade status cs).containers, []⟩ :=
  plan_of_settled (settled_plan cascade status cs)

end Workload

end Allotment
