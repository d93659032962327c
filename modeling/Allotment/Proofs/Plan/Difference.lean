import Mathlib.Data.List.Forall2
import Allotment.Proofs.Plan.Pass

/-!
# The changes of a plan are the difference that it makes

Two quantities of one text are one and the same to a plan, so containers are compared by texts.

* `Container.difference before after` — a change for each axis whose text differs, in the order of the axes;
* `Container.Revises before after` — `after` differs from `before` along the axes of the difference, and in nothing
  else at all;
* `changes_planContainer`, `revises_planContainer` — the same for one container;
* `plan_changes` — the changes of a plan are the differences of its containers, one after the other.
-/

namespace Allotment

namespace Container

/-- The text of what a container has along an axis. -/
def textAt (c : Container) (a : Axis) : Option String :=
  (c.get a).map Quantity.text

/-- The change along an axis from one state of a container to another, if the texts differ. -/
def changeAt? (before after : Container) (a : Axis) : Option Change :=
  if before.textAt a = after.textAt a then none
  else (after.get a).map fun new => ⟨before.name, a, before.get a, new⟩

/-- The changes from one state of a container to another. -/
def difference (before after : Container) : List Change :=
  Axis.all.filterMap (before.changeAt? after)

/-- One state of a container comes from another by the changes of their difference alone. -/
structure Revises (before after : Container) : Prop where
  name : after.name = before.name
  /-- There is a change for every axis whose text differs. -/
  axes : (before.difference after).map Change.axis =
    Axis.all.filter fun a => before.textAt a ≠ after.textAt a
  /-- An axis without a change has the same quantity, down to the suffixes that it is written with. -/
  rest : ∀ a, a ∉ (before.difference after).map Change.axis → after.get a = before.get a

variable {before after c d : Container} {a : Axis}

theorem textAt_eq_some {v : Quantity} (h : c.get a = some v) : c.textAt a = some v.text := by
  rw [textAt, h]
  rfl

theorem changeAt?_congr (hname : before.name = c.name) (hb : before.get a = c.get a)
    (ha : after.get a = d.get a) : before.changeAt? after a = c.changeAt? d a := by
  unfold changeAt? textAt
  rw [hname, hb, ha]

theorem changeAt?_of_get_eq (h : after.get a = before.get a) : before.changeAt? after a = none := by
  rw [changeAt?, textAt, textAt, h, if_pos rfl]

theorem changeAt?_of_get_eq_some {v : Quantity} (hv : after.get a = some v)
    (ht : before.textAt a ≠ some v.text) :
    before.changeAt? after a = some ⟨before.name, a, before.get a, v⟩ := by
  rw [changeAt?, textAt_eq_some hv, if_neg ht, hv]
  rfl

theorem mem_difference {ch : Change} :
    ch ∈ before.difference after ↔
      before.textAt ch.axis ≠ after.textAt ch.axis ∧ ch.container = before.name ∧
        ch.old = before.get ch.axis ∧ after.get ch.axis = some ch.new := by
  unfold difference changeAt?
  rw [List.mem_filterMap]
  constructor
  · rintro ⟨a, -, h⟩
    obtain ⟨hne, h⟩ := Option.ite_none_left_eq_some.1 h
    obtain ⟨new, hnew, rfl⟩ := Option.map_eq_some_iff.1 h
    exact ⟨hne, rfl, rfl, hnew⟩
  · rintro ⟨hne, hc, hold, hnew⟩
    refine ⟨ch.axis, ch.axis.mem_all, ?_⟩
    rw [if_neg hne, hnew, ← hc, ← hold]
    rfl

theorem ext_get {c d : Container} (hname : d.name = c.name) (h : ∀ a, d.get a = c.get a) : d = c := by
  obtain ⟨cname, cresources⟩ := c
  obtain ⟨dname, dresources⟩ := d
  obtain rfl : dname = cname := hname
  obtain rfl : dresources = cresources := PerAxis.ext_get h
  rfl

theorem Revises.eq_of_difference_eq_nil (h : before.Revises after) (hd : before.difference after = []) :
    after = before := by
  refine ext_get h.name fun a => h.rest a ?_
  rw [hd]
  exact List.not_mem_nil

/-- It is enough that every axis either has what it had, or a quantity of another text. -/
theorem revises_of_get (hname : after.name = before.name)
    (hget : ∀ a, after.get a = before.get a ∨ ∃ v, after.get a = some v ∧ before.textAt a ≠ some v.text) :
    before.Revises after := by
  have haxes : (before.difference after).map Change.axis =
      Axis.all.filter fun a => before.textAt a ≠ after.textAt a := by
    unfold difference
    rw [List.map_filterMap, ← List.filterMap_eq_filter]
    refine List.filterMap_congr fun a _ => ?_
    rcases hget a with h | ⟨v, hv, ht⟩
    · rw [changeAt?_of_get_eq h]
      simp [Option.guard, textAt, h]
    · rw [changeAt?_of_get_eq_some hv ht]
      simp [Option.guard, textAt_eq_some hv, ht]
  refine ⟨hname, haxes, fun a ha => ?_⟩
  rcases hget a with h | ⟨v, hv, ht⟩
  · exact h
  · rw [haxes, List.mem_filter, not_and, textAt_eq_some hv] at ha
    exact absurd (by simpa using ht) (ha a.mem_all)

end Container

namespace Pass

variable (policy : Effective) (candidates : Candidates)

theorem get_step_cases (p : Pass) (a : Axis) :
    (p.step policy candidates a).container.get a = p.container.get a ∨
      ∃ v, (p.step policy candidates a).container.get a = some v ∧ p.container.textAt a ≠ some v.text := by
  rcases p.step_cases policy candidates a with ⟨-, h⟩ | ⟨v, hv, h⟩
  · rw [h]
    exact .inl rfl
  · obtain ⟨q, -, hacc⟩ := commitment?_eq_some_iff.1 hv
    obtain ⟨-, -, -, -, ht⟩ := AxisPolicy.accept?_eq_some_iff.1 hacc
    refine .inr ⟨v, ?_, ht⟩
    rw [h, Container.get_set, if_pos rfl]

theorem changes_step (p : Pass) (a : Axis) :
    (p.step policy candidates a).changes =
      p.changes ++ (p.container.changeAt? (p.step policy candidates a).container a).toList := by
  rcases p.step_cases policy candidates a with ⟨-, h⟩ | ⟨v, hv, h⟩
  · rw [h, Container.changeAt?_of_get_eq rfl]
    simp
  · obtain ⟨q, -, hacc⟩ := commitment?_eq_some_iff.1 hv
    obtain ⟨-, -, -, -, ht⟩ := AxisPolicy.accept?_eq_some_iff.1 hacc
    have hget : (p.container.set a v).get a = some v := by rw [Container.get_set, if_pos rfl]
    rw [h, Container.changeAt?_of_get_eq_some hget ht]
    rfl

/-- The changes of a pass are those between the container before and after it: no step touches what another one
wrote. -/
theorem changes_foldl {as : List Axis} (has : as.Nodup) :
    ∀ p : Pass, (as.foldl (step policy candidates) p).changes =
      p.changes ++ as.filterMap (p.container.changeAt? (as.foldl (step policy candidates) p).container) := by
  induction as with
  | nil =>
    intro p
    simp
  | cons a as ih =>
    obtain ⟨ha, has⟩ := List.nodup_cons.1 has
    intro p
    have hhead : p.container.changeAt? (as.foldl (step policy candidates) (p.step policy candidates a)).container a =
        p.container.changeAt? (p.step policy candidates a).container a :=
      Container.changeAt?_congr rfl rfl (get_foldl_of_notMem _ _ _ ha)
    have htail : ∀ b ∈ as,
        (p.step policy candidates a).container.changeAt?
            (as.foldl (step policy candidates) (p.step policy candidates a)).container b =
          p.container.changeAt? (as.foldl (step policy candidates) (p.step policy candidates a)).container b := by
      intro b hb
      have hne : b ≠ a := by
        rintro rfl
        exact ha hb
      exact Container.changeAt?_congr (name_step _ _ _ _) (get_step_of_ne _ _ _ _ hne) rfl
    rw [List.foldl_cons, ih has, changes_step, List.filterMap_congr htail, List.append_assoc, ← hhead]
    congr 1
    cases h : p.container.changeAt? (as.foldl (step policy candidates) (p.step policy candidates a)).container a with
    | none => rw [List.filterMap_cons_none h]; rfl
    | some ch => rw [List.filterMap_cons_some h]; rfl

end Pass

section Plan

variable (policy : Effective) (candidates : Candidates) (c : Container)

theorem changes_planContainer :
    (planContainer policy candidates c).changes = c.difference (planContainer policy candidates c).container := by
  have h := Pass.changes_foldl policy candidates Axis.nodup_all ⟨c, []⟩
  rwa [List.nil_append] at h

theorem revises_planContainer : c.Revises (planContainer policy candidates c).container := by
  refine Container.revises_of_get (Pass.name_foldl policy candidates ⟨c, []⟩ Axis.all) fun a => ?_
  obtain ⟨l, hl, h⟩ := Pass.get_foldl_of_mem policy candidates ⟨c, []⟩ Axis.nodup_all a.mem_all
  have hbefore : (l.foldl (Pass.step policy candidates) ⟨c, []⟩).container.get a = c.get a :=
    Pass.get_foldl_of_notMem policy candidates ⟨c, []⟩ hl
  unfold planContainer
  rw [h]
  rcases Pass.get_step_cases policy candidates (l.foldl (Pass.step policy candidates) ⟨c, []⟩) a with
    hs | ⟨v, hv, ht⟩
  · exact .inl (hs.trans hbefore)
  · refine .inr ⟨v, hv, ?_⟩
    rw [Container.textAt, hbefore] at ht
    exact ht

end Plan

/-- A plan without changes leaves the containers as they are. -/
theorem containers_plan_of_isNoop {cascade : Cascade} {status : Status} {cs : List Container}
    (h : (plan cascade status cs).isNoop = true) : (plan cascade status cs).containers = cs := by
  have hnil : ∀ c ∈ cs, (planOne cascade status c).changes = [] := by
    have hchanges := List.isEmpty_iff.1 h
    simpa only [plan, List.flatMap_map, List.flatMap_eq_nil_iff] using hchanges
  have hsame : ∀ c ∈ cs, (planOne cascade status c).container = c := by
    intro c hc
    have hd := hnil c hc
    rw [planOne, changes_planContainer] at hd
    exact (revises_planContainer _ _ c).eq_of_difference_eq_nil hd
  simp only [plan, List.map_map]
  exact (List.map_congr_left hsame).trans (List.map_id' cs)

/-- **A plan tells exactly what it changes.**  Its containers are the given ones, in number, order and names, and its
changes are, container by container and axis by axis, the differences in text between the containers before and after.
Along any other axis a container has what it had. -/
theorem plan_changes (cascade : Cascade) (status : Status) (cs : List Container) :
    (plan cascade status cs).changes =
        (List.zipWith Container.difference cs (plan cascade status cs).containers).flatten ∧
      List.Forall₂ Container.Revises cs (plan cascade status cs).containers := by
  simp only [plan, List.map_map]
  constructor
  · induction cs with
    | nil => rfl
    | cons c cs ih =>
      rw [List.map_cons, List.flatMap_cons, ih, List.map_cons, List.zipWith_cons_cons, List.flatten_cons]
      rw [planOne, changes_planContainer]
      rfl
  · rw [List.forall₂_map_right_iff, List.forall₂_same]
    exact fun c _ => revises_planContainer _ _ c

end Allotment
