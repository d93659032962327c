import Mathlib.Data.List.Nodup
import Allotment.Proofs.Plan.Difference

/-!
# What comes in another order, or too much

Recommendations and bounds are looked up by name, and the first entry of a name is the one that counts.  So their order
matters only among entries of one name, and entries of names that are not looked up do not matter.  Containers are worked
on one by one, each for itself.

* `Reordered name counts` — lists of named entries that tell the same about the names that count;
* `Reordered.find?_eq` — in both the first entry of such a name is the same;
* `candidatesFor_of_reordered`, `planOne_of_reordered` — so a container gets the same from both;
* `changeSegments` — the changes of a plan, container by container;
* `plan_reordered` — a plan under all three: recommendations, bounds and containers.
-/

namespace Allotment

/-! ### Entries of one name -/

section Entries

variable {α : Type} {name : α → String} {l l' : List α} {n : String}

theorem find?_name_eq_some_iff (hl : (l.map name).Nodup) {x : α} :
    l.find? (fun y => name y = n) = some x ↔ x ∈ l ∧ name x = n := by
  constructor
  · intro h
    exact ⟨List.mem_of_find?_eq_some h, by simpa using List.find?_some h⟩
  · rintro ⟨hx, hn⟩
    cases h : l.find? (fun y => name y = n) with
    | none => exact absurd (decide_eq_true hn) (List.find?_eq_none.1 h x hx)
    | some y =>
      have hy := List.mem_of_find?_eq_some h
      have hyn : name y = n := by simpa using List.find?_some h
      rw [List.inj_on_of_nodup_map hl hy hx (hyn.trans hn.symm)]

theorem find?_name_of_perm (hl : (l.map name).Nodup) (h : l.Perm l') :
    l.find? (fun y => name y = n) = l'.find? (fun y => name y = n) := by
  have hl' : (l'.map name).Nodup := (h.map name).nodup_iff.1 hl
  refine Option.ext fun x => ?_
  rw [find?_name_eq_some_iff hl, find?_name_eq_some_iff hl', h.mem_iff]

/-- Lists of named entries that tell the same about every name that counts: in another order, as long as no two entries
have one name, or with an entry more, whose name does not count or has an entry before. -/
inductive Reordered (name : α → String) (counts : String → Prop) : List α → List α → Prop
  | perm {l l' : List α} (hnames : (l.map name).Nodup) (h : l.Perm l') : Reordered name counts l l'
  | surplus (before after : List α) (x : α) (h : counts (name x) → ∃ y ∈ before, name y = name x) :
    Reordered name counts (before ++ after) (before ++ x :: after)
  | refl (l : List α) : Reordered name counts l l
  | symm {l l' : List α} (h : Reordered name counts l l') : Reordered name counts l' l
  | trans {l l' l'' : List α} (h : Reordered name counts l l') (h' : Reordered name counts l' l'') :
    Reordered name counts l l''

/-- The first entry of a name that counts is the same in both, by induction on how one comes from the other. -/
theorem Reordered.find?_eq {counts : String → Prop} (h : Reordered name counts l l') (hn : counts n) :
    l.find? (fun y => name y = n) = l'.find? (fun y => name y = n) := by
  induction h with
  | perm hnames h => exact find?_name_of_perm hnames h
  | surplus before after x h =>
    rw [List.find?_append, List.find?_append, List.find?_cons]
    by_cases hx : name x = n
    · -- The name has an entry before, which is found first.
      obtain ⟨y, hy, hyx⟩ := h (hx ▸ hn)
      have hfound : (before.find? fun y => name y = n).isSome = true :=
        List.find?_isSome.2 ⟨y, hy, decide_eq_true (hyx.trans hx)⟩
      obtain ⟨z, hz⟩ := Option.isSome_iff_exists.1 hfound
      rw [hz, Option.some_or, Option.some_or]
    · rw [decide_eq_false hx]
  | refl l => rfl
  | symm _ ih => exact ih.symm
  | trans _ _ ih ih' => exact ih.trans ih'

end Entries

/-! ### What is known about a container -/

section Known

variable {cascade : Cascade} {status status' : Status} {cs cs' : List Container} {c : Container}

/-- A name that some container has. -/
def NameOf (cs : List Container) (n : String) : Prop := n ∈ cs.map Container.name

/-- Two statuses that tell the same about the containers of a workload. -/
structure Status.Alike (cs : List Container) (status status' : Status) : Prop where
  recommendations : Reordered Recommendation.container (NameOf cs) (status.recommendations.getD [])
    (status'.recommendations.getD [])
  bounds : Reordered Bound.container (fun n => n = Bound.wildcard ∨ NameOf cs n) status.bounds status'.bounds

/-- The bound of a container is its own or the one for all, wherever they stand. -/
theorem lookup?_of_reordered {bounds bounds' : List Bound} {n : String}
    (h : Reordered Bound.container (fun n => n = Bound.wildcard ∨ NameOf cs n) bounds bounds') (hn : NameOf cs n) :
    Bound.lookup? bounds n = Bound.lookup? bounds' n := by
  unfold Bound.lookup?
  rw [h.find?_eq (.inr hn), h.find?_eq (.inl rfl)]

theorem candidatesFor_of_reordered (h : Status.Alike cs status status') (policy : Effective) {n : String}
    (hn : NameOf cs n) : candidatesFor status policy n = candidatesFor status' policy n := by
  unfold candidatesFor Candidates.unprovided unprovided?
  rw [h.recommendations.find?_eq hn, lookup?_of_reordered h.bounds hn]

theorem planOne_of_reordered (cascade : Cascade) (h : Status.Alike cs status status') (hc : c ∈ cs) :
    planOne cascade status c = planOne cascade status' c := by
  unfold planOne
  simp only
  rw [candidatesFor_of_reordered h _ (List.mem_map_of_mem hc)]

end Known

/-! ### Plans -/

/-- The changes from some containers to what became of them, one list for each container. -/
def changeSegments (before after : List Container) : List (List Change) :=
  List.zipWith Container.difference before after

section Plans

variable (cascade : Cascade) (status : Status) (cs : List Container)

theorem changeSegments_plan :
    changeSegments cs (plan cascade status cs).containers = cs.map fun c => (planOne cascade status c).changes := by
  unfold changeSegments plan
  simp only [List.map_map, List.zipWith_map_right, List.zipWith_self]
  exact List.map_congr_left fun c _ => (changes_planContainer _ _ c).symm

theorem changes_plan_eq_flatten :
    (plan cascade status cs).changes = (changeSegments cs (plan cascade status cs).containers).flatten := by
  rw [changeSegments_plan]
  simp only [plan, List.flatMap_map]
  rfl

end Plans

/-- **A plan depends neither on the order of what it is given nor on surplus in it.**  Recommendations and bounds may be
given in another order, if no two of them have one name; there may be more of them, for names that are not asked for or
behind another one of the same name.  Containers may be given in another order: each becomes what it would have become,
and the changes made to it are the same. -/
theorem plan_reordered (cascade : Cascade) {status status' : Status} {cs : List Container}
    (h : Status.Alike cs status status') :
    plan cascade status' cs = plan cascade status cs ∧
      (plan cascade status cs).changes = (changeSegments cs (plan cascade status cs).containers).flatten ∧
      ∀ (cs' : List Container) (place : Nat → Nat), (∀ i : Nat, cs'[i]? = cs[place i]?) →
        ∀ i : Nat, (plan cascade status' cs').containers[i]? = (plan cascade status cs).containers[place i]? ∧
          (changeSegments cs' (plan cascade status' cs').containers)[i]? =
            (changeSegments cs (plan cascade status cs).containers)[place i]? := by
  refine ⟨?same, changes_plan_eq_flatten cascade status cs, fun cs' place hplace i => ?moved⟩
  case same =>
    unfold plan
    rw [List.map_congr_left fun c hc => (planOne_of_reordered cascade h hc).symm]
  case moved =>
    rw [changeSegments_plan, changeSegments_plan]
    simp only [plan, List.map_map, List.getElem?_map, hplace i]
    cases hc : cs[place i]? with
    | none => exact ⟨rfl, rfl⟩
    | some c =>
      have hsame := planOne_of_reordered cascade h (List.mem_of_getElem? hc)
      simp only [Option.map_some, Function.comp_apply, hsame, and_self]

/-- Containers without a recommendation get what their bound allows at least. -/
def leastAllowedNotes : Annotations :=
  Dict.ofPairs [("rightsizer.io/cpu-unprovided-default-mode", "min-allowed")]

/-- A workload of three containers. Its proxy has neither a recommendation nor a bound of its own. -/
def reorderedShop : List Container :=
  [⟨"app", Allotments.empty⟩, ⟨"web", Allotments.empty⟩, ⟨"proxy", Allotments.empty⟩]

/-- Amounts of CPU under names, as recommendations and as bounds from below. -/
def namedStatus (recommended least : List (String × Int64)) : Status :=
  let cpu (n : Int64) : Estimate := ⟨some ⟨.cpu, n, .decimal⟩, none⟩
  ⟨some (recommended.map fun (name, n) => ⟨name, Estimate.empty, cpu n, Estimate.empty⟩),
    least.map fun (name, n) => ⟨name, cpu n, Estimate.empty⟩⟩

/-- The bound for all containers may come after one for a single container, and a recommendation for the container
`ghost`, or a second one for `app`, has no effect. -/
theorem plan_reordered_shop :
    let cascade : Cascade := ⟨leastAllowedNotes, ProcessDefaults.empty⟩
    let status := namedStatus [("app", 250), ("web", 100)] [("*", 10), ("web", 50)]
    let status' := namedStatus [("web", 100), ("app", 250), ("ghost", 1), ("app", 700)] [("web", 50), ("*", 10)]
    let turned : List Container := [⟨"proxy", Allotments.empty⟩, ⟨"app", Allotments.empty⟩, ⟨"web", Allotments.empty⟩]
    let place (i : Nat) : Nat := if i = 0 then 2 else if i ≤ 2 then i - 1 else i
    Status.Alike reorderedShop status status' ∧ (∀ i : Nat, turned[i]? = reorderedShop[place i]?) ∧
      plan cascade status' reorderedShop = plan cascade status reorderedShop ∧
      (plan cascade status reorderedShop).changes =
        (changeSegments reorderedShop (plan cascade status reorderedShop).containers).flatten ∧
      (changeSegments turned (plan cascade status' turned).containers)[0]? =
        some [⟨"proxy", ⟨.cpu, .request⟩, none, ⟨.cpu, 10, .decimal⟩⟩, ⟨"proxy", ⟨.cpu, .limit⟩, none, ⟨.cpu, 10, .decimal⟩⟩] := by
  intro cascade status status' turned place
  have halike : Status.Alike reorderedShop status status' := by
    refine ⟨.trans (.perm ?names (.swap _ _ _)) (.trans (.surplus [_, _] [] _ ?ghost) (.surplus [_, _, _] [] _ ?second)),
      .perm ?bounds (.swap _ _ _)⟩
    case names => decide
    case ghost =>
      intro hghost
      exact absurd hghost (by unfold NameOf; decide)
    case second => exact fun _ => ⟨_, List.mem_cons_of_mem _ List.mem_cons_self, rfl⟩
    case bounds => decide
  have hplace : ∀ i : Nat, turned[i]? = reorderedShop[place i]? := by
    rintro (_ | _ | _ | i)
    · rfl
    · rfl
    · rfl
    · rw [List.getElem?_eq_none (by simp [turned]), List.getElem?_eq_none (by simp [place, reorderedShop])]
  obtain ⟨hsame, hflatten, hmoved⟩ := plan_reordered cascade halike
  refine ⟨halike, hplace, hsame, hflatten, (hmoved turned place hplace 0).2.trans ?_⟩
  decide +kernel

end Allotment
