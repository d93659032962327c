import Allotment.Proofs.Plan.Difference

/-!
# Settings for one container

A note holds a setting for one container if the name of the container follows the name of the setting behind a dot.
Containers may be called anything, also like a setting or with dots in their names; the names of settings have no dots.

* `ScopedTo container key` — the note under the key is for that container alone;
* `scopedTo_annotationKey_iff`, `not_scopedTo_annotationKey_none` — a key tells its container, and no key of a workload
  is one of a container;
* `AgreeBut others notes notes'` — two policies that differ at most in notes for some containers;
* `Effective.of_congr` — a policy reads its settings layer by layer, and nothing else;
* `scoped_isolated` — notes for other containers change nothing for a container, nor for the workload as a whole.
-/

namespace Allotment

/-! ### Keys -/

/-- The name of a setting is put together from words without dots. -/
theorem Setting.dot_notMem_name (s : Setting) : '.' ∉ s.name.toList := by
  have hresource : ∀ r : Resource, '.' ∉ r.name.toList := by
    intro r
    cases r <;> decide
  have hside : ∀ side : Side, '.' ∉ side.name.toList := by
    intro side
    cases side <;> decide
  cases s with
  | axis a field =>
    have hfield : '.' ∉ field.name.toList := by cases field <;> decide
    simp [name, axisSetting, Axis.name, hresource, hside, hfield]
  | resource r field =>
    have hfield : '.' ∉ field.name.toList := by cases field <;> decide
    simp [name, resourceSetting, hresource, hfield]
  | fromCpu side field =>
    have hfield : '.' ∉ field.name.toList := by cases field <;> decide
    simp [name, fromCpuSetting, hside, hfield]
  | cron => decide
  | maxJitter => decide
  | dryRun => decide
  | webhookEnabled => decide

/-- The note under a key is for one container alone. -/
def ScopedTo (container key : String) : Prop :=
  ∃ s : Setting, key = annotationKey s.name (some container)

theorem toList_annotationKey_some (setting container : String) :
    (annotationKey setting (some container)).toList =
      annotationDomain.toList ++ (setting.toList ++ '.' :: container.toList) := by
  simp [annotationKey]

theorem toList_annotationKey_none (setting : String) :
    (annotationKey setting none).toList = annotationDomain.toList ++ setting.toList := by
  simp [annotationKey]

/-- A key tells its container, whose name begins behind the first dot. -/
theorem scopedTo_annotationKey_iff {s : Setting} {container other : String} :
    ScopedTo other (annotationKey s.name (some container)) ↔ container = other := by
  refine ⟨?_, fun h => ⟨s, h ▸ rfl⟩⟩
  rintro ⟨s', h⟩
  have hchars := congrArg String.toList h
  rw [toList_annotationKey_some, toList_annotationKey_some, List.append_cancel_left_eq] at hchars
  have hcut := congrArg (Text.cut '.') hchars
  rw [Text.cut_append s.dot_notMem_name, Text.cut_append s'.dot_notMem_name] at hcut
  exact String.toList_inj.1 (Prod.mk.inj (Option.some.inj hcut)).2

/-- A key of the workload has no dot behind the domain. -/
theorem not_scopedTo_annotationKey_none (s : Setting) (container : String) :
    ¬ ScopedTo container (annotationKey s.name none) := by
  rintro ⟨s', h⟩
  have hchars := congrArg String.toList h
  rw [toList_annotationKey_none, toList_annotationKey_some, List.append_cancel_left_eq] at hchars
  apply s.dot_notMem_name
  rw [hchars]
  exact List.mem_append_right _ List.mem_cons_self

/-! ### What a policy reads -/

/-- A policy reads the layers of its settings, and nothing else. -/
theorem Effective.of_congr {c c' : Cascade} {container container' : Option String}
    (h : ∀ s : Setting, c.layers s.name container = c'.layers s.name container') :
    Effective.of c container = Effective.of c' container' := by
  have hvalue : ∀ {ε α : Type} (read : String → Except ε α) (s : Setting),
      c.value? read s.name container = c'.value? read s.name container' := by
    intro ε α read s
    unfold Cascade.value? Cascade.resolve
    rw [h s]
  have htext : ∀ s : Setting, c.text s.name container = c'.text s.name container' := by
    intro s
    unfold Cascade.text
    rw [h s]
  have hflag : ∀ s : Setting, c.flag s.name container = c'.flag s.name container' := by
    intro s
    unfold Cascade.flag
    rw [h s]
  have haxis : axisPolicy c container = axisPolicy c' container' := by
    funext a
    simp only [axisPolicy, hvalue, htext]
  have hunprovided : unprovidedPolicy c container = unprovidedPolicy c' container' := by
    funext r
    simp only [unprovidedPolicy, hvalue, htext]
  have hderivation : derivation c container = derivation c' container' := by
    funext s
    simp only [derivation, hvalue, htext, hflag]
  unfold Effective.of
  rw [haxis, hunprovided, hderivation, hvalue, hvalue, hflag, hflag]

/-- Without a note for a container, its settings are those of the workload. -/
theorem Cascade.layers_of_unscoped {c : Cascade} {setting name : String}
    (h : c.annotations.get? (annotationKey setting (some name)) = none) :
    c.layers setting (some name) = c.layers setting none := by
  simp [layers, h]

/-- Two policies differ at most in notes for some of the containers. -/
def AgreeBut (others : String → Prop) (notes notes' : Annotations) : Prop :=
  ∀ key, (∀ other, others other → ¬ ScopedTo other key) → notes.get? key = notes'.get? key

namespace AgreeBut

variable {others : String → Prop} {notes notes' : Annotations}

theorem workload (h : AgreeBut others notes notes') (s : Setting) :
    notes.get? (annotationKey s.name none) = notes'.get? (annotationKey s.name none) :=
  h _ fun other _ => not_scopedTo_annotationKey_none s other

theorem own (h : AgreeBut others notes notes') {name : String} (hname : ¬ others name) (s : Setting) :
    notes.get? (annotationKey s.name (some name)) = notes'.get? (annotationKey s.name (some name)) := by
  refine h _ fun other hother hscoped => hname ?_
  rwa [scopedTo_annotationKey_iff.1 hscoped]

/-- A policy is the same for the workload, and for each container that the policies agree on. -/
theorem effective (h : AgreeBut others notes notes') {container : Option String}
    (hcontainer : ∀ name, container = some name → ¬ others name) (defaults : ProcessDefaults) :
    Effective.of ⟨notes, defaults⟩ container = Effective.of ⟨notes', defaults⟩ container := by
  refine Effective.of_congr fun s => ?_
  unfold Cascade.layers
  simp only [h.workload s]
  cases container with
  | none => rfl
  | some name => simp only [Option.bind_some, h.own (hcontainer name rfl) s]

theorem planOne (h : AgreeBut others notes notes') {c : Container} (hc : ¬ others c.name)
    (defaults : ProcessDefaults) (status : Status) :
    planOne ⟨notes, defaults⟩ status c = planOne ⟨notes', defaults⟩ status c := by
  have hpolicy : Effective.of ⟨notes, defaults⟩ (some c.name) = Effective.of ⟨notes', defaults⟩ (some c.name) :=
    h.effective (fun name hname => Option.some.inj hname ▸ hc) defaults
  unfold Allotment.planOne
  rw [hpolicy]

end AgreeBut

/-! ### The changes of one container -/

/-- The changes of a plan that are made to containers of a name. -/
def Plan.changesOf (p : Plan) (name : String) : List Change :=
  p.changes.filter fun ch => ch.container = name

theorem container_of_mem_changes_planOne {cascade : Cascade} {status : Status} {c : Container} {ch : Change}
    (h : ch ∈ (planOne cascade status c).changes) : ch.container = c.name := by
  rw [planOne, changes_planContainer] at h
  exact (Container.mem_difference.1 h).2.1

/-- The changes made to containers of a name are those of the passes over them. -/
theorem changesOf_plan (cascade : Cascade) (status : Status) (cs : List Container) (name : String) :
    (plan cascade status cs).changesOf name =
      (cs.filter fun c => c.name = name).flatMap fun c => (planOne cascade status c).changes := by
  unfold Plan.changesOf plan
  simp only [List.flatMap_map]
  induction cs with
  | nil => rfl
  | cons c cs ih =>
    rw [List.flatMap_cons, List.filter_append, ih]
    by_cases hc : c.name = name
    · have hall : ∀ ch ∈ (planOne cascade status c).changes, decide (ch.container = name) = true := fun ch hch =>
        decide_eq_true ((container_of_mem_changes_planOne hch).trans hc)
      rw [List.filter_eq_self.2 hall, List.filter_cons_of_pos (by simpa using hc), List.flatMap_cons]
    · have hnone : ∀ ch ∈ (planOne cascade status c).changes, ¬ decide (ch.container = name) = true := by
        intro ch hch
        rw [container_of_mem_changes_planOne hch, decide_eq_true_eq]
        exact hc
      rw [List.filter_eq_nil_iff.2 hnone, List.filter_cons_of_neg (by simpa using hc), List.nil_append]

/-! ### Isolation -/

/-- **A note for one container affects that container only.** Whatever containers are called, policies that differ in
notes for others at most are the same for a container, and so is all that a plan makes of containers of its name; the
policy of the workload does not depend on any container's notes; and a container without notes has that policy. -/
theorem scoped_isolated (defaults : ProcessDefaults) (notes notes' : Annotations) (name : String) (status : Status)
    (cs : List Container) :
    (AgreeBut (· ≠ name) notes notes' →
      Effective.of ⟨notes, defaults⟩ (some name) = Effective.of ⟨notes', defaults⟩ (some name) ∧
        (∀ i : Nat, cs[i]?.map Container.name = some name →
          (plan ⟨notes, defaults⟩ status cs).containers[i]? = (plan ⟨notes', defaults⟩ status cs).containers[i]?) ∧
        (plan ⟨notes, defaults⟩ status cs).changesOf name = (plan ⟨notes', defaults⟩ status cs).changesOf name) ∧
      (AgreeBut (fun _ => True) notes notes' →
        Effective.of ⟨notes, defaults⟩ none = Effective.of ⟨notes', defaults⟩ none) ∧
      ((∀ s : Setting, notes.get? (annotationKey s.name (some name)) = none) →
        Effective.of ⟨notes, defaults⟩ (some name) = Effective.of ⟨notes, defaults⟩ none) := by
  refine ⟨fun h => ⟨?policy, fun i hi => ?containers, ?changes⟩, fun h => ?workload, fun h => ?silent⟩
  case policy => exact h.effective (fun n hn => by simpa using (Option.some.inj hn).symm) defaults
  case containers =>
    obtain ⟨c, hc, hname⟩ := Option.map_eq_some_iff.1 hi
    have hsame := h.planOne (c := c) (by simpa using hname) defaults status
    simp only [plan, List.map_map, List.getElem?_map, hc, Option.map_some, Function.comp_apply, hsame]
  case changes =>
    rw [changesOf_plan, changesOf_plan]
    refine List.flatMap_congr fun c hc => ?_
    have hname : c.name = name := of_decide_eq_true (List.mem_filter.1 hc).2
    rw [h.planOne (by simpa using hname)]
  case workload => exact h.effective (fun n hn => by cases hn) defaults
  case silent => exact Effective.of_congr fun s => Cascade.layers_of_unscoped (h s)

/-- Two notes that keep a CPU request as it is: that of a container whose name goes on behind a dot, and that of one
without a name. -/
def dottedNotes : Annotations :=
  Dict.ofPairs [("rightsizer.io/cpu-request-apply-mode.app.app", "off"),
    ("rightsizer.io/cpu-request-apply-mode.", "off")]

/-- Two containers with nothing, and a quarter of a core recommended for each. -/
def dottedShop : Status × List Container :=
  let quarter (name : String) : Recommendation :=
    ⟨name, Estimate.empty, ⟨some ⟨.cpu, 250, .decimal⟩, none⟩, Estimate.empty⟩
  (⟨some [quarter "app", quarter "app.app"], []⟩, [⟨"app", Allotments.empty⟩, ⟨"app.app", Allotments.empty⟩])

theorem agreeBut_dottedNotes {others : String → Prop} (hdotted : others "app.app") (hunnamed : others "") :
    AgreeBut others Dict.empty dottedNotes := by
  intro key hkey
  have hne : key ≠ "rightsizer.io/cpu-request-apply-mode.app.app" := fun h =>
    hkey "app.app" hdotted ⟨.axis ⟨.cpu, .request⟩ .applyMode, h.trans (by decide)⟩
  have hne' : key ≠ "rightsizer.io/cpu-request-apply-mode." := fun h =>
    hkey "" hunnamed ⟨.axis ⟨.cpu, .request⟩ .applyMode, h.trans (by decide)⟩
  rw [dottedNotes, Dict.get?_ofPairs]
  simp [List.lookup_cons, beq_eq_false_iff_ne.2 hne, beq_eq_false_iff_ne.2 hne']

/-- The container `app` gets what it gets without the notes, and the container `app.app` does not. -/
theorem scoped_isolated_dotted :
    AgreeBut (· ≠ "app") Dict.empty dottedNotes ∧ AgreeBut (fun _ => True) Dict.empty dottedNotes ∧
      (∀ s : Setting, dottedNotes.get? (annotationKey s.name (some "app")) = none) ∧
      let bare : Cascade := ⟨Dict.empty, ProcessDefaults.empty⟩
      let noted : Cascade := ⟨dottedNotes, ProcessDefaults.empty⟩
      let (status, cs) := dottedShop
      (plan noted status cs).containers[0]? = (plan bare status cs).containers[0]? ∧
        (plan noted status cs).changesOf "app" = (plan bare status cs).changesOf "app" ∧
        (plan noted status cs).changesOf "app" ≠ [] ∧
        (plan noted status cs).containers[1]? ≠ (plan bare status cs).containers[1]? ∧
        Effective.of noted (some "app") = Effective.of bare none := by
  have hothers : AgreeBut (· ≠ "app") Dict.empty dottedNotes := agreeBut_dottedNotes (by decide) (by decide)
  have hall : AgreeBut (fun _ => True) Dict.empty dottedNotes := agreeBut_dottedNotes trivial trivial
  have hsilent : ∀ s : Setting, dottedNotes.get? (annotationKey s.name (some "app")) = none := fun s =>
    (hothers.own (by simp) s).symm
  obtain ⟨hcontainer, hworkload, -⟩ :=
    scoped_isolated ProcessDefaults.empty Dict.empty dottedNotes "app" dottedShop.1 dottedShop.2
  obtain ⟨-, hplan, hchanges⟩ := hcontainer hothers
  have hpolicy := (scoped_isolated ProcessDefaults.empty dottedNotes dottedNotes "app" dottedShop.1 dottedShop.2).2.2
  refine ⟨hothers, hall, hsilent, (hplan 0 rfl).symm, hchanges.symm, ?_, ?_, ?_⟩
  · decide +kernel
  · decide +kernel
  · exact (hpolicy hsilent).trans (hworkload hall).symm

end Allotment
