import Mathlib.Data.List.Nodup
import Allotment.Proofs.Policy.Scope

/-!
# Values that do not read

A value that does not read is passed over, as if its layer had none.

* `Setting.Value`, `Setting.read`, `Setting.fallback` — what each setting takes, how it is read and what it is without
  any layer; `Effective.get?` looks it up in a policy;
* `Cascade.held`, `Cascade.drop` — what a layer holds for a setting, and the cascade without it;
* `get?_of` — every setting of a policy is resolved alike, whatever type its values have;
* `layers_cut` — a resolution cuts the layers that are present behind those it passes over;
* `rejected_as_absent` — to drop a value that does not read changes nothing.
-/

namespace Allotment

/-! ### Settings and their readers -/

namespace Setting

/-- The type of the values that a setting takes. -/
def Value : Setting → Type
  | axis _ .applyMode => ApplyMode
  | axis _ .applyTarget => ApplyTarget
  | axis _ .calculatorAlgo | axis _ .minDiffAlgo => Method
  | axis _ .calculatorValue | axis _ .minDiffValue => String
  | axis _ .minAllowed | axis _ .maxAllowed => Quantity
  | axis _ .scaleDirection => Direction
  | resource _ .unprovidedMode => UnprovidedMode
  | resource _ .unprovidedValue => String
  | resource _ .minAllowedRecommendation | resource _ .maxAllowedRecommendation => Quantity
  | fromCpu _ .enabled => Bool
  | fromCpu _ .algo => Method
  | fromCpu _ .value => String
  | cron => String
  | maxJitter => Span
  | dryRun | webhookEnabled => Bool

/-- The value that a text spells, or what is wrong with the text. Texts and flags are never wrong. -/
def read : (s : Setting) → String → Except String s.Value
  | axis _ .applyMode => fun t => (ApplyMode.vocabulary.read t).mapError WordError.message
  | axis a .applyTarget => fun t => (ApplyTarget.readFor a.side t).mapError WordError.message
  | axis _ .calculatorAlgo | axis _ .minDiffAlgo => fun t => (Method.vocabulary.read t).mapError WordError.message
  | axis _ .calculatorValue | axis _ .minDiffValue => fun t => .ok (Text.trimmed t)
  | axis a .minAllowed | axis a .maxAllowed => fun t => (Quantity.read a.resource t).mapError QuantityError.message
  | axis _ .scaleDirection => fun t => (Direction.vocabulary.read t).mapError WordError.message
  | resource _ .unprovidedMode => fun t => (UnprovidedMode.vocabulary.read t).mapError WordError.message
  | resource _ .unprovidedValue => fun t => .ok (Text.trimmed t)
  | resource r .minAllowedRecommendation | resource r .maxAllowedRecommendation => fun t =>
    (Quantity.read r t).mapError QuantityError.message
  | fromCpu _ .enabled => fun t => .ok (decide (t = "true"))
  | fromCpu _ .algo => fun t => (Method.vocabulary.read t).mapError WordError.message
  | fromCpu _ .value => fun t => .ok (Text.trimmed t)
  | cron => fun t => (Effective.readCron t).mapError ScheduleError.message
  | maxJitter => fun t => (Span.read t).mapError SpanError.message
  | dryRun | webhookEnabled => fun t => .ok (decide (t = "true"))

/-- What a setting is when no layer has a value that reads. Amounts are then not set. -/
def fallback : (s : Setting) → Option s.Value
  | axis _ .applyMode => some ApplyMode.enforce
  | axis a .applyTarget => some (Fallback.target a.side)
  | axis _ .calculatorAlgo | axis _ .minDiffAlgo => some Method.ratio
  | axis _ .calculatorValue | axis _ .minDiffValue => some ""
  | axis _ .minAllowed | axis _ .maxAllowed => none
  | axis _ .scaleDirection => some Direction.both
  | resource _ .unprovidedMode => some UnprovidedMode.off
  | resource _ .unprovidedValue => some ""
  | resource _ .minAllowedRecommendation | resource _ .maxAllowedRecommendation => none
  | fromCpu _ .enabled => some false
  | fromCpu _ .algo => some Method.ratio
  | fromCpu _ .value => some ""
  | cron => some Fallback.cron
  | maxJitter => some Fallback.maxJitter
  | dryRun | webhookEnabled => some false

theorem name_injective : Function.Injective name := by
  have hnodup : (all.map name).Nodup := by decide +kernel
  exact fun s t h => List.inj_on_of_nodup_map hnodup (mem_all s) (mem_all t) h

end Setting

/-- What a policy has for a setting. -/
def Effective.get? (e : Effective) : (s : Setting) → Option s.Value
  | .axis a .applyMode => some (e.axis a).mode
  | .axis a .applyTarget => some (e.axis a).target
  | .axis a .calculatorAlgo => some (e.axis a).adjustment.method
  | .axis a .calculatorValue => some (e.axis a).adjustment.literal
  | .axis a .minAllowed => (e.axis a).minAllowed
  | .axis a .maxAllowed => (e.axis a).maxAllowed
  | .axis a .minDiffAlgo => some (e.axis a).minDiff.method
  | .axis a .minDiffValue => some (e.axis a).minDiff.literal
  | .axis a .scaleDirection => some (e.axis a).direction
  | .resource r .unprovidedMode => some (e.unprovided.get r).mode
  | .resource r .unprovidedValue => some (e.unprovided.get r).value
  | .resource r .minAllowedRecommendation => (e.unprovided.get r).floor
  | .resource r .maxAllowedRecommendation => (e.unprovided.get r).ceiling
  | .fromCpu s .enabled => some (e.memoryFromCpu.get s).enabled
  | .fromCpu s .algo => some (e.memoryFromCpu.get s).adjustment.method
  | .fromCpu s .value => some (e.memoryFromCpu.get s).adjustment.literal
  | .cron => some e.cron
  | .maxJitter => some e.maxJitter
  | .dryRun => some e.dryRun
  | .webhookEnabled => some e.webhookEnabled

attribute [ext] Adjustment AxisPolicy Unprovided Derivation Effective

/-- A policy is made of its settings. -/
theorem Effective.ext_get? {e e' : Effective} (h : ∀ s : Setting, e.get? s = e'.get? s) : e = e' := by
  have haxis : ∀ a, e.axis a = e'.axis a := fun a =>
    AxisPolicy.ext (Option.some.inj (h (.axis a .applyMode))) (Option.some.inj (h (.axis a .applyTarget)))
      (Adjustment.ext (Option.some.inj (h (.axis a .calculatorAlgo))) (Option.some.inj (h (.axis a .calculatorValue))))
      (h (.axis a .minAllowed)) (h (.axis a .maxAllowed))
      (Adjustment.ext (Option.some.inj (h (.axis a .minDiffAlgo))) (Option.some.inj (h (.axis a .minDiffValue))))
      (Option.some.inj (h (.axis a .scaleDirection)))
  have hunprovided : ∀ r, e.unprovided.get r = e'.unprovided.get r := fun r =>
    Unprovided.ext (Option.some.inj (h (.resource r .unprovidedMode)))
      (Option.some.inj (h (.resource r .unprovidedValue))) (h (.resource r .minAllowedRecommendation))
      (h (.resource r .maxAllowedRecommendation))
  have hfromCpu : ∀ s, e.memoryFromCpu.get s = e'.memoryFromCpu.get s := fun s =>
    Derivation.ext (Option.some.inj (h (.fromCpu s .enabled)))
      (Adjustment.ext (Option.some.inj (h (.fromCpu s .algo))) (Option.some.inj (h (.fromCpu s .value))))
  exact Effective.ext (PerAxis.ext_get haxis) (PerResource.ext_get hunprovided) (PerSide.ext_get hfromCpu)
    (Option.some.inj (h .cron)) (Option.some.inj (h .maxJitter)) (Option.some.inj (h .dryRun))
    (Option.some.inj (h .webhookEnabled))

/-! ### Layers -/

/-- The layers, the strongest first. -/
def Scope.all : List Scope := [.container, .workload, .processDefault]

namespace Cascade

variable {ε ε' α : Type}

/-- What a layer holds for a setting, of the workload or of one container. -/
def held (c : Cascade) (setting : String) (container : Option String) : Scope → Option String
  | .container => container.bind fun name => c.annotations.get? (annotationKey setting (some name))
  | .workload => c.annotations.get? (annotationKey setting none)
  | .processDefault => c.defaults.get? setting

/-- The cascade without what a layer holds for a setting. -/
def drop (c : Cascade) (setting : String) (container : Option String) : Scope → Cascade
  | .container =>
    match container with
    | some name => ⟨c.annotations.erase (annotationKey setting (some name)), c.defaults⟩
    | none => c
  | .workload => ⟨c.annotations.erase (annotationKey setting none), c.defaults⟩
  | .processDefault => ⟨c.annotations, ⟨c.defaults.values.erase setting⟩⟩

/-- The layers that hold something for a setting, the strongest first. -/
def present (c : Cascade) (setting : String) (container : Option String) : List Layer :=
  Scope.all.filterMap fun scope => (c.held setting container scope).map (Layer.mk scope)

theorem layers_eq_present (c : Cascade) (setting : String) (container : Option String) :
    c.layers setting container = c.present setting container := by
  unfold layers present Scope.all held
  cases container.bind fun name => c.annotations.get? (annotationKey setting (some name)) <;>
    cases c.annotations.get? (annotationKey setting none) <;> cases c.defaults.get? setting <;> rfl

/-- The value of a setting depends on what its layers hold. -/
theorem value_resolve (c : Cascade) (read : String → Except ε α) (setting : String) (container : Option String) :
    (c.resolve read setting container).value =
      Scope.all.findSome? fun scope => (c.held setting container scope).bind fun v => (read v).toOption := by
  rw [resolve, value_firstAccepted, layers_eq_present, present]
  generalize Scope.all = scopes
  induction scopes with
  | nil => rfl
  | cons scope scopes ih =>
    rw [List.filterMap_cons, List.findSome?_cons]
    cases hv : c.held setting container scope with
    | none => exact ih
    | some v => simp only [Option.map_some, List.findSome?_cons, Option.bind_some, ih]

/-- How faults are told does not matter to the value. -/
theorem value_resolve_mapError (c : Cascade) (read : String → Except ε α) (f : ε → ε') (setting : String)
    (container : Option String) :
    (c.resolve (fun t => (read t).mapError f) setting container).value = c.value? read setting container := by
  have hsame : ∀ t, ((read t).mapError f).toOption = (read t).toOption := by
    intro t
    cases read t <;> rfl
  rw [value?, value_resolve, value_resolve]
  simp only [hsame]

/-- A reader that is content with any text takes the first layer. -/
theorem value_resolve_ok (c : Cascade) (f : String → α) (setting : String) (container : Option String) :
    (c.resolve (ε := ε) (fun t => .ok (f t)) setting container).value =
      (c.layers setting container).head?.map fun l => f l.value := by
  rw [resolve]
  cases c.layers setting container <;> rfl

/-- A resolution cuts the layers that are present behind those that it passes over, none of which reads: either at one
that it takes, or at the end. -/
theorem layers_cut (c : Cascade) (read : String → Except ε α) (setting : String) (container : Option String) :
    let r := c.resolve read setting container
    (∀ p ∈ r.ignored, read p.1.value = .error p.2) ∧
      ((∃ l rest v, c.present setting container = r.ignored.map Prod.fst ++ l :: rest ∧ read l.value = .ok v ∧
          r.value = some v) ∨
        c.present setting container = r.ignored.map Prod.fst ∧ r.value = none) := by
  rw [resolve, layers_eq_present]
  induction c.present setting container with
  | nil => exact ⟨by simp [firstAccepted], .inr ⟨rfl, rfl⟩⟩
  | cons l ls ih =>
    obtain ⟨hignored, hcut⟩ := ih
    cases hl : read l.value with
    | ok v =>
      simp only [firstAccepted, hl]
      exact ⟨by simp, .inl ⟨l, ls, v, rfl, hl, rfl⟩⟩
    | error e =>
      simp only [firstAccepted, hl, List.map_cons, List.cons_append]
      refine ⟨List.forall_mem_cons.2 ⟨hl, hignored⟩, hcut.imp ?_ ?_⟩
      · rintro ⟨m, rest, v, hrest, hm, hv⟩
        exact ⟨m, rest, v, by rw [← hrest], hm, hv⟩
      · rintro ⟨hrest, hv⟩
        exact ⟨by rw [← hrest], hv⟩

/-- A setting that is checked, with a value to fall back to. -/
theorem getD_value? (c : Cascade) (read : String → Except ε α) (f : ε → ε') (d : α) (setting : String)
    (container : Option String) :
    some ((c.value? read setting container).getD d) =
      (c.resolve (fun t => (read t).mapError f) setting container).value.or (some d) := by
  rw [value_resolve_mapError, Option.or_some]

/-- A setting that is checked, and may be left open. -/
theorem value?_eq_or (c : Cascade) (read : String → Except ε α) (f : ε → ε') (setting : String)
    (container : Option String) :
    c.value? read setting container =
      (c.resolve (fun t => (read t).mapError f) setting container).value.or none := by
  rw [value_resolve_mapError, Option.or_none]

theorem text_eq_or (c : Cascade) (setting : String) (container : Option String) :
    some (c.text setting container) =
      (c.resolve (ε := ε) (fun t => .ok (Text.trimmed t)) setting container).value.or (some "") := by
  rw [value_resolve_ok, text]
  cases (c.layers setting container).head? <;> rfl

theorem flag_eq_or (c : Cascade) (setting : String) (container : Option String) :
    some (c.flag setting container) =
      (c.resolve (ε := ε) (fun t => .ok (decide (t = "true"))) setting container).value.or (some false) := by
  rw [value_resolve_ok, flag]
  cases (c.layers setting container).head? <;> rfl

end Cascade

/-- Every setting of a policy is the first value of it that reads, and its fallback when there is none. -/
theorem Effective.get?_of (c : Cascade) (container : Option String) (s : Setting) :
    (of c container).get? s = (c.resolve s.read s.name container).value.or s.fallback := by
  cases s with
  | axis a field =>
    cases field
    all_goals simp only [get?, axis_of, axisPolicy, Setting.read, Setting.fallback]
    case calculatorValue => exact c.text_eq_or _ container
    case minDiffValue => exact c.text_eq_or _ container
    case minAllowed => exact c.value?_eq_or _ _ _ container
    case maxAllowed => exact c.value?_eq_or _ _ _ container
    all_goals exact c.getD_value? _ _ _ _ container
  | resource r field =>
    cases field
    all_goals simp only [get?, of, PerResource.get_ofFn, unprovidedPolicy, Setting.read, Setting.fallback]
    case unprovidedMode => exact c.getD_value? _ _ _ _ container
    case unprovidedValue => exact c.text_eq_or _ container
    all_goals exact c.value?_eq_or _ _ _ container
  | fromCpu side field =>
    cases field
    all_goals simp only [get?, of, PerSide.get_ofFn, derivation, Setting.read, Setting.fallback]
    case enabled => exact c.flag_eq_or _ container
    case algo => exact c.getD_value? _ _ _ _ container
    case value => exact c.text_eq_or _ container
  | cron => exact c.getD_value? _ _ _ _ container
  | maxJitter => exact c.getD_value? _ _ _ _ container
  | dryRun => exact c.flag_eq_or _ container
  | webhookEnabled => exact c.flag_eq_or _ container

/-! ### Dropping a value -/

/-- A key tells its setting, and its container if it has one. -/
theorem annotationKey_inj {s t : Setting} {container container' : Option String} :
    annotationKey s.name container = annotationKey t.name container' ↔ s = t ∧ container = container' := by
  refine ⟨fun h => ?_, fun ⟨hs, hc⟩ => by rw [hs, hc]⟩
  cases container with
  | none =>
    cases container' with
    | none =>
      have hchars := congrArg String.toList h
      rw [toList_annotationKey_none, toList_annotationKey_none, List.append_cancel_left_eq] at hchars
      exact ⟨Setting.name_injective (String.toList_inj.1 hchars), rfl⟩
    | some name => exact absurd ⟨t, h⟩ (not_scopedTo_annotationKey_none s name)
  | some name =>
    cases container' with
    | none => exact absurd ⟨s, h.symm⟩ (not_scopedTo_annotationKey_none t name)
    | some name' =>
      have hname : name = name' := scopedTo_annotationKey_iff.1 ⟨t, h⟩
      subst hname
      have hchars := congrArg String.toList h
      rw [toList_annotationKey_some, toList_annotationKey_some, List.append_cancel_left_eq,
        List.append_cancel_right_eq] at hchars
      exact ⟨Setting.name_injective (String.toList_inj.1 hchars), rfl⟩

namespace Cascade

/-- A note that is erased is either the one that is read, or does not matter to it. -/
theorem get?_erase_annotationKey (notes : Annotations) (s t : Setting) (container container' : Option String) :
    (notes.erase (annotationKey s.name container)).get? (annotationKey t.name container') =
        notes.get? (annotationKey t.name container') ∨
      (notes.erase (annotationKey s.name container)).get? (annotationKey t.name container') = none ∧ t = s ∧
        container' = container := by
  rw [Dict.get?_erase]
  split
  · next hkey => exact .inr ⟨rfl, annotationKey_inj.1 hkey⟩
  · exact .inl rfl

/-- To drop a value changes one layer of one setting. -/
theorem held_drop (c : Cascade) (s t : Setting) (container viewer : Option String) (scope scope' : Scope) :
    (c.drop s.name container scope).held t.name viewer scope' = c.held t.name viewer scope' ∨
      (c.drop s.name container scope).held t.name viewer scope' = none ∧ t = s ∧
        c.held t.name viewer scope' = c.held s.name container scope := by
  cases scope with
  | container =>
    cases container with
    | none => exact .inl rfl
    | some name =>
      cases scope' with
      | container =>
        cases viewer with
        | none => exact .inl rfl
        | some viewer =>
          refine (get?_erase_annotationKey c.annotations s t (some name) (some viewer)).imp id ?_
          rintro ⟨hnone, rfl, hname⟩
          exact ⟨hnone, rfl, by rw [hname]⟩
      | workload =>
        refine (get?_erase_annotationKey c.annotations s t (some name) none).imp id ?_
        rintro ⟨-, -, hname⟩
        cases hname
      | processDefault => exact .inl rfl
  | workload =>
    cases scope' with
    | container =>
      cases viewer with
      | none => exact .inl rfl
      | some viewer =>
        refine (get?_erase_annotationKey c.annotations s t none (some viewer)).imp id ?_
        rintro ⟨-, -, hname⟩
        cases hname
    | workload =>
      refine (get?_erase_annotationKey c.annotations s t none none).imp id ?_
      rintro ⟨hnone, rfl, -⟩
      exact ⟨hnone, rfl, rfl⟩
    | processDefault => exact .inl rfl
  | processDefault =>
    cases scope' with
    | container => exact .inl rfl
    | workload => exact .inl rfl
    | processDefault =>
      have hget : (c.drop s.name container .processDefault).held t.name viewer .processDefault =
          if t.name = s.name then none else c.held t.name viewer .processDefault :=
        Dict.get?_erase c.defaults.values s.name t.name
      rw [hget]
      split
      · next hname =>
        obtain rfl := Setting.name_injective hname
        exact .inr ⟨rfl, rfl, rfl⟩
      · exact .inl rfl

/-- A value that does not read may be dropped from any layer, whoever asks for whichever setting. -/
theorem value_resolve_drop {c : Cascade} {s : Setting} {container : Option String} {scope : Scope} {v e : String}
    (hheld : c.held s.name container scope = some v) (hread : s.read v = .error e) (t : Setting)
    (viewer : Option String) :
    ((c.drop s.name container scope).resolve t.read t.name viewer).value = (c.resolve t.read t.name viewer).value := by
  rw [value_resolve, value_resolve]
  congr 1
  funext scope'
  rcases held_drop c s t container viewer scope scope' with hsame | ⟨hnone, rfl, hbefore⟩
  · rw [hsame]
  · rw [hnone, hbefore, hheld, Option.bind_none, Option.bind_some, hread]
    rfl

end Cascade

/-- A request does not follow itself, whatever the layers say. -/
theorem Effective.target_request_ne_auto (c : Cascade) (container : Option String) (r : Resource) :
    ((of c container).axis ⟨r, .request⟩).target ≠ .auto := by
  rw [axis_of, axisPolicy]
  simp only
  cases hv : c.value? (ApplyTarget.readFor .request) (Setting.axis ⟨r, .request⟩ .applyTarget).name container with
  | none =>
    rw [Option.getD_none]
    decide
  | some t =>
    obtain ⟨text, hread⟩ := Cascade.exists_of_value? hv
    exact ApplyTarget.ne_auto_of_readFor hread

/-- **A value that does not read is as if absent.** It may be dropped from any layer, and every policy of the workload
and its containers stays as it is. Each setting takes the first value that reads of those that its layers hold, in the
order container, workload, process default, and its fallback if there is none; what is passed over for that is what
comes before it, each with what is wrong with it. A request never follows itself. -/
theorem rejected_as_absent (c : Cascade) (s : Setting) (container : Option String) :
    (∀ scope v e, c.held s.name container scope = some v → s.read v = .error e →
        ∀ viewer, Effective.of (c.drop s.name container scope) viewer = Effective.of c viewer) ∧
      (let ignored := (c.resolve s.read s.name container).ignored;
        (∀ p ∈ ignored, s.read p.1.value = .error p.2) ∧
          ((∃ l rest v, c.present s.name container = ignored.map Prod.fst ++ l :: rest ∧ s.read l.value = .ok v ∧
              (Effective.of c container).get? s = some v) ∨
            c.present s.name container = ignored.map Prod.fst ∧ (Effective.of c container).get? s = s.fallback)) ∧
      ∀ r : Resource, ((Effective.of c container).axis ⟨r, .request⟩).target ≠ .auto := by
  refine ⟨fun scope v e hheld hread viewer => ?drop, ?cut, Effective.target_request_ne_auto c container⟩
  case drop =>
    refine Effective.ext_get? fun t => ?_
    rw [Effective.get?_of, Effective.get?_of, Cascade.value_resolve_drop hheld hread t viewer]
  case cut =>
    obtain ⟨hignored, hcut⟩ := c.layers_cut s.read s.name container
    refine ⟨hignored, hcut.imp ?_ ?_⟩
    · rintro ⟨l, rest, v, hpresent, hl, hv⟩
      refine ⟨l, rest, v, hpresent, hl, ?_⟩
      rw [Effective.get?_of, hv, Option.some_or]
    · rintro ⟨hpresent, hv⟩
      refine ⟨hpresent, ?_⟩
      rw [Effective.get?_of, hv, Option.none_or]

/-- A target for the CPU request in all three layers: one that only limits have, one that there is not, and a good one. -/
def towering : Cascade :=
  ⟨Dict.ofPairs [("rightsizer.io/cpu-request-apply-target.app", "auto"),
      ("rightsizer.io/cpu-request-apply-target", "highest")],
    ProcessDefaults.ofPairs [("CPU_REQUEST_APPLY_TARGET", "Peak")]⟩

/-- The first two are passed over, and without the second one all is as it was. -/
theorem rejected_as_absent_towering :
    let s : Setting := .axis ⟨.cpu, .request⟩ .applyTarget
    towering.held s.name (some "app") .workload = some "highest" ∧
      s.read "highest" = .error "unknown apply target 'highest'" ∧
      (towering.drop s.name (some "app") .workload).annotations.keys = ["rightsizer.io/cpu-request-apply-target.app"] ∧
      (∀ viewer, Effective.of (towering.drop s.name (some "app") .workload) viewer = Effective.of towering viewer) ∧
      ((Effective.of towering (some "app")).axis ⟨.cpu, .request⟩).target = .peak ∧
      (towering.resolve s.read s.name (some "app")).ignored =
        [(⟨.container, "auto"⟩, "apply target 'auto' is only valid for limits"),
          (⟨.workload, "highest"⟩, "unknown apply target 'highest'")] := by
  intro s
  have hheld : towering.held s.name (some "app") .workload = some "highest" := by decide
  have hread : s.read "highest" = .error "unknown apply target 'highest'" := rfl
  exact ⟨hheld, hread, by decide, (rejected_as_absent towering s (some "app")).1 .workload _ _ hheld hread, by decide,
    by decide⟩

end Allotment
