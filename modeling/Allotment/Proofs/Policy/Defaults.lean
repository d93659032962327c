import Mathlib.Data.Finset.Card
import Allotment.Proofs.Keys
import Allotment.Proofs.Policy.Rejected

/-!
# Process defaults on their way to a policy

Process defaults are given under any spelling of a setting, and looked up under its name.

* `Text.Folded` — a word in the spelling of keys; `Setting.foldWord_name` — the name of a setting is one;
* `ProcessDefaults.keyOf` — the key under which a pair is kept;
* `ProcessDefaults.insertAll` — defaults after pairs that give way to those that are there;
* `get?_insertAll_eq_some_iff`, `size_insertAll` — of the first pairs the last of a key stays, of the later ones the
  first, and there are as many defaults as keys;
* `Cascade.Unannotated`, `StartsFrom` — no note is there for a setting, and all that looks it up starts from a default;
* `defaults_reach_settings` — what was given for a setting, under any spelling, is what its resolution starts from.
-/

namespace Allotment

/-! ### Spellings -/

/-- A word that stays as it is when it is folded: no blanks, no capitals and no underscores. -/
def Text.Folded (s : String) : Prop :=
  ∀ c ∈ s.toList, isBlank c = false ∧ c.toLower = c ∧ c ≠ '_'

instance (s : String) : Decidable (Text.Folded s) :=
  List.decidableBAll _ s.toList

theorem Text.Folded.append {s t : String} (hs : Folded s) (ht : Folded t) : Folded (s ++ t) := by
  unfold Folded
  rw [String.toList_append]
  exact List.forall_mem_append.2 ⟨hs, ht⟩

theorem Text.foldWord_eq_self {s : String} (h : Folded s) : foldWord s = s := by
  have hsame : s.toList.map ((fun c => if c = '_' then '-' else c) ∘ Char.toLower) = s.toList := by
    refine (List.map_congr_left fun c hc => ?_).trans s.toList.map_id
    rw [Function.comp_apply, (h c hc).2.1, if_neg (h c hc).2.2, id]
  rw [foldWord, trim_eq_self fun c hc => (h c hc).1, lower, List.map_map, hsame, String.ofList_toList]

/-- The name of a setting is put together from folded words, so that it is its own key. -/
theorem Setting.foldWord_name (s : Setting) : Text.foldWord s.name = s.name := by
  have hdash : Text.Folded "-" := by decide
  have hresource : ∀ r : Resource, Text.Folded r.name := by
    intro r
    cases r <;> decide
  have hside : ∀ side : Side, Text.Folded side.name := by
    intro side
    cases side <;> decide
  refine Text.foldWord_eq_self ?_
  cases s with
  | axis a field =>
    have hfield : Text.Folded field.name := by cases field <;> decide
    have haxis : Text.Folded a.name := ((hresource a.resource).append hdash).append (hside a.side)
    exact (haxis.append hdash).append hfield
  | resource r field =>
    have hfield : Text.Folded field.name := by cases field <;> decide
    exact ((hresource r).append hdash).append hfield
  | fromCpu side field =>
    have hfield : Text.Folded field.name := by cases field <;> decide
    have hmemory : Text.Folded "memory-" := by decide
    have hfrom : Text.Folded "-from-cpu-" := by decide
    exact ((hmemory.append (hside side)).append hfrom).append hfield
  | cron => decide
  | maxJitter => decide
  | dryRun => decide
  | webhookEnabled => decide

namespace ProcessDefaults

variable {ps news : List (String × String)} {name value : String}

/-- The key under which a pair is kept. -/
def keyOf (p : String × String) : String := Text.foldWord p.1

/-- Sets the values of pairs, one after another, each unless its key has one. -/
def insertAll (d : ProcessDefaults) (news : List (String × String)) : ProcessDefaults :=
  news.foldl (fun d p => d.insertNew p.1 p.2) d

/-- What is there stays, and of the pairs that follow the first one of a key counts, by induction on them. -/
theorem get?_insertAll (news : List (String × String)) (name : String) :
    ∀ d : ProcessDefaults, (d.insertAll news).get? name =
      (d.get? name).or ((news.find? fun p => keyOf p = name).map Prod.snd) := by
  induction news with
  | nil => exact fun d => Option.or_none.symm
  | cons p news ih =>
    intro d
    refine (ih (d.insertNew p.1 p.2)).trans ?_
    rw [get?_insertNew]
    by_cases hkey : keyOf p = name
    · rw [List.find?_cons_of_pos (by simpa using hkey)]
      have hname : name = Text.foldWord p.1 := hkey.symm
      cases hd : d.get? name <;> simp [← hname, hd]
    · have hname : name ≠ Text.foldWord p.1 := fun h => hkey h.symm
      rw [List.find?_cons_of_neg (by simpa using hkey), if_neg (fun h => hname h.1)]

theorem get?_ofPairs_eq_some_iff :
    (ofPairs ps).get? name = some value ↔ ∃ p, LastOf keyOf ps name p ∧ p.2 = value :=
  Dict.get?_ofPairs_map_eq_some_iff

theorem get?_ofPairs_eq_none_iff : (ofPairs ps).get? name = none ↔ ∀ p ∈ ps, keyOf p ≠ name :=
  Dict.get?_ofPairs_map_eq_none_iff

theorem get?_insertAll_eq_some_iff :
    ((ofPairs ps).insertAll news).get? name = some value ↔
      (∃ p, LastOf keyOf ps name p ∧ p.2 = value) ∨
        (∀ p ∈ ps, keyOf p ≠ name) ∧ ∃ p, FirstOf keyOf news name p ∧ p.2 = value := by
  rw [get?_insertAll, Option.or_eq_some_iff, get?_ofPairs_eq_some_iff, get?_ofPairs_eq_none_iff,
    Option.map_eq_some_iff]
  simp only [find?_key_eq_some_iff]

theorem get?_insertAll_eq_none_iff :
    ((ofPairs ps).insertAll news).get? name = none ↔ ∀ p ∈ ps ++ news, keyOf p ≠ name := by
  rw [get?_insertAll, Option.or_eq_none_iff, get?_ofPairs_eq_none_iff, Option.map_eq_none_iff, find?_key_eq_none_iff,
    List.forall_mem_append]

/-- There are as many defaults as there are keys. -/
theorem size_insertAll : ((ofPairs ps).insertAll news).size = ((ps ++ news).map keyOf).toFinset.card := by
  let d := (ofPairs ps).insertAll news
  have hkeys : ∀ key, key ∈ d.values.keys ↔ key ∈ (ps ++ news).map keyOf := by
    intro key
    have hnone : d.values.get? key = none ↔ _ := get?_insertAll_eq_none_iff
    rw [Dict.mem_keys_iff, Dict.contains, Option.isSome_iff_ne_none, Ne, hnone]
    simp only [List.mem_map, not_forall, not_not, exists_prop]
  have hsame : d.values.keys.toFinset = ((ps ++ news).map keyOf).toFinset := by
    ext key
    rw [List.mem_toFinset, List.mem_toFinset, hkeys]
  rw [← hsame, List.toFinset_card_of_nodup d.values.nodup_keys]
  exact (List.length_map _).symm

end ProcessDefaults

/-! ### Settings without a note -/

namespace Cascade

/-- Neither the container nor the workload has a note for a setting. -/
structure Unannotated (c : Cascade) (setting : String) (container : Option String) : Prop where
  ofContainer : c.held setting container .container = none
  ofWorkload : c.held setting container .workload = none

/-- All that looks a setting up starts from the same text, or from nothing: the layers, any reader, the texts, the flags
and the policy. -/
structure StartsFrom (c : Cascade) (s : Setting) (container : Option String) (start : Option String) : Prop where
  layers : c.layers s.name container = (start.map (Layer.mk .processDefault)).toList
  value : ∀ {ε α : Type} (read : String → Except ε α),
    c.value? read s.name container = start.bind fun v => (read v).toOption
  text : c.text s.name container = start.elim "" Text.trimmed
  flag : c.flag s.name container = true ↔ start = some "true"
  policy : (Effective.of c container).get? s = (start.bind fun v => (s.read v).toOption).or s.fallback

theorem layers_of_unannotated {c : Cascade} {setting : String} {container : Option String}
    (h : c.Unannotated setting container) :
    c.layers setting container = ((c.defaults.get? setting).map (Layer.mk .processDefault)).toList := by
  rw [layers_eq_present, present, Scope.all, List.filterMap_cons, h.ofContainer, List.filterMap_cons, h.ofWorkload]
  cases hd : c.defaults.get? setting <;> simp [held, hd]

theorem startsFrom_of_unannotated {c : Cascade} {s : Setting} {container : Option String}
    (h : c.Unannotated s.name container) : c.StartsFrom s container (c.defaults.get? s.name) := by
  have hlayers := layers_of_unannotated h
  have hvalue : ∀ {ε α : Type} (read : String → Except ε α),
      c.value? read s.name container = (c.defaults.get? s.name).bind fun v => (read v).toOption := by
    intro ε α read
    rw [value?, resolve, value_firstAccepted, hlayers]
    cases c.defaults.get? s.name <;> simp
  refine ⟨hlayers, hvalue, ?text, ?flag, ?policy⟩
  case text =>
    rw [text, hlayers]
    cases c.defaults.get? s.name <;> rfl
  case flag =>
    rw [flag, hlayers]
    cases c.defaults.get? s.name <;> simp
  case policy =>
    rw [Effective.get?_of, ← hvalue s.read]
    rfl

end Cascade

/-- **Process defaults reach a policy under any spelling.** The name of a setting is spelled as keys are.
Of the pairs that the defaults are made of the last one whose key is a name counts, of those that are added the first
one if there was none before, and there are as many defaults as there are keys. Where no note is there for a setting,
its default is what every resolution of it starts from, for the workload and for each container. -/
theorem defaults_reach_settings (ps news : List (String × String)) :
    let key := ProcessDefaults.keyOf
    let d := (ProcessDefaults.ofPairs ps).insertAll news
    (∀ s : Setting, Text.foldWord s.name = s.name) ∧
      (∀ name value, d.get? name = some value ↔
        (∃ p, LastOf key ps name p ∧ p.2 = value) ∨
          (∀ p ∈ ps, key p ≠ name) ∧ ∃ p, FirstOf key news name p ∧ p.2 = value) ∧
      (∀ name, d.get? name = none ↔ ∀ p ∈ ps ++ news, key p ≠ name) ∧
      d.size = ((ps ++ news).map key).toFinset.card ∧
      ∀ (notes : Annotations) (s : Setting) (container : Option String),
        let c : Cascade := ⟨notes, d⟩
        c.Unannotated s.name container → c.StartsFrom s container (d.get? s.name) :=
  ⟨Setting.foldWord_name, fun _ _ => ProcessDefaults.get?_insertAll_eq_some_iff,
    fun _ => ProcessDefaults.get?_insertAll_eq_none_iff, ProcessDefaults.size_insertAll,
    fun _ _ _ h => Cascade.startsFrom_of_unannotated h⟩

/-- Three spellings of a setting, of which the last one counts, and two of another, of which the first one does. -/
theorem defaults_reach_settings_jitter :
    let ps := [("max-jitter", "1s"), (" MAX_JITTER ", "2s"), ("Max_Jitter", "3s"), ("DRY_RUN", "true")]
    let news := [("max_jitter", "4s"), ("Cron", "@hourly"), ("CRON", "@daily"), ("dry-run", "false")]
    let d := (ProcessDefaults.ofPairs ps).insertAll news
    let policy := Effective.of ⟨Dict.empty, d⟩ (some "app")
    d.size = 3 ∧ d.get? "max-jitter" = some "3s" ∧ d.get? "dry-run" = some "true" ∧ d.get? "cron" = some "@hourly" ∧
      d.get? "webhook-enabled" = none ∧ policy.maxJitter = Span.ofSeconds 3 ∧ policy.dryRun = true ∧
      policy.webhookEnabled = false := by
  intro ps news d policy
  obtain ⟨-, hsome, hnone, hsize, hstarts⟩ := defaults_reach_settings ps news
  have hjitter : d.get? "max-jitter" = some "3s" := (hsome _ _).2 (.inl
    ⟨("Max_Jitter", "3s"), ⟨[("max-jitter", "1s"), (" MAX_JITTER ", "2s")], [("DRY_RUN", "true")], rfl,
      by decide +kernel, by decide +kernel⟩, rfl⟩)
  have hdry : d.get? "dry-run" = some "true" := (hsome _ _).2 (.inl
    ⟨("DRY_RUN", "true"), ⟨[("max-jitter", "1s"), (" MAX_JITTER ", "2s"), ("Max_Jitter", "3s")], [], rfl,
      by decide +kernel, by decide +kernel⟩, rfl⟩)
  have hcron : d.get? "cron" = some "@hourly" := (hsome _ _).2 (.inr ⟨by decide +kernel, ("Cron", "@hourly"),
    ⟨[("max_jitter", "4s")], [("CRON", "@daily"), ("dry-run", "false")], rfl, by decide +kernel, by decide +kernel⟩,
    rfl⟩)
  have hwebhook : d.get? "webhook-enabled" = none := (hnone _).2 (by decide +kernel)
  have hpolicy : ∀ (s : Setting) (start : Option String), d.get? s.name = start →
      policy.get? s = (start.bind fun v => (s.read v).toOption).or s.fallback := by
    rintro s _ rfl
    exact (hstarts Dict.empty s (some "app") ⟨rfl, rfl⟩).policy
  have hspan : Span.read "3s" = .ok (Span.ofSeconds 3) := by decide +kernel
  have hread : Setting.maxJitter.read "3s" = .ok (Span.ofSeconds 3) :=
    congrArg (Except.mapError SpanError.message) hspan
  have hjitter' := hpolicy .maxJitter (some "3s") hjitter
  rw [Option.bind_some, hread] at hjitter'
  exact ⟨hsize.trans (by decide +kernel), hjitter, hdry, hcron, hwebhook, Option.some.inj hjitter',
    Option.some.inj (hpolicy .dryRun (some "true") hdry), Option.some.inj (hpolicy .webhookEnabled none hwebhook)⟩

end Allotment
