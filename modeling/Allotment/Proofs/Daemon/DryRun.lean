import Allotment.Daemon.Settings
import Allotment.Proofs.Controller.ScheduledRun
import Allotment.Proofs.Keys

/-!
# Dry runs of a whole daemon

A daemon that is set up for dry runs hands a default to the cascade, unless the environment gives one itself. It always
does: the variable that sets the daemon up is, under its longer opening, the default for dry runs.

* `Silent notes setting` — the notes of a workload say nothing about a setting;
* `exists_dryRun_default` — an environment that sets a daemon up for dry runs gives a default for them;
* `flag_dryRun_iff` — a silent policy is a dry run exactly if that default is the word for true;
* `count_write_apply` — a run under a policy that is a dry run does not write;
* `dryRun_kept_iff` — the two together: what the settings take for true, the cascade has to take for true as well.
-/

namespace Allotment

/-- The notes of a workload say nothing about a setting of the workload as a whole. -/
def Silent (notes : Annotations) (setting : Setting) : Prop :=
  notes.get? (annotationKey setting.name none) = none

/-! ### What an environment gives -/

theorem mem_under_iff {env : Environment} {opening rest value : String} :
    (rest, value) ∈ env.under opening ↔
      ∃ name, (name, value) ∈ env ∧ Text.lower name.toList = opening.toList ++ rest.toList := by
  unfold Environment.under
  rw [List.mem_filterMap]
  constructor
  · rintro ⟨⟨name, v⟩, hmem, h⟩
    obtain ⟨cs, hcs, he⟩ := Option.map_eq_some_iff.1 h
    obtain ⟨rfl, rfl⟩ := Prod.mk.inj he
    refine ⟨name, hmem, ?_⟩
    rw [String.toList_ofList]
    exact Text.after?_eq_some_iff.1 hcs
  · rintro ⟨name, hmem, h⟩
    refine ⟨(name, value), hmem, ?_⟩
    simp only [Text.after?_eq_some_iff.2 h, Option.map_some, String.ofList_toList]

/-- A variable of the shorter opening is one of the longer opening, if its name goes on like that. -/
theorem mem_under_defaultsOpening {env : Environment} {rest key value : String}
    (hkey : Environment.daemonOpening.toList ++ key.toList = Environment.defaultsOpening.toList ++ rest.toList)
    (h : (key, value) ∈ env.under Environment.daemonOpening) :
    (rest, value) ∈ env.under Environment.defaultsOpening := by
  obtain ⟨name, hmem, hname⟩ := mem_under_iff.1 h
  exact mem_under_iff.2 ⟨name, hmem, hname.trans hkey⟩

theorem ProcessDefaults.exists_get?_ofPairs {ps : List (String × String)} {key value : String} (h : (key, value) ∈ ps) :
    ∃ v, (ofPairs ps).get? (Text.foldWord key) = some v := by
  have hsome : (ofPairs ps).get? (Text.foldWord key) ≠ none := fun hnone =>
    Dict.get?_ofPairs_map_eq_none_iff.1 hnone (key, value) h rfl
  exact Option.ne_none_iff_exists'.1 hsome

namespace DaemonSettings

variable {env : Environment} {s : DaemonSettings}

/-- Only its own variable sets a daemon up for dry runs. -/
theorem exists_defaultDryRun_variable (h : ofEnvironment env = .ok s) (hdry : s.defaultDryRun = true) :
    ∃ value, ("default_dry_run", value) ∈ env.under Environment.daemonOpening := by
  unfold ofEnvironment at h
  simp only at h
  split at h
  · obtain rfl := Except.ok.inj h
    cases hdry
  · next v hv =>
    obtain ⟨value, hget, -⟩ := Option.map_eq_some_iff.1 hv
    exact ⟨value, Dict.mem_of_get?_ofPairs hget⟩

theorem exists_dryRun_default (h : ofEnvironment env = .ok s) (hdry : s.defaultDryRun = true) :
    ∃ value, (ProcessDefaults.ofEnvironment env).get? Setting.dryRun.name = some value := by
  obtain ⟨value, hmem⟩ := exists_defaultDryRun_variable h hdry
  have hdefault : ("dry_run", value) ∈ env.under Environment.defaultsOpening :=
    mem_under_defaultsOpening (by decide) hmem
  have hname : Text.foldWord "dry_run" = Setting.dryRun.name := by decide
  rw [← hname]
  exact ProcessDefaults.exists_get?_ofPairs hdefault

theorem get?_dryRun_processDefaults (h : ofEnvironment env = .ok s) (hdry : s.defaultDryRun = true) :
    (s.processDefaults env).get? Setting.dryRun.name =
      (ProcessDefaults.ofEnvironment env).get? Setting.dryRun.name := by
  obtain ⟨value, hvalue⟩ := exists_dryRun_default h hdry
  have hname : Text.foldWord "dry-run" = Setting.dryRun.name := by decide
  unfold processDefaults
  simp only [hdry, if_true]
  rw [ProcessDefaults.get?_insertNew, hname, hvalue]
  simp

end DaemonSettings

/-- A setting that the notes do not mention is what the process has for it. -/
theorem Cascade.flag_of_silent {c : Cascade} {setting : Setting} (h : Silent c.annotations setting) :
    c.flag setting.name none = decide (c.defaults.get? setting.name = some "true") := by
  unfold Silent at h
  unfold flag layers
  simp only [h, Option.bind_none, Option.map_none, Option.toList_none, List.nil_append]
  cases c.defaults.get? setting.name with
  | none => simp
  | some v => simp

theorem DaemonSettings.flag_dryRun_iff {env : Environment} {s : DaemonSettings} {notes : Annotations}
    (h : ofEnvironment env = .ok s) (hdry : s.defaultDryRun = true) (hnotes : Silent notes .dryRun) :
    (Cascade.mk notes (s.processDefaults env)).flag Setting.dryRun.name none = true ↔
      (ProcessDefaults.ofEnvironment env).get? Setting.dryRun.name = some "true" := by
  rw [Cascade.flag_of_silent (c := ⟨notes, s.processDefaults env⟩) hnotes, get?_dryRun_processDefaults h hdry]
  exact decide_eq_true_iff

/-! ### Runs that do not write -/

namespace Bench

variable {σ : Type} {b b' : Bench σ}

theorem count_eq_of_calls {k : CallKind} (h : b'.calls = b.calls) : b'.count k = b.count k := by
  unfold count
  rw [h]

theorem count_through {α : Type} {r : Request} {k : CallKind} (hkind : r.kind ≠ k) (f : Call σ α) (b : Bench σ) :
    (through r f b).2.count k = b.count k := by
  unfold count
  rw [calls_through, List.countP_append, List.countP_singleton]
  simp [hkind]

end Bench

namespace Controller

variable {σ : Type} {c : Controller (Bench σ)} {b : Backend σ}

theorem commit_dry (t : Target) (p : Plan) (d : Desk (Bench σ)) : (c.commit t p true d).2 = d := by
  unfold commit
  split
  · rfl
  · rfl

theorem count_readOf {α : Type} {what : String} {t : Target} {r : Request} {f : Call σ α} {d d' : Desk (Bench σ)}
    {k : CallKind} {answer : Except RunError α} (hkind : r.kind ≠ k)
    (h : readOf what t (Bench.through r f) d = (answer, d')) : d'.world.count k = d.world.count k := by
  have hdesk : (readOf what t (Bench.through r f) d).2 = d' := by rw [h]
  rw [← hdesk]
  exact Bench.count_through hkind f d.world

theorem ok_of_readOf {α : Type} {what : String} {t : Target} {f : Call (Bench σ) α} {d d' : Desk (Bench σ)} {a : α}
    (h : readOf what t f d = (.ok a, d')) : (f d.world).1 = .ok a := by
  have hanswer : (readOf what t f d).1 = .ok a := by rw [h]
  unfold readOf ask at hanswer
  simp only at hanswer
  cases hf : (f d.world).1 with
  | ok x =>
    rw [hf] at hanswer
    obtain rfl := Except.ok.inj hanswer
    rfl
  | error e =>
    rw [hf] at hanswer
    cases hanswer

/-- A run reads the policy and the status, whether these fail or not, and does not write if the policy wants it dry. -/
theorem count_write_apply (hb : c.backend = Bench.around b) (hn : ∀ n ∈ c.notifiers, n.Aside) {t : Target}
    {cs : List Container} {dryRun : Bool} {d : Desk (Bench σ)}
    (hdry : ∀ notes, (c.backend.policy t d.world).1 = .ok notes →
      (c.cascade notes).flag Setting.dryRun.name none = true) :
    (c.apply t cs dryRun d).2.world.count .write = d.world.count .write := by
  have hpolicyCall : (Request.policy t).kind ≠ .write := by simp [Request.kind]
  have hstatusCall : (Request.status t).kind ≠ .write := by simp [Request.kind]
  unfold apply
  split
  · rfl
  · split
    · next e d₁ hpolicy =>
      rw [hb] at hpolicy
      exact count_readOf hpolicyCall hpolicy
    · next notes d₁ hpolicy =>
      have hflag := hdry notes (ok_of_readOf hpolicy)
      rw [hb] at hpolicy
      have hread : d₁.world.count .write = d.world.count .write :=
        count_readOf hpolicyCall hpolicy
      split
      · next e d₂ hstatus =>
        rw [hb] at hstatus
        exact (count_readOf hstatusCall hstatus).trans hread
      · next status d₂ hstatus =>
        rw [hb] at hstatus
        have hread₂ : d₂.world.count .write = d₁.world.count .write :=
          count_readOf hstatusCall hstatus
        have hdryRun : (dryRun || (Effective.of (c.cascade notes) none).dryRun) = true := by
          simp [Effective.of, hflag]
        simp only [hdryRun]
        have hconclude := (frame_conclude hn (c.commit t (plan (c.cascade notes) status cs) true d₂).1
          (c.commit t (plan (c.cascade notes) status cs) true d₂).2).calls
        rw [Bench.count_eq_of_calls hconclude, commit_dry, hread₂, hread]

end Controller

/-! ### The daemon as a whole -/

/-- **A daemon that is set up for dry runs** makes them under silent policies exactly if its environment gives `true`
as the default for them, letter by letter; then no run writes, on whatever world, whatever its caller asks for. -/
theorem DaemonSettings.dryRun_kept_iff {env : Environment} {s : DaemonSettings} (h : ofEnvironment env = .ok s)
    (hdry : s.defaultDryRun = true) :
    ((∀ notes, Silent notes .dryRun →
        (Cascade.mk notes (s.processDefaults env)).flag Setting.dryRun.name none = true) ↔
      (ProcessDefaults.ofEnvironment env).get? Setting.dryRun.name = some "true") ∧
    ((ProcessDefaults.ofEnvironment env).get? Setting.dryRun.name = some "true" →
      ∀ {σ : Type} (b : Backend σ) (c : Controller (Bench σ)) (t : Target) (cs : List Container) (dryRun : Bool)
        (d : Desk (Bench σ)), c.backend = Bench.around b → c.defaults = s.processDefaults env →
        (∀ n ∈ c.notifiers, n.Aside) →
        (∀ notes, (c.backend.policy t d.world).1 = .ok notes → Silent notes .dryRun) →
        (c.apply t cs dryRun d).2.world.count .write = d.world.count .write) := by
  refine ⟨⟨?default, ?flag⟩, ?runs⟩
  case default =>
    intro hflags
    have hempty : Silent Dict.empty .dryRun := rfl
    exact (flag_dryRun_iff h hdry hempty).1 (hflags Dict.empty hempty)
  case flag =>
    intro hdefault notes hnotes
    exact (flag_dryRun_iff h hdry hnotes).2 hdefault
  case runs =>
    intro hdefault σ b c t cs dryRun d hb hdefaults hn hsilent
    refine Controller.count_write_apply hb hn fun notes hnotes => ?_
    unfold Controller.cascade
    rw [hdefaults]
    exact (flag_dryRun_iff h hdry (hsilent notes hnotes)).2 hdefault

/-- An environment that has nothing but a word for the default of dry runs. -/
def dryEnvironment (word : String) : Environment := [("RIGHTSIZER_DEFAULT_DRY_RUN", word)]

/-- The settings of a daemon that is set up for dry runs and otherwise as in an empty environment. -/
def drySettings : DaemonSettings := { DaemonSettings.initial with defaultDryRun := true }

/-- A container that requests a tenth of a core. -/
def tenthCore : Container := ⟨"app", ⟨⟨some ⟨.cpu, 100, .decimal⟩, none⟩, ⟨none, none⟩⟩⟩

/-- One workload without notes, with that container, which is to request a quarter. -/
def silentShop : Inventory :=
  let quarter : Recommendation := ⟨"app", Estimate.empty, ⟨some ⟨.cpu, 250, .decimal⟩, none⟩, Estimate.empty⟩
  ⟨Dict.ofPairs [("shop/api", ⟨⟨"Deployment", "shop", "api"⟩, Dict.empty, [tenthCore], some [quarter], []⟩)]⟩

/-- The desk after one run over that workload, by a daemon of an environment. -/
def silentRun (env : Environment) : Desk (Bench Inventory) :=
  ((Inventory.controller "rightsizer" (drySettings.processDefaults env) []).apply ⟨"Deployment", "shop", "api"⟩ [tenthCore]
    false ⟨Bench.start silentShop, Ledger.empty⟩).2

/-- Under the word itself the run is dry. -/
theorem dryRun_kept_word :
    DaemonSettings.ofEnvironment (dryEnvironment "true") = .ok drySettings ∧ drySettings.defaultDryRun = true ∧
      (Cascade.mk Dict.empty (drySettings.processDefaults (dryEnvironment "true"))).flag Setting.dryRun.name none =
        true ∧
      (silentRun (dryEnvironment "true")).world.count .write = 0 := by
  have hload : DaemonSettings.ofEnvironment (dryEnvironment "true") = .ok drySettings := rfl
  have hdefault : (ProcessDefaults.ofEnvironment (dryEnvironment "true")).get? Setting.dryRun.name = some "true" := rfl
  obtain ⟨hflags, hruns⟩ := DaemonSettings.dryRun_kept_iff hload rfl
  have hsilent : ∀ notes, (Inventory.backend.policy ⟨"Deployment", "shop", "api"⟩ silentShop).1 = .ok notes →
      Silent notes .dryRun := by
    intro notes hnotes
    obtain rfl : Dict.empty = notes := Except.ok.inj hnotes
    rfl
  have hrun := hruns hdefault Inventory.backend
    (Inventory.controller "rightsizer" (drySettings.processDefaults (dryEnvironment "true")) [])
    ⟨"Deployment", "shop", "api"⟩ [tenthCore] false ⟨Bench.start silentShop, Ledger.empty⟩ rfl rfl
    (fun n hn => absurd hn List.not_mem_nil) hsilent
  refine ⟨hload, rfl, hflags.2 hdefault Dict.empty rfl, ?_⟩
  unfold silentRun
  rw [hrun]
  rfl

/-- Under another word for truth the daemon is set up the same way, and the run writes. -/
theorem dryRun_lost_one :
    DaemonSettings.ofEnvironment (dryEnvironment "1") = .ok drySettings ∧ drySettings.defaultDryRun = true ∧
      Silent Dict.empty .dryRun ∧
      (Cascade.mk Dict.empty (drySettings.processDefaults (dryEnvironment "1"))).flag Setting.dryRun.name none =
        false ∧
      (silentRun (dryEnvironment "1")).world.count .write = 1 := by
  have hload : DaemonSettings.ofEnvironment (dryEnvironment "1") = .ok drySettings := rfl
  have hdefault : (ProcessDefaults.ofEnvironment (dryEnvironment "1")).get? Setting.dryRun.name = some "1" := rfl
  have hempty : Silent Dict.empty .dryRun := rfl
  refine ⟨hload, rfl, hempty, ?flag, by decide +kernel⟩
  case flag =>
    rw [Bool.eq_false_iff]
    intro hflag
    have hword := (DaemonSettings.flag_dryRun_iff hload rfl hempty).1 hflag
    rw [hdefault] at hword
    exact absurd hword (by decide)

end Allotment
