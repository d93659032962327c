import Allotment.Proofs.Controller.ScheduledRun

/-!
# Scheduled runs in any order

Any number of scheduled runs, in any order, over the targets of one inventory.

* `Controller.runAll` — the runs of a list of targets, one after another;
* `RanFor` — whether some run of a list could write under a key: its target has the key and a supported kind;
* `Converged` — the invariant: a workload is as a single run leaves it once its key had such a run, and was written at
  most by the first of these;
* `runs_converge` — what follows for writes, workloads and outcomes.
-/

namespace Allotment

/-- Scheduled runs, one after another. -/
def Controller.runAll {σ : Type} (c : Controller σ) (ts : List Target) (d : Desk σ) : Desk σ :=
  ts.foldl (fun d t => (c.runScheduled t d).2) d

/-- Whether one of the targets has the key, and a supported kind. -/
def RanFor (ts : List Target) (key : String) : Prop :=
  ∃ t ∈ ts, t.key = key ∧ t.Supported

instance (ts : List Target) (key : String) : Decidable (RanFor ts key) :=
  inferInstanceAs (Decidable (∃ t ∈ ts, t.key = key ∧ t.Supported))

/-- How often a write under a key was called. -/
def Bench.writesTo {σ : Type} (b : Bench σ) (key : String) : Nat :=
  b.calls.countP fun r => r.kind = .write ∧ r.target.key = key

theorem ranFor_append {ts : List Target} {t : Target} {key : String} :
    RanFor (ts ++ [t]) key ↔ RanFor ts key ∨ (t.key = key ∧ t.Supported) := by
  simp [RanFor, or_and_right, exists_or]

namespace Inventory

variable {i : Inventory} {t : Target} {w : ManagedWorkload} {ts : List Target}
variable {name : String} {defaults : ProcessDefaults} {notifiers : List (Notifier (Bench Inventory))}
variable {d : Desk (Bench Inventory)}

/-! ### One run, key by key -/

theorem runScheduled_of_not_supported (ht : ¬ t.Supported) :
    (controller name defaults notifiers).runScheduled t d = (.error (.unsupportedKind t.kind), d) := by
  unfold Controller.runScheduled
  rw [if_pos (Target.isNone_ofName?_iff.2 ht)]

theorem get?_runScheduled (hn : ∀ n ∈ notifiers, n.Aside) (ht : t.Supported) (hfaults : d.world.faults = [])
    (hw : d.world.world.workloads.get? t.key = some w) (key : String) :
    ((controller name defaults notifiers).runScheduled t d).2.world.world.workloads.get? key =
      if key = t.key then some (w.after defaults) else d.world.world.workloads.get? key := by
  rw [(runScheduled_known hn ht hfaults hw).2.1]
  cases hwritten : w.isWritten defaults with
  | true => rw [if_pos rfl, Dict.get?_insert]
  | false =>
    rw [if_neg Bool.false_ne_true]
    split
    · next hkey => rw [hkey, hw, ManagedWorkload.after_of_not_isWritten hwritten]
    · rfl

theorem writesTo_runScheduled (hn : ∀ n ∈ notifiers, n.Aside) (ht : t.Supported) (hfaults : d.world.faults = [])
    (hw : d.world.world.workloads.get? t.key = some w) (key : String) :
    ((controller name defaults notifiers).runScheduled t d).2.world.writesTo key =
      d.world.writesTo key + if t.key = key ∧ w.isWritten defaults = true then 1 else 0 := by
  unfold Bench.writesTo
  rw [(runScheduled_known hn ht hfaults hw).2.2.1, List.countP_append, List.countP_append]
  cases hwritten : w.isWritten defaults with
  | true => simp [Request.kind, Request.target, List.countP_cons]
  | false => simp [Request.kind]

/-! ### The invariant -/

/-- Whether the first run for a key writes. -/
def isDue (i : Inventory) (defaults : ProcessDefaults) (key : String) : Bool :=
  (i.workloads.get? key).any fun w => w.isWritten defaults

/-- What runs for some targets have made of an inventory. -/
structure Converged (defaults : ProcessDefaults) (i : Inventory) (ts : List Target) (b : Bench Inventory) : Prop where
  faults : b.faults = []
  workloads : ∀ key, b.world.workloads.get? key =
    (i.workloads.get? key).map fun w => if RanFor ts key then w.after defaults else w
  writes : ∀ key, b.writesTo key = if RanFor ts key ∧ i.isDue defaults key = true then 1 else 0

theorem converged_start : Converged defaults i [] (Bench.start i) where
  faults := rfl
  workloads key := by simp [RanFor, Bench.start]
  writes key := by simp [RanFor, Bench.start, Bench.writesTo]

namespace Converged

/-- One more run. Where its key had a run before, it finds what a run has left. -/
theorem step (hn : ∀ n ∈ notifiers, n.Aside) (h : Converged defaults i ts d.world)
    (hw : i.workloads.get? t.key = some w) :
    Converged defaults i (ts ++ [t]) ((controller name defaults notifiers).runScheduled t d).2.world := by
  by_cases ht : t.Supported
  case neg =>
    have hran : ∀ key, RanFor (ts ++ [t]) key ↔ RanFor ts key := by simp [ranFor_append, ht]
    rw [runScheduled_of_not_supported ht]
    exact ⟨h.faults, by simpa only [hran] using h.workloads, by simpa only [hran] using h.writes⟩
  case pos =>
    have hnow := h.workloads t.key
    rw [hw, Option.map_some] at hnow
    refine ⟨(runScheduled_known hn ht h.faults hnow).2.2.2, fun key => ?workloads, fun key => ?writes⟩
    case workloads =>
      rw [get?_runScheduled hn ht h.faults hnow, h.workloads]
      by_cases hkey : key = t.key
      · subst hkey
        have hran : RanFor (ts ++ [t]) t.key := ranFor_append.2 (.inr ⟨rfl, ht⟩)
        rw [if_pos rfl, hw, Option.map_some, if_pos hran]
        split
        · rw [ManagedWorkload.after_after]
        · rfl
      · have hran : RanFor (ts ++ [t]) key ↔ RanFor ts key := by simp [ranFor_append, Ne.symm hkey]
        simp only [if_neg hkey, hran]
    case writes =>
      rw [writesTo_runScheduled hn ht h.faults hnow, h.writes]
      by_cases hkey : t.key = key
      · subst hkey
        have hran : RanFor (ts ++ [t]) t.key := ranFor_append.2 (.inr ⟨rfl, ht⟩)
        have hdue : i.isDue defaults t.key = w.isWritten defaults := by simp [isDue, hw]
        by_cases hbefore : RanFor ts t.key
        · simp [hbefore, hran, hdue, ManagedWorkload.isWritten_after]
        · simp [hbefore, hran, hdue]
      · have hran : RanFor (ts ++ [t]) key ↔ RanFor ts key := by simp [ranFor_append, hkey]
        simp only [hran, hkey, false_and, if_false, Nat.add_zero]

/-- Any number of runs more, by induction on their targets. -/
theorem runAll (hn : ∀ n ∈ notifiers, n.Aside) :
    ∀ {ts us : List Target} {d : Desk (Bench Inventory)}, Converged defaults i ts d.world →
      (∀ t ∈ us, ∃ w, i.workloads.get? t.key = some w) →
      Converged defaults i (ts ++ us) ((controller name defaults notifiers).runAll us d).world := by
  intro ts us
  induction us generalizing ts with
  | nil =>
    intro d h _
    rwa [List.append_nil]
  | cons t us ih =>
    intro d h hus
    obtain ⟨⟨w, hw⟩, hus⟩ := List.forall_mem_cons.1 hus
    have hstep : Converged defaults i (ts ++ [t]) ((controller name defaults notifiers).runScheduled t d).2.world :=
      h.step hn hw
    have hrest := ih hstep hus
    rwa [List.append_assoc] at hrest

/-- A run after others finds its workload as it was, or as a run has left it. -/
theorem outcome (hn : ∀ n ∈ notifiers, n.Aside) (h : Converged defaults i ts d.world) (ht : t.Supported)
    (hw : i.workloads.get? t.key = some w) :
    ((controller name defaults notifiers).runScheduled t d).1 =
      .ok ((if RanFor ts t.key then w.after defaults else w).outcome defaults t.key) := by
  have hnow := h.workloads t.key
  rw [hw, Option.map_some] at hnow
  exact (runScheduled_known hn ht h.faults hnow).1

end Converged

/-- **Scheduled runs converge, in any order.** However often they are repeated, a key is written once at most; what is
left of a workload depends on its key having had a run, and has other containers only; and a later run of a key is a
success without changes, or as dry as the first. -/
theorem runs_converge (name : String) (defaults : ProcessDefaults) (notifiers : List (Notifier (Bench Inventory)))
    (hn : ∀ n ∈ notifiers, n.Aside) (i : Inventory) (ledger : Ledger) (ts : List Target)
    (hts : ∀ t ∈ ts, ∃ w, i.workloads.get? t.key = some w) :
    let c := controller name defaults notifiers
    let start : Desk (Bench Inventory) := ⟨Bench.start i, ledger⟩
    let final := (c.runAll ts start).world
    (∀ key, final.writesTo key ≤ 1) ∧
      (∀ key, final.world.workloads.get? key = (i.workloads.get? key).map fun w =>
        if RanFor ts key then { w with containers := w.settled defaults } else w) ∧
      ∀ before t later w, ts = before ++ t :: later → t.Supported → i.workloads.get? t.key = some w →
        let run := (c.runScheduled t (c.runAll before start)).1
        if w.isDry defaults then
          (∃ o, run = .ok o ∧ o.changes = (w.plan defaults).changes) ∧ final.writesTo t.key = 0
        else RanFor before t.key → run = .ok (.success t.key []) := by
  intro c start final
  have hfinal : Converged defaults i ts final := by
    simpa using converged_start.runAll (d := start) hn hts
  refine ⟨fun key => ?once, hfinal.workloads, ?runs⟩
  case once =>
    rw [hfinal.writes]
    split
    · exact Nat.le_refl 1
    · exact Nat.zero_le 1
  case runs =>
    rintro before t later w rfl ht hw run
    have hknown : ∀ t ∈ before, ∃ w, i.workloads.get? t.key = some w :=
      fun t hmem => hts t (List.mem_append_left _ hmem)
    have hbefore : Converged defaults i before (c.runAll before start).world := by
      simpa using converged_start.runAll (d := start) hn hknown
    have hrun : run = .ok ((if RanFor before t.key then w.after defaults else w).outcome defaults t.key) :=
      hbefore.outcome hn ht hw
    split
    case isTrue hdry =>
      have hafter : w.after defaults = w := ManagedWorkload.after_of_isDry hdry
      rw [hafter, ite_self] at hrun
      refine ⟨⟨_, hrun, ManagedWorkload.changes_outcome t.key⟩, ?_⟩
      rw [hfinal.writes, if_neg]
      simp [isDue, hw, ManagedWorkload.isWritten, hdry]
    case isFalse hdry =>
      intro hran
      rw [if_pos hran, ManagedWorkload.outcome_after (by simpa using hdry)] at hrun
      exact hrun

/-- Two workloads that are to request a quarter of a core in the place of a tenth, and the second not yet. -/
def twoShops : Inventory :=
  let app : Container := ⟨"app", ⟨⟨some ⟨.cpu, 100, .decimal⟩, none⟩, ⟨none, none⟩⟩⟩
  let quarter : Recommendation := ⟨"app", Estimate.empty, ⟨some ⟨.cpu, 250, .decimal⟩, none⟩, Estimate.empty⟩
  let workload (space : String) (notes : Annotations) : String × ManagedWorkload :=
    (space ++ "/api", ⟨⟨"Deployment", space, "api"⟩, notes, [app], some [quarter], []⟩)
  ⟨Dict.ofPairs [workload "east" Dict.empty, workload "west" (Dict.ofPairs [("rightsizer.io/dry-run", "true")])]⟩

/-- Runs for both, one of them under a kind that is not supported and one repeated under another kind. -/
def shopRuns : List Target :=
  [⟨"Job", "east", "api"⟩, ⟨"Deployment", "east", "api"⟩, ⟨"Deployment", "west", "api"⟩, ⟨"StatefulSet", "east", "api"⟩]

/-- One notifier that keeps what it sees and fails, and one that writes notices. -/
def shopNotifiers : List (Notifier (Bench Inventory)) :=
  [.watched 0 (.silent (some "unreachable")), .journal]

/-- The first workload gets what is recommended and then stays, the second is left alone. -/
theorem runs_converge_twoShops :
    (∀ n ∈ shopNotifiers, n.Aside) ∧ (∀ t ∈ shopRuns, ∃ w, twoShops.workloads.get? t.key = some w) ∧
      let c := controller "rightsizer" ProcessDefaults.empty shopNotifiers
      let start : Desk (Bench Inventory) := ⟨Bench.start twoShops, Ledger.empty⟩
      let final := (c.runAll shopRuns start).world
      final.writesTo "east/api" ≤ 1 ∧
        (final.world.workloads.get? "east/api").map (fun w => w.containers.map fun c => c.get ⟨.cpu, .request⟩) =
          some [some ⟨.cpu, 250, .decimal⟩] ∧
        (c.runScheduled ⟨"StatefulSet", "east", "api"⟩ (c.runAll (shopRuns.take 3) start)).1 =
          .ok (.success "east/api" []) ∧
        final.writesTo "west/api" = 0 := by
  have hn : ∀ n ∈ shopNotifiers, n.Aside :=
    List.forall_mem_cons.2 ⟨fun _ _ => ⟨rfl, rfl, rfl⟩,
      List.forall_mem_cons.2 ⟨fun _ b => .refl b, fun _ h => absurd h List.not_mem_nil⟩⟩
  have hts : ∀ t ∈ shopRuns, ∃ w, twoShops.workloads.get? t.key = some w := by
    intro t ht
    simp only [shopRuns, List.mem_cons, List.not_mem_nil, or_false] at ht
    obtain rfl | rfl | rfl | rfl := ht <;> exact ⟨_, rfl⟩
  obtain ⟨honce, hleft, hruns⟩ :=
    runs_converge "rightsizer" ProcessDefaults.empty shopNotifiers hn twoShops Ledger.empty shopRuns hts
  refine ⟨hn, hts, honce "east/api", ?left, ?again, ?dry⟩
  case left =>
    rw [hleft]
    rfl
  case again =>
    have hagain := hruns (shopRuns.take 3) ⟨"StatefulSet", "east", "api"⟩ [] _ rfl (by decide) rfl
    exact hagain (by decide)
  case dry =>
    have hdry := hruns (shopRuns.take 2) ⟨"Deployment", "west", "api"⟩ (shopRuns.drop 3) _ rfl (by decide) rfl
    exact hdry.2

end Inventory

end Allotment
