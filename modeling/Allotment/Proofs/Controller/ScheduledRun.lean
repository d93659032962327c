import Allotment.Controller.Basic
import Allotment.Controller.Bench
import Allotment.Controller.Store
import Allotment.Proofs.Plan.Difference
import Allotment.Proofs.Plan.Settled

/-!
# One scheduled run over an inventory

The inventory is store and source at once, and stands on a bench, so that the writes to it can be counted.

* `Inventory.controller` — the controller of an inventory on a bench;
* `Notifier.Aside` — a notifier that is told outcomes and does not reach the inventory;
* `ManagedWorkload.plan`, `isDry`, `isWritten`, `settled`, `outcome` — what one run makes of a workload;
* `isWritten_after`, `outcome_after` — a run on what a run has left writes nothing;
* `runScheduled_known` — a run for a target of the inventory, in these terms: its outcome, the calls that it makes, and
  the inventory after it.
-/

namespace Allotment

/-- The controller of an inventory on a bench. -/
def Inventory.controller (name : String) (defaults : ProcessDefaults) (notifiers : List (Notifier (Bench Inventory))) :
    Controller (Bench Inventory) :=
  ⟨name, Bench.around Inventory.backend, defaults, notifiers⟩

/-- Nothing of a bench changed but what watched notifiers have seen. -/
structure Bench.Frame {σ : Type} (b b' : Bench σ) : Prop where
  world : b'.world = b.world
  calls : b'.calls = b.calls
  faults : b'.faults = b.faults

theorem Bench.Frame.refl {σ : Type} (b : Bench σ) : b.Frame b := ⟨rfl, rfl, rfl⟩

theorem Bench.Frame.trans {σ : Type} {b b' b'' : Bench σ} (h : b.Frame b') (h' : b'.Frame b'') : b.Frame b'' :=
  ⟨h'.world.trans h.world, h'.calls.trans h.calls, h'.faults.trans h.faults⟩

/-- A notifier that may read everything and may fail, and does not reach the store. -/
def Notifier.Aside {σ : Type} (n : Notifier (Bench σ)) : Prop :=
  ∀ (o : Outcome) (b : Bench σ), b.Frame (n.notify o b).2

/-- Whether the kind of a target is one whose containers can be patched. -/
def Target.Supported (t : Target) : Prop :=
  (WorkloadKind.ofName? t.kind).isSome = true

instance (t : Target) : Decidable t.Supported :=
  inferInstanceAs (Decidable (_ = true))

/-- What every entry of a controller looks at first. -/
theorem Target.isNone_ofName?_iff {t : Target} : (WorkloadKind.ofName? t.kind).isNone = true ↔ ¬ t.Supported := by
  simp [Supported]

/-! ### What a run makes of a workload -/

namespace ManagedWorkload

variable (w : ManagedWorkload) (defaults : ProcessDefaults)

/-- The plan for a workload under its own policy and status. -/
def plan : Plan :=
  Allotment.plan ⟨w.annotations, defaults⟩ ⟨w.recommendations, w.bounds⟩ w.containers

/-- Whether the policy of a workload as a whole asks for dry runs. -/
def isDry : Bool :=
  (Effective.of ⟨w.annotations, defaults⟩ none).dryRun

/-- Whether a run writes a workload. -/
def isWritten : Bool :=
  !(w.plan defaults).isNoop && !w.isDry defaults

/-- The containers of a workload after a run. -/
def settled : List Container :=
  if w.isDry defaults then w.containers else (w.plan defaults).containers

/-- A workload after a run. -/
def after : ManagedWorkload :=
  { w with containers := w.settled defaults }

/-- The outcome of a run under a key. -/
def outcome (key : String) : Outcome :=
  if (w.plan defaults).isNoop then .success key (w.plan defaults).changes
  else if w.isDry defaults then .dryRun key (w.plan defaults).changes
  else .success key (w.plan defaults).changes

variable {w defaults}

theorem settled_of_not_isWritten (h : w.isWritten defaults = false) : w.settled defaults = w.containers := by
  unfold settled
  split
  · rfl
  · next hdry =>
    have hnoop : (w.plan defaults).isNoop = true := by
      simpa [isWritten, hdry] using h
    exact containers_plan_of_isNoop hnoop

theorem after_of_not_isWritten (h : w.isWritten defaults = false) : w.after defaults = w := by
  rw [after, settled_of_not_isWritten h]

theorem settled_of_isWritten (h : w.isWritten defaults = true) :
    w.settled defaults = (w.plan defaults).containers := by
  unfold isWritten at h
  rw [Bool.and_eq_true, Bool.not_eq_true'] at h
  rw [settled, if_neg (by simpa using h.2)]

theorem after_of_isDry (h : w.isDry defaults = true) : w.after defaults = w :=
  after_of_not_isWritten (by simp [isWritten, h])

@[simp] theorem isDry_after : (w.after defaults).isDry defaults = w.isDry defaults := rfl

theorem plan_after (h : w.isDry defaults = false) :
    (w.after defaults).plan defaults = ⟨w.settled defaults, []⟩ := by
  have hsettled : w.settled defaults = (w.plan defaults).containers := by simp [settled, h]
  have hrest := settled_plan ⟨w.annotations, defaults⟩ ⟨w.recommendations, w.bounds⟩ w.containers
  rw [hsettled]
  unfold after
  rw [hsettled]
  exact plan_of_settled hrest

theorem isWritten_after : (w.after defaults).isWritten defaults = false := by
  cases h : w.isDry defaults with
  | true => simp [isWritten, h]
  | false => simp [isWritten, plan_after h, Plan.isNoop]

theorem after_after : (w.after defaults).after defaults = w.after defaults :=
  after_of_not_isWritten isWritten_after

theorem outcome_after (h : w.isDry defaults = false) (key : String) :
    (w.after defaults).outcome defaults key = .success key [] := by
  simp [outcome, plan_after h, Plan.isNoop]

@[simp] theorem changes_outcome (key : String) :
    (w.outcome defaults key).changes = (w.plan defaults).changes := by
  unfold outcome
  split
  · rfl
  · split <;> rfl

end ManagedWorkload

/-! ### Calls on a bench -/

/-- A desk after some more calls. -/
def Desk.called {σ : Type} (d : Desk (Bench σ)) (rs : List Request) : Desk (Bench σ) :=
  { d with world := { d.world with calls := d.world.calls ++ rs } }

theorem Desk.called_called {σ : Type} (d : Desk (Bench σ)) (rs ss : List Request) :
    (d.called rs).called ss = d.called (rs ++ ss) := by
  simp [called, List.append_assoc]

namespace Controller

variable {σ : Type} {c : Controller (Bench σ)}

theorem frame_foldl_tell {notifiers : List (Notifier (Bench σ))} (hn : ∀ n ∈ notifiers, n.Aside) (o : Outcome) :
    ∀ d : Desk (Bench σ), d.world.Frame (notifiers.foldl (tell o) d).world := by
  induction notifiers with
  | nil => exact fun d => .refl d.world
  | cons n ns ih =>
    obtain ⟨hhead, htail⟩ := List.forall_mem_cons.1 hn
    intro d
    have htell : d.world.Frame (tell o d n).world := hhead o d.world
    exact htell.trans (ih htail (tell o d n))

/-- The end of a run is told to the notifiers, and the store is left as it is. -/
theorem frame_conclude (hn : ∀ n ∈ c.notifiers, n.Aside) (o : Outcome) (d : Desk (Bench σ)) :
    d.world.Frame (c.conclude o d).world := by
  unfold conclude report
  simp only
  split
  · exact .refl d.world
  · generalize Ledger.note _ _ = ledger
    exact frame_foldl_tell hn o ⟨d.world, ledger⟩

end Controller

namespace Inventory

variable {i : Inventory} {t : Target} {w : ManagedWorkload}

theorem readOf_known {α : Type} {d : Desk (Bench Inventory)} (hfaults : d.world.faults = [])
    (hw : d.world.world.workloads.get? t.key = some w) (what : String) (r : Request)
    (f : ManagedWorkload → α) :
    Controller.readOf what t (Bench.through r (reading fun i => i.read t f)) d = (.ok (f w), d.called [r]) := by
  have hfault : d.world.faults.lookup r.kind = none := by rw [hfaults, List.lookup_nil]
  simp only [Controller.readOf, Controller.ask, Bench.through_of_no_fault hfault, reading, read_of_known hw]
  rfl

section Run

variable {name : String} {defaults : ProcessDefaults} {notifiers : List (Notifier (Bench Inventory))}
variable {d : Desk (Bench Inventory)}

theorem write_known (hfaults : d.world.faults = []) (hw : d.world.world.workloads.get? t.key = some w)
    (cs : List Container) :
    Controller.ask ((controller name defaults notifiers).backend.write t cs) d =
      (.ok (), { d with world := { d.world with
          world := ⟨d.world.world.workloads.insert t.key { w with containers := cs }⟩
          calls := d.world.calls ++ [.write t cs] } }) := by
  have hfault : d.world.faults.lookup CallKind.write = none := by rw [hfaults, List.lookup_nil]
  simp only [Controller.ask, controller, Bench.around,
    Bench.through_of_no_fault (r := .write t cs) hfault, backend, writing, write_of_known hw]

/-- A plan is committed by one write at most, and only when it has changes and is not dry. -/
theorem commit_known (hfaults : d.world.faults = []) (hw : d.world.world.workloads.get? t.key = some w) :
    (controller name defaults notifiers).commit t (w.plan defaults) (w.isDry defaults) d =
      (w.outcome defaults t.key, { d with world := { d.world with
          world := if w.isWritten defaults then ⟨d.world.world.workloads.insert t.key (w.after defaults)⟩
            else d.world.world
          calls := d.world.calls ++ if w.isWritten defaults then [.write t (w.settled defaults)] else [] } }) := by
  unfold Controller.commit ManagedWorkload.outcome
  cases hnoop : (w.plan defaults).isNoop with
  | true => simp [ManagedWorkload.isWritten, hnoop]
  | false =>
    cases hdry : w.isDry defaults with
    | true => simp [ManagedWorkload.isWritten, hdry]
    | false =>
      have hwritten : w.isWritten defaults = true := by simp [ManagedWorkload.isWritten, hnoop, hdry]
      have hsettled := ManagedWorkload.settled_of_isWritten hwritten
      simp only [Bool.false_eq_true, if_false, hwritten, if_true, ← hsettled, write_known hfaults hw]
      rfl

/-- A run reads three times, commits, and concludes with the outcome. -/
theorem runScheduled_eq (ht : t.Supported) (hfaults : d.world.faults = [])
    (hw : d.world.world.workloads.get? t.key = some w) :
    let c := controller name defaults notifiers
    let committed := c.commit t (w.plan defaults) (w.isDry defaults) (d.called [.containers t, .policy t, .status t])
    c.runScheduled t d = (.ok committed.1, c.conclude committed.1 committed.2) := by
  have hkind : (WorkloadKind.ofName? t.kind).isNone = false :=
    Bool.eq_false_iff.2 fun h => Target.isNone_ofName?_iff.1 h ht
  have hcontainers : Controller.readOf "containers" t ((controller name defaults notifiers).backend.containers t) d =
      (.ok w.containers, d.called [.containers t]) :=
    readOf_known hfaults hw _ _ _
  have hpolicy : Controller.readOf "policy" t ((controller name defaults notifiers).backend.policy t)
      (d.called [.containers t]) = (.ok w.annotations, (d.called [.containers t]).called [.policy t]) :=
    readOf_known (d := d.called [.containers t]) hfaults hw _ _ _
  have hstatus : Controller.readOf "recommendations" t ((controller name defaults notifiers).backend.status t)
      ((d.called [.containers t]).called [.policy t]) =
        (.ok ⟨w.recommendations, w.bounds⟩, ((d.called [.containers t]).called [.policy t]).called [.status t]) :=
    readOf_known (d := (d.called [.containers t]).called [.policy t]) hfaults hw _ _ _
  simp only [Controller.runScheduled, Controller.apply, hkind, Bool.false_eq_true, if_false, hcontainers, hpolicy,
    hstatus]
  simp only [Desk.called_called]
  rfl

/-- **One scheduled run**, for a target of the inventory of a supported kind: three reads, then perhaps one write of
the planned containers under the key of the target; nothing else of the inventory changes. -/
theorem runScheduled_known (hn : ∀ n ∈ notifiers, n.Aside) (ht : t.Supported) (hfaults : d.world.faults = [])
    (hw : d.world.world.workloads.get? t.key = some w) :
    let run := (controller name defaults notifiers).runScheduled t d
    run.1 = .ok (w.outcome defaults t.key) ∧
      run.2.world.world =
        (if w.isWritten defaults then ⟨d.world.world.workloads.insert t.key (w.after defaults)⟩ else d.world.world) ∧
      run.2.world.calls = d.world.calls ++ [.containers t, .policy t, .status t] ++
        (if w.isWritten defaults then [.write t (w.settled defaults)] else []) ∧
      run.2.world.faults = [] := by
  intro run
  unfold run
  rw [runScheduled_eq ht hfaults hw,
    commit_known (d := d.called [.containers t, .policy t, .status t]) hfaults hw]
  refine ⟨rfl, ?world, ?calls, ?faults⟩
  case world => exact (Controller.frame_conclude hn _ _).world
  case calls => exact (Controller.frame_conclude hn _ _).calls
  case faults => exact (Controller.frame_conclude hn _ _).faults.trans hfaults

end Run

end Inventory

end Allotment
