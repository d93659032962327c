import Allotment.Controller.Backend
import Allotment.Plan.Basic
/-!
# The controller

A controller plans the containers of a target under its policy and writes what changed. The same plan is made for a
workload that is about to be created, which is then patched instead of written.

* `Controller.apply` is a run on given containers, `Controller.runScheduled` one on the containers in the store.
* `Controller.review` is the review of an incoming workload; it never writes.
* `Controller.report` counts an outcome, tells it in the journal and passes it on to the notifiers. An outcome
  without changes is only counted.
-/

namespace Allotment

/-- A controller over a world. -/
structure Controller (σ : Type) where
  name : String
  backend : Backend σ
  defaults : ProcessDefaults
  notifiers : List (Notifier σ)

/-- The containers of a reviewed workload, and the outcome unless the review is switched off. -/
structure Review where
  containers : List Container
  outcome : Option Outcome
  deriving DecidableEq, Repr

namespace Controller

variable {σ : Type}

/-- Work at a desk. -/
abbrev Work (σ α : Type) := Desk σ → α × Desk σ

/-- The notice of an outcome that has changes. -/
def outcomeNotice (controller : String) (o : Outcome) : Notice :=
  match o.kind with
  | .success => .updated controller o.key false o.texts
  | .dryRun => .updated controller o.key true o.texts
  | .failed => .updateFailed controller o.key o.texts (o.error.getD "")

/-- Tells an outcome to one notifier. A failure is noted and goes no further. -/
def tell (o : Outcome) (d : Desk σ) (n : Notifier σ) : Desk σ :=
  let (delivery, world) := n.notify o d.world
  let failed := delivery.failure.toList.map fun e => Notice.notifierFailed o.key e
  ⟨world, d.ledger.noteAll (delivery.notices ++ failed)⟩

/-- Counts an outcome and, if it has changes, tells it. -/
def report (c : Controller σ) (o : Outcome) (d : Desk σ) : Desk σ :=
  let counted : Desk σ := { d with ledger := { d.ledger with metrics := d.ledger.metrics.record o } }
  if o.isNoop then counted
  else c.notifiers.foldl (tell o) { counted with ledger := counted.ledger.note (outcomeNotice c.name o) }

/-- Makes a call to the world. -/
def ask {α : Type} (f : Call σ α) : Work σ (Except String α) := fun d =>
  let (r, world) := f d.world
  (r, { d with world })

/-- Makes a read. A failure tells what was read, and of what. -/
def readOf {α : Type} (what : String) (t : Target) (f : Call σ α) : Work σ (Except RunError α) := fun d =>
  let (r, d) := ask f d
  (r.mapError (RunError.source what t.key), d)

/-- The cascade of a policy. -/
def cascade (c : Controller σ) (policy : Annotations) : Cascade :=
  ⟨policy, c.defaults⟩

/-- The outcome of a plan, and the desk after it was written, if it had to be. -/
def commit (c : Controller σ) (t : Target) (p : Plan) (dryRun : Bool) : Work σ Outcome := fun d =>
  if p.isNoop then (.success t.key p.changes, d)
  else if dryRun then (.dryRun t.key p.changes, d)
  else
    match ask (c.backend.write t p.containers) d with
    | (.ok _, d) => (.success t.key p.changes, d)
    | (.error e, d) => (.failed t.key p.changes e, d)

/-- Notes how long the run took, and reports its outcome. -/
def conclude (c : Controller σ) (o : Outcome) (d : Desk σ) : Desk σ :=
  let metrics := d.ledger.metrics.observe (c.backend.elapsed d.world)
  c.report o { d with ledger := { d.ledger with metrics } }

/-- A run on given containers. It is a dry run if the caller or the policy says so. -/
def apply (c : Controller σ) (t : Target) (containers : List Container) (dryRun : Bool) :
    Work σ (Except RunError Outcome) := fun d =>
  if (WorkloadKind.ofName? t.kind).isNone then (.error (.unsupportedKind t.kind), d)
  else
    match readOf "policy" t (c.backend.policy t) d with
    | (.error e, d) => (.error e, d)
    | (.ok policy, d) =>
      match readOf "recommendations" t (c.backend.status t) d with
      | (.error e, d) => (.error e, d)
      | (.ok status, d) =>
        let cascade := c.cascade policy
        let dry := dryRun || (Effective.of cascade none).dryRun
        let (o, d) := c.commit t (plan cascade status containers) dry d
        (.ok o, c.conclude o d)

/-- A run on the containers in the store. -/
def runScheduled (c : Controller σ) (t : Target) : Work σ (Except RunError Outcome) := fun d =>
  if (WorkloadKind.ofName? t.kind).isNone then (.error (.unsupportedKind t.kind), d)
  else
    match readOf "containers" t (c.backend.containers t) d with
    | (.error e, d) => (.error e, d)
    | (.ok containers, d) => c.apply t containers false d

/-- The review of an incoming workload with its own policy. -/
def review (c : Controller σ) (t : Target) (containers : List Container) (policy : Annotations) :
    Work σ (Except RunError Review) := fun d =>
  if (WorkloadKind.ofName? t.kind).isNone then (.error (.unsupportedKind t.kind), d)
  else
    let cascade := c.cascade policy
    let workload := Effective.of cascade none
    if !workload.webhookEnabled then (.ok ⟨containers, none⟩, d)
    else
      match readOf "recommendations" t (c.backend.status t) d with
      | (.error e, d) => (.error e, d)
      | (.ok status, d) =>
        let p := plan cascade status containers
        if workload.dryRun then
          let o := Outcome.dryRun t.key p.changes
          (.ok ⟨containers, some o⟩, c.report o d)
        else
          let o := Outcome.success t.key p.changes
          (.ok ⟨p.containers, some o⟩, c.report o d)

/-- The policy of a target as a whole. -/
def targetPolicy (c : Controller σ) (t : Target) : Work σ (Except RunError Effective) := fun d =>
  if (WorkloadKind.ofName? t.kind).isNone then (.error (.unsupportedKind t.kind), d)
  else
    let (r, d) := readOf "policy" t (c.backend.policy t) d
    (r.map fun policy => Effective.of (c.cascade policy) none, d)

/-- The job of a scheduled target: a run, whose end is told in the journal. -/
def runJob (c : Controller σ) (key : String) (t : Target) (d : Desk σ) : Desk σ :=
  let (r, d) := c.runScheduled t d
  let notice : Notice := match r with
    | .ok o => .runFinished key o.kind o.changes.length
    | .error e => .runFailed key e.message
  { d with ledger := d.ledger.note notice }

end Controller

end Allotment
