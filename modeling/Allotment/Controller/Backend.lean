import Allotment.Ledger
import Allotment.Policy.Cascade
import Allotment.Recommendation
import Allotment.Schedule.Basic
/-!
# What a controller works with

A controller reads policies and containers from a store, recommendations from a source, and writes containers back to
the store. Whatever state these have is a world `σ`; each call may change it, and may fail with a text.

* `Backend` lists the calls. `Backend.split` makes one read out of two, for sources that do not have it.
* A `Notifier` is told outcomes that have changes; it may write notices, and may fail.
-/

namespace Allotment

/-- A call to the world, which may fail with a text. -/
abbrev Call (σ α : Type) := σ → Except String α × σ

/-- The store of workloads and the source of recommendations. -/
structure Backend (σ : Type) where
  policy : Target → Call σ Annotations
  containers : Target → Call σ (List Container)
  write : Target → List Container → Call σ Unit
  recommendations : Target → Call σ (Option (List Recommendation))
  bounds : Target → Call σ (List Bound)
  /-- Recommendations and bounds in one read. -/
  status : Target → Call σ Status
  /-- How long the present run has taken, in seconds. -/
  elapsed : σ → Float

namespace Backend

/-- A status from two reads. The second is left out when the first fails. -/
def statusOf {σ : Type} (recommendations : Target → Call σ (Option (List Recommendation)))
    (bounds : Target → Call σ (List Bound)) (t : Target) : Call σ Status := fun s =>
  match recommendations t s with
  | (.error e, s) => (.error e, s)
  | (.ok recs, s) =>
    match bounds t s with
    | (.error e, s) => (.error e, s)
    | (.ok bs, s) => (.ok ⟨recs, bs⟩, s)

/-- The same calls, but the status takes the two reads. -/
def split {σ : Type} (b : Backend σ) : Backend σ :=
  { b with status := statusOf b.recommendations b.bounds }

end Backend

/-- What a notifier does with an outcome: the notices that it writes, and how it failed, if it did. -/
structure Delivery where
  notices : List Notice
  failure : Option String

/-- Someone who is told outcomes. -/
structure Notifier (σ : Type) where
  notify : Outcome → σ → Delivery × σ

/-- The notifier that does nothing, and may fail at that. -/
def Notifier.silent {σ : Type} (failure : Option String) : Notifier σ where
  notify _ s := (⟨[], failure⟩, s)

/-- The notifier that writes a notice for each change. -/
def Notifier.journal {σ : Type} : Notifier σ where
  notify o s := (⟨o.changes.map fun c => .resourceChange o.key o.kind c.text, none⟩, s)

/-- The world, and the ledger of what was done in it. -/
structure Desk (σ : Type) where
  world : σ
  ledger : Ledger

/-- Why a run ended before anything was computed or written. -/
inductive RunError where
  | unsupportedKind (kind : String)
  | source (what key cause : String)
  | invalidCron (error : ScheduleError)
  deriving DecidableEq, Repr

def RunError.message : RunError → String
  | unsupportedKind kind => s!"unsupported workload kind '{kind}'"
  | source what key cause => s!"failed to read {what} for {key}: {cause}"
  | invalidCron error => s!"invalid schedule: {error.message}"

end Allotment
