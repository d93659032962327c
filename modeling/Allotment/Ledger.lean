import Allotment.Notice
/-!
# The ledger

The ledger holds what a process has counted and told so far: metrics and the journal.

* `Metrics.record` counts one outcome; the changes of an outcome count when they were written.
* `Histogram.atMost` counts the observations up to a bound.
-/

namespace Allotment

/-- Observations of how long runs took, in seconds. -/
structure Histogram where
  observations : List Float

namespace Histogram

def empty : Histogram := ⟨[]⟩

def observe (h : Histogram) (seconds : Float) : Histogram :=
  ⟨seconds :: h.observations⟩

def size (h : Histogram) : Nat := h.observations.length

/-- The number of observations up to a bound. -/
def atMost (h : Histogram) (bound : Float) : Nat :=
  h.observations.countP fun x => x ≤ bound

/-- The bounds under which observations are told, with their names. -/
def bounds : List (String × Float) :=
  [("0.001", 0.001), ("0.005", 0.005), ("0.01", 0.01), ("0.05", 0.05), ("0.1", 0.1), ("0.25", 0.25), ("0.5", 0.5),
    ("1", 1.0), ("2.5", 2.5), ("5", 5.0), ("10", 10.0)]

end Histogram

/-- What was counted. -/
structure Metrics where
  succeeded : Nat
  dryRuns : Nat
  failed : Nat
  changes : Nat
  durations : Histogram
  scheduledTargets : Int

namespace Metrics

def zero : Metrics := ⟨0, 0, 0, 0, Histogram.empty, 0⟩

/-- The number of outcomes of a kind. -/
def runs (m : Metrics) : OutcomeKind → Nat
  | .success => m.succeeded
  | .dryRun => m.dryRuns
  | .failed => m.failed

/-- Counts an outcome and, if they were written, its changes. -/
def record (m : Metrics) (o : Outcome) : Metrics :=
  match o.kind with
  | .success => { m with succeeded := m.succeeded + 1, changes := m.changes + o.changes.length }
  | .dryRun => { m with dryRuns := m.dryRuns + 1 }
  | .failed => { m with failed := m.failed + 1 }

/-- Notes how long a run took. -/
def observe (m : Metrics) (seconds : Float) : Metrics :=
  { m with durations := m.durations.observe seconds }

theorem runs_record (m : Metrics) (o : Outcome) (k : OutcomeKind) :
    (m.record o).runs k = m.runs k + if o.kind = k then 1 else 0 := by
  unfold record
  cases h : o.kind <;> cases k <;> rfl

theorem changes_record (m : Metrics) (o : Outcome) :
    (m.record o).changes = m.changes + if o.kind = .success then o.changes.length else 0 := by
  unfold record
  cases h : o.kind <;> rfl

end Metrics

/-- What was counted, and what was told, the latest last. -/
structure Ledger where
  metrics : Metrics
  journal : List Notice

namespace Ledger

def empty : Ledger := ⟨Metrics.zero, []⟩

/-- Adds a notice to the journal. -/
def note (l : Ledger) (n : Notice) : Ledger :=
  { l with journal := l.journal ++ [n] }

/-- Adds notices to the journal. -/
def noteAll (l : Ledger) (ns : List Notice) : Ledger :=
  { l with journal := l.journal ++ ns }

/-- Takes the journal out, to be printed. -/
def drain (l : Ledger) : List Notice × Ledger :=
  (l.journal, { l with journal := [] })

end Ledger

end Allotment
