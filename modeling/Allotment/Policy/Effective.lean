import Allotment.Policy.Cascade
import Allotment.Policy.Options
import Allotment.Recommendation
import Allotment.Schedule.Basic
/-!
# The effective policy

The whole policy of a workload, or of one of its containers, after every setting was looked up in the cascade.

* `Effective.of` is the policy; its parts are `AxisPolicy`, `Unprovided` and `Derivation`.
* `Fallback` has the values of settings that no layer sets.
-/

namespace Allotment

/-- What is done with proposals along one axis. -/
structure AxisPolicy where
  mode : ApplyMode
  target : ApplyTarget
  /-- Applied to the proposal of a request, and to the request when a limit follows it. -/
  adjustment : Adjustment
  minAllowed : Option Quantity
  maxAllowed : Option Quantity
  /-- Gives the amount that a proposal has to reach. -/
  minDiff : Adjustment
  direction : Direction
  deriving DecidableEq, Repr

/-- Where the request of a container without a recommendation comes from. -/
structure Unprovided where
  mode : UnprovidedMode
  value : String
  floor : Option Quantity
  ceiling : Option Quantity
  deriving DecidableEq, Repr

/-- How memory is derived from CPU. -/
structure Derivation where
  enabled : Bool
  adjustment : Adjustment
  deriving DecidableEq, Repr

/-- A policy in which every setting has its value. -/
structure Effective where
  axes : PerAxis AxisPolicy
  unprovided : PerResource Unprovided
  memoryFromCpu : PerSide Derivation
  cron : String
  maxJitter : Span
  dryRun : Bool
  webhookEnabled : Bool
  deriving DecidableEq, Repr

namespace Fallback

/-- Every half hour. -/
def cron : String := "*/30 * * * *"

def maxJitter : Span := Span.ofSeconds 30

/-- Requests follow the target estimate, limits their request. -/
def target : Side → ApplyTarget
  | .request => .balanced
  | .limit => .auto

end Fallback

namespace Effective

/-- A cron expression that reads, without blanks at its ends. -/
def readCron (text : String) : Except ScheduleError String :=
  (Schedule.read text).map fun _ => Text.trimmed text

/-- The policy of an axis. -/
def axisPolicy (c : Cascade) (container : Option String) (a : Axis) : AxisPolicy :=
  let name (f : AxisField) := (Setting.axis a f).name
  { mode := (c.value? ApplyMode.vocabulary.read (name .applyMode) container).getD .enforce
    target := (c.value? (ApplyTarget.readFor a.side) (name .applyTarget) container).getD
      (Fallback.target a.side)
    adjustment :=
      { method := (c.value? Method.vocabulary.read (name .calculatorAlgo) container).getD .ratio
        literal := c.text (name .calculatorValue) container }
    minAllowed := c.value? (Quantity.read a.resource) (name .minAllowed) container
    maxAllowed := c.value? (Quantity.read a.resource) (name .maxAllowed) container
    minDiff :=
      { method := (c.value? Method.vocabulary.read (name .minDiffAlgo) container).getD .ratio
        literal := c.text (name .minDiffValue) container }
    direction := (c.value? Direction.vocabulary.read (name .scaleDirection) container).getD .both }

/-- Where a request without a recommendation comes from. -/
def unprovidedPolicy (c : Cascade) (container : Option String) (r : Resource) : Unprovided :=
  let name (f : ResourceField) := (Setting.resource r f).name
  { mode := (c.value? UnprovidedMode.vocabulary.read (name .unprovidedMode) container).getD .off
    value := c.text (name .unprovidedValue) container
    floor := c.value? (Quantity.read r) (name .minAllowedRecommendation) container
    ceiling := c.value? (Quantity.read r) (name .maxAllowedRecommendation) container }

/-- How memory is derived from CPU on one side. -/
def derivation (c : Cascade) (container : Option String) (s : Side) : Derivation :=
  let name (f : FromCpuField) := (Setting.fromCpu s f).name
  { enabled := c.flag (name .enabled) container
    adjustment :=
      { method := (c.value? Method.vocabulary.read (name .algo) container).getD .ratio
        literal := c.text (name .value) container } }

/-- The policy of a container, or of the workload when no container is given. -/
def of (c : Cascade) (container : Option String) : Effective :=
  { axes := PerAxis.ofFn (axisPolicy c container)
    unprovided := PerResource.ofFn (unprovidedPolicy c container)
    memoryFromCpu := PerSide.ofFn (derivation c container)
    cron := (c.value? readCron Setting.cron.name container).getD Fallback.cron
    maxJitter := (c.value? Span.read Setting.maxJitter.name container).getD Fallback.maxJitter
    dryRun := c.flag Setting.dryRun.name container
    webhookEnabled := c.flag Setting.webhookEnabled.name container }

/-- The policy of one axis. -/
def axis (e : Effective) (a : Axis) : AxisPolicy :=
  PerAxis.get e.axes a

@[simp] theorem axis_of (c : Cascade) (container : Option String) (a : Axis) :
    (of c container).axis a = axisPolicy c container a := by
  simp [axis, of]

end Effective

end Allotment
