import Allotment.Resource
/-!
# Names of settings

A policy is a set of named settings, written as notes on a workload. A setting may be scoped to one container by
the name of the container behind a dot.

* `Setting.name` is the name of each setting that a policy is made of.
* `annotationKey` is the key of the note that holds a setting.
-/

namespace Allotment

/-- What every key of a policy begins with. -/
def annotationDomain : String := "rightsizer.io/"

/-- The key of the note for a setting, of the workload or of one container. -/
def annotationKey (setting : String) (container : Option String) : String :=
  match container with
  | some name => annotationDomain ++ setting ++ "." ++ name
  | none => annotationDomain ++ setting

/-- The name of a setting of one axis. -/
def axisSetting (a : Axis) (field : String) : String :=
  a.name ++ "-" ++ field

/-- The name of a setting of one resource. -/
def resourceSetting (r : Resource) (field : String) : String :=
  r.name ++ "-" ++ field

/-- The name of a setting for deriving memory from CPU on one side. -/
def fromCpuSetting (s : Side) (field : String) : String :=
  "memory-" ++ s.name ++ "-from-cpu-" ++ field

/-- What can be set for an axis. -/
inductive AxisField where
  | applyMode
  | applyTarget
  | calculatorAlgo
  | calculatorValue
  | minAllowed
  | maxAllowed
  | minDiffAlgo
  | minDiffValue
  | scaleDirection
  deriving DecidableEq, Repr

namespace AxisField

def name : AxisField → String
  | applyMode => "apply-mode"
  | applyTarget => "apply-target"
  | calculatorAlgo => "calculator-algo"
  | calculatorValue => "calculator-value"
  | minAllowed => "min-allowed"
  | maxAllowed => "max-allowed"
  | minDiffAlgo => "min-diff-algo"
  | minDiffValue => "min-diff-value"
  | scaleDirection => "scale-direction"

def all : List AxisField :=
  [applyMode, applyTarget, calculatorAlgo, calculatorValue, minAllowed, maxAllowed, minDiffAlgo, minDiffValue,
    scaleDirection]

end AxisField

/-- What can be set for a resource of containers without a recommendation. -/
inductive ResourceField where
  | unprovidedMode
  | unprovidedValue
  | minAllowedRecommendation
  | maxAllowedRecommendation
  deriving DecidableEq, Repr

namespace ResourceField

def name : ResourceField → String
  | unprovidedMode => "unprovided-default-mode"
  | unprovidedValue => "unprovided-default-value"
  | minAllowedRecommendation => "min-allowed-recommendation"
  | maxAllowedRecommendation => "max-allowed-recommendation"

def all : List ResourceField :=
  [unprovidedMode, unprovidedValue, minAllowedRecommendation, maxAllowedRecommendation]

end ResourceField

/-- What can be set for deriving memory from CPU. -/
inductive FromCpuField where
  | enabled
  | algo
  | value
  deriving DecidableEq, Repr

namespace FromCpuField

def name : FromCpuField → String
  | enabled => "enabled"
  | algo => "algo"
  | value => "value"

def all : List FromCpuField := [enabled, algo, value]

end FromCpuField

/-- The settings that a policy is made of. -/
inductive Setting where
  | axis (a : Axis) (field : AxisField)
  | resource (r : Resource) (field : ResourceField)
  | fromCpu (s : Side) (field : FromCpuField)
  | cron
  | maxJitter
  | dryRun
  | webhookEnabled
  deriving DecidableEq, Repr

namespace Setting

def name : Setting → String
  | axis a field => axisSetting a field.name
  | resource r field => resourceSetting r field.name
  | fromCpu s field => fromCpuSetting s field.name
  | cron => "cron"
  | maxJitter => "max-jitter"
  | dryRun => "dry-run"
  | webhookEnabled => "webhook-enabled"

/-- All settings. -/
def all : List Setting :=
  (Axis.all.flatMap fun a => AxisField.all.map (axis a)) ++
    (Resource.all.flatMap fun r => ResourceField.all.map (resource r)) ++
    (Side.all.flatMap fun s => FromCpuField.all.map (fromCpu s)) ++
    [cron, maxJitter, dryRun, webhookEnabled]

theorem mem_all (s : Setting) : s ∈ all := by
  rcases s with ⟨⟨r, s⟩, f⟩ | ⟨r, f⟩ | ⟨s, f⟩ | _ | _ | _ | _
  · cases r <;> cases s <;> cases f <;> decide
  · cases r <;> cases f <;> decide
  · cases s <;> cases f <;> decide
  all_goals decide

end Setting

end Allotment
