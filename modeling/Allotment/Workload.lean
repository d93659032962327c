import Allotment.Quantity.Printer
import Allotment.Resource
/-!
# Workloads

A workload is a target with containers; a container has a name and, for each axis, perhaps a quantity.

* `Target.key` names a target among the managed ones: its namespace and name, without its kind.
* `Container.set` changes one axis; a `Change` tells what an axis had before and has now.
-/

namespace Allotment

/-- The kinds of workload whose containers can be patched. -/
inductive WorkloadKind where
  | deployment
  | statefulSet
  | daemonSet
  | cronJob
  /-- A database cluster. -/
  | cluster
  deriving DecidableEq, Repr

namespace WorkloadKind

def name : WorkloadKind → String
  | deployment => "Deployment"
  | statefulSet => "StatefulSet"
  | daemonSet => "DaemonSet"
  | cronJob => "CronJob"
  | cluster => "Cluster"

def all : List WorkloadKind := [deployment, statefulSet, daemonSet, cronJob, cluster]

/-- The kind of a name, which has to be spelled exactly. -/
def ofName? (s : String) : Option WorkloadKind :=
  all.find? fun k => k.name = s

theorem ofName?_name (k : WorkloadKind) : ofName? k.name = some k := by
  cases k <;> decide

end WorkloadKind

/-- The identity of a managed workload. -/
structure Target where
  kind : String
  /-- The namespace that the workload lives in. -/
  space : String
  name : String
  deriving DecidableEq, Repr

namespace Target

/-- The namespace and the name, joined by a slash. -/
def key (t : Target) : String :=
  t.space ++ "/" ++ t.name

/-- The kind and the key. -/
def text (t : Target) : String :=
  t.kind ++ " " ++ t.key

end Target

/-- What a container is allotted along each axis, where anything is. -/
abbrev Allotments := PerAxis (Option Quantity)

/-- Nothing along any axis. -/
def Allotments.empty : Allotments :=
  PerAxis.ofFn fun _ => none

/-- A container of a workload. -/
structure Container where
  name : String
  resources : Allotments
  deriving DecidableEq, Repr

namespace Container

/-- What the container has along an axis. -/
def get (c : Container) (a : Axis) : Option Quantity :=
  PerAxis.get c.resources a

/-- The container with a quantity along one axis. -/
def set (c : Container) (a : Axis) (q : Quantity) : Container :=
  { c with resources := PerAxis.set c.resources a (some q) }

@[simp] theorem name_set (c : Container) (a : Axis) (q : Quantity) : (c.set a q).name = c.name := rfl

theorem get_set (c : Container) (a b : Axis) (q : Quantity) :
    (c.set a q).get b = if b = a then some q else c.get b :=
  PerAxis.get_set c.resources a b (some q)

end Container

/-- A committed change of one axis of a container. -/
structure Change where
  container : String
  axis : Axis
  old : Option Quantity
  new : Quantity
  deriving DecidableEq, Repr

/-- The container and the axis, what was there and what is now. -/
def Change.text (c : Change) : String :=
  let old := match c.old with
    | some q => q.text
    | none => "<unset>"
  s!"{c.container} {c.axis.name}: {old} -> {c.new.text}"

end Allotment
