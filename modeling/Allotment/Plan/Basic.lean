import Allotment.Plan.Guard
/-!
# Plans

A plan is what the containers of a workload should become, and the list of changes that make them so. Containers are
worked on one by one, and the axes of a container in order, each seeing what was committed for those before it.

* `proposal?` is what is proposed for an axis of a container in its present state.
* `Pass.step` works on one axis, `planContainer` on all of them.
* `plan` works on all containers of a workload.
-/

namespace Allotment

/-- The memory that is derived from an amount of CPU. -/
def Derivation.memory (d : Derivation) (cpu : Quantity) : Quantity :=
  d.adjustment.apply cpu.memoryForCpu

/-- What is proposed for a request that has a candidate. -/
def requestProposal (policy : Effective) (c : Container) (r : Resource) (candidate : Quantity) : Quantity :=
  let adjusted := (policy.axis ⟨r, .request⟩).adjustment.apply candidate
  match r with
  | .cpu => adjusted
  | .memory =>
    if policy.memoryFromCpu.request.enabled then
      match c.get ⟨.cpu, .request⟩ with
      | some cpu => policy.memoryFromCpu.request.memory cpu
      | none => adjusted
    else adjusted

/-- What is proposed for a limit by its own policy: its request, adjusted, or its candidate as it is. -/
def ownLimitProposal? (policy : Effective) (candidates : Candidates) (c : Container) (r : Resource) :
    Option Quantity :=
  if (policy.axis ⟨r, .limit⟩).target = .auto then
    (c.get ⟨r, .request⟩).map (policy.axis ⟨r, .limit⟩).adjustment.apply
  else candidates.get ⟨r, .limit⟩

/-- What is proposed for a limit. A memory limit that follows CPU follows the limit of it, or else the request. -/
def limitProposal? (policy : Effective) (candidates : Candidates) (c : Container) (r : Resource) :
    Option Quantity :=
  match r with
  | .cpu => ownLimitProposal? policy candidates c .cpu
  | .memory =>
    if policy.memoryFromCpu.limit.enabled then
      ((c.get ⟨.cpu, .limit⟩).or (c.get ⟨.cpu, .request⟩)).map policy.memoryFromCpu.limit.memory
    else ownLimitProposal? policy candidates c .memory

/-- What is proposed for an axis of a container as it stands. A resource whose request has no candidate gets no
proposals. -/
def proposal? (policy : Effective) (candidates : Candidates) (c : Container) (a : Axis) : Option Quantity :=
  match candidates.get a.request with
  | none => none
  | some candidate =>
    match a.side with
    | .request => some (requestProposal policy c a.resource candidate)
    | .limit => limitProposal? policy candidates c a.resource

/-- A container in the course of a plan, and what was changed in it so far. -/
structure Pass where
  container : Container
  changes : List Change
  deriving DecidableEq, Repr

/-- Works on one axis: proposes, guards, and commits what is left. -/
def Pass.step (policy : Effective) (candidates : Candidates) (p : Pass) (a : Axis) : Pass :=
  let current := p.container.get a
  match (proposal? policy candidates p.container a).bind ((policy.axis a).accept? a current) with
  | none => p
  | some value =>
    { container := p.container.set a value
      changes := p.changes ++ [⟨p.container.name, a, current, value⟩] }

/-- Works on all axes of a container. -/
def planContainer (policy : Effective) (candidates : Candidates) (c : Container) : Pass :=
  Axis.all.foldl (Pass.step policy candidates) ⟨c, []⟩

/-- What the containers of a workload should become, and the changes that make them so. -/
structure Plan where
  containers : List Container
  changes : List Change
  deriving DecidableEq, Repr

/-- Whether there is nothing to change. -/
def Plan.isNoop (p : Plan) : Bool :=
  p.changes.isEmpty

/-- The candidates of a container: from the first recommendation with its name, or else unprovided ones. -/
def candidatesFor (status : Status) (policy : Effective) (container : String) : Candidates :=
  match (status.recommendations.getD []).find? fun rec => rec.container = container with
  | some rec => Candidates.ofRecommendation rec policy
  | none => Candidates.unprovided container policy status.bounds

/-- Works on one container of a workload. -/
def planOne (cascade : Cascade) (status : Status) (c : Container) : Pass :=
  let policy := Effective.of cascade (some c.name)
  planContainer policy (candidatesFor status policy c.name) c

/-- Works on all containers of a workload. -/
def plan (cascade : Cascade) (status : Status) (containers : List Container) : Plan :=
  let passes := containers.map (planOne cascade status)
  ⟨passes.map Pass.container, passes.flatMap Pass.changes⟩

end Allotment
