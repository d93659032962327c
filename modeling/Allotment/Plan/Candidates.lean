import Allotment.Policy.Effective
import Allotment.Workload
/-!
# Candidates

What a container might get along each axis, before any guard: from its recommendation, or, if it has none, from bounds
and configured amounts.

* `Candidates.ofRecommendation` takes for each axis the band that its policy follows.
* `Candidates.unprovided` gives requests only; `unprovided?` says where one comes from.
-/

namespace Allotment

/-- A candidate for each axis that has one. -/
abbrev Candidates := PerAxis (Option Quantity)

namespace Candidates

/-- No candidate for any axis. -/
def empty : Candidates :=
  PerAxis.ofFn fun _ => none

def get (c : Candidates) (a : Axis) : Option Quantity :=
  PerAxis.get c a

/-- The candidates with another one for an axis. -/
def insert (c : Candidates) (a : Axis) (q : Quantity) : Candidates :=
  PerAxis.set c a (some q)

/-- The axes that have a candidate, with it. -/
def toList (c : Candidates) : List (Axis × Quantity) :=
  Axis.all.filterMap fun a => (c.get a).map fun q => (a, q)

def size (c : Candidates) : Nat := c.toList.length

def isEmpty (c : Candidates) : Bool := c.toList.isEmpty

end Candidates

/-- The estimate that an axis follows. One that follows its request follows no estimate. -/
def Recommendation.band? (rec : Recommendation) : ApplyTarget → Option Estimate
  | .frugal => some rec.lower
  | .balanced => some rec.target
  | .peak => some rec.upper
  | .auto => none

/-- The candidates that a recommendation gives. -/
def Candidates.ofRecommendation (rec : Recommendation) (policy : Effective) : Candidates :=
  PerAxis.ofFn fun a => (rec.band? (policy.axis a).target).bind fun e => PerResource.get e a.resource

/-- The greater of two amounts; the first, if they are not related. -/
def raise (q floor : Quantity) : Quantity :=
  if q < floor then floor else q

/-- The lesser of two amounts; the first, if they are not related. -/
def lower (q ceiling : Quantity) : Quantity :=
  if ceiling < q then ceiling else q

/-- Both amounts combined; the one that is present if only one is. -/
def combine (f : Quantity → Quantity → Quantity) : Option Quantity → Option Quantity → Option Quantity
  | some a, some b => some (f a b)
  | some a, none => some a
  | none, b => b

/-- The request of one resource for a container without a recommendation. -/
def unprovided? (container : String) (r : Resource) (policy : Unprovided) (bounds : List Bound) :
    Option Quantity :=
  let bound := Bound.lookup? bounds container
  match policy.mode with
  | .off => none
  | .minAllowed => combine raise (bound.bind fun b => PerResource.get b.least r) policy.floor
  | .maxAllowed => combine lower (bound.bind fun b => PerResource.get b.most r) policy.ceiling
  | .value => (Quantity.read r policy.value).toOption

/-- The candidates of a container without a recommendation. -/
def Candidates.unprovided (container : String) (policy : Effective) (bounds : List Bound) : Candidates :=
  PerAxis.ofFn fun a =>
    match a.side with
    | .request => unprovided? container a.resource (PerResource.get policy.unprovided a.resource) bounds
    | .limit => none

end Allotment
