import Allotment.Quantity.Basic
/-!
# Recommendations and bounds

Both come from outside: a recommendation estimates what a container needs, in three bands; a bound says between which
amounts recommendations for a container may lie.

* `Bound.lookup?` finds the bound of a container: an entry with its name, or else the entry for all containers.
-/

namespace Allotment

/-- An amount of each resource, where there is one. -/
abbrev Estimate := PerResource (Option Quantity)

/-- No amount of either resource. -/
def Estimate.empty : Estimate := ⟨none, none⟩

/-- Three estimates for one container. -/
structure Recommendation where
  container : String
  lower : Estimate
  target : Estimate
  upper : Estimate
  deriving DecidableEq, Repr

/-- The least and the most that may be recommended for one container. -/
structure Bound where
  container : String
  least : Estimate
  most : Estimate
  deriving DecidableEq, Repr

/-- The name under which a bound stands for all containers. -/
def Bound.wildcard : String := "*"

/-- The first bound with the name of the container; failing that, the first for all containers. -/
def Bound.lookup? (bounds : List Bound) (container : String) : Option Bound :=
  (bounds.find? fun b => b.container = container).or
    (bounds.find? fun b => b.container = wildcard)

/-- What a source of recommendations knows about a target. There may be no recommendations yet. -/
structure Status where
  recommendations : Option (List Recommendation)
  bounds : List Bound
  deriving DecidableEq, Repr

end Allotment
