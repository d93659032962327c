import Allotment.Workload
/-!
# Outcomes

Every run for a target ends in one outcome: the changes that were computed, and what became of them.
-/

namespace Allotment

/-- What became of computed changes. -/
inductive OutcomeKind where
  | success
  | dryRun
  | failed
  deriving DecidableEq, Repr

namespace OutcomeKind

def name : OutcomeKind → String
  | success => "success"
  | dryRun => "dry_run"
  | failed => "failed"

def all : List OutcomeKind := [success, dryRun, failed]

end OutcomeKind

/-- The end of a run: the key of its target, its changes and their fate. -/
structure Outcome where
  key : String
  kind : OutcomeKind
  changes : List Change
  /-- What the store said when it refused the changes. -/
  error : Option String
  deriving DecidableEq, Repr

namespace Outcome

def success (key : String) (changes : List Change) : Outcome := ⟨key, .success, changes, none⟩

def dryRun (key : String) (changes : List Change) : Outcome := ⟨key, .dryRun, changes, none⟩

def failed (key : String) (changes : List Change) (error : String) : Outcome :=
  ⟨key, .failed, changes, some error⟩

/-- Whether there was nothing to change. -/
def isNoop (o : Outcome) : Bool :=
  o.changes.isEmpty

/-- The texts of the changes. -/
def texts (o : Outcome) : List String :=
  o.changes.map Change.text

end Outcome

end Allotment
