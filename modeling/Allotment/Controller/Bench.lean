import Allotment.Controller.Backend
/-!
# Test benches

On a bench the calls of a controller to any backend are written down and can be made to fail.

* `Bench` is the world behind the calls with what was seen of it: the calls so far, the faults that are set, and the
  outcomes that watched notifiers were told.
* `Bench.around` puts a backend on a bench. A fault keeps a call from reaching the backend.
* `Notifier.watched` puts a notifier on a bench; it does there what it does elsewhere.
-/

namespace Allotment

/-- The calls that a backend has. -/
inductive CallKind where
  | policy
  | containers
  | write
  | status
  | recommendations
  | bounds
  deriving DecidableEq, Repr

namespace CallKind

def name : CallKind → String
  | policy => "policy"
  | containers => "containers"
  | write => "write"
  | status => "status"
  | recommendations => "recommendations"
  | bounds => "bounds"

def all : List CallKind := [policy, containers, write, status, recommendations, bounds]

end CallKind

/-- A call that was made, with what was given to it. -/
inductive Request where
  | policy (t : Target)
  | containers (t : Target)
  | write (t : Target) (cs : List Container)
  | status (t : Target)
  | recommendations (t : Target)
  | bounds (t : Target)
  deriving DecidableEq, Repr

namespace Request

def kind : Request → CallKind
  | policy _ => .policy
  | containers _ => .containers
  | write _ _ => .write
  | status _ => .status
  | recommendations _ => .recommendations
  | bounds _ => .bounds

def target : Request → Target
  | policy t | containers t | write t _ | status t | recommendations t | bounds t => t

end Request

/-- An outcome that a watched notifier was told, with its place among the notifiers. -/
structure Sighting where
  notifier : Nat
  outcome : Outcome
  deriving DecidableEq, Repr

/-- A world on a bench. -/
structure Bench (σ : Type) where
  world : σ
  /-- The calls so far, the latest last. -/
  calls : List Request
  /-- Calls that fail, with the text of the failure. -/
  faults : List (CallKind × String)
  /-- What watched notifiers were told, the latest last. -/
  seen : List Sighting

namespace Bench

variable {σ : Type}

/-- A bench on which nothing has happened yet. -/
def start (world : σ) : Bench σ := ⟨world, [], [], []⟩

/-- How often a call was made. -/
def count (b : Bench σ) (k : CallKind) : Nat :=
  b.calls.countP fun r => r.kind = k

/-- Makes a call fail from now on, or no longer. -/
def setFault (b : Bench σ) (k : CallKind) (message : Option String) : Bench σ :=
  { b with faults := (message.toList.map fun m => (k, m)) ++ b.faults.filter fun f => f.1 ≠ k }

/-- Writes a call down, and lets it through unless it is to fail. -/
def through {α : Type} (r : Request) (f : Call σ α) : Call (Bench σ) α := fun b =>
  let b := { b with calls := b.calls ++ [r] }
  match b.faults.lookup r.kind with
  | some message => (.error message, b)
  | none =>
    let (a, world) := f b.world
    (a, { b with world })

/-- Every call is written down, whatever comes of it. -/
theorem calls_through {α : Type} (r : Request) (f : Call σ α) (b : Bench σ) :
    (through r f b).2.calls = b.calls ++ [r] := by
  unfold through
  simp only
  split <;> rfl

/-- A call that is not to fail does what it does without the bench, and is written down. -/
theorem through_of_no_fault {α : Type} {r : Request} {b : Bench σ} (h : b.faults.lookup r.kind = none) (f : Call σ α) :
    through r f b = ((f b.world).1, { b with world := (f b.world).2, calls := b.calls ++ [r] }) := by
  simp only [through, h]

/-- A backend on a bench. -/
def around (b : Backend σ) : Backend (Bench σ) where
  policy t := through (.policy t) (b.policy t)
  containers t := through (.containers t) (b.containers t)
  write t cs := through (.write t cs) (b.write t cs)
  recommendations t := through (.recommendations t) (b.recommendations t)
  bounds t := through (.bounds t) (b.bounds t)
  status t := through (.status t) (b.status t)
  elapsed s := b.elapsed s.world

end Bench

/-- A notifier on a bench, at a place among the notifiers. -/
def Notifier.watched {σ : Type} (place : Nat) (n : Notifier σ) : Notifier (Bench σ) where
  notify o b :=
    let (delivery, world) := n.notify o b.world
    (delivery, { b with world, seen := b.seen ++ [⟨place, o⟩] })

end Allotment
