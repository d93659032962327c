import Allotment.Notice
import Allotment.Timetable.Clock
/-!
# Drills

A drill runs a timetable with jobs that do nothing but count. A job is over at once, or it waits for a permit of its
gate: permits are given to those who wait in the order in which they came, and kept while nobody waits.

* `Drill` is a timetable in a drill, with the callers so far; `Drill.schedule`, `sync`, `unschedule`, `invoke`,
  `release`, `advance` and `shutdown` are what can be done.
-/

namespace Allotment

/-- A job that counts. -/
structure CountingJob where
  gated : Bool
  begun : Nat
  ended : Nat
  permits : Nat
  /-- Workers that wait for a permit. -/
  waiting : List Nat

/-- The counting jobs by name, and what was told. -/
structure Yard where
  jobs : Dict CountingJob
  journal : List Notice

namespace Yard

/-- The notice of something seen, if it is told. -/
def notice? {J : Type} : Happening J → Option Notice
  | .registered key cron maxJitter => some (.scheduleRegistered key cron maxJitter)
  | .removed key => some (.scheduleRemoved key)
  | .exhausted key => some (.scheduleExhausted key)
  | .begun .. => none
  | .ended .. => none

/-- Changes a job. -/
def change (y : Yard) (name : String) (f : CountingJob → CountingJob) : Yard :=
  match y.jobs.get? name with
  | some j => { y with jobs := y.jobs.insert name (f j) }
  | none => y

/-- A job begins. A gated job goes on if there is a permit, and waits for one otherwise. -/
def begin (y : Yard) (worker : Nat) (name : String) : Yard × Bool :=
  match y.jobs.get? name with
  | none => (y, true)
  | some j =>
    let j := { j with begun := j.begun + 1 }
    if !j.gated then ({ y with jobs := y.jobs.insert name j }, true)
    else if j.permits = 0 then
      ({ y with jobs := y.jobs.insert name { j with waiting := j.waiting ++ [worker] } }, false)
    else ({ y with jobs := y.jobs.insert name { j with permits := j.permits - 1 } }, true)

def see (y : Yard) : Happening String → Yard
  | .ended _ _ name => y.change name fun j => { j with ended := j.ended + 1 }
  | x => { y with journal := y.journal ++ (notice? x).toList }

/-- Jobs are named in the timetable, and count in the yard. -/
def host : Host String Yard where
  begin y worker _ name := y.begin worker name
  see := see

end Yard

/-- A timetable in a drill, and for each call so far its caller, if the key was scheduled. -/
structure Drill where
  running : Running String Yard
  calls : List (Option Nat)

namespace Drill

/-- A drill with some jobs, each gated or not. -/
def start (now : Instant) (draw : Draw) (jobs : List (String × Bool)) : Drill :=
  let yard : Yard := ⟨Dict.ofPairs (jobs.map fun (name, gated) => (name, ⟨gated, 0, 0, 0, []⟩)), []⟩
  ⟨Running.start now draw yard, []⟩

def schedule (d : Drill) (key cron : String) (maxJitter : Span) (job : String) : Except ScheduleError Drill := do
  let (t, hs) ← d.running.table.schedule key cron maxJitter job
  return { d with running := d.running.change Yard.host t hs }

def sync (d : Drill) (key cron : String) (maxJitter : Span) (job : String) :
    Except ScheduleError (Drill × Bool) := do
  let (t, hs, registered) ← d.running.table.sync key cron maxJitter job
  return ({ d with running := d.running.change Yard.host t hs }, registered)

def unschedule (d : Drill) (key : String) : Drill × Bool :=
  let (t, hs, removed) := d.running.table.unschedule key
  ({ d with running := d.running.change Yard.host t hs }, removed)

/-- Calls the job of a key; the call is added to the list. -/
def invoke (d : Drill) (key : String) : Drill :=
  let (t, caller) := d.running.table.invoke key
  { running := d.running.change Yard.host t [], calls := d.calls ++ [caller] }

/-- What a call has given: whether its key was scheduled, once that is known. -/
def answer? (d : Drill) : Option Nat → Option Bool
  | none => some false
  | some id => if (d.running.table.worker? id).isSome then none else some true

/-- Gives a permit to the gate of a job. -/
def release (d : Drill) (job : String) : Drill :=
  match (d.running.world.jobs.get? job).map CountingJob.waiting with
  | some (id :: rest) =>
    let yard := d.running.world.change job fun j => { j with waiting := rest }
    { d with running := { d.running with world := yard }.finish Yard.host id }
  | _ =>
    let yard := d.running.world.change job fun j => { j with permits := j.permits + 1 }
    { d with running := { d.running with world := yard } }

def advance (d : Drill) (s : Span) : Drill :=
  { d with running := d.running.advance Yard.host s }

def shutdown (d : Drill) : Drill :=
  { d with running := d.running.change Yard.host d.running.table.shutdown [] }

end Drill

end Allotment
