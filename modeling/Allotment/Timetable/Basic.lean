import Allotment.Dict
import Allotment.Schedule.Occurrence
/-!
# Timetables

A timetable holds one schedule for each key, with the job that is run when it is due. A timer waits for the
occurrences of each schedule; callers may run the job of a key at once. Timers and callers are workers. A worker
runs its job only while it holds the run lock it was given, and a lock has one holder at a time.

All that happens is cut into atomic steps.

* `Timetable.schedule`, `unschedule`, `invoke` and `shutdown` change the entries; each is one step.
* `Timetable.sync` schedules only what is not scheduled that way already.
* `Timetable.move?` is one step of a worker, if the worker can take it.

A replaced entry hands its run lock on to the new one. An entry that was removed takes its lock with it.
-/

namespace Allotment

/-- A scheduled key. -/
structure Entry (J : Type) where
  /-- The cron expression, without blanks at its ends. -/
  cron : String
  maxJitter : Span
  job : J
  /-- The run lock of the key. -/
  lock : Nat
  /-- The worker that waits for the occurrences. -/
  timer : Nat

/-- What a worker is for. -/
inductive Role where
  /-- Runs the job at each occurrence of a schedule, delayed by a jitter. -/
  | timer (schedule : Schedule) (maxJitter : Span)
  /-- Runs the job once. -/
  | caller
  deriving DecidableEq, Repr

/-- How far a worker has come. -/
inductive Phase where
  /-- About to look for the next occurrence. -/
  | arming
  | sleeping (wake : Instant)
  /-- The occurrence has come. -/
  | roused
  /-- Waits for the run lock. -/
  | queued
  /-- Has the run lock and has not started yet. -/
  | holding
  /-- Runs the job, under the run lock. -/
  | running
  deriving DecidableEq, Repr

/-- Whether a worker has its run lock. -/
def Phase.locks : Phase → Bool
  | holding | running => true
  | _ => false

/-- A timer or a caller that is not done. -/
structure Worker (J : Type) where
  id : Nat
  key : String
  job : J
  lock : Nat
  role : Role
  phase : Phase
  /-- Whether a timer was told to stop. -/
  cancelled : Bool

/-- Scheduled keys and the workers for them. -/
structure Timetable (J : Type) where
  entries : Dict (Entry J)
  /-- Workers that are not done. One that begins to wait goes to the end of the list. -/
  workers : List (Worker J)
  /-- Names for workers and locks are taken from here on. -/
  fresh : Nat
  /-- The number of scheduled keys that was told last. -/
  gauge : Nat

/-- What can be seen of a step. -/
inductive Happening (J : Type) where
  | registered (key cron : String) (maxJitter : Span)
  | removed (key : String)
  /-- A timer found no further occurrence. -/
  | exhausted (key : String)
  | begun (worker : Nat) (key : String) (job : J)
  | ended (worker : Nat) (key : String) (job : J)

namespace Timetable

variable {J : Type}

def empty : Timetable J := ⟨Dict.empty, [], 0, 0⟩

/-- The number of scheduled keys. -/
def size (t : Timetable J) : Nat := t.entries.size

/-- The cron expression of a key. -/
def cron? (t : Timetable J) (key : String) : Option String :=
  (t.entries.get? key).map Entry.cron

/-- Tells a worker to stop. -/
def cancel (t : Timetable J) (id : Nat) : Timetable J :=
  { t with workers := t.workers.map fun w => if w.id = id then { w with cancelled := true } else w }

/-- Tells how many keys are scheduled. -/
def tellGauge (t : Timetable J) : Timetable J :=
  { t with gauge := t.size }

/-- Enters a key with a parsed schedule, in place of its older entry, whose timer is told to stop. -/
def enter (t : Timetable J) (key cron : String) (schedule : Schedule) (maxJitter : Span) (job : J) : Timetable J :=
  let previous := t.entries.get? key
  let t := match previous with
    | some e => t.cancel e.timer
    | none => t
  let lock := match previous with
    | some e => e.lock
    | none => t.fresh
  let timer := t.fresh + 1
  tellGauge
    { t with
      entries := t.entries.insert key ⟨Text.trimmed cron, maxJitter, job, lock, timer⟩
      workers := t.workers ++ [⟨timer, key, job, lock, .timer schedule maxJitter, .arming, false⟩]
      fresh := t.fresh + 2 }

/-- Schedules a job for a key. A cron expression that does not read changes nothing. -/
def schedule (t : Timetable J) (key cron : String) (maxJitter : Span) (job : J) :
    Except ScheduleError (Timetable J × List (Happening J)) :=
  match Schedule.read cron with
  | .error e => .error e
  | .ok s => .ok (t.enter key cron s maxJitter job, [.registered key cron maxJitter])

/-- Whether a key is scheduled with a cron expression and a jitter. -/
def InSync (t : Timetable J) (key cron : String) (maxJitter : Span) : Prop :=
  ∃ e ∈ t.entries.get? key, e.cron = Text.trimmed cron ∧ e.maxJitter = maxJitter

instance (t : Timetable J) (key cron : String) (maxJitter : Span) : Decidable (t.InSync key cron maxJitter) :=
  match h : t.entries.get? key with
  | none => isFalse fun ⟨e, he, _⟩ => by simp [h] at he
  | some e =>
    if hs : e.cron = Text.trimmed cron ∧ e.maxJitter = maxJitter then
      isTrue ⟨e, by simp [h], hs⟩
    else isFalse fun ⟨d, hd, hds⟩ => hs (by
      have : e = d := by simpa [h] using hd
      exact this ▸ hds)

/-- Schedules a job for a key unless it is scheduled with the same expression and jitter. Tells whether it was. -/
def sync (t : Timetable J) (key cron : String) (maxJitter : Span) (job : J) :
    Except ScheduleError (Timetable J × List (Happening J) × Bool) :=
  if t.InSync key cron maxJitter then .ok (t, [], false)
  else (t.schedule key cron maxJitter job).map fun (t, hs) => (t, hs, true)

/-- Removes a key and tells its timer to stop. Tells whether there was one. -/
def unschedule (t : Timetable J) (key : String) : Timetable J × List (Happening J) × Bool :=
  match t.entries.get? key with
  | none => (t.tellGauge, [], false)
  | some e => (tellGauge { t.cancel e.timer with entries := t.entries.erase key }, [.removed key], true)

/-- Lets a new caller wait to run the job of a key; gives the name of the caller, if the key is scheduled. -/
def invoke (t : Timetable J) (key : String) : Timetable J × Option Nat :=
  match t.entries.get? key with
  | none => (t, none)
  | some e =>
    ({ t with
       workers := t.workers ++ [⟨t.fresh, key, e.job, e.lock, .caller, .queued, false⟩]
       fresh := t.fresh + 1 },
      some t.fresh)

/-- Removes all keys and tells their timers to stop. -/
def shutdown (t : Timetable J) : Timetable J :=
  let stopped := t.entries.values.foldl (fun t e => t.cancel e.timer) t
  { stopped with entries := Dict.empty, gauge := 0 }

/-! ### Steps of workers -/

/-- The steps that a worker can take. -/
inductive Move where
  /-- Looks for the next occurrence after an instant; a number chooses the jitter. -/
  | arm (now : Instant) (choice : Nat)
  /-- Wakes up, because it is time or because it was told to stop. -/
  | rouse (now : Instant)
  /-- Gets in line for the run lock. -/
  | join
  /-- Takes the run lock. -/
  | acquire
  /-- Starts the job. -/
  | start
  /-- Ends the job and gives the run lock back. -/
  | finish
  deriving DecidableEq, Repr

/-- What becomes of a worker: it stays where it is in the list, it goes to the end, or it is done. -/
inductive Fate where
  | stays (phase : Phase)
  | waits (phase : Phase)
  | done
  deriving DecidableEq, Repr

/-- Whether no worker has a lock. -/
def IsFree (t : Timetable J) (lock : Nat) : Prop :=
  ∀ w ∈ t.workers, w.lock = lock → w.phase.locks = false

instance (t : Timetable J) (lock : Nat) : Decidable (t.IsFree lock) :=
  inferInstanceAs (Decidable (∀ _ ∈ _, _))

/-- What a step does to a worker, and what can be seen of it, if the worker can take the step. -/
def moveWorker? (t : Timetable J) (w : Worker J) : Move → Option (Fate × List (Happening J))
  | .arm now choice =>
    match w.phase, w.role with
    | .arming, .timer schedule maxJitter =>
      match schedule.next? now with
      | none => some (.done, [.exhausted w.key])
      | some next => some (.waits (.sleeping ⟨next.nanos + (maxJitter.jitter choice).nanos⟩), [])
    | _, _ => none
  | .rouse now =>
    match w.phase with
    | .sleeping wake =>
      if w.cancelled then some (.done, [])
      else if wake.nanos ≤ now.nanos then some (.stays .roused, [])
      else none
    | _ => none
  | .join =>
    match w.phase with
    | .roused => if w.cancelled then some (.done, []) else some (.waits .queued, [])
    | _ => none
  | .acquire =>
    match w.phase with
    | .queued => if t.IsFree w.lock then some (.stays .holding, []) else none
    | _ => none
  | .start =>
    match w.phase with
    | .holding =>
      if w.cancelled then some (.done, []) else some (.stays .running, [.begun w.id w.key w.job])
    | _ => none
  | .finish =>
    match w.phase with
    | .running =>
      match w.role with
      | .timer _ _ => some (.stays .arming, [.ended w.id w.key w.job])
      | .caller => some (.done, [.ended w.id w.key w.job])
    | _ => none

/-- The workers after one of them has met its fate. -/
def settleFate (ws : List (Worker J)) (w : Worker J) : Fate → List (Worker J)
  | .stays phase => ws.map fun v => if v.id = w.id then { v with phase } else v
  | .waits phase => ws.filter (fun v => v.id ≠ w.id) ++ [{ w with phase }]
  | .done => ws.filter fun v => v.id ≠ w.id

/-- The worker of a name. -/
def worker? (t : Timetable J) (id : Nat) : Option (Worker J) :=
  t.workers.find? fun w => w.id = id

/-- One step of a worker, if it can take the step. -/
def move? (t : Timetable J) (id : Nat) (m : Move) : Option (Timetable J × List (Happening J)) :=
  match t.worker? id with
  | none => none
  | some w => (t.moveWorker? w m).map fun (fate, hs) => ({ t with workers := settleFate t.workers w fate }, hs)

end Timetable

end Allotment
