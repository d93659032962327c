import Allotment.Controller.Basic
import Allotment.Timetable.Clock
/-!
# A controller with a timetable

Targets are scheduled under their keys, as their policies say. The job of a target is a run of the controller.

* `Office` is a controller's desk with its timetable.
* `Office.schedule` enters a target, or leaves it as it is when its policy has not changed.
-/

namespace Allotment

/-- A desk and a timetable in time. The jobs are targets. -/
abbrev Office (σ : Type) := Running Target (Desk σ)

namespace Office

variable {σ : Type}

/-- Notes in the journal what can be seen of a timetable. -/
def see (d : Desk σ) : Happening Target → Desk σ
  | .registered key cron maxJitter => { d with ledger := d.ledger.note (.scheduleRegistered key cron maxJitter) }
  | .removed key => { d with ledger := d.ledger.note (.scheduleRemoved key) }
  | .exhausted key => { d with ledger := d.ledger.note (.scheduleExhausted key) }
  | .begun .. => d
  | .ended .. => d

/-- A job is a run of the controller, which is over at once. -/
def host (c : Controller σ) : Host Target (Desk σ) where
  begin d _ key t := (c.runJob key t d, true)
  see := see

/-- Tells the number of scheduled targets in the metrics. -/
def tellGauge (o : Office σ) : Office σ :=
  let ledger := o.world.ledger
  { o with world := { o.world with
      ledger := { ledger with metrics := { ledger.metrics with scheduledTargets := o.table.gauge } } } }

/-- Schedules a target by its policy. Tells whether a timer was registered. -/
def schedule (c : Controller σ) (o : Office σ) (t : Target) : Office σ × Except RunError Bool :=
  match c.targetPolicy t o.world with
  | (.error e, d) => ({ o with world := d }, .error e)
  | (.ok policy, d) =>
    let o := { o with world := d }
    match o.table.sync t.key policy.cron policy.maxJitter t with
    | .error e => (o, .error (.invalidCron e))
    | .ok (table, hs, registered) => (tellGauge (o.change (host c) table hs), .ok registered)

/-- Removes a key from the timetable. -/
def unschedule (c : Controller σ) (o : Office σ) (key : String) : Office σ × Bool :=
  let (table, hs, removed) := o.table.unschedule key
  (tellGauge (o.change (host c) table hs), removed)

/-- Runs the job of a key at once. Tells whether the key is scheduled. -/
def invoke (c : Controller σ) (o : Office σ) (key : String) : Office σ × Bool :=
  let (table, caller) := o.table.invoke key
  (o.change (host c) table [], caller.isSome)

def advance (c : Controller σ) (o : Office σ) (s : Span) : Office σ :=
  Running.advance (host c) o s

/-- Removes all keys from the timetable. -/
def shutdown (c : Controller σ) (o : Office σ) : Office σ :=
  tellGauge (o.change (host c) o.table.shutdown [])

end Office

end Allotment
