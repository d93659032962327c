import Allotment.Controller.Schedule
import Allotment.Controller.Store
import Allotment.Daemon.Settings
import Allotment.Encoding.Inventory
/-!
# The daemon

A daemon loads an inventory, schedules every target in it and lets the timetable run.

* `Service.start` is the daemon with all targets scheduled; `Service.advanceTo` moves its clock on.
* `Service.drain` takes out what the journal holds since the last time.
-/

namespace Allotment

/-- A daemon at work. -/
structure Service where
  controller : Controller Inventory
  office : Office Inventory

namespace Service

def version : String := "0.1.0"

/-- Writes a notice into the journal. -/
def note (s : Service) (n : Notice) : Service :=
  let desk := s.office.world
  { s with office := { s.office with world := { desk with ledger := desk.ledger.note n } } }

/-- Schedules a target. A failure is told in the journal. -/
def schedule (s : Service) (t : Target) : Service :=
  let (office, r) := Office.schedule s.controller s.office t
  let s := { s with office }
  match r with
  | .ok _ => s
  | .error e => s.note (.schedulingFailed t.key e.message)

/-- The daemon with all targets scheduled, given its environment and the text of its inventory file, if that could be
read. -/
def start (settings : DaemonSettings) (env : Environment) (content : Option String) (now : Instant) (draw : Draw) :
    Except LoadError Service := do
  let inventory ← Inventory.load settings.inventoryPath content
  let controller : Controller Inventory :=
    ⟨settings.controllerName, Inventory.backend, settings.processDefaults env, [Notifier.journal]⟩
  let idle : Service := ⟨controller, Running.start now draw ⟨inventory, Ledger.empty⟩⟩
  let configured := (idle.note (.configured settings.controllerName settings.inventoryPath)).note
    (.defaultsLoaded controller.defaults.size)
  let scheduled := inventory.targets.foldl schedule configured
  return scheduled.note (.started settings.controllerName version scheduled.office.table.size)

/-- Moves the clock on to an instant, unless that is past. -/
def advanceTo (s : Service) (now : Instant) : Service :=
  { s with office := Office.advance s.controller s.office ⟨(now.nanos - s.office.now.nanos).toNat⟩ }

/-- Ends the daemon: no timer is left. -/
def stop (s : Service) (reason : String) : Service :=
  let s := s.note (.shuttingDown s.controller.name reason)
  { s with office := Office.shutdown s.controller s.office }

/-- Takes out what the journal holds. -/
def drain (s : Service) : List Notice × Service :=
  let desk := s.office.world
  let (notices, ledger) := desk.ledger.drain
  (notices, { s with office := { s.office with world := { desk with ledger } } })

end Service

end Allotment
