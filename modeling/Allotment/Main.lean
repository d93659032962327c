import Allotment.Daemon.Service
import Allotment.Encoding.Outcome
import Allotment.Json.Printer
import Std.Async.Signal
import Std.Time.DateTime.Timestamp
/-!
# The daemon's process

Reads the environment and the inventory file, moves the daemon's clock along with the time of day, and prints the
journal as one JSON object a line, until the process is interrupted.
-/

namespace Allotment.Program

/-- The time of day. -/
def now : IO Instant := do
  let t ← Std.Time.Timestamp.now
  return ⟨t.toNanosecondsSinceUnixEpoch.toInt⟩

/-- The environment, where the system shows it. -/
def environment : IO Environment := do
  try
    let bytes ← IO.FS.readBinFile "/proc/self/environ"
    return Environment.ofBlock ((String.fromUTF8? bytes).getD "")
  catch _ => return []

/-- The text of a file, if it can be read. -/
def content? (path : String) : IO (Option String) := do
  try return some (← IO.FS.readFile path)
  catch _ => return none

/-- Prints the journal. -/
def print (s : Service) : IO Service := do
  let (notices, s) := s.drain
  for n in notices do IO.println n.toJson.text
  (← IO.getStdout).flush
  return s

/-- Keeps the clock going until the process is interrupted. -/
partial def loop (interrupted : IO Bool) (s : Service) : IO Unit := do
  if ← interrupted then
    discard (print (s.stop "SIGINT received"))
  else
    IO.sleep 100
    loop interrupted (← print (s.advanceTo (← now)))

/-- Tells why the daemon could not start. -/
def complain (message : String) : IO UInt32 := do
  IO.eprintln s!"Error: {message}"
  return 1

/-- Runs the daemon. -/
def run : IO UInt32 := do
  let env ← environment
  match DaemonSettings.ofEnvironment env with
  | .error e => complain e.message
  | .ok settings =>
    let start ← now
    match Service.start settings env (← content? settings.inventoryPath) start (Draw.ofNat start.nanos.toNat) with
    | .error e => complain e.message
    | .ok s =>
      let waiter ← Std.Async.Signal.Waiter.mk .sigint false
      let signal ← waiter.wait
      loop (IO.hasFinished signal) (← print s)
      return 0

end Allotment.Program

def main : IO UInt32 := Allotment.Program.run
