import Allotment.Time.Draw
import Allotment.Timetable.Basic
/-!
# Timetables in time

A timetable runs by a clock that is moved on by hand. Between two moves of the clock every worker goes as far as it
can. Workers that wake at one instant go in the order in which they fell asleep, those that wait for a lock in the
order in which they came.

* `Host` is what the jobs do: what a job changes when it begins, and whether it is over at once.
* `Running.settle` lets the workers go as far as they can; `Running.advance` moves the clock on.
* `Running.finish` ends a job that was not over at once.
-/

namespace Allotment

/-- What happens in a world in which jobs run. -/
structure Host (J W : Type) where
  /-- A job begins; tells whether it is over at once. -/
  begin : W → (worker : Nat) → (key : String) → J → W × Bool
  /-- What else can be seen of a timetable. -/
  see : W → Happening J → W

/-- A timetable, the time, the source of jitters and the world. -/
structure Running (J W : Type) where
  table : Timetable J
  now : Instant
  draw : Draw
  world : W

namespace Running

variable {J W : Type}

/-- A world in which nothing is scheduled yet. -/
def start (now : Instant) (draw : Draw) (world : W) : Running J W :=
  ⟨Timetable.empty, now, draw, world⟩

/-- The first worker that satisfies a condition. -/
def first? (r : Running J W) (p : Worker J → Bool) : Option Nat :=
  (r.table.workers.find? p).map Worker.id

/-- A step that some worker can take without waiting. Those that have just run go first, so that they are asleep
before the next one begins. -/
def nextMove? (r : Running J W) : Option (Nat × Timetable.Move) :=
  ((r.first? fun w => w.phase = .arming).map fun i => (i, .arm r.now r.draw.number))
  <|> ((r.first? fun w => w.phase = .roused).map fun i => (i, .join))
  <|> ((r.first? fun w => w.phase = .holding).map fun i => (i, .start))
  <|> ((r.first? fun w => w.phase = .queued && r.table.IsFree w.lock).map fun i => (i, .acquire))
  <|> ((r.first? fun w => w.cancelled && (w.phase matches .sleeping _)).map fun i => (i, .rouse r.now))

/-- Shows the world what can be seen of a step; jobs that began and are over at once are given back. -/
def tell (h : Host J W) (w : W) : List (Happening J) → W × List Nat
  | [] => (w, [])
  | .begun worker key job :: hs =>
    let (w, done) := h.begin w worker key job
    let (w, ids) := tell h w hs
    (w, if done then worker :: ids else ids)
  | x :: hs => tell h (h.see w x) hs

/-- One step of a worker; jobs that are over at once are ended. Each step draws a new number. -/
def move (h : Host J W) (r : Running J W) (id : Nat) (m : Timetable.Move) : Running J W :=
  match r.table.move? id m with
  | none => r
  | some (t, hs) =>
    let (w, done) := tell h r.world hs
    done.foldl (fun r i =>
      match r.table.move? i .finish with
      | none => r
      | some (t, hs) => { r with table := t, world := (tell h r.world hs).1 })
      { r with table := t, world := w, draw := r.draw.next }

/-- Lets the workers take steps, at most as many as there is fuel. -/
def settleFor (h : Host J W) : Nat → Running J W → Running J W
  | 0, r => r
  | fuel + 1, r =>
    match r.nextMove? with
    | none => r
    | some (id, m) => settleFor h fuel (r.move h id m)

/-- Lets the workers go as far as they can. No worker takes more than six steps before it sleeps or waits. -/
def settle (h : Host J W) (r : Running J W) : Running J W :=
  settleFor h (7 * (r.table.workers.length + 1)) r

/-- The worker that wakes first, up to an instant; of several, the one that fell asleep first. -/
def nextWake? (r : Running J W) (limit : Instant) : Option (Nat × Instant) :=
  r.table.workers.foldl (fun best w =>
    match w.phase with
    | .sleeping wake =>
      let sooner : Bool := match best with
        | none => wake.nanos ≤ limit.nanos
        | some (_, b) => wake.nanos < b.nanos
      if sooner then some (w.id, wake) else best
    | _ => best) none

/-- Wakes the workers whose time comes up to an instant, at most as many as there is fuel. -/
def wakeFor (h : Host J W) (limit : Instant) : Nat → Running J W → Running J W
  | 0, r => r
  | fuel + 1, r =>
    match r.nextWake? limit with
    | none => r
    | some (id, wake) =>
      let now : Instant := if r.now.nanos < wake.nanos then wake else r.now
      let r := { r with now }
      wakeFor h limit fuel ((r.move h id (.rouse now)).settle h)

/-- Moves the clock on. Intervals last a millisecond at least, so no worker wakes more often than that. -/
def advance (h : Host J W) (r : Running J W) (s : Span) : Running J W :=
  let limit : Instant := ⟨r.now.nanos + s.nanos⟩
  let fuel := (s.nanos / Span.nanosPerMilli + 1) * (r.table.workers.length + 1)
  { wakeFor h limit fuel (r.settle h) with now := limit }

/-- Changes the timetable, and lets the workers go as far as they can. -/
def change (h : Host J W) (r : Running J W) (t : Timetable J) (hs : List (Happening J)) : Running J W :=
  { r with table := t, world := (tell h r.world hs).1 }.settle h

/-- Ends the job that a worker runs. -/
def finish (h : Host J W) (r : Running J W) (id : Nat) : Running J W :=
  (r.move h id .finish).settle h

end Running

end Allotment
