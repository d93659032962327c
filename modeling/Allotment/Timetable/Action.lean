import Allotment.Timetable.Basic
/-!
# Histories of a timetable

An action is one atomic step of a timetable: a change of its entries, or a step of a worker. A history is any list of
actions, in whatever order they fall; what is not possible at its time changes nothing.

* `Timetable.act` does one action, `Timetable.run` a history.
* A call of `sync` that is interrupted between its check and its change is the action `schedule` at a later time.
-/

namespace Allotment.Timetable

variable {J : Type}

/-- One atomic step. -/
inductive Action (J : Type) where
  | schedule (key cron : String) (maxJitter : Span) (job : J)
  | sync (key cron : String) (maxJitter : Span) (job : J)
  | unschedule (key : String)
  | invoke (key : String)
  | shutdown
  | move (worker : Nat) (m : Move)

/-- One action, and what can be seen of it. -/
def act (t : Timetable J) : Action J → Timetable J × List (Happening J)
  | .schedule key cron maxJitter job =>
    match t.schedule key cron maxJitter job with
    | .ok r => r
    | .error _ => (t, [])
  | .sync key cron maxJitter job =>
    match t.sync key cron maxJitter job with
    | .ok (t, hs, _) => (t, hs)
    | .error _ => (t, [])
  | .unschedule key =>
    let (t, hs, _) := t.unschedule key
    (t, hs)
  | .invoke key => ((t.invoke key).1, [])
  | .shutdown => (t.shutdown, [])
  | .move worker m => (t.move? worker m).getD (t, [])

/-- A history, and what can be seen of it in order. -/
def run (t : Timetable J) : List (Action J) → Timetable J × List (Happening J)
  | [] => (t, [])
  | a :: as =>
    let (t, hs) := t.act a
    let (t, rest) := run t as
    (t, hs ++ rest)

theorem run_append (t : Timetable J) (as bs : List (Action J)) :
    t.run (as ++ bs) = (((t.run as).1.run bs).1, (t.run as).2 ++ ((t.run as).1.run bs).2) := by
  induction as generalizing t with
  | nil => simp [run]
  | cons a as ih => simp [run, ih, List.append_assoc]

end Allotment.Timetable
