import Allotment.Schedule.Field
import Allotment.Time.Calendar
/-!
# Schedules

A schedule is a fixed interval or five fields: minute, hour, day of the month, month and day of the week, in
universal time.

* `Schedule.read` reads a cron expression: five fields between blanks, or a descriptor behind an at sign.
* `ScheduleError` lists what can be wrong. Of several bad fields the day of the week is told first, then the leftmost.
-/

namespace Allotment

/-- The five fields of a cron expression. -/
structure CronFields where
  minute : Field
  hour : Field
  dayOfMonth : Field
  month : Field
  dayOfWeek : Field
  deriving DecidableEq, Repr

/-- When a job is due. -/
inductive Schedule where
  | every (interval : Span)
  | fields (fields : CronFields)
  deriving DecidableEq, Repr

/-- What is wrong with a cron expression. -/
inductive ScheduleError where
  | fieldCount (found : Nat)
  | invalidField (field value : String)
  | invalidInterval (interval : String)
  | unknownDescriptor (descriptor : String)
  deriving DecidableEq, Repr

def ScheduleError.message : ScheduleError → String
  | fieldCount found => s!"expected 5 fields, found {found}"
  | invalidField field value => s!"invalid {field} field '{value}'"
  | invalidInterval interval => s!"invalid @every interval '{interval}'"
  | unknownDescriptor descriptor => s!"unknown descriptor '{descriptor}'"

namespace Schedule

/-- How far ahead of an instant an occurrence is looked for, which is also the longest interval. -/
def horizon : Span := Span.ofDays 1830

/-- A field, or the error that names it. -/
def readField (spec : FieldSpec) (cs : List Char) : Except ScheduleError Field :=
  match Field.read? spec cs with
  | some f => .ok f
  | none => .error (.invalidField spec.name (String.ofList cs))

/-- The schedule of five fields. -/
def readFields (words : List (List Char)) : Except ScheduleError Schedule :=
  match words with
  | [minute, hour, dayOfMonth, month, dayOfWeek] => do
    let dayOfWeek ← readField .dayOfWeek dayOfWeek
    let minute ← readField .minute minute
    let hour ← readField .hour hour
    let dayOfMonth ← readField .dayOfMonth dayOfMonth
    let month ← readField .month month
    return .fields ⟨minute, hour, dayOfMonth, month, dayOfWeek.foldSunday⟩
  | words => .error (.fieldCount words.length)

/-- An interval that is neither nothing nor longer than the horizon. -/
def readInterval (cs : List Char) : Except ScheduleError Schedule :=
  let text := String.ofList (Text.trim cs)
  match Span.read text with
  | .ok s =>
    if s.nanos ≠ 0 ∧ s.nanos ≤ horizon.nanos then .ok (.every s) else .error (.invalidInterval text)
  | .error _ => .error (.invalidInterval text)

/-- The expression that a descriptor stands for. -/
def descriptorText? (descriptor : String) : Option String :=
  match descriptor with
  | "yearly" | "annually" => some "0 0 1 1 *"
  | "monthly" => some "0 0 1 * *"
  | "weekly" => some "0 0 * * 0"
  | "daily" | "midnight" => some "0 0 * * *"
  | "hourly" => some "0 * * * *"
  | _ => none

/-- The schedule of a descriptor, which is given without its at sign. -/
def readDescriptor (cs : List Char) : Except ScheduleError Schedule :=
  match Text.after? "every".toList cs with
  | some interval => readInterval interval
  | none =>
    match descriptorText? (String.ofList cs) with
    | some expression => readFields (Text.words expression.toList)
    | none => .error (.unknownDescriptor (String.ofList cs))

/-- The schedule that a cron expression spells. -/
def read (expression : String) : Except ScheduleError Schedule :=
  match Text.trim expression.toList with
  | '@' :: descriptor => readDescriptor descriptor
  | cs => readFields (Text.words cs)

end Schedule

end Allotment
