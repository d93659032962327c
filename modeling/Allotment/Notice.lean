import Allotment.Numeral
import Allotment.Outcome
import Allotment.Time.Span
/-!
# Notices

A notice is one line of the journal: that something happened, with the particulars.

* `Notice.level`, `Notice.message` and `Notice.fields` give the parts of the line.
* `quotedList` writes a list of texts within one field.
-/

namespace Allotment

/-- How much a notice matters. -/
inductive Level where
  | info
  | warn
  | error
  deriving DecidableEq, Repr

def Level.name : Level → String
  | info => "INFO"
  | warn => "WARN"
  | error => "ERROR"

/-- A particular of a notice. -/
inductive Particular where
  | text (s : String)
  | flag (b : Bool)
  deriving DecidableEq, Repr

/-- What the journal tells. -/
inductive Notice where
  | configured (controller inventory : String)
  | defaultsLoaded (count : Nat)
  /-- A run that found changes ended without an error. -/
  | updated (controller key : String) (dryRun : Bool) (changes : List String)
  /-- The store refused changes. -/
  | updateFailed (controller key : String) (changes : List String) (error : String)
  | started (controller version : String) (targets : Nat)
  | shuttingDown (controller reason : String)
  | resourceChange (key : String) (kind : OutcomeKind) (change : String)
  | notifierFailed (key error : String)
  | scheduleRegistered (key cron : String) (maxJitter : Span)
  | schedulingFailed (key error : String)
  | scheduleRemoved (key : String)
  /-- A timer has no occurrence left to wait for. -/
  | scheduleExhausted (key : String)
  | runFinished (key : String) (kind : OutcomeKind) (changes : Nat)
  | runFailed (key error : String)
  deriving DecidableEq, Repr

/-- A text between quotes, with quotes and backslashes in it marked by a backslash. -/
def quoted (s : String) : String :=
  let marked := s.toList.flatMap fun c => if c = '"' ∨ c = '\\' then ['\\', c] else [c]
  String.ofList ('"' :: marked ++ ['"'])

/-- Texts between quotes, in brackets and with commas between them. -/
def quotedList (ss : List String) : String :=
  "[" ++ ", ".intercalate (ss.map quoted) ++ "]"

namespace Notice

def level : Notice → Level
  | updateFailed .. | notifierFailed .. | scheduleExhausted .. => .warn
  | runFailed .. | schedulingFailed .. => .error
  | _ => .info

def message : Notice → String
  | configured .. => "Rightsizer configured"
  | defaultsLoaded .. => "Loaded process defaults"
  | updated _ _ false _ => "Updated resources"
  | updated _ _ true _ => "Computed resource changes (dry run)"
  | updateFailed .. => "Failed to update resources"
  | started .. => "Rightsizer started"
  | shuttingDown .. => "Rightsizer shutting down"
  | resourceChange .. => "Resource change"
  | notifierFailed .. => "Notifier failed"
  | scheduleRegistered .. => "Registered schedule"
  | schedulingFailed .. => "Failed to schedule target"
  | scheduleRemoved .. => "Removed schedule"
  | scheduleExhausted .. => "Schedule has no future fire time, stopping timer"
  | runFinished .. => "Scheduled run finished"
  | runFailed .. => "Scheduled run failed"

/-- A number as a particular. -/
def count (n : Nat) : Particular :=
  .text (String.ofList (Numeral.digits n))

/-- The particulars by their names. -/
def fields : Notice → List (String × Particular)
  | configured controller inventory => [("controller", .text controller), ("inventory", .text inventory)]
  | defaultsLoaded n => [("count", count n)]
  | updated controller key dryRun changes =>
    [("event", .text "resources_updated"), ("controller", .text controller), ("target_key", .text key),
      ("dry_run", .flag dryRun), ("changes", .text (quotedList changes))]
  | updateFailed controller key changes error =>
    [("event", .text "update_failed"), ("controller", .text controller), ("target_key", .text key),
      ("changes", .text (quotedList changes)), ("error", .text error)]
  | started controller version targets =>
    [("event", .text "rightsizer_started"), ("controller", .text controller), ("version", .text version),
      ("targets", count targets)]
  | shuttingDown controller reason =>
    [("event", .text "rightsizer_shutdown"), ("controller", .text controller), ("reason", .text reason)]
  | resourceChange key kind change =>
    [("event", .text "resource_change"), ("key", .text key), ("result", .text kind.name), ("change", .text change)]
  | notifierFailed key error => [("target_key", .text key), ("error", .text error)]
  | scheduleRegistered key cron maxJitter =>
    [("event", .text "schedule_registered"), ("key", .text key), ("cron", .text cron),
      ("max_jitter_ms", count maxJitter.millisWord)]
  | schedulingFailed key error => [("target_key", .text key), ("error", .text error)]
  | scheduleRemoved key => [("event", .text "schedule_removed"), ("key", .text key)]
  | scheduleExhausted key => [("key", .text key)]
  | runFinished key kind changes => [("key", .text key), ("result", .text kind.name), ("changes", count changes)]
  | runFailed key error => [("key", .text key), ("error", .text error)]

end Notice

end Allotment
