import Allotment.Decimal.Shortest
import Allotment.Decimal.Literal
import Allotment.Policy.ProcessDefaults
/-!
# Settings from the environment

A daemon is set up by environment variables. A variable counts by its name in lower case.

* `ProcessDefaults.ofEnvironment` takes the variables of the longer opening, as they are.
* `DaemonSettings.ofEnvironment` takes those of the shorter one, and types their values first: a truth value, a whole
  number, a real number, or else a text. `TypedValue.text` and `TypedValue.flag?` turn them into what a setting wants.
-/

namespace Allotment

/-- Environment variables, in the order in which they were set. -/
abbrev Environment := List (String × String)

namespace Environment

/-- The opening of variables that set the daemon up. -/
def daemonOpening : String := "rightsizer_"

/-- The opening of variables that give process defaults. -/
def defaultsOpening : String := "rightsizer_default_"

/-- The variables in a block of text: entries that end with a zero, each a name and a value around an equals sign. -/
def ofBlock (block : String) : Environment :=
  (block.splitOn "\x00").filterMap fun entry =>
    let name := entry.toList.takeWhile (· ≠ '=')
    match entry.toList.drop name.length with
    | _ :: value => some (String.ofList name, String.ofList value)
    | [] => none

/-- The variables whose names begin with an opening, with the rest of their names in lower case. -/
def under (env : Environment) (opening : String) : List (String × String) :=
  env.filterMap fun (name, value) =>
    (Text.after? opening.toList (Text.lower name.toList)).map fun rest => (String.ofList rest, value)

end Environment

/-- The process defaults that an environment gives. -/
def ProcessDefaults.ofEnvironment (env : Environment) : ProcessDefaults :=
  .ofPairs (env.under Environment.defaultsOpening)

/-- A value of an environment variable. -/
inductive TypedValue where
  | flag (b : Bool)
  | whole (n : Int64)
  | real (x : Float)
  | text (s : String)

namespace TypedValue

/-- The value of a text. -/
def ofText (s : String) : TypedValue :=
  let word := Text.lower s.toList
  if word = "true".toList then .flag true
  else if word = "false".toList then .flag false
  else
    match Numeral.int64? s.toList with
    | some n => .whole n
    | none =>
      match Decimal.readFloat? s.toList with
      | some x => .real x
      | none => .text s

/-- The text of a value. -/
def asText : TypedValue → String
  | flag true => "true"
  | flag false => "false"
  | whole n => String.ofList (Numeral.ofInt n.toInt)
  | real x => String.ofList (Decimal.floatText x)
  | text s => s

/-- The words that stand for true, and those for false. -/
def trueWords : List String := ["1", "true", "on", "yes"]

def falseWords : List String := ["0", "false", "off", "no"]

/-- The truth of a value. Numbers are true unless they are zero. -/
def asFlag? : TypedValue → Option Bool
  | flag b => some b
  | whole n => some (n ≠ 0)
  | real x => some (x != 0.0)
  | text s =>
    let word := String.ofList (Text.lower s.toList)
    if trueWords.contains word then some true
    else if falseWords.contains word then some false
    else none

end TypedValue

/-- How a daemon is set up. -/
structure DaemonSettings where
  inventoryPath : String
  controllerName : String
  defaultDryRun : Bool
  deriving DecidableEq, Repr

/-- A setting of a daemon has a value that it cannot have. -/
structure SettingsError where
  deriving DecidableEq, Repr

def SettingsError.message (_ : SettingsError) : String :=
  "invalid rightsizer configuration"

namespace DaemonSettings

/-- The settings of an empty environment. -/
def initial : DaemonSettings :=
  ⟨"/etc/rightsizer/inventory.json", "rightsizer", false⟩

/-- The settings that an environment gives. Of variables with one name in lower case the last one counts. -/
def ofEnvironment (env : Environment) : Except SettingsError DaemonSettings :=
  let values := Dict.ofPairs (env.under Environment.daemonOpening)
  let value? (name : String) : Option TypedValue := (values.get? name).map TypedValue.ofText
  let inventoryPath := ((value? "inventory_path").map TypedValue.asText).getD initial.inventoryPath
  let controllerName := ((value? "controller_name").map TypedValue.asText).getD initial.controllerName
  match value? "default_dry_run" with
  | none => .ok ⟨inventoryPath, controllerName, initial.defaultDryRun⟩
  | some v =>
    match v.asFlag? with
    | some b => .ok ⟨inventoryPath, controllerName, b⟩
    | none => .error ⟨⟩

/-- The process defaults of a daemon: those of the environment, and a dry run if the daemon is set up for one and the
environment does not say. -/
def processDefaults (s : DaemonSettings) (env : Environment) : ProcessDefaults :=
  let d := ProcessDefaults.ofEnvironment env
  if s.defaultDryRun then d.insertNew "dry-run" "true" else d

end DaemonSettings

end Allotment
