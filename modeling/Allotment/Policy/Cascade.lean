import Allotment.Dict
import Allotment.Policy.ProcessDefaults
import Allotment.Policy.Setting
/-!
# The cascade of layers

The value of a setting is looked for in three layers: the note for the container, the note for the workload, and the
process default. A value that does not read is passed over and reported.

* `Cascade.layers` lists the values that are present, the strongest first.
* `Cascade.resolve` takes the first value that reads, and reports those before it that do not.
* `Cascade.text` and `Cascade.flag` take the first value that is present, whatever it is.
-/

namespace Allotment

/-- The notes of a workload, by their keys. -/
abbrev Annotations := Dict String

/-- Where a value was found. -/
inductive Scope where
  | container
  | workload
  | processDefault
  deriving DecidableEq, Repr

def Scope.name : Scope → String
  | container => "container"
  | workload => "workload"
  | processDefault => "process-default"

/-- A value that is present, as it is written. -/
structure Layer where
  scope : Scope
  value : String
  deriving DecidableEq, Repr

/-- The value that was accepted, and those passed over before it, with what was wrong with them. -/
structure Resolution (ε α : Type) where
  value : Option α
  ignored : List (Layer × ε)

/-- The layers that settings are looked up in. -/
structure Cascade where
  annotations : Annotations
  defaults : ProcessDefaults

namespace Cascade

variable {ε α : Type}

/-- The values of a setting, for the workload or for one of its containers, the strongest first. -/
def layers (c : Cascade) (setting : String) (container : Option String) : List Layer :=
  let own := container.bind fun name => c.annotations.get? (annotationKey setting (some name))
  let workload := c.annotations.get? (annotationKey setting none)
  let process := c.defaults.get? setting
  (own.map (Layer.mk .container)).toList ++ (workload.map (Layer.mk .workload)).toList ++
    (process.map (Layer.mk .processDefault)).toList

/-- The first of some layers that reads. -/
def firstAccepted (read : String → Except ε α) : List Layer → Resolution ε α
  | [] => ⟨none, []⟩
  | l :: ls =>
    match read l.value with
    | .ok a => ⟨some a, []⟩
    | .error e =>
      let rest := firstAccepted read ls
      { rest with ignored := (l, e) :: rest.ignored }

/-- The first value of a setting that reads, and the values passed over. -/
def resolve (c : Cascade) (read : String → Except ε α) (setting : String) (container : Option String) :
    Resolution ε α :=
  firstAccepted read (c.layers setting container)

/-- The first value of a setting that reads. -/
def value? (c : Cascade) (read : String → Except ε α) (setting : String) (container : Option String) :
    Option α :=
  (c.resolve read setting container).value

/-- The first value of a setting without blanks at its ends; empty when there is none. -/
def text (c : Cascade) (setting : String) (container : Option String) : String :=
  match (c.layers setting container).head? with
  | some l => Text.trimmed l.value
  | none => ""

/-- Whether the first value of a setting is exactly the word for true. -/
def flag (c : Cascade) (setting : String) (container : Option String) : Bool :=
  match (c.layers setting container).head? with
  | some l => l.value = "true"
  | none => false

/-! ### Laws -/

theorem value_firstAccepted (read : String → Except ε α) (ls : List Layer) :
    (firstAccepted read ls).value = ls.findSome? fun l => (read l.value).toOption := by
  induction ls with
  | nil => rfl
  | cons l ls ih =>
    simp only [firstAccepted, List.findSome?_cons]
    cases read l.value with
    | ok a => rfl
    | error e => simpa [Except.toOption] using ih

/-- A value that was found was read from some layer. -/
theorem exists_of_value? {c : Cascade} {read : String → Except ε α} {setting : String} {container : Option String}
    {a : α} (h : c.value? read setting container = some a) : ∃ text, read text = .ok a := by
  unfold value? resolve at h
  rw [value_firstAccepted] at h
  obtain ⟨l, -, hl⟩ := List.exists_of_findSome?_eq_some h
  refine ⟨l.value, ?_⟩
  cases hread : read l.value with
  | error e =>
    rw [hread] at hl
    cases hl
  | ok b =>
    rw [hread] at hl
    rw [Option.some.inj hl]

end Cascade

end Allotment
