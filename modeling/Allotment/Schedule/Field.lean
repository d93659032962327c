import Allotment.Numeral
/-!
# Fields of a cron expression

A field is a list of items, separated by commas; each covers some of the values that the field can take.

* `FieldSpec` gives the range of a field and the names of its values.
* `Item.Covers` says which values an item covers: every `step`-th from its start to its end.
* `Field.read?` reads a field. Its values are those of the range that some item covers, in increasing order, so two
  fields with the same values are equal. A field with an item `*` of step one is unrestricted.
-/

namespace Allotment

/-- What a field may hold. -/
structure FieldSpec where
  name : String
  least : Nat
  greatest : Nat
  /-- Names of values, the first for the value `firstNamed`. -/
  names : List String
  firstNamed : Nat
  deriving DecidableEq, Repr

namespace FieldSpec

def minute : FieldSpec := ⟨"minute", 0, 59, [], 0⟩

def hour : FieldSpec := ⟨"hour", 0, 23, [], 0⟩

def dayOfMonth : FieldSpec := ⟨"day-of-month", 1, 31, [], 0⟩

def month : FieldSpec :=
  ⟨"month", 1, 12, ["JAN", "FEB", "MAR", "APR", "MAY", "JUN", "JUL", "AUG", "SEP", "OCT", "NOV", "DEC"], 1⟩

/-- Days of the week, with Sunday both as 0 and as 7. -/
def dayOfWeek : FieldSpec := ⟨"day-of-week", 0, 7, ["SUN", "MON", "TUE", "WED", "THU", "FRI", "SAT"], 0⟩

/-- The values from the least to the greatest. -/
def range (s : FieldSpec) : List Nat :=
  List.range' s.least (s.greatest + 1 - s.least)

end FieldSpec

/-- Numbers in a cron expression are below this. -/
def cronNumberLimit : Nat := UInt32.size

/-- One value of a field: a number, or a name in any case of letters. -/
def readFieldValue? (spec : FieldSpec) (cs : List Char) : Option Nat :=
  let value := match Numeral.below? cronNumberLimit cs with
    | some n => some n
    | none =>
      let name := String.ofList (Text.upper cs)
      (spec.names.findIdx? fun n => n = name).map (spec.firstNamed + ·)
  value.filter fun v => spec.least ≤ v ∧ v ≤ spec.greatest

/-- Every `step`-th value from `start` to `stop`. -/
structure Item where
  start : Nat
  stop : Nat
  step : Nat
  /-- Whether the item is a star of step one. -/
  whole : Bool
  deriving DecidableEq, Repr

namespace Item

/-- Whether an item covers a value. -/
def Covers (i : Item) (v : Nat) : Prop :=
  i.start ≤ v ∧ v ≤ i.stop ∧ (v - i.start) % i.step = 0

instance (i : Item) (v : Nat) : Decidable (i.Covers v) :=
  inferInstanceAs (Decidable (_ ∧ _ ∧ _))

/-- The values between which an item ranges: all for a star, `a-b`, or a single value. A single value with a step
ranges to the end of the field. -/
def readRange? (spec : FieldSpec) (stepped : Bool) (cs : List Char) : Option (Nat × Nat) :=
  if cs = ['*'] then some (spec.least, spec.greatest)
  else
    match Text.cut '-' cs with
    | some (low, high) => do
      let start ← readFieldValue? spec low
      let stop ← readFieldValue? spec high
      return (start, stop)
    | none => do
      let start ← readFieldValue? spec cs
      return (start, if stepped then spec.greatest else start)

/-- A range, with a step behind a slash if there is one. -/
def read? (spec : FieldSpec) (cs : List Char) : Option Item := do
  let (range, step) ← match Text.cut '/' cs with
    | some (range, step) => (Numeral.below? cronNumberLimit step).map fun n => (range, some n)
    | none => some (cs, none)
  if step = some 0 then none
  else do
    let (start, stop) ← readRange? spec step.isSome range
    if stop < start then none
    else some ⟨start, stop, step.getD 1, range = ['*'] && step.getD 1 = 1⟩

end Item

/-- The values that a field admits. -/
structure Field where
  values : List Nat
  /-- Whether the field is written as unrestricted. -/
  unrestricted : Bool
  deriving DecidableEq, Repr

namespace Field

/-- Whether a field admits a value. -/
def Admits (f : Field) (v : Nat) : Prop := v ∈ f.values

instance (f : Field) (v : Nat) : Decidable (f.Admits v) :=
  inferInstanceAs (Decidable (_ ∈ _))

/-- The field of some items. -/
def ofItems (spec : FieldSpec) (items : List Item) : Field :=
  { values := spec.range.filter fun v => items.any fun i => i.Covers v
    unrestricted := items.any Item.whole }

/-- The field that a text spells. -/
def read? (spec : FieldSpec) (cs : List Char) : Option Field :=
  ((Text.pieces (· = ',') cs).mapM (Item.read? spec)).map (ofItems spec)

/-- The field with seven, the other name of Sunday, counted as zero. -/
def foldSunday (f : Field) : Field :=
  { f with values := (List.range 7).filter fun v => f.Admits v ∨ (v = 0 ∧ f.Admits 7) }

end Field

end Allotment
