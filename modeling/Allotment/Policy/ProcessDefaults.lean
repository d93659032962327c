import Allotment.Dict
import Allotment.Text
/-!
# Process defaults

Values of settings that hold for all workloads of one process. Keys are kept under their folded spelling, in which
the names of settings are written, and looked up as they are.

* `ProcessDefaults.ofPairs` lets the last value of a key stay, `insertNew` the first one.
* `get?_insertNew` says what is found after one more pair.
-/

namespace Allotment

/-- Values of settings that hold for a whole process. -/
structure ProcessDefaults where
  values : Dict String

namespace ProcessDefaults

def empty : ProcessDefaults := ⟨Dict.empty⟩

/-- The defaults of a list of pairs. -/
def ofPairs (ps : List (String × String)) : ProcessDefaults :=
  ⟨Dict.ofPairs (ps.map fun p => (Text.foldWord p.1, p.2))⟩

/-- Sets a value unless its key has one. -/
def insertNew (d : ProcessDefaults) (key value : String) : ProcessDefaults :=
  ⟨d.values.insertNew (Text.foldWord key) value⟩

/-- The value of a setting. -/
def get? (d : ProcessDefaults) (setting : String) : Option String :=
  d.values.get? setting

def size (d : ProcessDefaults) : Nat := d.values.size

def isEmpty (d : ProcessDefaults) : Bool := d.values.isEmpty

/-! ### Laws -/

@[simp] theorem get?_empty (s : String) : empty.get? s = none := rfl

theorem get?_insertNew (d : ProcessDefaults) (key value s : String) :
    (d.insertNew key value).get? s =
      if s = Text.foldWord key ∧ d.get? (Text.foldWord key) = none then some value else d.get? s :=
  Dict.get?_insertNew _ _ _ _

end ProcessDefaults

end Allotment
