import Allotment.Adjustment
/-!
# Option words

The choices that a policy offers, and the words for them.

* `Vocabulary.read` looks a word up under its folded spelling; a word that is not found is told as it was folded.
* `ApplyTarget.readFor` also knows that only limits can follow their request.
* Each type of choices has its `vocabulary`, and a `name` that the vocabulary reads back.
-/

namespace Allotment

/-- What is wrong with an option word. -/
inductive WordError where
  | unknown (noun word : String)
  /-- A request was told to follow the request. -/
  | autoRequest
  deriving DecidableEq, Repr

def WordError.message : WordError → String
  | unknown noun word => s!"unknown {noun} '{word}'"
  | autoRequest => "apply target 'auto' is only valid for limits"

/-- The words for the choices of a type. -/
structure Vocabulary (α : Type) where
  /-- What the words are called. -/
  noun : String
  /-- The spelling under which a word is looked up. -/
  fold : String → String
  words : List (String × α)

namespace Vocabulary

variable {α : Type}

/-- The choice that a text spells. -/
def read (v : Vocabulary α) (text : String) : Except WordError α :=
  match v.words.lookup (v.fold text) with
  | some a => .ok a
  | none => .error (.unknown v.noun (v.fold text))

end Vocabulary

/-- The words for methods. They keep their underscores. -/
def Method.vocabulary : Vocabulary Method :=
  ⟨"calculator algorithm", Text.foldCase, [("ratio", .ratio), ("margin", .margin)]⟩

/-- Whether an axis may be written. -/
inductive ApplyMode where
  | enforce
  | off
  deriving DecidableEq, Repr

namespace ApplyMode

def name : ApplyMode → String
  | enforce => "enforce"
  | off => "off"

def vocabulary : Vocabulary ApplyMode :=
  ⟨"apply mode", Text.foldWord, [("enforce", .enforce), ("off", .off)]⟩

end ApplyMode

/-- Which band of a recommendation an axis follows. -/
inductive ApplyTarget where
  /-- The lower estimate. -/
  | frugal
  /-- The target estimate. -/
  | balanced
  /-- The upper estimate. -/
  | peak
  /-- The request of the same resource. -/
  | auto
  deriving DecidableEq, Repr

namespace ApplyTarget

def name : ApplyTarget → String
  | frugal => "frugal"
  | balanced => "balanced"
  | peak => "peak"
  | auto => "auto"

def vocabulary : Vocabulary ApplyTarget :=
  ⟨"apply target", Text.foldWord,
    [("frugal", .frugal), ("balanced", .balanced), ("peak", .peak), ("auto", .auto)]⟩

/-- The target that a text spells, for one side of a resource. -/
def readFor (side : Side) (text : String) : Except WordError ApplyTarget :=
  match vocabulary.read text with
  | .ok .auto => if side = .request then .error .autoRequest else .ok .auto
  | r => r

theorem ne_auto_of_readFor {text : String} {t : ApplyTarget} (h : readFor .request text = .ok t) :
    t ≠ .auto := by
  rintro rfl
  unfold readFor at h
  split at h
  · simp at h
  · rename_i hne
    exact hne h

end ApplyTarget

/-- Which way an axis may move. -/
inductive Direction where
  | both
  | up
  | down
  deriving DecidableEq, Repr

namespace Direction

def name : Direction → String
  | both => "both"
  | up => "up"
  | down => "down"

def vocabulary : Vocabulary Direction :=
  ⟨"scale direction", Text.foldWord, [("both", .both), ("up", .up), ("down", .down)]⟩

end Direction

/-- Where the request of a container without a recommendation comes from. -/
inductive UnprovidedMode where
  | off
  /-- The least amount that its bound allows. -/
  | minAllowed
  /-- The greatest amount that its bound allows. -/
  | maxAllowed
  /-- A fixed amount. -/
  | value
  deriving DecidableEq, Repr

namespace UnprovidedMode

def name : UnprovidedMode → String
  | off => "off"
  | minAllowed => "min-allowed"
  | maxAllowed => "max-allowed"
  | value => "value"

def vocabulary : Vocabulary UnprovidedMode :=
  ⟨"unprovided default mode", Text.foldWord,
    [("off", .off), ("min-allowed", .minAllowed), ("minallowed", .minAllowed), ("max-allowed", .maxAllowed),
      ("maxallowed", .maxAllowed), ("value", .value)]⟩

end UnprovidedMode

end Allotment
