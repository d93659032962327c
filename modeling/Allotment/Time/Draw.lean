/-!
# Draws

Jitters are chosen by numbers that look random. A draw is a source of such numbers: each number leads to the next
source, so the numbers that follow depend on the seed alone.

* `Draw.number` is the number that is drawn, `Draw.next` the source of the numbers after it.
* `Draw.numbers` draws several.
-/

namespace Allotment

/-- A source of numbers below 2^64. -/
structure Draw where
  seed : UInt64
  deriving DecidableEq, Repr

namespace Draw

def ofNat (n : Nat) : Draw := ⟨n.toUInt64⟩

/-- The number that is drawn: the seed with its bits mixed. -/
def number (d : Draw) : Nat :=
  let a := (d.seed ^^^ (d.seed >>> 30)) * 0xbf58476d1ce4e5b9
  let b := (a ^^^ (a >>> 27)) * 0x94d049bb133111eb
  (b ^^^ (b >>> 31)).toNat

/-- The source after the number was drawn. The step is odd, so all seeds are gone through before one comes again. -/
def next (d : Draw) : Draw := ⟨d.seed + 0x9e3779b97f4a7c15⟩

/-- The first numbers that are drawn. -/
def numbers (d : Draw) : Nat → List Nat
  | 0 => []
  | n + 1 => d.number :: numbers d.next n

end Draw

end Allotment
