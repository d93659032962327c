import Allotment.Quantity.Basic
/-!
# Suffixes of quantities

A suffix stands for a power of ten (`n`, `u`, `m`, none, `k`, `M`, `G`, `T`, `P`, `E`) or for a power of 1024
(`Ki`, `Mi`, `Gi`, `Ti`, `Pi`, `Ei`).

* `Suffix.text` writes a suffix and `Suffix.read?` reads it; `read?_text` says that they fit.
* `Suffix.decimals` and `Suffix.binaries` are the suffixes of whole amounts, the largest first.
-/

namespace Allotment

/-- The power that an amount is written in. -/
inductive Suffix where
  | nano | micro | milli | unit
  | kilo | mega | giga | tera | peta | exa
  | kibi | mebi | gibi | tebi | pebi | exbi
  deriving DecidableEq, Repr

namespace Suffix

def text : Suffix → List Char
  | nano => ['n'] | micro => ['u'] | milli => ['m'] | unit => []
  | kilo => ['k'] | mega => ['M'] | giga => ['G'] | tera => ['T'] | peta => ['P'] | exa => ['E']
  | kibi => ['K', 'i'] | mebi => ['M', 'i'] | gibi => ['G', 'i']
  | tebi => ['T', 'i'] | pebi => ['P', 'i'] | exbi => ['E', 'i']

/-- The power of ten that a suffix stands for. -/
def exponent : Suffix → Int
  | nano => -9 | micro => -6 | milli => -3
  | kilo => 3 | mega => 6 | giga => 9 | tera => 12 | peta => 15 | exa => 18
  | _ => 0

/-- The power of 1024 that a suffix stands for. -/
def binaryPower : Suffix → Nat
  | kibi => 1 | mebi => 2 | gibi => 3 | tebi => 4 | pebi => 5 | exbi => 6
  | _ => 0

/-- The whole factor of a suffix, its power of ten left aside. -/
def factor (s : Suffix) : Nat :=
  Nat.pow 1024 s.binaryPower

def family : Suffix → SuffixFamily
  | kibi | mebi | gibi | tebi | pebi | exbi => .binary
  | _ => .decimal

/-- The amount that a suffix of whole amounts stands for. -/
def size (s : Suffix) : Nat :=
  Nat.pow 10 s.exponent.toNat * s.factor

/-- All suffixes. -/
def all : List Suffix :=
  [nano, micro, milli, unit, kilo, mega, giga, tera, peta, exa, kibi, mebi, gibi, tebi, pebi, exbi]

/-- The suffixes of powers of 1000, the largest first. -/
def decimals : List Suffix := [exa, peta, tera, giga, mega, kilo]

/-- The suffixes of powers of 1024, the largest first. -/
def binaries : List Suffix := [exbi, pebi, tebi, gibi, mebi, kibi]

/-- The suffix that a text spells. -/
def read? (cs : List Char) : Option Suffix :=
  all.find? fun s => s.text = cs

theorem read?_text (s : Suffix) : read? s.text = some s := by
  cases s <;> decide

theorem text_of_read? {cs : List Char} {s : Suffix} (h : read? cs = some s) : s.text = cs := by
  simpa using List.find?_some h

end Suffix

end Allotment
