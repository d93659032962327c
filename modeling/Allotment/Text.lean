/-!
# Blank characters, words and pieces of text

Text is cut on lists of characters, so that every function here is a plain recursion.

* `Text.isBlank` is the Unicode property White_Space, all twenty-five code points of it.
* `Text.trim` drops blanks at both ends, `Text.words` gives the runs between blanks.
* `Text.pieces` cuts at every separator, `Text.cut` at the first one only.
* `Text.foldWord` is the spelling under which option words and setting keys are looked up.
-/

namespace Allotment.Text

/-- The characters with the Unicode property White_Space. -/
def isBlank (c : Char) : Bool :=
  let n := c.toNat
  (0x09 ≤ n && n ≤ 0x0D) || n = 0x20 || n = 0x85 || n = 0xA0 || n = 0x1680 ||
    (0x2000 ≤ n && n ≤ 0x200A) || n = 0x2028 || n = 0x2029 || n = 0x202F || n = 0x205F || n = 0x3000

/-- Drops the blanks at the end. -/
def trimEnd (cs : List Char) : List Char :=
  (cs.reverse.dropWhile isBlank).reverse

/-- Drops the blanks at both ends. -/
def trim (cs : List Char) : List Char :=
  trimEnd (cs.dropWhile isBlank)

/-- The text without the blanks at its ends. -/
def trimmed (s : String) : String :=
  String.ofList (trim s.toList)

/-- The pieces between separators; `n` separators give `n + 1` pieces, some perhaps empty. -/
def pieces (isSeparator : Char → Bool) : List Char → List (List Char)
  | [] => [[]]
  | c :: cs =>
    if isSeparator c then [] :: pieces isSeparator cs
    else
      match pieces isSeparator cs with
      | [] => [[c]]
      | p :: ps => (c :: p) :: ps

/-- The maximal runs of characters that are not blank. -/
def words (cs : List Char) : List (List Char) :=
  (pieces isBlank cs).filter (fun w => !w.isEmpty)

/-- The parts before and after the first separator, if there is one. -/
def cut (separator : Char) : List Char → Option (List Char × List Char)
  | [] => none
  | c :: cs =>
    if c = separator then some ([], cs)
    else (cut separator cs).map fun (before, after) => (c :: before, after)

/-- The rest of the text after an opening, if it begins with that opening. -/
def after? : List Char → List Char → Option (List Char)
  | [], cs => some cs
  | _ :: _, [] => none
  | o :: os, c :: cs => if o = c then after? os cs else none

/-- ASCII letters in lower case, all other characters as they are. -/
def lower (cs : List Char) : List Char :=
  cs.map Char.toLower

/-- ASCII letters in upper case, all other characters as they are. -/
def upper (cs : List Char) : List Char :=
  cs.map Char.toUpper

/-- Trimmed and in lower case. -/
def foldCase (s : String) : String :=
  String.ofList (lower (trim s.toList))

/-- Trimmed, in lower case, with every underscore written as a dash. -/
def foldWord (s : String) : String :=
  String.ofList ((lower (trim s.toList)).map fun c => if c = '_' then '-' else c)

/-! ### Laws -/

@[simp] theorem trim_nil : trim [] = [] := rfl

theorem dropWhile_isBlank_eq_self {cs : List Char} (h : ∀ c ∈ cs, isBlank c = false) : cs.dropWhile isBlank = cs := by
  cases cs with
  | nil => rfl
  | cons c cs => rw [List.dropWhile_cons_of_neg (by simp [h c List.mem_cons_self])]

theorem trim_eq_self {cs : List Char} (h : ∀ c ∈ cs, isBlank c = false) : trim cs = cs := by
  have hreverse : ∀ c ∈ cs.reverse, isBlank c = false := fun c hc => h c (List.mem_reverse.1 hc)
  unfold trim trimEnd
  rw [dropWhile_isBlank_eq_self h, dropWhile_isBlank_eq_self hreverse, List.reverse_reverse]

theorem isBlank_of_isDigit {c : Char} (h : c.isDigit = true) : isBlank c = false := by
  have hcode : 48 ≤ c.toNat ∧ c.toNat ≤ 57 := by
    unfold Char.isDigit at h
    simpa [Char.le_def, UInt32.le_iff_toNat_le] using h
  unfold isBlank
  simp
  omega

theorem cut_eq_some {separator : Char} {cs before after : List Char}
    (h : cut separator cs = some (before, after)) :
    cs = before ++ separator :: after ∧ separator ∉ before := by
  induction cs generalizing before with
  | nil => simp [cut] at h
  | cons c cs ih =>
    by_cases hc : c = separator
    · simp [cut, hc] at h
      obtain ⟨rfl, rfl⟩ := h
      simp [hc]
    · simp only [cut, hc, if_false, Option.map_eq_some_iff] at h
      obtain ⟨⟨b, a⟩, hb, heq⟩ := h
      obtain ⟨rfl, rfl⟩ := Prod.mk.inj heq
      obtain ⟨rfl, hn⟩ := ih hb
      refine ⟨rfl, ?_⟩
      simp only [List.mem_cons, not_or]
      exact ⟨fun e => hc e.symm, hn⟩

/-- What stands before a separator is cut off if it has none itself. -/
theorem cut_append {separator : Char} {before after : List Char} (h : separator ∉ before) :
    cut separator (before ++ separator :: after) = some (before, after) := by
  induction before with
  | nil => simp [cut]
  | cons c cs ih =>
    obtain ⟨hne, hnot⟩ := not_or.1 (mt List.mem_cons.2 h)
    rw [List.cons_append, cut, if_neg (Ne.symm hne), ih hnot, Option.map_some]

theorem cut_eq_none_iff {separator : Char} {cs : List Char} : cut separator cs = none ↔ separator ∉ cs := by
  induction cs with
  | nil => simp [cut]
  | cons c cs ih =>
    by_cases hc : c = separator
    · simp [cut, hc]
    · simp [cut, hc, ih, Ne.symm hc]

theorem after?_eq_some_iff {opening cs rest : List Char} : after? opening cs = some rest ↔ cs = opening ++ rest := by
  induction opening generalizing cs with
  | nil => simp [after?]
  | cons o os ih =>
    cases cs with
    | nil => simp [after?]
    | cons c cs =>
      by_cases h : o = c
      · simp [after?, h, ih]
      · simp [after?, h, Ne.symm h]

theorem pieces_ne_nil (isSeparator : Char → Bool) (cs : List Char) : pieces isSeparator cs ≠ [] := by
  cases cs with
  | nil => simp [pieces]
  | cons c cs =>
    simp only [pieces]
    split
    · simp
    · split <;> simp

end Allotment.Text
