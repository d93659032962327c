import Allotment.Dict

/-!
# Items of one key

A list may have several items of one key. Of these a search finds the first, and a dictionary keeps the last.

* `FirstOf key l k x`, `LastOf key l k x` — `x` is the first, or the last, item of a list with the key `k`;
* `find?_key_eq_some_iff` — a search finds the first;
* `Dict.get?_ofPairs_map_eq_some_iff` — a dictionary of the items keeps the last.
-/

namespace Allotment

section Items

variable {α : Type} {key : α → String} {l : List α} {k : String} {x : α}

/-- The first item of a list with a key. -/
def FirstOf (key : α → String) (l : List α) (k : String) (x : α) : Prop :=
  ∃ before after, l = before ++ x :: after ∧ key x = k ∧ ∀ y ∈ before, key y ≠ k

/-- The last item of a list with a key. -/
def LastOf (key : α → String) (l : List α) (k : String) (x : α) : Prop :=
  ∃ before after, l = before ++ x :: after ∧ key x = k ∧ ∀ y ∈ after, key y ≠ k

theorem FirstOf.key_eq (h : FirstOf key l k x) : key x = k := by
  obtain ⟨-, -, -, hk, -⟩ := h
  exact hk

theorem LastOf.key_eq (h : LastOf key l k x) : key x = k := by
  obtain ⟨-, -, -, hk, -⟩ := h
  exact hk

theorem FirstOf.singleton (h : key x = k) : FirstOf key [x] k x :=
  ⟨[], [], rfl, h, fun _ hy => absurd hy List.not_mem_nil⟩

theorem find?_key_eq_some_iff : l.find? (fun y => key y = k) = some x ↔ FirstOf key l k x := by
  rw [List.find?_eq_some_iff_append]
  constructor
  · rintro ⟨hk, before, after, hsplit, hbefore⟩
    exact ⟨before, after, hsplit, by simpa using hk, fun y hy => by simpa using hbefore y hy⟩
  · rintro ⟨before, after, hsplit, hk, hbefore⟩
    exact ⟨by simpa using hk, before, after, hsplit, fun y hy => by simpa using hbefore y hy⟩

theorem find?_key_eq_none_iff : l.find? (fun y => key y = k) = none ↔ ∀ y ∈ l, key y ≠ k := by
  simp [List.find?_eq_none]

/-- The last item is the first one from behind. -/
theorem firstOf_reverse_iff : FirstOf key l.reverse k x ↔ LastOf key l k x := by
  constructor
  · rintro ⟨before, after, hsplit, hk, hbefore⟩
    refine ⟨after.reverse, before.reverse, ?_, hk, fun y hy => hbefore y (List.mem_reverse.1 hy)⟩
    rw [← List.reverse_reverse l, hsplit, List.reverse_append, List.reverse_cons, List.append_assoc]
    rfl
  · rintro ⟨before, after, rfl, hk, hafter⟩
    refine ⟨after.reverse, before.reverse, ?_, hk, fun y hy => hafter y (List.mem_reverse.1 hy)⟩
    rw [List.reverse_append, List.reverse_cons, List.append_assoc]
    rfl

end Items

/-! ### Dictionaries of items -/

namespace Dict

variable {α β : Type} {key : α → String} {f : α → β} {l : List α} {k : String}

theorem lookup_map_key : (l.map fun x => (key x, f x)).lookup k = (l.find? fun x => key x = k).map f := by
  induction l with
  | nil => rfl
  | cons x l ih =>
    by_cases h : key x = k
    · simp [h]
    · rw [List.map_cons, List.lookup_cons, beq_eq_false_iff_ne.2 (Ne.symm h), List.find?_cons_of_neg (by simpa using h)]
      exact ih

theorem get?_ofPairs_map (key : α → String) (f : α → β) (l : List α) (k : String) :
    (ofPairs (l.map fun x => (key x, f x))).get? k = (l.reverse.find? fun x => key x = k).map f := by
  rw [get?_ofPairs, ← List.map_reverse, lookup_map_key]

theorem get?_ofPairs_map_eq_some_iff {v : β} :
    (ofPairs (l.map fun x => (key x, f x))).get? k = some v ↔ ∃ x, LastOf key l k x ∧ f x = v := by
  rw [get?_ofPairs_map, Option.map_eq_some_iff]
  simp only [find?_key_eq_some_iff, firstOf_reverse_iff]

theorem get?_ofPairs_map_eq_none_iff :
    (ofPairs (l.map fun x => (key x, f x))).get? k = none ↔ ∀ x ∈ l, key x ≠ k := by
  rw [get?_ofPairs_map, Option.map_eq_none_iff, find?_key_eq_none_iff]
  simp only [List.mem_reverse]

end Dict

end Allotment
