/-!
# Dictionaries

A `Dict α` binds text keys to values. Each key is bound once, and the bindings stand in increasing order of
the keys, so two dictionaries with the same bindings are equal.

* `Dict.insert` binds a key, in place of an older binding; `Dict.insertNew` keeps the older one.
* `Dict.erase` drops a binding.
* `Dict.get?` looks a key up; `get?_insert` and `get?_erase` say what the operations do to it.
* `Dict.ofPairs` binds the pairs of a list one after the other, so the last pair of a key stays.
* `mem_entries_iff`, `mem_keys_iff` and `mem_values_iff` say what stands in a dictionary in terms of looking up.
-/

namespace Allotment

/-- Values under text keys, in increasing order of the keys. -/
structure Dict (α : Type) where
  entries : List (String × α)
  ordered : entries.Pairwise (fun a b => a.1 < b.1)

namespace Dict

variable {α : Type}

/-- No bindings. -/
def empty : Dict α := ⟨[], .nil⟩

instance : Inhabited (Dict α) := ⟨empty⟩

/-- Binds a key in an ordered list of bindings. -/
def put (k : String) (v : α) : List (String × α) → List (String × α)
  | [] => [(k, v)]
  | e :: es =>
    if k < e.1 then (k, v) :: e :: es
    else if k = e.1 then (k, v) :: es
    else e :: put k v es

theorem mem_put {k : String} {v : α} {es : List (String × α)} {e : String × α} (h : e ∈ put k v es) :
    e = (k, v) ∨ e ∈ es := by
  induction es with
  | nil => simpa [put] using h
  | cons d ds ih =>
    simp only [put] at h
    split at h
    · simpa using h
    · split at h
      · rcases List.mem_cons.1 h with h | h
        · exact .inl h
        · exact .inr (List.mem_cons_of_mem _ h)
      · rcases List.mem_cons.1 h with rfl | h
        · exact .inr List.mem_cons_self
        · exact (ih h).imp id (List.mem_cons_of_mem _)

theorem pairwise_put {k : String} {v : α} {es : List (String × α)}
    (h : es.Pairwise (fun a b => a.1 < b.1)) : (put k v es).Pairwise (fun a b => a.1 < b.1) := by
  induction es with
  | nil => simp [put]
  | cons d ds ih =>
    obtain ⟨hd, hds⟩ := List.pairwise_cons.1 h
    simp only [put]
    split
    · rename_i hlt
      refine List.pairwise_cons.2 ⟨fun e he => ?_, h⟩
      rcases List.mem_cons.1 he with rfl | he
      · exact hlt
      · exact String.lt_trans hlt (hd e he)
    · rename_i hlt
      split
      · rename_i heq
        exact List.pairwise_cons.2 ⟨fun e he => heq ▸ hd e he, hds⟩
      · rename_i hne
        refine List.pairwise_cons.2 ⟨fun e he => ?_, ih hds⟩
        rcases mem_put he with rfl | he
        · exact Classical.byContradiction fun hn =>
            hne (String.le_antisymm (String.not_lt.1 hn) (String.not_lt.1 hlt))
        · exact hd e he

/-- Binds `k` to `v`, in place of what it was bound to. -/
def insert (d : Dict α) (k : String) (v : α) : Dict α :=
  ⟨put k v d.entries, pairwise_put d.ordered⟩

/-- The value bound to a key. -/
def get? (d : Dict α) (k : String) : Option α :=
  d.entries.lookup k

/-- Whether a key is bound. -/
def contains (d : Dict α) (k : String) : Bool :=
  (d.get? k).isSome

/-- Binds `k` to `v` unless `k` is bound. -/
def insertNew (d : Dict α) (k : String) (v : α) : Dict α :=
  if d.contains k then d else d.insert k v

/-- Drops the binding of a key. -/
def erase (d : Dict α) (k : String) : Dict α :=
  ⟨d.entries.filter (fun e => e.1 ≠ k), d.ordered.filter _⟩

/-- The number of bindings. -/
def size (d : Dict α) : Nat :=
  d.entries.length

/-- Whether nothing is bound. -/
def isEmpty (d : Dict α) : Bool :=
  d.entries.isEmpty

/-- The bound keys, in increasing order. -/
def keys (d : Dict α) : List String :=
  d.entries.map (·.1)

/-- The bound values, in the order of their keys. -/
def values (d : Dict α) : List α :=
  d.entries.map (·.2)

/-- The dictionary of a list of pairs, in which the last pair of a key stays. -/
def ofPairs (ps : List (String × α)) : Dict α :=
  ps.foldl (fun d p => d.insert p.1 p.2) empty

/-! ### Looking up -/

@[simp] theorem get?_empty (k : String) : (empty : Dict α).get? k = none := rfl

theorem lookup_put (k j : String) (v : α) (es : List (String × α)) :
    (put k v es).lookup j = if j = k then some v else es.lookup j := by
  induction es with
  | nil =>
    by_cases h : j = k
    · simp [put, h]
    · simp [put, List.lookup_cons, beq_eq_false_iff_ne.2 h, h]
  | cons e es ih =>
    obtain ⟨i, w⟩ := e
    simp only [put]
    split
    · by_cases h : j = k
      · simp [h]
      · simp [List.lookup_cons, beq_eq_false_iff_ne.2 h, h]
    · split
      · rename_i heq
        subst heq
        by_cases h : j = k
        · simp [h]
        · simp [List.lookup_cons, beq_eq_false_iff_ne.2 h, h]
      · rename_i hne
        by_cases hj : j = i
        · subst hj
          simp [Ne.symm hne]
        · simp [List.lookup_cons, beq_eq_false_iff_ne.2 hj, ih]

theorem get?_insert (d : Dict α) (k j : String) (v : α) :
    (d.insert k v).get? j = if j = k then some v else d.get? j :=
  lookup_put k j v d.entries

/-- Of the pairs of a list the last one with a key counts. -/
theorem get?_ofPairs (ps : List (String × α)) (k : String) : (ofPairs ps).get? k = ps.reverse.lookup k := by
  have hfold : ∀ d : Dict α,
      (ps.foldl (fun d p => d.insert p.1 p.2) d).get? k = (ps.reverse.lookup k).or (d.get? k) := by
    induction ps with
    | nil => simp
    | cons p ps ih =>
      intro d
      obtain ⟨j, v⟩ := p
      rw [List.foldl_cons, ih, get?_insert, List.reverse_cons, List.lookup_append, Option.or_assoc]
      by_cases h : k = j
      · simp [h]
      · simp [h, List.lookup_cons, beq_eq_false_iff_ne.2 h]
  rw [ofPairs, hfold, get?_empty, Option.or_none]

theorem get?_insertNew (d : Dict α) (k j : String) (v : α) :
    (d.insertNew k v).get? j = if j = k ∧ d.get? k = none then some v else d.get? j := by
  unfold insertNew contains
  cases h : d.get? k with
  | none => simp [get?_insert]
  | some w => simp

theorem lookup_filter_ne (k j : String) (es : List (String × α)) :
    (es.filter (fun e => e.1 ≠ k)).lookup j = if j = k then none else es.lookup j := by
  induction es with
  | nil => simp
  | cons e es ih =>
    obtain ⟨i, w⟩ := e
    by_cases hi : i = k
    · rw [List.filter_cons_of_neg (by simpa using hi), ih]
      by_cases hj : j = k
      · simp [hj]
      · have : j ≠ i := fun h => hj (h.trans hi)
        simp [hj, List.lookup_cons, beq_eq_false_iff_ne.2 this]
    · rw [List.filter_cons_of_pos (by simpa using hi)]
      by_cases hj : j = i
      · subst hj
        simp [hi]
      · simp only [List.lookup_cons, beq_eq_false_iff_ne.2 hj, ih]

theorem get?_erase (d : Dict α) (k j : String) :
    (d.erase k).get? j = if j = k then none else d.get? j :=
  lookup_filter_ne k j d.entries

/-! ### Bindings, keys and values -/

theorem mem_entries_iff {d : Dict α} {k : String} {v : α} : (k, v) ∈ d.entries ↔ d.get? k = some v := by
  unfold get?
  rw [List.lookup_eq_some_iff]
  constructor
  · intro h
    obtain ⟨before, after, hsplit⟩ := List.append_of_mem h
    refine ⟨before, after, hsplit, fun p hp => ?_⟩
    have hordered := d.ordered
    rw [hsplit, List.pairwise_append] at hordered
    have hlt : p.1 < k := hordered.2.2 p hp (k, v) List.mem_cons_self
    rw [bne_iff_ne]
    rintro rfl
    exact String.lt_irrefl _ hlt
  · rintro ⟨before, after, hsplit, -⟩
    rw [hsplit]
    exact List.mem_append_right _ List.mem_cons_self

theorem mem_values_iff {d : Dict α} {v : α} : v ∈ d.values ↔ ∃ k, d.get? k = some v := by
  simp only [values, List.mem_map, ← mem_entries_iff]
  constructor
  · rintro ⟨⟨k, w⟩, hmem, rfl⟩
    exact ⟨k, hmem⟩
  · rintro ⟨k, hmem⟩
    exact ⟨(k, v), hmem, rfl⟩

theorem mem_keys_iff {d : Dict α} {k : String} : k ∈ d.keys ↔ d.contains k = true := by
  unfold contains
  simp only [keys, List.mem_map, Option.isSome_iff_exists, ← mem_entries_iff]
  constructor
  · rintro ⟨⟨j, v⟩, hmem, rfl⟩
    exact ⟨v, hmem⟩
  · rintro ⟨v, hmem⟩
    exact ⟨(k, v), hmem, rfl⟩

theorem nodup_keys (d : Dict α) : d.keys.Nodup := by
  refine List.pairwise_map.2 (d.ordered.imp fun {a b} hlt heq => ?_)
  rw [heq] at hlt
  exact String.lt_irrefl _ hlt

/-- A pair is found in a dictionary if no other pair has its key. -/
theorem get?_ofPairs_of_mem {ps : List (String × α)} (h : (ps.map Prod.fst).Nodup) {k : String} {v : α}
    (hmem : (k, v) ∈ ps) : (ofPairs ps).get? k = some v := by
  have hreverse : (ps.reverse.map Prod.fst).Nodup := by
    rw [List.map_reverse]
    exact List.pairwise_reverse.2 (h.imp Ne.symm)
  obtain ⟨before, after, hsplit⟩ := List.append_of_mem (List.mem_reverse.2 hmem)
  rw [get?_ofPairs, List.lookup_eq_some_iff]
  refine ⟨before, after, hsplit, fun p hp => ?_⟩
  rw [hsplit, List.map_append, List.nodup_append] at hreverse
  rw [bne_iff_ne]
  exact (hreverse.2.2 p.1 (List.mem_map_of_mem hp) k List.mem_cons_self).symm

theorem mem_of_get?_ofPairs {ps : List (String × α)} {k : String} {v : α}
    (h : (ofPairs ps).get? k = some v) : (k, v) ∈ ps := by
  rw [get?_ofPairs, List.lookup_eq_some_iff] at h
  obtain ⟨before, after, hsplit, -⟩ := h
  rw [← List.mem_reverse, hsplit]
  exact List.mem_append_right _ List.mem_cons_self

end Dict

end Allotment
