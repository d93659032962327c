import Mathlib.Data.List.Sort
import Allotment.Schedule.Basic
import Allotment.Proofs.Numeral
import Allotment.Proofs.Reading
import Allotment.Proofs.Text.Blanks

/-!
# The grammar of cron expressions

* `ValueText spec cs v`, `RangeText spec stepped cs a b`, `ItemText spec cs i` — what the characters `cs` spell: a value
  of a field, what an item ranges over, and a whole item, from numbers as `NumberText` has them;
* `ValueText.of_read`, `ValueText.read`, …, `Item.read?_eq_some_iff` — the readers read just that;
* `Field.SpelledBy part cs f` — the field `f` has the values that the items between the commas of `cs` cover, with seven
  counted as zero among the days of the week, and is unrestricted if one of them is a star of step one;
* `Schedule.read_fields` — an expression without an at sign reads if its words are five such fields, and then as what
  they spell; the order of the items does not matter, nor does it if one comes twice.
-/

namespace Allotment

/-! ### Values -/

/-- A number spells a value within the range of the field, and the name of a value spells it in any case of letters. -/
inductive ValueText (spec : FieldSpec) : List Char → Nat → Prop
  | number {cs : List Char} {n : Nat} (h : NumberText cs n) (hleast : spec.least ≤ n) (hgreatest : n ≤ spec.greatest) :
    ValueText spec cs n
  | name {cs : List Char} {i : Nat} {name : String} (hname : spec.names[i]? = some name)
    (h : Text.upper cs = name.toList) : ValueText spec cs (spec.firstNamed + i)

/-- What an item ranges over: `*`, one value, or `a-b`. One value with a step goes on to the end of the field. -/
inductive RangeText (spec : FieldSpec) (stepped : Bool) : List Char → Nat → Nat → Prop
  | star : RangeText spec stepped ['*'] spec.least spec.greatest
  | value {cs : List Char} {a : Nat} (h : ValueText spec cs a) :
    RangeText spec stepped cs a (if stepped then spec.greatest else a)
  | span {as bs : List Char} {a b : Nat} (ha : ValueText spec as a) (hb : ValueText spec bs b) :
    RangeText spec stepped (as ++ '-' :: bs) a b

/-- An item is a range that does not go backward, with a step of at least one behind a slash or without one. -/
inductive ItemText (spec : FieldSpec) : List Char → Item → Prop
  | plain {cs : List Char} {a b : Nat} (h : RangeText spec false cs a b) (hab : a ≤ b) :
    ItemText spec cs ⟨a, b, 1, cs = ['*']⟩
  | stepped {cs ns : List Char} {a b n : Nat} (h : RangeText spec true cs a b) (hab : a ≤ b) (hn : NumberText ns n)
    (hpos : 1 ≤ n) (hlimit : n < cronNumberLimit) : ItemText spec (cs ++ '/' :: ns) ⟨a, b, n, cs = ['*'] && n = 1⟩

/-- What is asked of a field for its values to be read as they are spelled: its range is one of numbers that can be
read, and the names of values are different words of capital letters within it. -/
structure FieldSpec.Proper (spec : FieldSpec) : Prop where
  greatest : spec.greatest < cronNumberLimit
  least : spec.least ≤ spec.greatest
  named : ∀ i < spec.names.length, spec.least ≤ spec.firstNamed + i ∧ spec.firstNamed + i ≤ spec.greatest
  names : spec.names.Nodup
  capitals : ∀ name ∈ spec.names, ∀ c ∈ name.toList, c.isUpper = true

section Values

variable {spec : FieldSpec} {cs : List Char} {v : Nat}

/-- The letters of a name are letters in any case. -/
theorem FieldSpec.Proper.isUpper_of_name (hspec : spec.Proper) {i : Nat} {name : String}
    (hname : spec.names[i]? = some name) (h : Text.upper cs = name.toList) {c : Char} (hc : c ∈ cs) :
    c.toUpper.isUpper = true := by
  refine hspec.capitals name (List.mem_of_getElem? hname) _ ?_
  rw [← h]
  exact List.mem_map_of_mem hc

/-- None of the marks of an item stands in a value. -/
theorem ValueText.not_mark (hspec : spec.Proper) (h : ValueText spec cs v) : '*' ∉ cs ∧ '-' ∉ cs ∧ '/' ∉ cs := by
  cases h with
  | number hn =>
    have hmem := hn.mem.2
    exact ⟨fun hc => absurd (hmem _ hc) (by decide), fun hc => absurd (hmem _ hc) (by decide),
      fun hc => absurd (hmem _ hc) (by decide)⟩
  | name hname h =>
    have hupper : ∀ c ∈ cs, c.toUpper.isUpper = true := fun c => hspec.isUpper_of_name hname h
    exact ⟨fun hc => absurd (hupper _ hc) (by decide), fun hc => absurd (hupper _ hc) (by decide),
      fun hc => absurd (hupper _ hc) (by decide)⟩

theorem ValueText.mem_range (hspec : spec.Proper) (h : ValueText spec cs v) : spec.least ≤ v ∧ v ≤ spec.greatest := by
  cases h with
  | number _ hleast hgreatest => exact ⟨hleast, hgreatest⟩
  | name hname _ =>
    obtain ⟨hi, -⟩ := List.getElem?_eq_some_iff.1 hname
    exact hspec.named _ hi

theorem isUpper_toUpper_of_isDigit {c : Char} (h : c.isDigit = true) : c.toUpper.isUpper = false := by
  have hcode : 48 ≤ c.toNat ∧ c.toNat ≤ 57 := by
    unfold Char.isDigit at h
    simpa [UInt32.le_iff_toNat_le] using h
  have hsame : c.toUpper = c := by
    unfold Char.toUpper
    rw [dif_neg]
    simp [UInt32.le_iff_toNat_le]
    omega
  rw [hsame]
  unfold Char.isUpper
  simp [UInt32.le_iff_toNat_le]
  omega

theorem ValueText.of_read (h : readFieldValue? spec cs = some v) : ValueText spec cs v := by
  unfold readFieldValue? at h
  obtain ⟨hvalue, hrange⟩ := Option.filter_eq_some_iff.1 h
  obtain ⟨hleast, hgreatest⟩ := of_decide_eq_true hrange
  cases hnumber : Numeral.below? cronNumberLimit cs with
  | some n =>
    rw [hnumber] at hvalue
    obtain rfl := Option.some.inj hvalue
    exact .number (Numeral.below?_eq_some_iff.1 hnumber).1 hleast hgreatest
  | none =>
    rw [hnumber] at hvalue
    obtain ⟨i, hi, rfl⟩ := Option.map_eq_some_iff.1 hvalue
    obtain ⟨hlt, hname, -⟩ := List.findIdx?_eq_some_iff_getElem.1 hi
    refine .name (List.getElem?_eq_getElem hlt) ?_
    rw [of_decide_eq_true hname, String.toList_ofList]

theorem ValueText.read (hspec : spec.Proper) (h : ValueText spec cs v) : readFieldValue? spec cs = some v := by
  have hrange := h.mem_range hspec
  unfold readFieldValue?
  refine Option.filter_eq_some_iff.2 ⟨?_, decide_eq_true hrange⟩
  cases h with
  | number hn _ hgreatest =>
    rw [Numeral.below?_eq_some_iff.2 ⟨hn, Nat.lt_of_le_of_lt hgreatest hspec.greatest⟩]
  | name hname h =>
    rename_i i name
    have hnone : Numeral.below? cronNumberLimit cs = none := by
      refine Option.eq_none_iff_forall_ne_some.2 fun n hn => ?_
      obtain ⟨c, hc, hdigit⟩ := (Numeral.below?_eq_some_iff.1 hn).1.mem.1
      have hupper := hspec.isUpper_of_name hname h hc
      rw [isUpper_toUpper_of_isDigit hdigit] at hupper
      cases hupper
    obtain ⟨hlt, hi⟩ := List.getElem?_eq_some_iff.1 hname
    have hupper : String.ofList (Text.upper cs) = spec.names[i] := by rw [h, hi, String.ofList_toList]
    have hfind : (spec.names.findIdx? fun n => n = String.ofList (Text.upper cs)) = some i := by
      refine List.findIdx?_eq_some_iff_getElem.2 ⟨hlt, by simp [hupper], fun j hj => ?_⟩
      simpa [hupper, hspec.names.getElem_inj_iff] using Nat.ne_of_lt hj
    rw [hnone]
    simp only [hfind, Option.map_some]

end Values

/-! ### Items -/

namespace Item

variable {spec : FieldSpec} {stepped : Bool} {cs : List Char} {a b : Nat} {i : Item}

theorem rangeText_of_readRange? (h : readRange? spec stepped cs = some (a, b)) : RangeText spec stepped cs a b := by
  unfold readRange? at h
  split at h
  · next hstar =>
    obtain ⟨rfl, rfl⟩ := Prod.mk.inj (Option.some.inj h)
    exact hstar ▸ .star
  · split at h
    · next low high hcut =>
      obtain ⟨start, hstart, h⟩ := Option.bind_eq_some_iff.1 h
      obtain ⟨stop, hstop, h⟩ := Option.bind_eq_some_iff.1 h
      obtain ⟨rfl, rfl⟩ := Prod.mk.inj (Option.some.inj h)
      rw [(Text.cut_eq_some hcut).1]
      exact .span (.of_read hstart) (.of_read hstop)
    · obtain ⟨start, hstart, h⟩ := Option.bind_eq_some_iff.1 h
      obtain ⟨rfl, rfl⟩ := Prod.mk.inj (Option.some.inj h)
      exact .value (.of_read hstart)

theorem readRange?_of_rangeText (hspec : spec.Proper) (h : RangeText spec stepped cs a b) :
    readRange? spec stepped cs = some (a, b) := by
  unfold readRange?
  cases h with
  | star => rw [if_pos rfl]
  | value h =>
    obtain ⟨hstar, hdash, -⟩ := h.not_mark hspec
    have hne : cs ≠ ['*'] := by
      rintro rfl
      exact hstar List.mem_cons_self
    rw [if_neg hne, Text.cut_eq_none_iff.2 hdash]
    simp [h.read hspec]
  | span ha hb =>
    rename_i as bs
    have hne : as ++ '-' :: bs ≠ ['*'] := by
      intro heq
      have hdash : '-' ∈ ['*'] := heq ▸ List.mem_append_right as List.mem_cons_self
      exact absurd hdash (by decide)
    rw [if_neg hne, Text.cut_append (ha.not_mark hspec).2.1]
    simp [ha.read hspec, hb.read hspec]

end Item

section Items

variable {spec : FieldSpec} {stepped : Bool} {cs : List Char} {a b : Nat} {i : Item}

theorem RangeText.not_slash (hspec : spec.Proper) (h : RangeText spec stepped cs a b) : '/' ∉ cs := by
  cases h with
  | star => decide
  | value h => exact (h.not_mark hspec).2.2
  | span ha hb =>
    simp only [List.mem_append, List.mem_cons, not_or]
    exact ⟨(ha.not_mark hspec).2.2, by decide, (hb.not_mark hspec).2.2⟩

theorem RangeText.mem_range (hspec : spec.Proper) (h : RangeText spec stepped cs a b) :
    spec.least ≤ a ∧ b ≤ spec.greatest := by
  have hleast := hspec.least
  cases h with
  | star => omega
  | value h =>
    have := h.mem_range hspec
    split <;> omega
  | span ha hb =>
    have := ha.mem_range hspec
    have := hb.mem_range hspec
    omega

/-- A star of step one, with the step written or not. -/
def StarText (cs : List Char) : Prop :=
  cs = ['*'] ∨ ∃ ns, cs = '*' :: '/' :: ns ∧ NumberText ns 1

theorem ItemText.mem_range (hspec : spec.Proper) (h : ItemText spec cs i) :
    spec.least ≤ i.start ∧ i.start ≤ i.stop ∧ i.stop ≤ spec.greatest := by
  cases h with
  | plain h hab => exact ⟨(h.mem_range hspec).1, hab, (h.mem_range hspec).2⟩
  | stepped h hab => exact ⟨(h.mem_range hspec).1, hab, (h.mem_range hspec).2⟩

theorem ItemText.whole_iff (hspec : spec.Proper) (h : ItemText spec cs i) : i.whole = true ↔ StarText cs := by
  cases h with
  | plain h _ =>
    rw [decide_eq_true_eq]
    refine ⟨.inl, ?_⟩
    rintro (hstar | ⟨ns, rfl, -⟩)
    · exact hstar
    · exact absurd (List.mem_cons_of_mem _ List.mem_cons_self) (h.not_slash hspec)
  | @stepped range ns _ _ n h _ hn _ _ =>
    rw [Bool.and_eq_true, decide_eq_true_eq, decide_eq_true_eq]
    constructor
    · rintro ⟨rfl, rfl⟩
      exact .inr ⟨ns, rfl, hn⟩
    · rintro (hstar | ⟨ns', hstar, hone⟩)
      · have hslash : '/' ∈ ['*'] := hstar ▸ List.mem_append_right range List.mem_cons_self
        exact absurd hslash (by decide)
      · have hcut : Text.cut '/' (range ++ '/' :: ns) = some (range, ns) := Text.cut_append (h.not_slash hspec)
        rw [hstar] at hcut
        obtain ⟨hrange, hns⟩ := Prod.mk.inj (Option.some.inj hcut)
        exact ⟨hrange.symm, hn.unique (hns ▸ hone)⟩

theorem StarText.itemText (hspec : spec.Proper) (h : StarText cs) : ∃ i, ItemText spec cs i := by
  rcases h with rfl | ⟨ns, rfl, hone⟩
  · exact ⟨_, .plain .star hspec.least⟩
  · exact ⟨_, .stepped .star hspec.least hone (by decide) (by decide)⟩

theorem Item.read?_of_cut_none (h : Text.cut '/' cs = none) :
    Item.read? spec cs = (Item.readRange? spec false cs).bind fun r =>
      if r.2 < r.1 then none else some ⟨r.1, r.2, 1, cs = ['*']⟩ := by
  unfold Item.read?
  rw [h]
  simp

theorem Item.read?_of_cut_some {range step : List Char} (h : Text.cut '/' cs = some (range, step)) :
    Item.read? spec cs = (Numeral.below? cronNumberLimit step).bind fun n =>
      if n = 0 then none else (Item.readRange? spec true range).bind fun r =>
        if r.2 < r.1 then none else some ⟨r.1, r.2, n, range = ['*'] && n = 1⟩ := by
  unfold Item.read?
  rw [h]
  simp [Option.bind_map]

theorem ItemText.of_read (h : Item.read? spec cs = some i) : ItemText spec cs i := by
  cases hcut : Text.cut '/' cs with
  | none =>
    rw [Item.read?_of_cut_none hcut] at h
    obtain ⟨⟨start, stop⟩, hrange, h⟩ := Option.bind_eq_some_iff.1 h
    obtain ⟨horder, h⟩ := Option.ite_none_left_eq_some.1 h
    obtain rfl := Option.some.inj h
    exact .plain (Item.rangeText_of_readRange? hrange) (Nat.not_lt.1 horder)
  | some parts =>
    obtain ⟨range, step⟩ := parts
    rw [Item.read?_of_cut_some hcut] at h
    obtain ⟨n, hn, h⟩ := Option.bind_eq_some_iff.1 h
    obtain ⟨hzero, h⟩ := Option.ite_none_left_eq_some.1 h
    obtain ⟨⟨start, stop⟩, hrange, h⟩ := Option.bind_eq_some_iff.1 h
    obtain ⟨horder, h⟩ := Option.ite_none_left_eq_some.1 h
    obtain rfl := Option.some.inj h
    obtain ⟨hnumber, hlimit⟩ := Numeral.below?_eq_some_iff.1 hn
    rw [(Text.cut_eq_some hcut).1]
    exact .stepped (Item.rangeText_of_readRange? hrange) (Nat.not_lt.1 horder) hnumber (Nat.pos_of_ne_zero hzero) hlimit

theorem ItemText.read (hspec : spec.Proper) (h : ItemText spec cs i) : Item.read? spec cs = some i := by
  cases h with
  | plain h hab =>
    rw [Item.read?_of_cut_none (Text.cut_eq_none_iff.2 (h.not_slash hspec)), Item.readRange?_of_rangeText hspec h,
      Option.bind_some, if_neg (Nat.not_lt.2 hab)]
  | stepped h hab hn hpos hlimit =>
    rw [Item.read?_of_cut_some (Text.cut_append (h.not_slash hspec)), Numeral.below?_eq_some_iff.2 ⟨hn, hlimit⟩,
      Option.bind_some, if_neg (Nat.pos_iff_ne_zero.1 hpos), Item.readRange?_of_rangeText hspec h, Option.bind_some,
      if_neg (Nat.not_lt.2 hab)]

theorem Item.read?_eq_some_iff (hspec : spec.Proper) : Item.read? spec cs = some i ↔ ItemText spec cs i :=
  ⟨.of_read, fun h => h.read hspec⟩

end Items

/-! ### Fields -/

/-- The fields of an expression, in their order. -/
inductive CronPart where
  | minute
  | hour
  | dayOfMonth
  | month
  | dayOfWeek
  deriving DecidableEq, Repr

namespace CronPart

def all : List CronPart := [minute, hour, dayOfMonth, month, dayOfWeek]

def spec : CronPart → FieldSpec
  | minute => .minute
  | hour => .hour
  | dayOfMonth => .dayOfMonth
  | month => .month
  | dayOfWeek => .dayOfWeek

/-- What a value counts as: seven is another name of Sunday, which is zero. -/
def canonical (part : CronPart) (v : Nat) : Nat :=
  if part = dayOfWeek ∧ v = 7 then 0 else v

/-- The greatest value, once seven counts as zero. -/
def greatest (part : CronPart) : Nat :=
  if part = dayOfWeek then 6 else part.spec.greatest

theorem proper (part : CronPart) : part.spec.Proper where
  greatest := by cases part <;> decide
  least := by cases part <;> decide
  named := by cases part <;> decide
  names := by cases part <;> decide
  capitals := by
    have hall : (part.spec.names.all fun name => name.toList.all Char.isUpper) = true := by
      cases part <;> decide
    simpa only [List.all_eq_true] using hall

theorem canonical_mem_range (part : CronPart) {v : Nat} (h : part.spec.least ≤ v ∧ v ≤ part.spec.greatest) :
    part.spec.least ≤ part.canonical v ∧ part.canonical v ≤ part.greatest := by
  by_cases hpart : part = dayOfWeek
  · subst hpart
    have hle : v ≤ 7 := h.2
    refine ⟨Nat.zero_le _, ?_⟩
    simp only [canonical, greatest, true_and, if_true]
    split <;> omega
  · simpa [canonical, greatest, hpart] using h

end CronPart

/-- The field of a schedule that a part of the expression gives. -/
def CronFields.part (f : CronFields) : CronPart → Field
  | .minute => f.minute
  | .hour => f.hour
  | .dayOfMonth => f.dayOfMonth
  | .month => f.month
  | .dayOfWeek => f.dayOfWeek

/-- The texts of items, which stand between commas. -/
def itemTexts (cs : List Char) : List (List Char) :=
  Text.pieces (· = ',') cs

namespace Field

/-- A field has, in increasing order, what the values count as that some item of its text covers, and it is unrestricted
exactly if some item is a star of step one. -/
structure SpelledBy (part : CronPart) (cs : List Char) (f : Field) : Prop where
  admits : ∀ v, f.Admits v ↔
    ∃ p ∈ itemTexts cs, ∃ i, ItemText part.spec p i ∧ ∃ u, i.Covers u ∧ part.canonical u = v
  unrestricted : f.unrestricted = true ↔ ∃ p ∈ itemTexts cs, StarText p
  ordered : f.values.Pairwise (· < ·)

variable {spec : FieldSpec} {part : CronPart} {cs : List Char} {f g : Field} {v : Nat}

theorem read?_eq_some_iff (hspec : spec.Proper) :
    read? spec cs = some f ↔
      (∀ p ∈ itemTexts cs, ∃ i, ItemText spec p i) ∧ f = ofItems spec ((itemTexts cs).filterMap (Item.read? spec)) := by
  unfold read?
  simp only [Option.map_eq_some_iff, mapM_eq_some_iff, Item.read?_eq_some_iff hspec]
  constructor
  · rintro ⟨items, ⟨h, rfl⟩, rfl⟩
    exact ⟨h, rfl⟩
  · rintro ⟨h, rfl⟩
    exact ⟨_, ⟨h, rfl⟩, rfl⟩

theorem admits_of_read? (hspec : spec.Proper) (h : read? spec cs = some f) :
    f.Admits v ↔ ∃ p ∈ itemTexts cs, ∃ i, ItemText spec p i ∧ i.Covers v := by
  obtain ⟨-, rfl⟩ := (read?_eq_some_iff hspec).1 h
  simp only [Admits, ofItems, List.mem_filter, FieldSpec.range, List.mem_range'_1, List.any_eq_true, List.mem_filterMap,
    Item.read?_eq_some_iff hspec, decide_eq_true_eq]
  constructor
  · rintro ⟨-, i, ⟨p, hp, hi⟩, hcovers⟩
    exact ⟨p, hp, i, hi, hcovers⟩
  · rintro ⟨p, hp, i, hi, hcovers⟩
    have hrange := hi.mem_range hspec
    have hstart := hcovers.1
    have hstop := hcovers.2.1
    exact ⟨by omega, i, ⟨p, hp, hi⟩, hcovers⟩

theorem unrestricted_of_read? (hspec : spec.Proper) (h : read? spec cs = some f) :
    f.unrestricted = true ↔ ∃ p ∈ itemTexts cs, StarText p := by
  obtain ⟨-, rfl⟩ := (read?_eq_some_iff hspec).1 h
  simp only [ofItems, List.any_eq_true, List.mem_filterMap, Item.read?_eq_some_iff hspec]
  constructor
  · rintro ⟨i, ⟨p, hp, hi⟩, hwhole⟩
    exact ⟨p, hp, (hi.whole_iff hspec).1 hwhole⟩
  · rintro ⟨p, hp, hstar⟩
    obtain ⟨i, hi⟩ := hstar.itemText hspec
    exact ⟨i, ⟨p, hp, hi⟩, (hi.whole_iff hspec).2 hstar⟩

theorem ordered_ofItems (spec : FieldSpec) (items : List Item) : (ofItems spec items).values.Pairwise (· < ·) :=
  List.Pairwise.filter _ List.pairwise_lt_range'

/-- A text of items that all read covers some value. -/
theorem exists_admits_of_read? (hspec : spec.Proper) (h : read? spec cs = some f) : ∃ v, f.Admits v := by
  obtain ⟨p, hp⟩ := List.exists_mem_of_ne_nil _ (Text.pieces_ne_nil (· = ',') cs)
  obtain ⟨i, hi⟩ := ((read?_eq_some_iff hspec).1 h).1 p hp
  have hstop := (hi.mem_range hspec).2.1
  exact ⟨i.start, (admits_of_read? hspec h).2 ⟨p, hp, i, hi, Nat.le_refl _, hstop, by simp⟩⟩

theorem mem_range_of_read? (hspec : spec.Proper) (h : read? spec cs = some f) (hv : f.Admits v) :
    spec.least ≤ v ∧ v ≤ spec.greatest := by
  obtain ⟨p, -, i, hi, hstart, hstop, -⟩ := (admits_of_read? hspec h).1 hv
  have hrange := hi.mem_range hspec
  omega

theorem admits_foldSunday : f.foldSunday.Admits v ↔ v < 7 ∧ (f.Admits v ∨ (v = 0 ∧ f.Admits 7)) := by
  rw [Admits, foldSunday, List.mem_filter, List.mem_range, decide_eq_true_iff]

end Field

/-! ### The five fields -/

/-- The field of a schedule that a field as it was read becomes. -/
def CronPart.settle : CronPart → Field → Field
  | .dayOfWeek, f => f.foldSunday
  | _, f => f

namespace CronPart

variable {part : CronPart} {cs : List Char} {f g : Field} {v : Nat}

theorem admits_settle (hf : ∀ v, f.Admits v → v ≤ part.spec.greatest) :
    (part.settle f).Admits v ↔ ∃ u, f.Admits u ∧ part.canonical u = v := by
  by_cases hpart : part = dayOfWeek
  · subst hpart
    have hseven : ∀ u, f.Admits u → u ≤ 7 := hf
    simp only [settle, canonical, true_and, Field.admits_foldSunday]
    constructor
    · rintro ⟨hlt, hv | ⟨rfl, hv⟩⟩
      · exact ⟨v, hv, if_neg (by omega)⟩
      · exact ⟨7, hv, rfl⟩
    · rintro ⟨u, hu, rfl⟩
      have hle := hseven u hu
      split
      · next h => exact ⟨by omega, .inr ⟨rfl, h ▸ hu⟩⟩
      · next h => exact ⟨by omega, .inl hu⟩
  · simp [settle, canonical, hpart]

theorem spelledBy_settle (h : Field.read? part.spec cs = some f) : (part.settle f).SpelledBy part cs := by
  have hspec := part.proper
  refine ⟨fun v => ?admits, ?unrestricted, ?ordered⟩
  case admits =>
    rw [admits_settle fun v hv => (Field.mem_range_of_read? hspec h hv).2]
    simp only [Field.admits_of_read? hspec h]
    constructor
    · rintro ⟨u, ⟨p, hp, i, hi, hcovers⟩, hu⟩
      exact ⟨p, hp, i, hi, u, hcovers, hu⟩
    · rintro ⟨p, hp, i, hi, u, hcovers, hu⟩
      exact ⟨u, ⟨p, hp, i, hi, hcovers⟩, hu⟩
  case unrestricted =>
    rw [← Field.unrestricted_of_read? hspec h]
    unfold settle
    split <;> rfl
  case ordered =>
    unfold settle
    split
    · exact List.Pairwise.filter _ List.pairwise_lt_range
    · obtain ⟨-, rfl⟩ := (Field.read?_eq_some_iff hspec).1 h
      exact Field.ordered_ofItems _ _

end CronPart

namespace Field.SpelledBy

variable {part : CronPart} {cs ds : List Char} {f g : Field}

/-- Texts of the same items spell one field, in whatever order and how often they have them. -/
theorem unique (hf : f.SpelledBy part cs) (hg : g.SpelledBy part ds) (h : ∀ p, p ∈ itemTexts cs ↔ p ∈ itemTexts ds) :
    f = g := by
  have hvalues : f.values = g.values := by
    refine hf.ordered.eq_of_mem_iff hg.ordered fun {v} => (hf.admits v).trans (Iff.trans ?_ (hg.admits v).symm)
    simp only [h]
  have hflag : f.unrestricted = g.unrestricted := by
    rw [Bool.eq_iff_iff, hf.unrestricted, hg.unrestricted]
    simp only [h]
  obtain ⟨values, flag⟩ := f
  obtain rfl : values = g.values := hvalues
  obtain rfl : flag = g.unrestricted := hflag
  rfl

end Field.SpelledBy

/-! ### Expressions -/

/-- The five fields, one for each part of an expression. -/
def CronFields.ofParts (field : CronPart → Field) : CronFields :=
  ⟨field .minute, field .hour, field .dayOfMonth, field .month, field .dayOfWeek⟩

theorem CronFields.ext_part {f g : CronFields} (h : ∀ part, f.part part = g.part part) : f = g := by
  obtain ⟨minute, hour, dayOfMonth, month, dayOfWeek⟩ := f
  obtain rfl : minute = g.minute := h .minute
  obtain rfl : hour = g.hour := h .hour
  obtain rfl : dayOfMonth = g.dayOfMonth := h .dayOfMonth
  obtain rfl : month = g.month := h .month
  obtain rfl : dayOfWeek = g.dayOfWeek := h .dayOfWeek
  rfl

@[simp] theorem CronFields.part_ofParts (field : CronPart → Field) (part : CronPart) :
    (ofParts field).part part = field part := by
  cases part <;> rfl

namespace Schedule

variable {text text' : CronPart → List Char} {s : Schedule}

theorem readField_eq_ok_iff {spec : FieldSpec} {cs : List Char} {f : Field} :
    readField spec cs = .ok f ↔ Field.read? spec cs = some f := by
  unfold readField
  cases Field.read? spec cs <;> simp

/-- The fields are read in an order of their own, but all of them have to read. -/
theorem readFields_eq_ok_iff :
    readFields (CronPart.all.map text) = .ok s ↔
      ∃ field : CronPart → Field, (∀ part, Field.read? part.spec (text part) = some (field part)) ∧
        s = .fields (.ofParts fun part => part.settle (field part)) := by
  constructor
  · intro h
    obtain ⟨dayOfWeek, hdayOfWeek, h⟩ := bind_eq_ok_iff.1 h
    obtain ⟨minute, hminute, h⟩ := bind_eq_ok_iff.1 h
    obtain ⟨hour, hhour, h⟩ := bind_eq_ok_iff.1 h
    obtain ⟨dayOfMonth, hdayOfMonth, h⟩ := bind_eq_ok_iff.1 h
    obtain ⟨month, hmonth, h⟩ := bind_eq_ok_iff.1 h
    refine ⟨CronFields.part ⟨minute, hour, dayOfMonth, month, dayOfWeek⟩, fun part => ?_, (Except.ok.inj h).symm⟩
    rw [← readField_eq_ok_iff]
    cases part with
    | minute => exact hminute
    | hour => exact hhour
    | dayOfMonth => exact hdayOfMonth
    | month => exact hmonth
    | dayOfWeek => exact hdayOfWeek
  · rintro ⟨field, hfield, rfl⟩
    simp only [← readField_eq_ok_iff] at hfield
    have hdayOfWeek : readField .dayOfWeek (text .dayOfWeek) = .ok (field .dayOfWeek) := hfield .dayOfWeek
    have hminute : readField .minute (text .minute) = .ok (field .minute) := hfield .minute
    have hhour : readField .hour (text .hour) = .ok (field .hour) := hfield .hour
    have hdayOfMonth : readField .dayOfMonth (text .dayOfMonth) = .ok (field .dayOfMonth) := hfield .dayOfMonth
    have hmonth : readField .month (text .month) = .ok (field .month) := hfield .month
    simp only [CronPart.all, List.map, readFields, hdayOfWeek, hminute, hhour, hdayOfMonth, hmonth]
    rfl

theorem exists_text_of_readFields {ws : List (List Char)} (h : readFields ws = .ok s) :
    ∃ text : CronPart → List Char, ws = CronPart.all.map text := by
  unfold readFields at h
  split at h
  · next minute hour dayOfMonth month dayOfWeek =>
    refine ⟨fun part => ?_, ?_⟩
    · exact match part with
        | .minute => minute
        | .hour => hour
        | .dayOfMonth => dayOfMonth
        | .month => month
        | .dayOfWeek => dayOfWeek
    · rfl
  · cases h

/-- The words of the expression are the texts of its five fields. -/
def HasFields (e : String) (text : CronPart → List Char) : Prop :=
  Text.words e.toList = CronPart.all.map text

instance (e : String) (text : CronPart → List Char) : Decidable (HasFields e text) :=
  inferInstanceAs (Decidable (_ = _))

theorem read_eq_readFields {e : String} (h : (Text.trim e.toList).head? ≠ some '@') :
    read e = readFields (Text.words e.toList) := by
  unfold read
  split
  · next hat =>
    rw [hat] at h
    exact absurd rfl h
  · rw [Text.words_trim]

theorem HasFields.read_eq {e : String} (htext : HasFields e text) (h : (Text.trim e.toList).head? ≠ some '@') :
    read e = readFields (CronPart.all.map text) := by
  rw [read_eq_readFields h, htext]

theorem readFields_isOk_iff :
    (∃ s, readFields (CronPart.all.map text) = .ok s) ↔
      ∀ part, ∀ p ∈ itemTexts (text part), ∃ i, ItemText part.spec p i := by
  constructor
  · rintro ⟨s, h⟩ part
    obtain ⟨field, hfield, -⟩ := readFields_eq_ok_iff.1 h
    exact ((Field.read?_eq_some_iff part.proper).1 (hfield part)).1
  · intro h
    exact ⟨_, readFields_eq_ok_iff.2 ⟨_, fun part => (Field.read?_eq_some_iff part.proper).2 ⟨h part, rfl⟩, rfl⟩⟩

/-- Five fields that read are what their texts spell, and none of them is empty or out of its range. -/
theorem spelledBy_of_readFields (h : readFields (CronPart.all.map text) = .ok s) :
    ∃ f, s = .fields f ∧ ∀ part, (f.part part).SpelledBy part (text part) ∧ (∃ v, (f.part part).Admits v) ∧
      ∀ v, (f.part part).Admits v → part.spec.least ≤ v ∧ v ≤ part.greatest := by
  obtain ⟨field, hfield, rfl⟩ := readFields_eq_ok_iff.1 h
  refine ⟨_, rfl, fun part => ?_⟩
  have hrange {v : Nat} (hv : (field part).Admits v) := Field.mem_range_of_read? part.proper (hfield part) hv
  simp only [CronFields.part_ofParts, CronPart.admits_settle fun v hv => (hrange hv).2]
  refine ⟨CronPart.spelledBy_settle (hfield part), ?_, ?_⟩
  · obtain ⟨v, hv⟩ := Field.exists_admits_of_read? part.proper (hfield part)
    exact ⟨_, v, hv, rfl⟩
  · rintro _ ⟨v, hv, rfl⟩
    exact part.canonical_mem_range (hrange hv)

/-- Fields with the same items read alike. -/
theorem readFields_congr (h : ∀ part p, p ∈ itemTexts (text part) ↔ p ∈ itemTexts (text' part))
    (hs : readFields (CronPart.all.map text) = .ok s) : readFields (CronPart.all.map text') = .ok s := by
  obtain ⟨s', hs'⟩ := readFields_isOk_iff.2 fun part p hp => readFields_isOk_iff.1 ⟨s, hs⟩ part p ((h part p).2 hp)
  obtain ⟨f, rfl, hf⟩ := spelledBy_of_readFields hs
  obtain ⟨f', rfl, hf'⟩ := spelledBy_of_readFields hs'
  have hsame : f = f' := CronFields.ext_part fun part => (hf part).1.unique (hf' part).1 (h part)
  rw [hs', hsame]

/-- An expression without an at sign reads if it has five fields and every item between the commas of each spells a range
of its values. Each field then has the values that its items cover, which are some and within its range, and is
unrestricted if one of them is a star of step one. Expressions whose fields have the same items read alike, in whatever
order and how often the items come. -/
theorem read_fields {e : String} (h : (Text.trim e.toList).head? ≠ some '@') :
    ((∃ s, read e = .ok s) ↔
      ∃ text, HasFields e text ∧ ∀ part, ∀ p ∈ itemTexts (text part), ∃ i, ItemText part.spec p i) ∧
    (∀ s text, read e = .ok s → HasFields e text →
      ∃ f, s = .fields f ∧ ∀ part, (f.part part).SpelledBy part (text part) ∧ (∃ v, (f.part part).Admits v) ∧
        ∀ v, (f.part part).Admits v → part.spec.least ≤ v ∧ v ≤ part.greatest) ∧
    (∀ e' text text', (Text.trim e'.toList).head? ≠ some '@' → HasFields e text → HasFields e' text' →
      (∀ part p, p ∈ itemTexts (text part) ↔ p ∈ itemTexts (text' part)) → ∀ s, read e = .ok s ↔ read e' = .ok s) := by
  refine ⟨⟨?accepted, ?accepts⟩, ?spelled, ?alike⟩
  case accepted =>
    rintro ⟨s, hs⟩
    rw [read_eq_readFields h] at hs
    obtain ⟨text, htext⟩ := exists_text_of_readFields hs
    rw [htext] at hs
    exact ⟨text, htext, readFields_isOk_iff.1 ⟨s, hs⟩⟩
  case accepts =>
    rintro ⟨text, htext, hitems⟩
    rw [htext.read_eq h]
    exact readFields_isOk_iff.2 hitems
  case spelled =>
    intro s text hs htext
    rw [htext.read_eq h] at hs
    exact spelledBy_of_readFields hs
  case alike =>
    intro e' text text' h' htext htext' hitems s
    rw [htext.read_eq h, htext'.read_eq h']
    exact ⟨readFields_congr hitems, readFields_congr fun part p => (hitems part p).symm⟩

/-- Two spellings of one schedule, the second one with its items in another order and one of them twice. -/
theorem read_fields_reordered :
    let f : CronFields :=
      ⟨⟨[0, 5, 20, 40], false⟩, ⟨[0, 23], false⟩, ⟨[1, 16, 31], false⟩, ⟨[1, 2, 3, 12], false⟩, ⟨[0, 5, 6], false⟩⟩
    read "*/20,5 +0,23,0 1/15 jan-MAR,12 5-7" = .ok (.fields f) ∧
      read "5,*/20,5 23,0,+0 1/15 12,jan-MAR 5-7,5-7" = .ok (.fields f) := by
  intro f
  let text : CronPart → List Char
    | .minute => "*/20,5".toList
    | .hour => "+0,23,0".toList
    | .dayOfMonth => "1/15".toList
    | .month => "jan-MAR,12".toList
    | .dayOfWeek => "5-7".toList
  let text' : CronPart → List Char
    | .minute => "5,*/20,5".toList
    | .hour => "23,0,+0".toList
    | .dayOfMonth => "1/15".toList
    | .month => "12,jan-MAR".toList
    | .dayOfWeek => "5-7,5-7".toList
  have hf : read "*/20,5 +0,23,0 1/15 jan-MAR,12 5-7" = .ok (.fields f) := by decide +kernel
  have hitems : ∀ part, itemTexts (text part) ⊆ itemTexts (text' part) ∧ itemTexts (text' part) ⊆ itemTexts (text part) := by
    intro part
    cases part <;> decide +kernel
  refine ⟨hf, ((read_fields ?_).2.2 _ text text' ?_ ?_ ?_ ?_ _).1 hf⟩
  · decide
  · decide +kernel
  · decide +kernel
  · decide
  · exact fun part p => ⟨fun hp => (hitems part).1 hp, fun hp => (hitems part).2 hp⟩

end Schedule

end Allotment
