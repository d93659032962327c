import Allotment.Controller.Bench
import Allotment.Controller.Store
import Allotment.Proofs.Inventory.Listing
import Allotment.Proofs.Keys
import Allotment.Proofs.Reading

/-!
# What an inventory keeps over time

Calls to an inventory are made under the keys of targets. A read changes nothing; a write puts other containers in the
place of those of one workload.

* `Inventory.called`, `calledAll` — an inventory after a call, and after any number of calls;
* `Request.writtenUnder?`, `lastWritten` — what a call was to write under a key, and what was written last;
* `get?_calledAll` — so what is kept is the workload of the file, with the containers last written under its key;
* `Keeps`, `Refuses` — the calls through a target whose key is known, or is not;
* `Keyed` — every workload is kept under the key of its target, and so the targets stand in the order of their keys;
* `ofText_keeps` — all of this for the inventory of a file.
-/

namespace Allotment

/-- The containers that a call is to write under a key. -/
def Request.writtenUnder? (key : String) : Request → Option (List Container)
  | .write t cs => if t.key = key then some cs else none
  | _ => none

/-- The containers that were last to be written under a key. -/
def lastWritten (rs : List Request) (key : String) : Option (List Container) :=
  rs.reverse.findSome? (Request.writtenUnder? key)

theorem lastWritten_cons (r : Request) (rs : List Request) (key : String) :
    lastWritten (r :: rs) key = (lastWritten rs key).or (r.writtenUnder? key) := by
  unfold lastWritten
  rw [List.reverse_cons, List.findSome?_append]
  cases h : r.writtenUnder? key <;> simp only [List.findSome?_cons, List.findSome?_nil, h]

/-- A workload with other containers, if there are any. -/
def ManagedWorkload.rewritten (w : ManagedWorkload) (cs : Option (List Container)) : ManagedWorkload :=
  { w with containers := cs.getD w.containers }

theorem ManagedWorkload.rewritten_rewritten (w : ManagedWorkload) (first second : Option (List Container)) :
    (w.rewritten first).rewritten second = w.rewritten (second.or first) := by
  cases first <;> cases second <;> rfl

namespace Inventory

variable {i j : Inventory} {ws : List ManagedWorkload} {w : ManagedWorkload} {t : Target} {key : String}

/-! ### Calls -/

/-- An inventory after a call, whatever the call was answered. -/
def called (i : Inventory) : Request → Inventory
  | .policy t => (backend.policy t i).2
  | .containers t => (backend.containers t i).2
  | .write t cs => (backend.write t cs i).2
  | .status t => (backend.status t i).2
  | .recommendations t => (backend.recommendations t i).2
  | .bounds t => (backend.bounds t i).2

/-- An inventory after calls, one after another. -/
def calledAll (i : Inventory) (rs : List Request) : Inventory :=
  rs.foldl called i

/-- What one call leaves of a workload. -/
theorem get?_called (i : Inventory) (r : Request) (key : String) :
    (i.called r).workloads.get? key = (i.workloads.get? key).map fun w => w.rewritten (r.writtenUnder? key) := by
  have hread : i.workloads.get? key = (i.workloads.get? key).map fun w => w.rewritten none := by
    cases i.workloads.get? key <;> rfl
  cases r with
  | write t cs =>
    simp only [called, backend, writing]
    cases ht : i.workloads.get? t.key with
    | none =>
      rw [write_of_unknown ht]
      by_cases hkey : t.key = key
      · rw [← hkey, ht, Option.map_none]
      · simpa only [Request.writtenUnder?, if_neg hkey] using hread
    | some w =>
      have hwrite := write_of_known ht cs
      rw [hwrite]
      refine (get?_write hwrite key).trans ?_
      cases i.workloads.get? key with
      | none => rfl
      | some v =>
        by_cases hkey : t.key = key
        · simp [Request.writtenUnder?, ManagedWorkload.rewritten, hkey]
        · simp [Request.writtenUnder?, ManagedWorkload.rewritten, hkey, Ne.symm hkey]
  | _ => exact hread

/-- What calls leave of a workload, by induction on them. -/
theorem get?_calledAll (rs : List Request) (key : String) :
    ∀ i : Inventory, (i.calledAll rs).workloads.get? key =
      (i.workloads.get? key).map fun w => w.rewritten (lastWritten rs key) := by
  induction rs with
  | nil =>
    intro i
    cases h : i.workloads.get? key <;> simp [calledAll, h, lastWritten, ManagedWorkload.rewritten]
  | cons r rs ih =>
    intro i
    have hrest : ((i.called r).calledAll rs).workloads.get? key = _ := ih (i.called r)
    rw [get?_called, Option.map_map] at hrest
    refine hrest.trans (congrArg (fun f => (i.workloads.get? key).map f) (funext fun w => ?_))
    rw [Function.comp_apply, ManagedWorkload.rewritten_rewritten, lastWritten_cons]

/-- Calls through a target are answered from a workload; a read leaves the inventory as it is. -/
structure Keeps (i : Inventory) (t : Target) (w : ManagedWorkload) : Prop where
  policy : backend.policy t i = (.ok w.annotations, i)
  containers : backend.containers t i = (.ok w.containers, i)
  recommendations : backend.recommendations t i = (.ok w.recommendations, i)
  bounds : backend.bounds t i = (.ok w.bounds, i)
  status : backend.status t i = (.ok ⟨w.recommendations, w.bounds⟩, i)
  write : ∀ cs, (backend.write t cs i).1 = .ok ()

/-- Calls through a target fail, and leave the inventory as it is. -/
structure Refuses (i : Inventory) (t : Target) : Prop where
  policy : backend.policy t i = (.error (InventoryError.message ⟨t⟩), i)
  containers : backend.containers t i = (.error (InventoryError.message ⟨t⟩), i)
  recommendations : backend.recommendations t i = (.error (InventoryError.message ⟨t⟩), i)
  bounds : backend.bounds t i = (.error (InventoryError.message ⟨t⟩), i)
  status : backend.status t i = (.error (InventoryError.message ⟨t⟩), i)
  write : ∀ cs, backend.write t cs i = (.error (InventoryError.message ⟨t⟩), i)

theorem keeps_of_known (h : i.workloads.get? t.key = some w) : Keeps i t w := by
  have hread : ∀ {α : Type} (f : ManagedWorkload → α), reading (fun i => i.read t f) i = (.ok (f w), i) := by
    intro α f
    rw [reading, read_of_known h, Except.mapError]
  refine ⟨hread _, hread _, hread _, hread _, hread _, fun cs => ?_⟩
  simp only [backend, writing, write_of_known h]

theorem refuses_of_unknown (h : i.workloads.get? t.key = none) : Refuses i t := by
  have hread : ∀ {α : Type} (f : ManagedWorkload → α),
      reading (fun i => i.read t f) i = (.error (InventoryError.message ⟨t⟩), i) := by
    intro α f
    rw [reading, read_of_unknown h, Except.mapError]
  refine ⟨hread _, hread _, hread _, hread _, hread _, fun cs => ?_⟩
  simp only [backend, writing, write_of_unknown h]

/-- One read of a status tells what two reads tell. -/
theorem status_eq_split (i : Inventory) (t : Target) : backend.status t i = backend.split.status t i := by
  cases h : i.workloads.get? t.key with
  | some w =>
    have hkeeps := keeps_of_known h
    simp only [Backend.split, Backend.statusOf, hkeeps.recommendations, hkeeps.bounds, hkeeps.status]
  | none =>
    have hrefuses := refuses_of_unknown h
    simp only [Backend.split, Backend.statusOf, hrefuses.recommendations, hrefuses.status]

/-! ### Keys and targets -/

/-- Every workload is kept under the key of its target. -/
def Keyed (i : Inventory) : Prop :=
  ∀ key w, i.workloads.get? key = some w → w.target.key = key

theorem keyed_ofList (ws : List ManagedWorkload) : Keyed (ofList ws) := by
  intro key w h
  obtain ⟨v, hv, rfl⟩ := Dict.get?_ofPairs_map_eq_some_iff.1 h
  exact hv.key_eq

theorem Keyed.calledAll (h : Keyed i) (rs : List Request) : Keyed (i.calledAll rs) := by
  intro key w hw
  rw [get?_calledAll] at hw
  obtain ⟨v, hv, rfl⟩ := Option.map_eq_some_iff.1 hw
  exact h key v hv

theorem Keyed.map_key_targets (h : Keyed i) : i.targets.map Target.key = i.workloads.keys := by
  unfold targets Dict.values Dict.keys
  rw [List.map_map, List.map_map]
  refine List.map_congr_left fun e he => ?_
  exact h e.1 e.2 (Dict.mem_entries_iff.1 he)

theorem Keyed.mem_targets_iff (h : Keyed i) :
    t ∈ i.targets ↔ ∃ w, i.workloads.get? t.key = some w ∧ w.target = t := by
  unfold targets
  simp only [List.mem_map, Dict.mem_values_iff]
  constructor
  · rintro ⟨w, ⟨key, hw⟩, rfl⟩
    exact ⟨w, by rwa [h key w hw], rfl⟩
  · rintro ⟨w, hw, rfl⟩
    exact ⟨w, ⟨_, hw⟩, rfl⟩

/-! ### The inventory of a file -/

theorem get?_ofList_eq_some_iff :
    (ofList ws).workloads.get? key = some w ↔ LastOf (fun w => w.target.key) ws key w := by
  unfold ofList
  rw [Dict.get?_ofPairs_map_eq_some_iff]
  simp only [exists_eq_right]

theorem get?_ofList_eq_none_iff : (ofList ws).workloads.get? key = none ↔ key ∉ keysOf ws := by
  unfold ofList keysOf
  rw [Dict.get?_ofPairs_map_eq_none_iff]
  simp only [List.mem_map, not_exists, not_and, ne_eq]

/-- **An inventory is a faithful store.** Whatever calls were made to the inventory of a file, its targets stand in the
order of their keys, and are those of the file, for each key the last; what is read through a target is what the file
has for its key, with the containers that were last written under that key; a status is what its two halves are; and a
call under a key that the file does not have fails and changes nothing. -/
theorem ofText_keeps {text : String} (h : ofText text = .ok i) :
    ∃ ws, listed text = .ok ws ∧ ∀ rs : List Request,
      let j := i.calledAll rs
      (j.targets.map Target.key).Pairwise (· < ·) ∧
        (∀ key, key ∈ j.targets.map Target.key ↔ key ∈ keysOf ws) ∧
        (∀ t, t ∈ j.targets ↔ ∃ w, LastOf (fun w => w.target.key) ws t.key w ∧ w.target = t) ∧
        (∀ t w, LastOf (fun w => w.target.key) ws t.key w → Keeps j t (w.rewritten (lastWritten rs t.key))) ∧
        (∀ t, backend.status t j = backend.split.status t j) ∧
        ∀ t, t.key ∉ keysOf ws → Refuses j t := by
  rw [ofText_eq] at h
  obtain ⟨ws, hlisted, rfl⟩ := map_eq_ok_iff.1 h
  refine ⟨ws, hlisted, fun rs => ?_⟩
  intro j
  have hkeyed : Keyed j := (keyed_ofList ws).calledAll rs
  have hget : ∀ key, j.workloads.get? key = _ := fun key => get?_calledAll rs key (ofList ws)
  refine ⟨?ordered, fun key => ?keys, fun t => ?targets, fun t w hlast => ?keeps, status_eq_split j,
    fun t ht => ?refuses⟩
  case ordered =>
    rw [hkeyed.map_key_targets]
    exact List.pairwise_map.2 j.workloads.ordered
  case keys =>
    rw [hkeyed.map_key_targets, Dict.mem_keys_iff, Dict.contains, hget, Option.isSome_map, ← not_iff_not,
      ← get?_ofList_eq_none_iff]
    simp
  case targets =>
    rw [hkeyed.mem_targets_iff, hget]
    constructor
    · rintro ⟨w, hw, htarget⟩
      obtain ⟨v, hv, rfl⟩ := Option.map_eq_some_iff.1 hw
      exact ⟨v, get?_ofList_eq_some_iff.1 hv, htarget⟩
    · rintro ⟨w, hlast, htarget⟩
      rw [get?_ofList_eq_some_iff.2 hlast]
      exact ⟨_, rfl, htarget⟩
  case keeps =>
    refine keeps_of_known ?_
    rw [hget, get?_ofList_eq_some_iff.2 hlast, Option.map_some]
  case refuses =>
    refine refuses_of_unknown ?_
    rw [hget, get?_ofList_eq_none_iff.2 ht, Option.map_none]

/-- A deployment and a stateful set share a key, and the file has the latter last. What is written under the key is read
under it, also through the deployment, and a write under another key is lost. -/
theorem ofText_keeps_web :
    ∃ i, ofText (webFile "web") = .ok i ∧
      let sidecar : Container := ⟨"sidecar", Allotments.empty⟩
      let j := i.calledAll [.write (setTarget "web") [sidecar], .status webTarget, .write (setTarget "db") []]
      setTarget "web" ∈ j.targets ∧ (∀ t ∈ j.targets, t.key = webTarget.key) ∧
        backend.containers webTarget j = (.ok [sidecar], j) ∧ Refuses j (setTarget "db") := by
  obtain ⟨ws, hlisted, htargets⟩ : ∃ ws, listed (webFile "web") = .ok ws ∧
      ws.map ManagedWorkload.target = [webTarget, setTarget "web"] := exists_of_listed (by decide +kernel)
  have hi : ofText (webFile "web") = .ok (ofList ws) := by
    rw [ofText_eq, hlisted]
    rfl
  obtain ⟨ws', hlisted', hkeeps⟩ := ofText_keeps hi
  obtain rfl : ws = ws' := Except.ok.inj (hlisted.symm.trans hlisted')
  have hkeys : keysOf ws = [webTarget.key, webTarget.key] := by
    rw [keysOf_eq, htargets]
    decide
  obtain ⟨v, rest, rfl, -, hrest⟩ := List.map_eq_cons_iff.1 htargets
  obtain ⟨w, rest, rfl, hw, hrest⟩ := List.map_eq_cons_iff.1 hrest
  obtain rfl := List.map_eq_nil_iff.1 hrest
  have hlast : LastOf (fun w => w.target.key) [v, w] webTarget.key w :=
    ⟨[v], [], rfl, (congrArg Target.key hw).trans (by decide), fun _ hy => absurd hy List.not_mem_nil⟩
  refine ⟨_, hi, ?_⟩
  intro sidecar j
  obtain ⟨-, hknown, hmem, hread, -, hrefuses⟩ :=
    hkeeps [.write (setTarget "web") [sidecar], .status webTarget, .write (setTarget "db") []]
  refine ⟨(hmem _).2 ⟨w, hlast, hw⟩, fun t ht => ?_, (hread webTarget w hlast).containers, hrefuses _ ?_⟩
  · have hkey := (hknown t.key).1 (List.mem_map_of_mem ht)
    rw [hkeys] at hkey
    simpa using hkey
  · rw [hkeys]
    decide

end Inventory

end Allotment
