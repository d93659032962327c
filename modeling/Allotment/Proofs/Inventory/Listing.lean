import Mathlib.Data.List.Nodup
import Allotment.Encoding.Inventory

/-!
# What an inventory keeps of a file

* `Inventory.listed` — the workloads that a file lists, in its order; `ofText_eq` makes the inventory of them;
* `Serves i ws` — every workload of a list is among the targets of an inventory, and is read as its own;
* `Holds i ws` — every workload is kept under its key; it serves the list, and a write keeps it so;
* `Inventory.writeAll`, `rewriteAll` — writes to an inventory, and what they should make of a list of workloads;
* `serves_ofList_iff` — an inventory serves the workloads it is made of exactly if their keys are distinct;
* `ofText_serves` — so it is for a file, and writes through its targets then reach their own workload alone.

A key does not have the kind of its target, so distinct targets may share one: `ofText_drops_deployment`. Where no
namespace has a slash, this is the only way, by `Target.key_inj`.
-/

namespace Allotment

theorem Target.toList_key (t : Target) : t.key.toList = t.space.toList ++ '/' :: t.name.toList := by
  simp [Target.key]

/-- If no namespace has a slash, only the kind is missing from a key. -/
theorem Target.key_inj {t u : Target} (ht : '/' ∉ t.space.toList) (hu : '/' ∉ u.space.toList) :
    t.key = u.key ↔ t.space = u.space ∧ t.name = u.name := by
  constructor
  · intro h
    have hcut := congrArg (Text.cut '/') (congrArg String.toList h)
    rw [Target.toList_key, Target.toList_key, Text.cut_append ht, Text.cut_append hu] at hcut
    obtain ⟨hspace, hname⟩ := Prod.mk.inj (Option.some.inj hcut)
    exact ⟨String.toList_inj.1 hspace, String.toList_inj.1 hname⟩
  · rintro ⟨hspace, hname⟩
    rw [Target.key, Target.key, hspace, hname]

namespace Inventory

variable {i j : Inventory} {ws : List ManagedWorkload} {v w : ManagedWorkload} {t : Target} {cs : List Container}

/-! ### Files -/

/-- The workloads that a document lists. -/
def listedIn : Decoder (List ManagedWorkload) := fun j => do
  let m ← j.fields checks
  m.optional "targets" (Json.asList ManagedWorkload.ofJson) []

/-- The workloads that the text of a file lists, in its order. -/
def listed (text : String) : Except DecodeError (List ManagedWorkload) := do
  let (value, whole) := Json.read text
  let ws ← listedIn value
  if whole then return ws else throw .malformed

theorem ofJson_eq (j : Json) : ofJson j = (listedIn j).map ofList := by
  unfold ofJson listedIn
  cases j.fields checks <;> rfl

theorem ofText_eq (text : String) : ofText text = (listed text).map ofList := by
  unfold ofText listed
  simp only [ofJson_eq]
  cases listedIn (Json.read text).1 with
  | error e => rfl
  | ok ws => cases (Json.read text).2 <;> rfl

/-! ### Lists of workloads -/

/-- The keys of some workloads. -/
def keysOf (ws : List ManagedWorkload) : List String :=
  ws.map fun w => w.target.key

/-- What a write through a target should make of some workloads. -/
def rewrite (ws : List ManagedWorkload) (t : Target) (cs : List Container) : List ManagedWorkload :=
  ws.map fun w => if w.target = t then { w with containers := cs } else w

/-- What a sequence of writes should make of some workloads. -/
def rewriteAll (ws : List ManagedWorkload) (writes : List (Target × List Container)) : List ManagedWorkload :=
  writes.foldl (fun ws p => rewrite ws p.1 p.2) ws

/-- A sequence of writes, up to the first that fails. -/
def writeAll (i : Inventory) (writes : List (Target × List Container)) : Except InventoryError Inventory :=
  writes.foldlM (fun i p => i.write p.1 p.2) i

theorem targets_rewrite (ws : List ManagedWorkload) (t : Target) (cs : List Container) :
    (rewrite ws t cs).map ManagedWorkload.target = ws.map ManagedWorkload.target := by
  rw [rewrite, List.map_map]
  refine List.map_congr_left fun w _ => ?_
  simp only [Function.comp_apply]
  split <;> rfl

theorem keysOf_eq (ws : List ManagedWorkload) : keysOf ws = (ws.map ManagedWorkload.target).map Target.key := by
  rw [keysOf, List.map_map]
  rfl

theorem eq_of_key_eq (hkeys : (keysOf ws).Nodup) (hv : v ∈ ws) (hw : w ∈ ws) (h : v.target.key = w.target.key) : v = w :=
  List.inj_on_of_nodup_map hkeys hv hw h

/-! ### Inventories -/

/-- Every workload of a list is among the targets, and what is read through its target is its own. -/
structure Serves (i : Inventory) (ws : List ManagedWorkload) : Prop where
  lists : ∀ w ∈ ws, w.target ∈ i.targets
  policy : ∀ w ∈ ws, i.policy w.target = .ok w.annotations
  containers : ∀ w ∈ ws, i.containers w.target = .ok w.containers
  status : ∀ w ∈ ws, i.status w.target = .ok ⟨w.recommendations, w.bounds⟩

/-- Every workload of a list is kept under its key. -/
def Holds (i : Inventory) (ws : List ManagedWorkload) : Prop :=
  ∀ w ∈ ws, i.workloads.get? w.target.key = some w

theorem Holds.serves (h : Holds i ws) : Serves i ws := by
  have hread : ∀ {α : Type} (f : ManagedWorkload → α), ∀ w ∈ ws, i.read w.target f = .ok (f w) :=
    fun f w hw => read_of_known (h w hw) f
  exact ⟨fun w hw => List.mem_map_of_mem (Dict.mem_values_iff.2 ⟨_, h w hw⟩), hread _, hread _, hread _⟩

theorem holds_ofList (hkeys : (keysOf ws).Nodup) : Holds (ofList ws) ws := by
  intro w hw
  refine Dict.get?_ofPairs_of_mem ?_ (List.mem_map_of_mem hw)
  rwa [List.map_map]

/-- An inventory keeps one target for each key. -/
theorem target_of_mem_targets (h : t ∈ (ofList ws).targets) :
    ((ofList ws).workloads.get? t.key).map ManagedWorkload.target = some t := by
  obtain ⟨w, hw, rfl⟩ := List.mem_map.1 h
  obtain ⟨key, hkey⟩ := Dict.mem_values_iff.1 hw
  obtain ⟨u, -, hu⟩ := List.mem_map.1 (Dict.mem_of_get?_ofPairs hkey)
  obtain ⟨rfl, rfl⟩ := Prod.mk.inj hu
  rw [hkey]
  rfl

theorem keys_nodup_of_serves (htargets : (ws.map ManagedWorkload.target).Nodup) (h : Serves (ofList ws) ws) :
    (keysOf ws).Nodup := by
  rw [keysOf_eq]
  refine htargets.map_on fun t ht u hu hkey => ?_
  obtain ⟨v, hv, rfl⟩ := List.mem_map.1 ht
  obtain ⟨w, hw, rfl⟩ := List.mem_map.1 hu
  have hvt := target_of_mem_targets (h.lists v hv)
  rw [hkey, target_of_mem_targets (h.lists w hw)] at hvt
  exact (Option.some.inj hvt).symm

theorem serves_ofList_iff (htargets : (ws.map ManagedWorkload.target).Nodup) :
    Serves (ofList ws) ws ↔ (keysOf ws).Nodup :=
  ⟨keys_nodup_of_serves htargets, fun h => (holds_ofList h).serves⟩

/-! ### Writes -/

/-- A write through the target of a workload reaches this workload alone. -/
theorem Holds.write (h : Holds i ws) (hkeys : (keysOf ws).Nodup) (hw : w ∈ ws) (cs : List Container) :
    ∃ j, i.write w.target cs = .ok j ∧ Holds j (rewrite ws w.target cs) := by
  have hwrite := write_of_known (h w hw) cs
  refine ⟨_, hwrite, fun v' hv' => ?_⟩
  obtain ⟨v, hv, rfl⟩ := List.mem_map.1 hv'
  have hget := get?_write hwrite v.target.key
  rw [h v hv, Option.map_some] at hget
  by_cases htarget : v.target = w.target
  · rw [if_pos htarget]
    rwa [if_pos (congrArg Target.key htarget)] at hget
  · have hkey : v.target.key ≠ w.target.key := fun hkey =>
      htarget (congrArg ManagedWorkload.target (eq_of_key_eq hkeys hv hw hkey))
    rw [if_neg htarget]
    rwa [if_neg hkey] at hget

/-- Writes through targets of the list all succeed, and each reaches its own workload alone, by induction on the
writes. -/
theorem Holds.writeAll (writes : List (Target × List Container)) :
    ∀ {i : Inventory} {ws : List ManagedWorkload}, Holds i ws → (keysOf ws).Nodup →
      (∀ p ∈ writes, p.1 ∈ ws.map ManagedWorkload.target) →
      ∃ j, i.writeAll writes = .ok j ∧ Holds j (rewriteAll ws writes) := by
  induction writes with
  | nil => exact fun h _ _ => ⟨_, rfl, h⟩
  | cons p writes ih =>
    intro i ws h hkeys hlisted
    obtain ⟨t, cs⟩ := p
    obtain ⟨w, hw, htarget⟩ := List.mem_map.1 (hlisted _ List.mem_cons_self)
    obtain rfl : w.target = t := htarget
    obtain ⟨i', hwrite, h'⟩ := h.write hkeys hw cs
    have hkeys' : (keysOf (rewrite ws w.target cs)).Nodup := by
      rw [keysOf_eq, targets_rewrite, ← keysOf_eq]
      exact hkeys
    obtain ⟨j, hwrites, hj⟩ := ih h' hkeys' fun p hp => by
      rw [targets_rewrite]
      exact hlisted p (List.mem_cons_of_mem _ hp)
    refine ⟨j, ?_, hj⟩
    rw [Inventory.writeAll, List.foldlM_cons, hwrite]
    exact hwrites

/-! ### The inventory of a file -/

/-- A file whose targets are distinct makes an inventory that serves all its workloads exactly if their keys are distinct
too. Then it goes on to serve them after any writes through its targets, with the containers last written through each. -/
theorem ofText_serves {text : String} (hlisted : listed text = .ok ws)
    (htargets : (ws.map ManagedWorkload.target).Nodup) :
    ∃ i, ofText text = .ok i ∧ (Serves i ws ↔ (keysOf ws).Nodup) ∧
      ((keysOf ws).Nodup → ∀ writes, (∀ p ∈ writes, p.1 ∈ ws.map ManagedWorkload.target) →
        ∃ j, i.writeAll writes = .ok j ∧ Serves j (rewriteAll ws writes)) := by
  refine ⟨ofList ws, by rw [ofText_eq, hlisted]; rfl, serves_ofList_iff htargets, fun hkeys writes hwrites => ?_⟩
  obtain ⟨j, hj, hholds⟩ := (holds_ofList hkeys).writeAll writes hkeys hwrites
  exact ⟨j, hj, hholds.serves⟩

theorem exists_of_listed {α : Type} {text : String} {f : List ManagedWorkload → α} {a : α}
    (h : (listed text).toOption.map f = some a) : ∃ ws, listed text = .ok ws ∧ f ws = a := by
  cases hlisted : listed text with
  | error e =>
    rw [hlisted] at h
    cases h
  | ok ws =>
    rw [hlisted] at h
    exact ⟨ws, rfl, Option.some.inj h⟩

/-- The file of a deployment `web` with one container and a stateful set of some name without any. -/
def webFile (name : String) : String :=
  "\x7b\"targets\": [\x7b\"kind\": \"Deployment\", \"namespace\": \"default\", \"name\": \"web\", " ++
    "\"containers\": [\x7b\"name\": \"app\"\x7d]\x7d, " ++
    "\x7b\"kind\": \"StatefulSet\", \"namespace\": \"default\", \"name\": \"" ++ name ++ "\"\x7d]\x7d"

/-- The deployment. -/
def webTarget : Target := ⟨"Deployment", "default", "web"⟩

/-- The stateful set. -/
def setTarget (name : String) : Target := ⟨"StatefulSet", "default", name⟩

/-- Two workloads of different names are served, also after a write to one of them. -/
theorem ofText_serves_web :
    ∃ ws i, listed (webFile "db") = .ok ws ∧ ws.map ManagedWorkload.target = [webTarget, setTarget "db"] ∧
      ofText (webFile "db") = .ok i ∧ Serves i ws ∧
      ∃ j, i.writeAll [(webTarget, [])] = .ok j ∧ Serves j (rewrite ws webTarget []) := by
  obtain ⟨ws, hlisted, htargets⟩ : ∃ ws, listed (webFile "db") = .ok ws ∧
      ws.map ManagedWorkload.target = [webTarget, setTarget "db"] := exists_of_listed (by decide +kernel)
  have hkeys : (keysOf ws).Nodup := by
    rw [keysOf_eq, htargets]
    decide
  obtain ⟨i, hi, hserves, hwrites⟩ := ofText_serves hlisted (by rw [htargets]; decide)
  refine ⟨ws, i, hlisted, htargets, hi, hserves.2 hkeys, hwrites hkeys [(webTarget, [])] fun p hp => ?_⟩
  obtain rfl := List.mem_singleton.1 hp
  rw [htargets]
  exact List.mem_cons_self

/-- Of two workloads that differ in their kinds only, the last in the file stays. Through the target of the first one, the
containers of the last are read and written. -/
theorem ofText_drops_deployment :
    ∃ ws i, listed (webFile "web") = .ok ws ∧ ws.map ManagedWorkload.target = [webTarget, setTarget "web"] ∧
      ofText (webFile "web") = .ok i ∧ ¬Serves i ws ∧
      i.targets = [setTarget "web"] ∧ i.containers webTarget = .ok [] ∧
      ∀ cs, ∃ j, i.write webTarget cs = .ok j ∧ j.containers (setTarget "web") = .ok cs := by
  obtain ⟨ws, hlisted, hdata⟩ : ∃ ws, listed (webFile "web") = .ok ws ∧
      (ws.map ManagedWorkload.target, (ofList ws).targets, ((ofList ws).containers webTarget).toOption) =
        ([webTarget, setTarget "web"], [setTarget "web"], some []) := exists_of_listed (by decide +kernel)
  obtain ⟨htargets, hdata⟩ := Prod.mk.inj hdata
  obtain ⟨hkept, hread⟩ := Prod.mk.inj hdata
  have hi : ofText (webFile "web") = .ok (ofList ws) := by
    rw [ofText_eq, hlisted]
    rfl
  obtain ⟨w, hw⟩ : ∃ w, (ofList ws).workloads.get? webTarget.key = some w := by
    cases hget : (ofList ws).workloads.get? webTarget.key with
    | none => simp [containers, read, hget, Except.toOption] at hread
    | some w => exact ⟨w, rfl⟩
  refine ⟨ws, ofList ws, hlisted, htargets, hi, fun hserves => ?serves, hkept, ?read, fun cs => ?write⟩
  case serves =>
    have hkeys := keys_nodup_of_serves (by rw [htargets]; decide) hserves
    rw [keysOf_eq, htargets] at hkeys
    exact absurd hkeys (by decide)
  case read =>
    rw [containers, read, hw] at hread ⊢
    exact congrArg Except.ok (Option.some.inj hread)
  case write =>
    have hwrite := write_of_known hw cs
    exact ⟨_, hwrite, by rw [containers_write hwrite, if_pos (by decide)]⟩

end Inventory

end Allotment
