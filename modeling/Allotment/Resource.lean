/-!
# Resources, sides and axes

A container is allotted two resources, and each of them on two sides: what it requests, and the limit it may not
pass. The four pairs are the axes along which its allotment moves.

* `Axis.all` lists the axes in the order in which they are worked on: each request before its limit.
* `PerResource`, `PerSide` and `PerAxis` hold one value for each; `PerAxis.get_set` says how a changed entry is read.
-/

namespace Allotment

/-- What is allotted to a container. -/
inductive Resource where
  | cpu
  | memory
  deriving DecidableEq, Repr

/-- The amount set aside for a container, or the most it may use. -/
inductive Side where
  | request
  | limit
  deriving DecidableEq, Repr

/-- One side of one resource. -/
structure Axis where
  resource : Resource
  side : Side
  deriving DecidableEq, Repr

namespace Resource

/-- Both resources, in the order in which they are worked on. -/
def all : List Resource := [.cpu, .memory]

def name : Resource → String
  | cpu => "cpu"
  | memory => "memory"

end Resource

namespace Side

/-- Both sides, the request first. -/
def all : List Side := [.request, .limit]

def name : Side → String
  | request => "request"
  | limit => "limit"

end Side

namespace Axis

/-- The four axes, each request before its limit. -/
def all : List Axis := [⟨.cpu, .request⟩, ⟨.cpu, .limit⟩, ⟨.memory, .request⟩, ⟨.memory, .limit⟩]

/-- The resource and the side, joined by a dash. -/
def name (a : Axis) : String :=
  a.resource.name ++ "-" ++ a.side.name

/-- The request axis of the same resource. -/
def request (a : Axis) : Axis :=
  ⟨a.resource, .request⟩

end Axis

/-- A value for each resource. -/
structure PerResource (α : Type) where
  cpu : α
  memory : α
  deriving DecidableEq, Repr

/-- A value for each side. -/
structure PerSide (α : Type) where
  request : α
  limit : α
  deriving DecidableEq, Repr

/-- A value for each axis: for each resource, one for each side. -/
abbrev PerAxis (α : Type) := PerResource (PerSide α)

namespace PerResource

variable {α β : Type}

def get (p : PerResource α) : Resource → α
  | .cpu => p.cpu
  | .memory => p.memory

/-- The same values except for one resource. -/
def set (p : PerResource α) (r : Resource) (v : α) : PerResource α :=
  match r with
  | .cpu => { p with cpu := v }
  | .memory => { p with memory := v }

/-- The value that a function gives for each resource. -/
def ofFn (f : Resource → α) : PerResource α :=
  ⟨f .cpu, f .memory⟩

@[simp] theorem get_ofFn (f : Resource → α) (r : Resource) : (ofFn f).get r = f r := by
  cases r <;> rfl

theorem get_set (p : PerResource α) (r s : Resource) (v : α) :
    (p.set r v).get s = if s = r then v else p.get s := by
  cases r <;> cases s <;> rfl

theorem ext_get {p q : PerResource α} (h : ∀ r, p.get r = q.get r) : p = q := by
  cases p
  cases q
  have hc := h .cpu
  have hm := h .memory
  simp only [get] at hc hm
  rw [hc, hm]

end PerResource

namespace PerSide

variable {α : Type}

def get (p : PerSide α) : Side → α
  | .request => p.request
  | .limit => p.limit

/-- The same values except for one side. -/
def set (p : PerSide α) (s : Side) (v : α) : PerSide α :=
  match s with
  | .request => { p with request := v }
  | .limit => { p with limit := v }

/-- The value that a function gives for each side. -/
def ofFn (f : Side → α) : PerSide α :=
  ⟨f .request, f .limit⟩

@[simp] theorem get_ofFn (f : Side → α) (s : Side) : (ofFn f).get s = f s := by
  cases s <;> rfl

theorem get_set (p : PerSide α) (s t : Side) (v : α) :
    (p.set s v).get t = if t = s then v else p.get t := by
  cases s <;> cases t <;> rfl

theorem ext_get {p q : PerSide α} (h : ∀ s, p.get s = q.get s) : p = q := by
  cases p
  cases q
  have hr := h .request
  have hl := h .limit
  simp only [get] at hr hl
  rw [hr, hl]

end PerSide

namespace PerAxis

variable {α : Type}

def get (p : PerAxis α) (a : Axis) : α :=
  (PerResource.get p a.resource).get a.side

/-- The same values except for one axis. -/
def set (p : PerAxis α) (a : Axis) (v : α) : PerAxis α :=
  PerResource.set p a.resource ((PerResource.get p a.resource).set a.side v)

/-- The value that a function gives for each axis. -/
def ofFn (f : Axis → α) : PerAxis α :=
  PerResource.ofFn fun r => PerSide.ofFn fun s => f ⟨r, s⟩

@[simp] theorem get_ofFn (f : Axis → α) (a : Axis) : (ofFn f).get a = f a := by
  simp [get, ofFn]

theorem get_set (p : PerAxis α) (a b : Axis) (v : α) :
    (p.set a v).get b = if b = a then v else p.get b := by
  obtain ⟨r, s⟩ := a
  obtain ⟨t, u⟩ := b
  cases r <;> cases s <;> cases t <;> cases u <;> rfl

theorem ext_get {p q : PerAxis α} (h : ∀ a, p.get a = q.get a) : p = q :=
  PerResource.ext_get fun r => PerSide.ext_get fun s => h ⟨r, s⟩

end PerAxis

end Allotment
