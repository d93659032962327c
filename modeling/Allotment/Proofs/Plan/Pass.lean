import Allotment.Plan.Basic

/-!
# One step of a pass

A pass goes through the axes of a container in the order of their ranks.  What one step can do, and what a proposal
reads, is said here once; the other facts about plans rest on it.

* `AxisPolicy.accept?_eq_some_iff` — the guards, as the conditions on the value that they let through;
* `commitment?` — the value that is committed along an axis of a container as it stands, and `Pass.step_cases`;
* `proposal?_congr`, `commitment?_congr` — a proposal reads the axes of lower rank, a commitment also its own axis;
* `Pass.get_foldl_of_notMem` — a pass over some axes leaves the others as they are.
-/

namespace Allotment

/-! ### The guards -/

namespace AxisPolicy

variable {p : AxisPolicy} {a : Axis} {current : Option Quantity} {proposed v : Quantity}

theorem accept?_eq_some_iff :
    p.accept? a current proposed = some v ↔
      v = p.clamp proposed ∧ ¬ p.FallsShort (baseline a current) v ∧
        ¬ Blocks p.direction (baseline a current) v ∧ p.mode = .enforce ∧
        current.map Quantity.text ≠ some v.text := by
  have hmode : p.mode = .enforce ↔ ¬ p.mode = .off := by cases p.mode <;> decide
  simp only [accept?, Option.ite_none_left_eq_some, Option.some.injEq, hmode]
  constructor
  · rintro ⟨h1, h2, h3, h4, rfl⟩
    exact ⟨rfl, h1, h2, h3, h4⟩
  · rintro ⟨rfl, h1, h2, h3, h4⟩
    exact ⟨h1, h2, h3, h4, rfl⟩

/-- A value that was committed is not committed again. -/
theorem accept?_clamp_self (p : AxisPolicy) (a : Axis) (q : Quantity) :
    p.accept? a (some (p.clamp q)) q = none := by
  refine Option.eq_none_iff_forall_ne_some.2 fun v hv => ?_
  obtain ⟨rfl, -, -, -, ht⟩ := accept?_eq_some_iff.1 hv
  exact ht rfl

end AxisPolicy

/-! ### The order of the axes -/

namespace Axis

/-- The place of an axis in the order of work. -/
def rank (a : Axis) : Nat := all.idxOf a

theorem mem_all (a : Axis) : a ∈ all := by
  obtain ⟨r, s⟩ := a
  cases r <;> cases s <;> decide

theorem nodup_all : all.Nodup := by decide

theorem pairwise_rank_all : all.Pairwise fun a b => a.rank < b.rank := by decide

end Axis

/-! ### What is proposed and committed -/

section Commitment

variable {policy : Effective} {candidates : Candidates} {c d : Container} {a : Axis}

/-- What is committed along an axis of a container as it stands, if anything. -/
def commitment? (policy : Effective) (candidates : Candidates) (c : Container) (a : Axis) : Option Quantity :=
  (proposal? policy candidates c a).bind ((policy.axis a).accept? a (c.get a))

/-- A proposal for an axis reads only axes that were worked on before. -/
theorem proposal?_congr (h : ∀ b : Axis, b.rank < a.rank → c.get b = d.get b) :
    proposal? policy candidates c a = proposal? policy candidates d a := by
  obtain ⟨r, s⟩ := a
  unfold proposal?
  cases candidates.get (Axis.request ⟨r, s⟩) with
  | none => rfl
  | some q =>
    cases r with
    | cpu =>
      cases s with
      | request => rfl
      | limit => simp only [limitProposal?, ownLimitProposal?, h ⟨.cpu, .request⟩ (by decide)]
    | memory =>
      cases s with
      | request => simp only [requestProposal, h ⟨.cpu, .request⟩ (by decide)]
      | limit =>
        simp only [limitProposal?, ownLimitProposal?, h ⟨.cpu, .request⟩ (by decide),
          h ⟨.cpu, .limit⟩ (by decide), h ⟨.memory, .request⟩ (by decide)]

theorem commitment?_congr (h : ∀ b : Axis, b.rank ≤ a.rank → c.get b = d.get b) :
    commitment? policy candidates c a = commitment? policy candidates d a := by
  unfold commitment?
  rw [proposal?_congr fun b hb => h b (Nat.le_of_lt hb), h a (Nat.le_refl _)]

theorem commitment?_eq_some_iff {v : Quantity} :
    commitment? policy candidates c a = some v ↔
      ∃ q, proposal? policy candidates c a = some q ∧ (policy.axis a).accept? a (c.get a) q = some v :=
  Option.bind_eq_some_iff

end Commitment

/-! ### One step, and a whole pass -/

namespace Pass

variable (policy : Effective) (candidates : Candidates) (p : Pass) (a : Axis)

/-- A step either does nothing, or commits one value and notes it as a change. -/
theorem step_cases :
    (commitment? policy candidates p.container a = none ∧ p.step policy candidates a = p) ∨
      ∃ v, commitment? policy candidates p.container a = some v ∧
        p.step policy candidates a =
          ⟨p.container.set a v, p.changes ++ [⟨p.container.name, a, p.container.get a, v⟩]⟩ := by
  unfold step commitment?
  simp only
  split
  · exact .inl ⟨‹_›, rfl⟩
  · exact .inr ⟨_, ‹_›, rfl⟩

theorem name_step : (p.step policy candidates a).container.name = p.container.name := by
  rcases step_cases policy candidates p a with ⟨-, h⟩ | ⟨v, -, h⟩ <;> rw [h]
  rfl

theorem get_step_of_ne {b : Axis} (hb : b ≠ a) :
    (p.step policy candidates a).container.get b = p.container.get b := by
  rcases step_cases policy candidates p a with ⟨-, h⟩ | ⟨v, -, h⟩ <;> rw [h]
  rw [Container.get_set, if_neg hb]

theorem name_foldl (as : List Axis) :
    (as.foldl (step policy candidates) p).container.name = p.container.name := by
  induction as generalizing p with
  | nil => rfl
  | cons a as ih => rw [List.foldl_cons, ih, name_step]

theorem get_foldl_of_notMem {as : List Axis} {b : Axis} (hb : b ∉ as) :
    (as.foldl (step policy candidates) p).container.get b = p.container.get b := by
  induction as generalizing p with
  | nil => rfl
  | cons a as ih =>
    obtain ⟨hne, hnot⟩ := not_or.1 (mt List.mem_cons.2 hb)
    rw [List.foldl_cons, ih _ hnot, get_step_of_ne _ _ _ _ hne]

variable {a}

/-- What a pass leaves along one of its axes was left there by the step for that axis. -/
theorem get_foldl_of_mem {as : List Axis} (has : as.Nodup) (ha : a ∈ as) :
    ∃ l : List Axis, a ∉ l ∧ (as.foldl (step policy candidates) p).container.get a =
      ((l.foldl (step policy candidates) p).step policy candidates a).container.get a := by
  obtain ⟨l, r, rfl⟩ := List.append_of_mem ha
  obtain ⟨-, hr, hl⟩ := List.nodup_append.1 has
  refine ⟨l, fun h => hl a h a List.mem_cons_self rfl, ?_⟩
  rw [List.foldl_append, List.foldl_cons, get_foldl_of_notMem _ _ _ (List.nodup_cons.1 hr).1]

end Pass

end Allotment
