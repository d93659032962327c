import Allotment.Proofs.Controller.ScheduledRun

/-!
# The effects of a run

All that a run does is seen on a bench: its calls are written down, its notifiers are watched, and what it counts and
tells is in the ledger.  The backend, the faults that are set and the notifiers are arbitrary.

* `Controller.onBench` — a controller with its backend and its notifiers on a bench;
* `Controller.Answered` — both reads of a run are answered, and with what;
* `Plan.fate` — the outcome of a plan, when the store would answer a write of it; `apply_of_answered` — a run in these
  terms;
* `Unreported` — some calls, and nothing that was counted, noted or passed on;
* `Accomplished` — all that is done for a plan, and the outcome that says so;
* `apply_effects` — a run without its answers is unreported, and any other run accomplishes its plan.
-/

namespace Allotment

variable {σ : Type}

/-- A controller with its backend and its notifiers on a bench. -/
def Controller.onBench (name : String) (b : Backend σ) (defaults : ProcessDefaults) (ns : List (Notifier σ)) :
    Controller (Bench σ) :=
  ⟨name, Bench.around b, defaults, ns.zipIdx.map fun n => .watched n.2 n.1⟩

/-! ### Calls without a report -/

/-- Between two desks some calls were made, and nothing was counted, noted in the journal or told to a notifier. -/
structure Unreported (d d' : Desk (Bench σ)) (calls : List Request) : Prop where
  ledger : d'.ledger = d.ledger
  seen : d'.world.seen = d.world.seen
  calls : d'.world.calls = d.world.calls ++ calls

theorem Unreported.refl (d : Desk (Bench σ)) : Unreported d d [] := ⟨rfl, rfl, (List.append_nil _).symm⟩

theorem Unreported.trans {d d' d'' : Desk (Bench σ)} {rs ss : List Request} (h : Unreported d d' rs)
    (h' : Unreported d' d'' ss) : Unreported d d'' (rs ++ ss) :=
  ⟨h'.ledger.trans h.ledger, h'.seen.trans h.seen, by rw [h'.calls, h.calls, List.append_assoc]⟩

theorem Bench.seen_through {α : Type} (r : Request) (f : Call σ α) (b : Bench σ) :
    (through r f b).2.seen = b.seen := by
  unfold through
  simp only
  split <;> rfl

/-- A desk after a call, whatever it was answered. -/
def Desk.after {α : Type} (d : Desk σ) (f : Call σ α) : Desk σ :=
  { d with world := (f d.world).2 }

theorem unreported_through {α : Type} (r : Request) (f : Call σ α) (d : Desk (Bench σ)) :
    Unreported d (d.after (Bench.through r f)) [r] :=
  ⟨rfl, Bench.seen_through r f d.world, Bench.calls_through r f d.world⟩

/-! ### What becomes of a plan -/

namespace Plan

/-- Whether a plan has to be written. -/
def IsCalledFor (p : Plan) (dry : Bool) : Prop :=
  p.changes ≠ [] ∧ dry = false

instance (p : Plan) (dry : Bool) : Decidable (p.IsCalledFor dry) :=
  inferInstanceAs (Decidable (_ ∧ _))

/-- The outcome of a plan under a key, when the store would answer a write of it. -/
def fate (p : Plan) (key : String) (dry : Bool) (answer : Except String Unit) : Outcome :=
  if p.isNoop then .success key p.changes
  else if dry then .dryRun key p.changes
  else
    match answer with
    | .ok _ => .success key p.changes
    | .error e => .failed key p.changes e

theorem isNoop_iff (p : Plan) : p.isNoop = true ↔ p.changes = [] := List.isEmpty_iff

variable {p : Plan} {key : String} {dry : Bool} {answer : Except String Unit}

/-- A plan has nothing to change, or is dry, or is written, or is refused. -/
theorem fate_cases (p : Plan) (key : String) (dry : Bool) (answer : Except String Unit) :
    (p.changes = [] ∧ p.fate key dry answer = .success key p.changes) ∨
      (p.changes ≠ [] ∧ dry = true ∧ p.fate key dry answer = .dryRun key p.changes) ∨
      (p.IsCalledFor dry ∧ answer = .ok () ∧ p.fate key dry answer = .success key p.changes) ∨
      (p.IsCalledFor dry ∧ ∃ e, answer = .error e ∧ p.fate key dry answer = .failed key p.changes e) := by
  unfold fate
  by_cases hnone : p.changes = []
  · exact .inl ⟨hnone, if_pos (p.isNoop_iff.2 hnone)⟩
  · rw [if_neg (mt p.isNoop_iff.1 hnone)]
    cases dry with
    | true => exact .inr (.inl ⟨hnone, rfl, rfl⟩)
    | false =>
      cases answer with
      | ok _ => exact .inr (.inr (.inl ⟨⟨hnone, rfl⟩, rfl, rfl⟩))
      | error e => exact .inr (.inr (.inr ⟨⟨hnone, rfl⟩, e, rfl, rfl⟩))

theorem key_fate : (p.fate key dry answer).key = key := by
  rcases p.fate_cases key dry answer with ⟨-, h⟩ | ⟨-, -, h⟩ | ⟨-, -, h⟩ | ⟨-, e, -, h⟩ <;> rw [h] <;> rfl

theorem changes_fate : (p.fate key dry answer).changes = p.changes := by
  rcases p.fate_cases key dry answer with ⟨-, h⟩ | ⟨-, -, h⟩ | ⟨-, -, h⟩ | ⟨-, e, -, h⟩ <;> rw [h] <;> rfl

/-- A refusal is kept in the words of the store. -/
theorem error_fate_iff {e : String} :
    (p.fate key dry answer).error = some e ↔ p.IsCalledFor dry ∧ answer = .error e := by
  rcases p.fate_cases key dry answer with ⟨hnone, h⟩ | ⟨-, hdry, h⟩ | ⟨-, hok, h⟩ | ⟨hcalled, e', herror, h⟩ <;>
    rw [h]
  · simp [Outcome.success, IsCalledFor, hnone]
  · simp [Outcome.dryRun, IsCalledFor, hdry]
  · simp [Outcome.success, hok]
  · simp [Outcome.failed, hcalled, herror]

theorem kind_fate_eq_failed_iff :
    (p.fate key dry answer).kind = .failed ↔ p.IsCalledFor dry ∧ ∃ e, answer = .error e := by
  rcases p.fate_cases key dry answer with ⟨hnone, h⟩ | ⟨-, hdry, h⟩ | ⟨-, hok, h⟩ | ⟨hcalled, e', herror, h⟩ <;>
    rw [h]
  · simp [Outcome.success, IsCalledFor, hnone]
  · simp [Outcome.dryRun, IsCalledFor, hdry]
  · simp [Outcome.success, hok]
  · simp [Outcome.failed, hcalled, herror]

theorem kind_fate_eq_dryRun_iff : (p.fate key dry answer).kind = .dryRun ↔ p.changes ≠ [] ∧ dry = true := by
  rcases p.fate_cases key dry answer with ⟨hnone, h⟩ | ⟨hsome, hdry, h⟩ | ⟨hcalled, -, h⟩ | ⟨hcalled, e', -, h⟩ <;>
    rw [h]
  · simp [Outcome.success, hnone]
  · simp [Outcome.dryRun, hsome, hdry]
  · simp [Outcome.success, hcalled.2]
  · simp [Outcome.failed, hcalled.2]

theorem kind_fate_eq_success_iff :
    (p.fate key dry answer).kind = .success ↔ p.changes = [] ∨ (dry = false ∧ answer = .ok ()) := by
  rcases p.fate_cases key dry answer with
    ⟨hnone, h⟩ | ⟨hsome, hdry, h⟩ | ⟨hcalled, hok, h⟩ | ⟨hcalled, e', herror, h⟩ <;> rw [h]
  · simp [Outcome.success, hnone]
  · simp [Outcome.dryRun, hsome, hdry]
  · simp [Outcome.success, hcalled.2, hok]
  · simp [Outcome.failed, hcalled.1, herror]

end Plan

/-! ### Runs by their answers -/

namespace Controller

section Run

variable {c : Controller σ} {t : Target} {cs : List Container} {dryRun : Bool} {d : Desk σ}

/-- Both reads of a run are answered, the second one after the first. -/
structure Answered (c : Controller σ) (t : Target) (s : σ) (notes : Annotations) (status : Status) : Prop where
  policy : (c.backend.policy t s).1 = .ok notes
  status : (c.backend.status t (c.backend.policy t s).2).1 = .ok status

/-- The desk after both reads of a run. -/
def afterReads (c : Controller σ) (t : Target) (d : Desk σ) : Desk σ :=
  (d.after (c.backend.policy t)).after (c.backend.status t)

/-- The desk after the commit of a plan. -/
def afterCommit (c : Controller σ) (t : Target) (p : Plan) (dry : Bool) (d : Desk σ) : Desk σ :=
  if p.IsCalledFor dry then d.after (c.backend.write t p.containers) else d

theorem readOf_of_ok {α : Type} {what : String} {f : Call σ α} {a : α} (h : (f d.world).1 = .ok a) :
    readOf what t f d = (.ok a, d.after f) := by
  simp only [readOf, ask, h, Except.mapError, Desk.after]

theorem readOf_of_error {α : Type} {what e : String} {f : Call σ α} (h : (f d.world).1 = .error e) :
    readOf what t f d = (.error (.source what t.key e), d.after f) := by
  simp only [readOf, ask, h, Except.mapError, Desk.after]

theorem apply_of_not_supported (ht : ¬ t.Supported) :
    c.apply t cs dryRun d = (.error (.unsupportedKind t.kind), d) := by
  unfold apply
  rw [if_pos (Target.isNone_ofName?_iff.2 ht)]

theorem apply_of_policy_error (ht : t.Supported) {e : String} (h : (c.backend.policy t d.world).1 = .error e) :
    c.apply t cs dryRun d = (.error (.source "policy" t.key e), d.after (c.backend.policy t)) := by
  unfold apply
  rw [if_neg (fun h => Target.isNone_ofName?_iff.1 h ht), readOf_of_error h]

theorem apply_of_status_error (ht : t.Supported) {notes : Annotations} {e : String}
    (hpolicy : (c.backend.policy t d.world).1 = .ok notes)
    (hstatus : (c.backend.status t (c.backend.policy t d.world).2).1 = .error e) :
    c.apply t cs dryRun d = (.error (.source "recommendations" t.key e), c.afterReads t d) := by
  have hread : readOf "recommendations" t (c.backend.status t) (d.after (c.backend.policy t)) =
      (.error (.source "recommendations" t.key e), c.afterReads t d) :=
    readOf_of_error (d := d.after (c.backend.policy t)) hstatus
  unfold apply
  rw [if_neg (fun h => Target.isNone_ofName?_iff.1 h ht), readOf_of_ok hpolicy]
  simp only [hread]

/-- A plan is committed by one write if it is called for, and by none otherwise. -/
theorem commit_eq (c : Controller σ) (t : Target) (p : Plan) (dry : Bool) (d : Desk σ) :
    c.commit t p dry d =
      (p.fate t.key dry (c.backend.write t p.containers d.world).1, c.afterCommit t p dry d) := by
  unfold commit Plan.fate afterCommit
  by_cases hnoop : p.isNoop = true
  · have hcalled : ¬ p.IsCalledFor dry := fun h => h.1 (p.isNoop_iff.1 hnoop)
    rw [if_pos hnoop, if_pos hnoop, if_neg hcalled]
  · rw [if_neg hnoop, if_neg hnoop]
    cases dry with
    | true =>
      have hcalled : ¬ p.IsCalledFor true := fun h => Bool.noConfusion h.2
      rw [if_pos rfl, if_pos rfl, if_neg hcalled]
    | false =>
      have hcalled : p.IsCalledFor false := ⟨mt p.isNoop_iff.2 hnoop, rfl⟩
      rw [if_neg Bool.false_ne_true, if_neg Bool.false_ne_true, if_pos hcalled]
      simp only [ask, Desk.after]
      cases (c.backend.write t p.containers d.world).1 <;> rfl

/-- A run that is answered commits its plan, and concludes with the outcome. -/
theorem apply_of_answered (ht : t.Supported) {notes : Annotations} {status : Status}
    (h : c.Answered t d.world notes status) :
    let p := plan (c.cascade notes) status cs
    let dry := dryRun || (Effective.of (c.cascade notes) none).dryRun
    let o := p.fate t.key dry (c.backend.write t p.containers (c.afterReads t d).world).1
    c.apply t cs dryRun d = (.ok o, c.conclude o (c.afterCommit t p dry (c.afterReads t d))) := by
  intro p dry o
  have hread : readOf "recommendations" t (c.backend.status t) (d.after (c.backend.policy t)) =
      (.ok status, c.afterReads t d) :=
    readOf_of_ok (d := d.after (c.backend.policy t)) h.status
  unfold apply
  rw [if_neg (fun h => Target.isNone_ofName?_iff.1 h ht), readOf_of_ok h.policy]
  simp only [hread, commit_eq]
  rfl

end Run

/-! ### Reports to watched notifiers -/

/-- What is left of a report besides the world: each notifier was told once, in order, and the journal went on. -/
theorem foldl_tell_watched (o : Outcome) (ns : List (Notifier σ)) :
    ∀ (k : Nat) (d : Desk (Bench σ)),
      let d' := ((ns.zipIdx k).map fun n => Notifier.watched n.2 n.1).foldl (tell o) d
      d'.world.calls = d.world.calls ∧
        d'.world.seen = d.world.seen ++ (List.range' k ns.length).map (fun i => ⟨i, o⟩) ∧
        d'.ledger.metrics = d.ledger.metrics ∧ ∃ told, d'.ledger.journal = d.ledger.journal ++ told := by
  induction ns with
  | nil => exact fun k d => ⟨rfl, (List.append_nil _).symm, rfl, [], (List.append_nil _).symm⟩
  | cons n ns ih =>
    intro k d
    obtain ⟨hcalls, hseen, hmetrics, told, hjournal⟩ := ih (k + 1) (tell o d (n.watched k))
    refine ⟨hcalls, ?_, hmetrics, ?_⟩
    · refine hseen.trans ?_
      rw [List.length_cons, List.range'_succ, List.map_cons]
      exact List.append_assoc _ _ _
    · exact ⟨_, hjournal.trans (List.append_assoc _ _ _)⟩

/-- An outcome is counted once and, if it has changes, noted once and told to each notifier once. -/
structure Reported (c : Controller (Bench σ)) (o : Outcome) (d d' : Desk (Bench σ)) : Prop where
  calls : d'.world.calls = d.world.calls
  metrics : d'.ledger.metrics = d.ledger.metrics.record o
  /-- What follows the notice of the outcome is what the notifiers wrote, and how they failed. -/
  journal : ∃ told, d'.ledger.journal =
    d.ledger.journal ++ if o.changes = [] then [] else outcomeNotice c.name o :: told
  seen : d'.world.seen =
    d.world.seen ++ if o.changes = [] then [] else (List.range c.notifiers.length).map fun i => ⟨i, o⟩

variable {name : String} {b : Backend σ} {defaults : ProcessDefaults} {ns : List (Notifier σ)}

theorem reported_report (o : Outcome) (d : Desk (Bench σ)) :
    (onBench name b defaults ns).Reported o d ((onBench name b defaults ns).report o d) := by
  have hlength : (onBench name b defaults ns).notifiers.length = ns.length := by simp [onBench]
  unfold report
  by_cases hnoop : o.isNoop = true
  · have hnone : o.changes = [] := List.isEmpty_iff.1 hnoop
    simp only [if_pos hnoop]
    refine ⟨rfl, rfl, ⟨[], ?_⟩, ?_⟩ <;> rw [if_pos hnone, List.append_nil]
  · have hsome : o.changes ≠ [] := fun h => hnoop (List.isEmpty_iff.2 h)
    simp only [if_neg hnoop]
    obtain ⟨hcalls, hseen, hmetrics, told, hjournal⟩ := foldl_tell_watched o ns 0
      ⟨d.world, Ledger.note ⟨d.ledger.metrics.record o, d.ledger.journal⟩ (outcomeNotice name o)⟩
    refine ⟨hcalls, hmetrics, ⟨told, ?_⟩, ?_⟩
    · rw [if_neg hsome]
      exact hjournal.trans (List.append_assoc _ _ _)
    · rw [if_neg hsome, hlength, List.range_eq_range']
      exact hseen

end Controller

/-! ### All effects together -/

/-- Between two desks all was done for a plan that was due: the outcome tells what became of it, the containers were
written at most once, and the outcome was reported once. -/
structure Accomplished (c : Controller (Bench σ)) (t : Target) (p : Plan) (dry : Bool) (answer : Except String Unit)
    (o : Outcome) (d d' : Desk (Bench σ)) : Prop where
  key : o.key = t.key
  changes : o.changes = p.changes
  failed : o.kind = .failed ↔ p.IsCalledFor dry ∧ ∃ e, answer = .error e
  error : ∀ e, o.error = some e ↔ p.IsCalledFor dry ∧ answer = .error e
  dryRun : o.kind = .dryRun ↔ p.changes ≠ [] ∧ dry = true
  success : o.kind = .success ↔ p.changes = [] ∨ (dry = false ∧ answer = .ok ())
  calls : d'.world.calls = d.world.calls ++ [.policy t, .status t] ++
    if p.IsCalledFor dry then [.write t p.containers] else []
  metrics : ∃ seconds, d'.ledger.metrics = (d.ledger.metrics.observe seconds).record o
  journal : ∃ told, d'.ledger.journal =
    d.ledger.journal ++ if p.changes = [] then [] else Controller.outcomeNotice c.name o :: told
  seen : d'.world.seen =
    d.world.seen ++ if p.changes = [] then [] else (List.range c.notifiers.length).map fun i => ⟨i, o⟩

section Effects

variable {name : String} {b : Backend σ} {defaults : ProcessDefaults} {ns : List (Notifier σ)} {t : Target}
variable {d : Desk (Bench σ)}

theorem unreported_policy :
    Unreported d (d.after ((Controller.onBench name b defaults ns).backend.policy t)) [.policy t] :=
  unreported_through _ _ d

theorem unreported_afterReads :
    Unreported d ((Controller.onBench name b defaults ns).afterReads t d) [.policy t, .status t] := by
  have hpolicy : Unreported d (d.after ((Controller.onBench name b defaults ns).backend.policy t)) [.policy t] :=
    unreported_policy
  exact hpolicy.trans (unreported_through _ _ _)

theorem unreported_afterCommit (p : Plan) (dry : Bool) :
    let c := Controller.onBench name b defaults ns
    Unreported d (c.afterCommit t p dry (c.afterReads t d))
      ([.policy t, .status t] ++ if p.IsCalledFor dry then [.write t p.containers] else []) := by
  intro c
  unfold Controller.afterCommit
  split
  · exact unreported_afterReads.trans (unreported_through _ _ _)
  · exact unreported_afterReads.trans (.refl _)

/-- What is left to do after a commit is to time the run and to report its outcome. -/
theorem accomplished_conclude {p : Plan} {dry : Bool} {answer : Except String Unit} {committed : Desk (Bench σ)}
    (h : Unreported d committed
      ([.policy t, .status t] ++ if p.IsCalledFor dry then [.write t p.containers] else [])) :
    let c := Controller.onBench name b defaults ns
    let o := p.fate t.key dry answer
    Accomplished c t p dry answer o d (c.conclude o committed) := by
  intro c o
  have hreported : c.Reported o _ (c.conclude o committed) := Controller.reported_report o _
  have hchanges : o.changes = p.changes := Plan.changes_fate
  obtain ⟨told, hjournal⟩ := hreported.journal
  refine ⟨Plan.key_fate, hchanges, Plan.kind_fate_eq_failed_iff, fun e => Plan.error_fate_iff,
    Plan.kind_fate_eq_dryRun_iff, Plan.kind_fate_eq_success_iff, ?calls,
    ⟨c.backend.elapsed committed.world, ?metrics⟩, ⟨told, ?journal⟩, ?seen⟩
  case calls => rw [hreported.calls, List.append_assoc, ← h.calls]
  case metrics => rw [hreported.metrics, h.ledger]
  case journal => rw [hjournal, hchanges, h.ledger]
  case seen => rw [hreported.seen, hchanges, ← h.seen]

/-- A run that is answered accomplishes its plan. Its outcome is the fate of the plan, whatever the notifiers are. -/
theorem accomplished_apply (ht : t.Supported) {notes : Annotations} {status : Status} (cs : List Container)
    (dryRun : Bool) :
    let c := Controller.onBench name b defaults ns
    let p := plan ⟨notes, defaults⟩ status cs
    let dry := dryRun || (Effective.of ⟨notes, defaults⟩ none).dryRun
    let answer := (c.backend.write t p.containers (c.afterReads t d).world).1
    let run := c.apply t cs dryRun d
    c.Answered t d.world notes status →
      run.1 = .ok (p.fate t.key dry answer) ∧ Accomplished c t p dry answer (p.fate t.key dry answer) d run.2 := by
  intro c p dry answer run h
  unfold run
  rw [Controller.apply_of_answered ht h]
  exact ⟨rfl, accomplished_conclude (unreported_afterCommit p dry)⟩

end Effects

/-- **The effects of a run** on given containers, whatever its backend, its faults and its notifiers do. A target of an
unsupported kind, or a read that fails, ends it with that error and without a report. Otherwise it accomplishes the plan
for what it was told, as a dry run if the caller or the policy says so; the outcome is the same for any notifiers. -/
theorem Controller.apply_effects (name : String) (b : Backend σ) (defaults : ProcessDefaults) (ns : List (Notifier σ))
    (t : Target) (cs : List Container) (dryRun : Bool) (d : Desk (Bench σ)) :
    let c := onBench name b defaults ns
    let run := c.apply t cs dryRun d
    (¬ t.Supported → run.1 = .error (.unsupportedKind t.kind) ∧ Unreported d run.2 []) ∧
      (t.Supported → ∀ e, (c.backend.policy t d.world).1 = .error e →
        run.1 = .error (.source "policy" t.key e) ∧ Unreported d run.2 [.policy t]) ∧
      (t.Supported → ∀ notes e, (c.backend.policy t d.world).1 = .ok notes →
        (c.backend.status t (c.backend.policy t d.world).2).1 = .error e →
        run.1 = .error (.source "recommendations" t.key e) ∧ Unreported d run.2 [.policy t, .status t]) ∧
      (t.Supported → ∀ notes status, c.Answered t d.world notes status →
        let p := plan ⟨notes, defaults⟩ status cs
        let dry := dryRun || (Effective.of ⟨notes, defaults⟩ none).dryRun
        ∃ o, run.1 = .ok o ∧
          Accomplished c t p dry (c.backend.write t p.containers (c.afterReads t d).world).1 o d run.2 ∧
          ∀ ns', ((onBench name b defaults ns').apply t cs dryRun d).1 = .ok o) := by
  intro c run
  refine ⟨fun ht => ?kind, fun ht e hpolicy => ?policy, fun ht notes e hpolicy hstatus => ?status,
    fun ht notes status h => ?answered⟩
  case kind =>
    unfold run
    rw [apply_of_not_supported ht]
    exact ⟨rfl, .refl d⟩
  case policy =>
    unfold run
    rw [apply_of_policy_error ht hpolicy]
    exact ⟨rfl, unreported_policy⟩
  case status =>
    unfold run
    rw [apply_of_status_error ht hpolicy hstatus]
    exact ⟨rfl, unreported_afterReads⟩
  case answered =>
    intro p dry
    obtain ⟨hrun, hdone⟩ := accomplished_apply ht cs dryRun h
    refine ⟨_, hrun, hdone, fun ns' => ?_⟩
    have h' : (onBench name b defaults ns').Answered t d.world notes status := ⟨h.policy, h.status⟩
    exact (accomplished_apply ht cs dryRun h').1

/-- A backend that always answers the same: a policy, a quarter of a core for the container `app`, and what its store
says to a write. -/
def steadyBackend (notes : Annotations) (answer : Except String Unit) : Backend Unit where
  policy _ s := (.ok notes, s)
  containers _ s := (.ok [], s)
  write _ _ s := (answer, s)
  recommendations _ s := (.ok none, s)
  bounds _ s := (.ok [], s)
  status _ s := (.ok ⟨some [⟨"app", Estimate.empty, ⟨some ⟨.cpu, 250, .decimal⟩, none⟩, Estimate.empty⟩], []⟩, s)
  elapsed _ := 0

/-- A container with the same amount of CPU for its request and its limit. -/
def evenApp (cpu : Option Quantity) : Container := ⟨"app", ⟨⟨cpu, cpu⟩, ⟨none, none⟩⟩⟩

/-- A desk at which nothing has happened, with faults that are set. -/
def freshDesk (faults : List (CallKind × String)) : Desk (Bench Unit) :=
  ⟨{ Bench.start () with faults }, Ledger.empty⟩

/-- A target of another kind, a policy and a status that cannot be read, and a store that refuses a write, under a
notifier that fails and one after it. -/
theorem Controller.apply_effects_refused :
    let refusal := "the object has been modified"
    let c := onBench "rightsizer" (steadyBackend Dict.empty (.error refusal)) ProcessDefaults.empty
      [.silent (some "unreachable"), .journal]
    let t : Target := ⟨"Deployment", "shop", "api"⟩
    let run (faults : List (CallKind × String)) (t : Target) := c.apply t [evenApp none] false (freshDesk faults)
    let quarter := evenApp (some ⟨.cpu, 250, .decimal⟩)
    ((run [] ⟨"Job", "shop", "api"⟩).1 = .error (.unsupportedKind "Job") ∧
        (run [] ⟨"Job", "shop", "api"⟩).2.world.calls = []) ∧
      ((run [(.policy, "gone")] t).1 = .error (.source "policy" "shop/api" "gone") ∧
        (run [(.policy, "gone")] t).2.world.seen = []) ∧
      ((run [(.status, "gone")] t).1 = .error (.source "recommendations" "shop/api" "gone") ∧
        (run [(.status, "gone")] t).2.world.calls = [.policy t, .status t]) ∧
      ∃ o, (run [] t).1 = .ok o ∧ o.kind = .failed ∧ o.error = some refusal ∧
        (run [] t).2.world.calls = [.policy t, .status t, .write t [quarter]] ∧
        (run [] t).2.world.seen = [⟨0, o⟩, ⟨1, o⟩] := by
  intro refusal c t run quarter
  have heffects := fun faults t => apply_effects "rightsizer" (steadyBackend Dict.empty (.error refusal))
    ProcessDefaults.empty [.silent (some "unreachable"), .journal] t [evenApp none] false (freshDesk faults)
  have ht : t.Supported := by decide
  have hplan : plan ⟨Dict.empty, ProcessDefaults.empty⟩
      ⟨some [⟨"app", Estimate.empty, ⟨some ⟨.cpu, 250, .decimal⟩, none⟩, Estimate.empty⟩], []⟩ [evenApp none] =
        ⟨[quarter], [⟨"app", ⟨.cpu, .request⟩, none, ⟨.cpu, 250, .decimal⟩⟩,
          ⟨"app", ⟨.cpu, .limit⟩, none, ⟨.cpu, 250, .decimal⟩⟩]⟩ := by decide +kernel
  have hdry : (Effective.of ⟨Dict.empty, ProcessDefaults.empty⟩ none).dryRun = false := by decide +kernel
  refine ⟨?kind, ?policy, ?status, ?refused⟩
  case kind =>
    obtain ⟨hrun, hquiet⟩ := (heffects [] ⟨"Job", "shop", "api"⟩).1 (by decide)
    exact ⟨hrun, hquiet.calls⟩
  case policy =>
    obtain ⟨hrun, hquiet⟩ := (heffects [(.policy, "gone")] t).2.1 ht "gone" rfl
    exact ⟨hrun, hquiet.seen⟩
  case status =>
    obtain ⟨hrun, hquiet⟩ := (heffects [(.status, "gone")] t).2.2.1 ht Dict.empty "gone" rfl rfl
    exact ⟨hrun, hquiet.calls⟩
  case refused =>
    obtain ⟨o, hrun, hdone⟩ : ∃ o, (run [] t).1 = .ok o ∧
        Accomplished c t ⟨[quarter], _⟩ false (.error refusal) o (freshDesk []) (run [] t).2 := by
      obtain ⟨o, hrun, hdone, -⟩ := (heffects [] t).2.2.2 ht Dict.empty _ ⟨rfl, rfl⟩
      rw [hplan, Bool.false_or, hdry] at hdone
      exact ⟨o, hrun, hdone⟩
    have hcalled : Plan.IsCalledFor ⟨[quarter], [⟨"app", ⟨.cpu, .request⟩, none, ⟨.cpu, 250, .decimal⟩⟩,
        ⟨"app", ⟨.cpu, .limit⟩, none, ⟨.cpu, 250, .decimal⟩⟩]⟩ false := by decide
    refine ⟨o, hrun, hdone.failed.2 ⟨hcalled, refusal, rfl⟩, (hdone.error refusal).2 ⟨hcalled, rfl⟩, ?_, ?_⟩
    · rw [hdone.calls, if_pos hcalled]
      rfl
    · rw [hdone.seen, if_neg hcalled.1]
      rfl

end Allotment
