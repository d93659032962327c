import Allotment.Proofs.Controller.Review

/-!
# The account of a controller

Runs and reviews return outcomes. What a controller counts and tells over any number of calls is what they returned.

* `Errand`, `Reply` — a call to a controller, and what it returned; `Controller.serve`, `serveAll` — one call, and any
  number of them, one after another;
* `outcomes` — the outcomes that were returned; `Bench.received` — those that one notifier was told;
* `Uncounted` — nothing was counted, noted in the journal or told; `Recorded` — an outcome was counted and told;
* `Accounted` — what was counted and told between two desks is what was returned between them;
* `serve_cases` — a call returns an outcome, which is accounted for, or fails or is switched off, uncounted;
* `serveAll_accounts` — so any number of calls is accounted for.
-/

namespace Allotment

variable {σ : Type}

/-! ### Calls and their replies -/

/-- A call to a controller: a run on given containers, or the review of an incoming workload with its own policy. -/
inductive Errand where
  | run (t : Target) (cs : List Container) (dryRun : Bool)
  | review (t : Target) (cs : List Container) (notes : Annotations)

/-- What a call to a controller returned. -/
inductive Reply where
  | run (r : Except RunError Outcome)
  | review (r : Except RunError Review)

/-- A review of a workload that has it switched off. -/
def Errand.SwitchedOff (c : Controller σ) : Errand → Prop
  | .run .. => False
  | .review _ _ notes => (Effective.of (c.cascade notes) none).webhookEnabled = false

namespace Reply

/-- The call failed. -/
def IsError : Reply → Prop
  | run r => ∃ e, r = .error e
  | review r => ∃ e, r = .error e

/-- Whether a run ended without an error. -/
def isTimed : Reply → Bool
  | run r => r.isOk
  | review _ => false

/-- The outcome that was returned, if there was one. -/
def outcome? : Reply → Option Outcome
  | run r => r.toOption
  | review r => r.toOption.bind Review.outcome

theorem isTimed_eq_false {r : Reply} (h : r.outcome? = none) : r.isTimed = false := by
  match r, h with
  | run (.error _), _ => rfl
  | review _, _ => rfl

end Reply

/-- The outcomes that were returned, in their order. -/
def outcomes (rs : List Reply) : List Outcome :=
  rs.filterMap Reply.outcome?

namespace Controller

/-- A call to a controller. -/
def serve (c : Controller σ) : Errand → Work σ Reply
  | .run t cs dryRun, d => (c.apply t cs dryRun d).map .run id
  | .review t cs notes, d => (c.review t cs notes d).map .review id

/-- Calls to a controller, one after another. -/
def serveAll (c : Controller σ) : List Errand → Work σ (List Reply)
  | [], d => ([], d)
  | e :: es, d =>
    let (r, d) := c.serve e d
    let (rs, d) := c.serveAll es d
    (r :: rs, d)

end Controller

/-! ### Accounts -/

/-- What `n` watched notifiers see when each is told an outcome, in their order. -/
def sightings (n : Nat) (o : Outcome) : List Sighting :=
  (List.range n).map fun i => ⟨i, o⟩

/-- The outcome that was told, if it was told to the notifier at a place. -/
def Sighting.toldTo? (place : Nat) (s : Sighting) : Option Outcome :=
  if s.notifier = place then some s.outcome else none

/-- What the notifier at a place was told, the latest last. -/
def Bench.received (b : Bench σ) (place : Nat) : List Outcome :=
  b.seen.filterMap (Sighting.toldTo? place)

/-- Between two desks nothing was counted, noted in the journal or told to a notifier. -/
structure Uncounted (d d' : Desk (Bench σ)) : Prop where
  ledger : d'.ledger = d.ledger
  seen : d'.world.seen = d.world.seen

/-- Between two desks an outcome was counted, over counts `m`, and told to `n` notifiers in turn if it has changes. -/
structure Recorded (n : Nat) (m : Metrics) (o : Outcome) (d d' : Desk (Bench σ)) : Prop where
  metrics : d'.ledger.metrics = m.record o
  seen : d'.world.seen = d.world.seen ++ if o.changes = [] then [] else sightings n o

/-- What was counted between two desks, and told to `n` notifiers, is what was returned between them. -/
structure Accounted (n : Nat) (rs : List Reply) (d d' : Desk (Bench σ)) : Prop where
  runs : ∀ k, d'.ledger.metrics.runs k = d.ledger.metrics.runs k + (outcomes rs).countP fun o => o.kind = k
  changes : d'.ledger.metrics.changes = d.ledger.metrics.changes +
    (((outcomes rs).filter fun o => o.kind = .success).flatMap Outcome.changes).length
  timed : d'.ledger.metrics.durations.size = d.ledger.metrics.durations.size + rs.countP Reply.isTimed
  /-- Each outcome with changes was told to every notifier in turn before the next one was. -/
  seen : d'.world.seen = d.world.seen ++ ((outcomes rs).filter fun o => o.changes ≠ []).flatMap (sightings n)

theorem Metrics.durations_record (m : Metrics) (o : Outcome) : (m.record o).durations = m.durations := by
  unfold record
  cases o.kind <;> rfl

/-- Of the notifiers that are told an outcome each is told it once. -/
theorem filterMap_sightings {n place : Nat} (h : place < n) (o : Outcome) :
    (sightings n o).filterMap (Sighting.toldTo? place) = [o] := by
  have hone : ∀ n, (sightings n o).filterMap (Sighting.toldTo? place) = if place < n then [o] else [] := by
    intro n
    unfold sightings
    induction n with
    | zero => rfl
    | succ n ih =>
      rw [List.range_succ, List.map_append, List.filterMap_append, ih]
      rcases Nat.lt_trichotomy place n with hlt | rfl | hgt
      · simp [Sighting.toldTo?, hlt, Nat.lt_succ_of_lt hlt, Nat.ne_of_gt hlt]
      · simp [Sighting.toldTo?]
      · simp [Sighting.toldTo?, Nat.not_lt_of_gt hgt, Nat.not_lt.2 (Nat.succ_le_of_lt hgt), Nat.ne_of_lt hgt]
  rw [hone, if_pos h]

namespace Accounted

variable {n : Nat} {r : Reply} {rs ss : List Reply} {d d' d'' : Desk (Bench σ)}

theorem refl (d : Desk (Bench σ)) : Accounted n [] d d :=
  ⟨fun _ => rfl, rfl, rfl, (List.append_nil _).symm⟩

theorem trans (h : Accounted n rs d d') (h' : Accounted n ss d' d'') : Accounted n (rs ++ ss) d d'' := by
  have houtcomes : outcomes (rs ++ ss) = outcomes rs ++ outcomes ss := List.filterMap_append
  refine ⟨fun k => ?runs, ?changes, ?timed, ?seen⟩
  case runs => rw [h'.runs, h.runs, houtcomes, List.countP_append, Nat.add_assoc]
  case changes =>
    rw [h'.changes, h.changes, houtcomes, List.filter_append, List.flatMap_append, List.length_append, Nat.add_assoc]
  case timed => rw [h'.timed, h.timed, List.countP_append, Nat.add_assoc]
  case seen => rw [h'.seen, h.seen, houtcomes, List.filter_append, List.flatMap_append, List.append_assoc]

/-- A call without an outcome is accounted for by doing nothing. -/
theorem of_uncounted (h : Uncounted d d') (hr : r.outcome? = none) : Accounted n [r] d d' := by
  have hnone : outcomes [r] = [] := List.filterMap_cons_none hr
  refine ⟨fun k => ?runs, ?changes, ?timed, ?seen⟩
  case runs => rw [h.ledger, hnone, List.countP_nil, Nat.add_zero]
  case changes => rw [h.ledger, hnone, List.filter_nil, List.flatMap_nil, List.length_nil, Nat.add_zero]
  case timed => rw [h.ledger, List.countP_singleton, Reply.isTimed_eq_false hr, if_neg Bool.false_ne_true, Nat.add_zero]
  case seen => rw [h.seen, hnone, List.filter_nil, List.flatMap_nil, List.append_nil]

/-- A call with an outcome is accounted for by counting it over the counts of the desk, which are others at most by the
duration of a run, and by telling it if it has changes. -/
theorem of_recorded {m : Metrics} {o : Outcome} (hr : r.outcome? = some o)
    (hruns : ∀ k, m.runs k = d.ledger.metrics.runs k) (hchanges : m.changes = d.ledger.metrics.changes)
    (htimed : m.durations.size = d.ledger.metrics.durations.size + if r.isTimed then 1 else 0)
    (h : Recorded n m o d d') : Accounted n [r] d d' := by
  have hone : outcomes [r] = [o] := List.filterMap_cons_some hr
  refine ⟨fun k => ?runs, ?changes, ?timed, ?seen⟩
  case runs =>
    rw [h.metrics, Metrics.runs_record, hruns, hone, List.countP_singleton]
    simp only [decide_eq_true_eq]
  case changes =>
    rw [h.metrics, Metrics.changes_record, hchanges, hone]
    by_cases hkind : o.kind = .success <;> simp [hkind]
  case timed => rw [h.metrics, Metrics.durations_record, htimed, List.countP_singleton]
  case seen =>
    rw [h.seen, hone]
    by_cases hnone : o.changes = [] <;> simp [hnone]

/-- A notifier was told the outcomes with changes and nothing else. -/
theorem received (h : Accounted n rs d d') {i : Nat} (hi : i < n) :
    d'.world.received i = d.world.received i ++ (outcomes rs).filter fun o => o.changes ≠ [] := by
  have htold : ∀ os : List Outcome, (os.flatMap (sightings n)).filterMap (Sighting.toldTo? i) = os := by
    intro os
    induction os with
    | nil => rfl
    | cons o os ih =>
      rw [List.flatMap_cons, List.filterMap_append, filterMap_sightings hi, ih]
      rfl
  unfold Bench.received
  rw [h.seen, List.filterMap_append, htold]

end Accounted

/-! ### Calls are accounted for -/

namespace Controller

section Cases

variable {name : String} {b : Backend σ} {defaults : ProcessDefaults} {ns : List (Notifier σ)}

theorem length_notifiers_onBench : (onBench name b defaults ns).notifiers.length = ns.length := by
  unfold onBench
  rw [List.length_map, List.length_zipIdx]

/-- A run fails, with nothing counted, or is timed, counted and told. -/
theorem apply_cases (t : Target) (cs : List Container) (dryRun : Bool) (d : Desk (Bench σ)) :
    let run := (onBench name b defaults ns).apply t cs dryRun d
    (∃ e calls, run.1 = .error e ∧ Unreported d run.2 calls) ∨
      ∃ o seconds, run.1 = .ok o ∧ Recorded ns.length (d.ledger.metrics.observe seconds) o d run.2 := by
  intro run
  unfold run
  let c := onBench name b defaults ns
  by_cases ht : t.Supported
  case neg =>
    rw [apply_of_not_supported ht]
    exact .inl ⟨_, _, rfl, .refl d⟩
  case pos =>
    cases hpolicy : (c.backend.policy t d.world).1 with
    | error e =>
      rw [apply_of_policy_error ht hpolicy]
      exact .inl ⟨_, _, rfl, unreported_policy⟩
    | ok notes =>
      cases hstatus : (c.backend.status t (c.backend.policy t d.world).2).1 with
      | error e =>
        rw [apply_of_status_error ht hpolicy hstatus]
        exact .inl ⟨_, _, rfl, unreported_afterReads⟩
      | ok status =>
        obtain ⟨hrun, hdone⟩ := accomplished_apply ht cs dryRun ⟨hpolicy, hstatus⟩
        obtain ⟨seconds, hmetrics⟩ := hdone.metrics
        refine .inr ⟨_, seconds, hrun, hmetrics, ?_⟩
        rw [hdone.seen, hdone.changes, length_notifiers_onBench]
        rfl

/-- A review fails or is switched off, with nothing counted, or is counted and told. -/
theorem review_cases (t : Target) (cs : List Container) (notes : Annotations) (d : Desk (Bench σ)) :
    let c := onBench name b defaults ns
    let review := c.review t cs notes d
    (∃ e calls, review.1 = .error e ∧ Unreported d review.2 calls) ∨
      ((Effective.of (c.cascade notes) none).webhookEnabled = false ∧ review = (.ok ⟨cs, none⟩, d)) ∨
      (Effective.of (c.cascade notes) none).webhookEnabled = true ∧
        ∃ r o, review.1 = .ok r ∧ r.outcome = some o ∧ Recorded ns.length d.ledger.metrics o d review.2 := by
  intro c review
  unfold review
  by_cases ht : t.Supported
  case neg =>
    rw [review_of_not_supported ht]
    exact .inl ⟨_, _, rfl, .refl d⟩
  case pos =>
    cases hwebhook : (Effective.of (c.cascade notes) none).webhookEnabled with
    | false => exact .inr (.inl ⟨rfl, review_of_disabled ht hwebhook⟩)
    | true =>
      have hasked : Unreported d (d.after (c.backend.status t)) [.status t] := unreported_through _ _ d
      cases hstatus : (c.backend.status t d.world).1 with
      | error e =>
        rw [review_of_status_error ht hwebhook hstatus]
        exact .inl ⟨_, _, rfl, hasked⟩
      | ok status =>
        rw [review_of_status ht hwebhook hstatus]
        refine .inr (.inr ⟨rfl, _, _, rfl, rfl, ?_, ?_⟩)
        · rw [(reported_report _ _).metrics, hasked.ledger]
        · rw [(reported_report _ _).seen, hasked.seen, length_notifiers_onBench]
          rfl

/-- A call fails or is switched off, uncounted, or it returns an outcome and is accounted for. -/
theorem serve_cases (e : Errand) (d : Desk (Bench σ)) :
    let c := onBench name b defaults ns
    let call := c.serve e d
    (call.1.outcome? = none ∧ (call.1.IsError ∨ e.SwitchedOff c) ∧ Uncounted d call.2) ∨
      ((∃ o, call.1.outcome? = some o) ∧ ¬ (call.1.IsError ∨ e.SwitchedOff c) ∧
        Accounted ns.length [call.1] d call.2) := by
  intro c call
  cases e with
  | run t cs dryRun =>
    rcases apply_cases t cs dryRun d with ⟨e, calls, hrun, hquiet⟩ | ⟨o, seconds, hrun, hrecorded⟩
    · exact .inl ⟨congrArg Except.toOption hrun, .inl ⟨e, hrun⟩, hquiet.ledger, hquiet.seen⟩
    · have houtcome : call.1.outcome? = some o := congrArg Except.toOption hrun
      have htimed : call.1.isTimed = true := congrArg Except.isOk hrun
      have hruns : ∀ k, (d.ledger.metrics.observe seconds).runs k = d.ledger.metrics.runs k := by
        intro k
        cases k <;> rfl
      refine .inr ⟨⟨o, houtcome⟩, ?_, .of_recorded houtcome hruns rfl ?_ hrecorded⟩
      · rintro (⟨e, herror⟩ | hoff)
        · exact absurd (hrun.symm.trans herror) (by simp)
        · exact hoff
      · rw [htimed, if_pos rfl]
        rfl
  | review t cs notes =>
    rcases review_cases t cs notes d with
      ⟨e, calls, hreview, hquiet⟩ | ⟨hoff, hreview⟩ | ⟨hon, r, o, hreview, ho, hrecorded⟩
    · exact .inl ⟨congrArg (fun x => x.toOption.bind Review.outcome) hreview, .inl ⟨e, hreview⟩,
        hquiet.ledger, hquiet.seen⟩
    · have hcall : call = (.review (.ok ⟨cs, none⟩), d) := congrArg (Prod.map Reply.review id) hreview
      rw [hcall]
      exact .inl ⟨rfl, .inr hoff, rfl, rfl⟩
    · have houtcome : call.1.outcome? = some o :=
        (congrArg (fun x => x.toOption.bind Review.outcome) hreview).trans ho
      refine .inr ⟨⟨o, houtcome⟩, ?_, .of_recorded houtcome (fun k => rfl) rfl rfl hrecorded⟩
      rintro (⟨e, herror⟩ | hoff)
      · exact absurd (hreview.symm.trans herror) (by simp)
      · exact Bool.false_ne_true (Eq.trans (Eq.symm hoff) hon)

theorem accounted_serve (e : Errand) (d : Desk (Bench σ)) :
    let call := (onBench name b defaults ns).serve e d
    Accounted ns.length [call.1] d call.2 := by
  intro call
  rcases serve_cases e d with ⟨hnone, -, hquiet⟩ | ⟨-, -, haccounted⟩
  · exact .of_uncounted hquiet hnone
  · exact haccounted

/-- Any number of calls is accounted for, by induction on them. -/
theorem accounted_serveAll (es : List Errand) :
    ∀ d : Desk (Bench σ), let run := (onBench name b defaults ns).serveAll es d
      Accounted ns.length run.1 d run.2 := by
  induction es with
  | nil => exact fun d => .refl d
  | cons e es ih => exact fun d => (accounted_serve e d).trans (ih _)

end Cases

/-- **Reports lose nothing and invent nothing.** Whatever the backend answers and whichever notifiers fail, over any
number of calls the counts grow by the outcomes that were returned, by the changes of the successful ones and by the
runs that ended without an error, and every notifier is told, in turn, the outcomes that have changes. A call that fails
or is switched off, and no other, returns no outcome; it leaves the counts, the journal and what was told as they
are. -/
theorem serveAll_accounts (name : String) (b : Backend σ) (defaults : ProcessDefaults) (ns : List (Notifier σ))
    (es : List Errand) (d : Desk (Bench σ)) :
    let c := onBench name b defaults ns
    let run := c.serveAll es d
    Accounted ns.length run.1 d run.2 ∧
      (∀ i < ns.length, run.2.world.received i =
        d.world.received i ++ (outcomes run.1).filter fun o => o.changes ≠ []) ∧
      ∀ (e : Errand) (d' : Desk (Bench σ)),
        let call := c.serve e d'
        (call.1.outcome? = none ↔ call.1.IsError ∨ e.SwitchedOff c) ∧
          (call.1.outcome? = none → Uncounted d' call.2) := by
  intro c run
  have haccounted : Accounted ns.length run.1 d run.2 := accounted_serveAll es d
  refine ⟨haccounted, fun i hi => haccounted.received hi, fun e d' => ?_⟩
  rcases serve_cases e d' with ⟨hnone, hidle, hquiet⟩ | ⟨⟨o, hsome⟩, hbusy, -⟩
  · exact ⟨⟨fun _ => hidle, fun _ => hnone⟩, fun _ => hquiet⟩
  · have hreturned : (c.serve e d').1.outcome? ≠ none := by
      rw [hsome]
      exact Option.some_ne_none o
    exact ⟨⟨fun h => absurd h hreturned, fun h => absurd h hbusy⟩, fun h => absurd h hreturned⟩

/-- A run that writes, one with nothing to change, a dry review, a review that is switched off and a run for a target of
another kind. -/
def mixedErrands : List Errand :=
  let t : Target := ⟨"Deployment", "shop", "api"⟩
  [.run t [evenApp none] false, .run t [evenApp (some ⟨.cpu, 250, .decimal⟩)] false,
    .review t [evenApp none] (reviewedNotes [("rightsizer.io/dry-run", "true")]), .review t [evenApp none] Dict.empty,
    .run ⟨"Job", "shop", "api"⟩ [evenApp none] false]

/-- A notifier that always fails and one after it are told the same. -/
theorem serveAll_accounts_unreachable :
    let c := onBench "rightsizer" (steadyBackend (reviewedNotes []) (.ok ())) ProcessDefaults.empty
      [.silent (some "unreachable"), .journal]
    let run := c.serveAll mixedErrands (freshDesk [])
    (∀ k, run.2.ledger.metrics.runs k = [OutcomeKind.success, .success, .dryRun].count k) ∧
      run.2.ledger.metrics.changes = 2 ∧ run.2.ledger.metrics.durations.size = 2 ∧
      ∀ i < 2, (run.2.world.received i).map Outcome.kind = [.success, .dryRun] := by
  dsimp only
  obtain ⟨haccounted, hreceived, -⟩ := serveAll_accounts "rightsizer" (steadyBackend (reviewedNotes []) (.ok ()))
    ProcessDefaults.empty [.silent (some "unreachable"), .journal] mixedErrands (freshDesk [])
  refine ⟨fun k => ?runs, ?changes, ?timed, fun i hi => ?told⟩
  case runs =>
    rw [haccounted.runs]
    cases k <;> decide +kernel
  case changes =>
    rw [haccounted.changes]
    decide +kernel
  case timed =>
    rw [haccounted.timed]
    decide +kernel
  case told =>
    have hnone : (freshDesk []).world.received i = [] := rfl
    rw [hreceived i hi, hnone, List.nil_append]
    decide +kernel

end Controller

end Allotment
