import Allotment.Proofs.Controller.Effects

/-!
# Reviews and runs

A review makes the plan that a run makes, for a workload that is on its way to the store, and hands the containers back
instead of writing them.

* `Bench.writes` — what was written so far, and for which target;
* `Plan.verdict`, `Plan.admitted` — the outcome and the containers of the review of a plan; `review_of_status` — a
  review in these terms;
* `calls_review` — a review asks for the status at most, so that it never writes;
* `Review.Agrees` — a review and a run came to the same thing;
* `review_agrees_apply` — they do whenever both are told the same.
-/

namespace Allotment

variable {σ : Type}

/-! ### What was written -/

/-- What a call was to write, and for which target. -/
def Request.written? : Request → Option (Target × List Container)
  | .write t cs => some (t, cs)
  | _ => none

/-- What was written so far, the latest last. -/
def Bench.writes (b : Bench σ) : List (Target × List Container) :=
  b.calls.filterMap Request.written?

theorem Bench.writes_of_calls {b b' : Bench σ} {rs : List Request} (h : b'.calls = b.calls ++ rs) :
    b'.writes = b.writes ++ rs.filterMap Request.written? := by
  unfold writes
  rw [h, List.filterMap_append]

/-- A plan is all that is written for it, and it is written when it is called for. -/
theorem Accomplished.writes {c : Controller (Bench σ)} {t : Target} {p : Plan} {dry : Bool}
    {answer : Except String Unit} {o : Outcome} {d d' : Desk (Bench σ)} (h : Accomplished c t p dry answer o d d') :
    d'.world.writes = d.world.writes ++ if p.IsCalledFor dry then [(t, p.containers)] else [] := by
  have hcalls := h.calls
  rw [List.append_assoc] at hcalls
  rw [Bench.writes_of_calls hcalls]
  split <;> rfl

/-! ### What a review makes of a plan -/

namespace Plan

/-- The outcome of the review of a plan under a key. -/
def verdict (p : Plan) (key : String) (dry : Bool) : Outcome :=
  if dry then .dryRun key p.changes else .success key p.changes

/-- The containers of a review: those of the plan, or the ones that came in if it is dry. -/
def admitted (p : Plan) (cs : List Container) (dry : Bool) : List Container :=
  if dry then cs else p.containers

variable {p : Plan} {key : String} {dry : Bool} {answer : Except String Unit}

theorem key_verdict : (p.verdict key dry).key = key := by
  unfold verdict
  split <;> rfl

theorem changes_verdict : (p.verdict key dry).changes = p.changes := by
  unfold verdict
  split <;> rfl

/-- A review calls a plan dry even if there is nothing in it. This is all that sets it apart from a run. -/
theorem kind_verdict_ne_kind_fate_iff (hok : p.IsCalledFor dry → answer = .ok ()) :
    (p.verdict key dry).kind ≠ (p.fate key dry answer).kind ↔ dry = true ∧ p.changes = [] := by
  rcases p.fate_cases key dry answer with ⟨hnone, h⟩ | ⟨hsome, rfl, h⟩ | ⟨hcalled, -, h⟩ | ⟨hcalled, e, herror, h⟩ <;>
    rw [h]
  · cases dry <;> simp [verdict, Outcome.success, Outcome.dryRun, hnone]
  · simp [verdict, Outcome.dryRun, hsome]
  · simp [verdict, Outcome.success, hcalled.2]
  · exact absurd ((hok hcalled).symm.trans herror) (by simp)

end Plan

namespace Controller

section Review

variable {c : Controller σ} {t : Target} {cs : List Container} {notes : Annotations} {d : Desk σ}

theorem review_of_not_supported (ht : ¬ t.Supported) :
    c.review t cs notes d = (.error (.unsupportedKind t.kind), d) := by
  unfold review
  rw [if_pos (Target.isNone_ofName?_iff.2 ht)]

theorem review_of_disabled (ht : t.Supported) (h : (Effective.of (c.cascade notes) none).webhookEnabled = false) :
    c.review t cs notes d = (.ok ⟨cs, none⟩, d) := by
  unfold review
  rw [if_neg (fun h => Target.isNone_ofName?_iff.1 h ht)]
  simp only [h, Bool.not_false, if_true]

theorem review_of_status_error (ht : t.Supported) {e : String}
    (h : (Effective.of (c.cascade notes) none).webhookEnabled = true)
    (hstatus : (c.backend.status t d.world).1 = .error e) :
    c.review t cs notes d = (.error (.source "recommendations" t.key e), d.after (c.backend.status t)) := by
  unfold review
  rw [if_neg (fun h => Target.isNone_ofName?_iff.1 h ht)]
  simp only [h, Bool.not_true, Bool.false_eq_true, if_false, readOf_of_error hstatus]

/-- A review that is told the status reports its verdict, whether there are changes or not. -/
theorem review_of_status (ht : t.Supported) {status : Status}
    (h : (Effective.of (c.cascade notes) none).webhookEnabled = true)
    (hstatus : (c.backend.status t d.world).1 = .ok status) :
    let p := plan (c.cascade notes) status cs
    let dry := (Effective.of (c.cascade notes) none).dryRun
    c.review t cs notes d =
      (.ok ⟨p.admitted cs dry, some (p.verdict t.key dry)⟩,
        c.report (p.verdict t.key dry) (d.after (c.backend.status t))) := by
  intro p dry
  unfold review Plan.admitted Plan.verdict
  rw [if_neg (fun h => Target.isNone_ofName?_iff.1 h ht)]
  simp only [h, Bool.not_true, Bool.false_eq_true, if_false, readOf_of_ok hstatus]
  by_cases hdry : dry = true
  · rw [if_pos hdry, if_pos hdry, if_pos hdry]
  · rw [if_neg hdry, if_neg hdry, if_neg hdry]

end Review

section Bench

variable {name : String} {b : Backend σ} {defaults : ProcessDefaults} {ns : List (Notifier σ)} {t : Target}
variable {d : Desk (Bench σ)}

/-- A review asks for the status and for nothing else, whatever it is answered and whatever the notifiers do. -/
theorem calls_review (cs : List Container) (notes : Annotations) :
    let c := onBench name b defaults ns
    (c.review t cs notes d).2.world.calls = d.world.calls ++
      if t.Supported ∧ (Effective.of (c.cascade notes) none).webhookEnabled = true then [.status t] else [] := by
  intro c
  by_cases ht : t.Supported
  case neg => rw [review_of_not_supported ht, if_neg (fun h => ht h.1), List.append_nil]
  case pos =>
    cases hwebhook : (Effective.of (c.cascade notes) none).webhookEnabled with
    | false => rw [review_of_disabled ht hwebhook, if_neg (fun h => Bool.false_ne_true h.2), List.append_nil]
    | true =>
      have hasked : Unreported d (d.after (c.backend.status t)) [.status t] := unreported_through _ _ d
      rw [if_pos ⟨ht, rfl⟩]
      cases hstatus : (c.backend.status t d.world).1 with
      | error e =>
        rw [review_of_status_error ht hwebhook hstatus]
        exact hasked.calls
      | ok status =>
        rw [review_of_status ht hwebhook hstatus]
        exact (reported_report _ _).calls.trans hasked.calls

theorem writes_review (cs : List Container) (notes : Annotations) :
    ((onBench name b defaults ns).review t cs notes d).2.world.writes = d.world.writes := by
  rw [Bench.writes_of_calls (calls_review cs notes)]
  split <;> exact List.append_nil _

end Bench

end Controller

/-! ### Agreement -/

/-- A review and a run for a target came to the same thing, the run between two benches: their outcomes `v` and `o` say
the same, and the containers of the review are those that were written, or the ones that came in if nothing was. -/
structure Review.Agrees (r : Review) (t : Target) (cs : List Container) (dry : Bool) (v o : Outcome) (b b' : Bench σ) :
    Prop where
  outcome : r.outcome = some v
  key : v.key = o.key
  changes : v.changes = o.changes
  kind : v.kind ≠ o.kind ↔ dry = true ∧ o.changes = []
  /-- The one case in which they differ. -/
  dryNoop : dry = true → o.changes = [] → v.kind = .dryRun ∧ o.kind = .success
  kept : dry = true ∨ o.changes = [] → r.containers = cs ∧ b'.writes = b.writes
  written : dry = false → o.changes ≠ [] → b'.writes = b.writes ++ [(t, r.containers)]

/-- What a plan settles for its review and for its run, once the run is done. -/
theorem Accomplished.agrees {c : Controller (Bench σ)} {t : Target} {cascade : Cascade} {status : Status}
    {cs : List Container} {dry : Bool} {answer : Except String Unit} {d d' : Desk (Bench σ)} :
    let p := plan cascade status cs
    let o := p.fate t.key dry answer
    let v := p.verdict t.key dry
    (p.IsCalledFor dry → answer = .ok ()) → Accomplished c t p dry answer o d d' →
      Review.Agrees ⟨p.admitted cs dry, some v⟩ t cs dry v o d.world d'.world := by
  intro p o v hok h
  have hchanges : o.changes = p.changes := h.changes
  refine ⟨rfl, Plan.key_verdict.trans h.key.symm, Plan.changes_verdict.trans hchanges.symm, ?kind, ?dryNoop, ?kept,
    ?written⟩
  case kind =>
    rw [hchanges]
    exact Plan.kind_verdict_ne_kind_fate_iff hok
  case dryNoop =>
    rintro rfl hnone
    exact ⟨rfl, h.success.2 (.inl (hchanges.symm.trans hnone))⟩
  case kept =>
    intro hkept
    rw [hchanges] at hkept
    have hcalled : ¬ p.IsCalledFor dry := by
      rintro ⟨hsome, rfl⟩
      exact hkept.elim Bool.false_ne_true hsome
    refine ⟨?_, by rw [h.writes, if_neg hcalled, List.append_nil]⟩
    cases dry with
    | true => rfl
    | false => exact containers_plan_of_isNoop (p.isNoop_iff.2 (hkept.resolve_left Bool.false_ne_true))
  case written =>
    rintro rfl hsome
    rw [hchanges] at hsome
    rw [h.writes, if_pos ⟨hsome, rfl⟩]
    rfl

/-- **Reviews and runs agree.** A review never writes, whatever becomes of it. A run that finds the same policy in the
store, that is told the same status and whose write, if there is one, succeeds, comes to the same thing. -/
theorem Controller.review_agrees_apply (name : String) (b : Backend σ) (defaults : ProcessDefaults)
    (ns : List (Notifier σ)) (t : Target) (cs : List Container) (notes : Annotations) (d : Desk (Bench σ)) :
    let c := onBench name b defaults ns
    let workload := Effective.of ⟨notes, defaults⟩ none
    let review := c.review t cs notes d
    review.2.world.writes = d.world.writes ∧
      ∀ (status : Status) (d' : Desk (Bench σ)), t.Supported → workload.webhookEnabled = true →
        (c.backend.status t d.world).1 = .ok status → c.Answered t d'.world notes status →
        let p := plan ⟨notes, defaults⟩ status cs
        let run := c.apply t cs false d'
        (p.IsCalledFor workload.dryRun → (c.backend.write t p.containers (c.afterReads t d').world).1 = .ok ()) →
          ∃ r v o, review.1 = .ok r ∧ run.1 = .ok o ∧ r.Agrees t cs workload.dryRun v o d'.world run.2.world := by
  intro c workload review
  refine ⟨writes_review cs notes, fun status d' ht hwebhook hstatus h => ?_⟩
  intro p run hok
  obtain ⟨hrun, hdone⟩ := accomplished_apply ht cs false h
  rw [Bool.false_or] at hrun hdone
  have hreview : c.review t cs notes d = _ := review_of_status ht hwebhook hstatus
  exact ⟨_, _, _, congrArg Prod.fst hreview, hrun, hdone.agrees hok⟩

/-- The notes of a workload whose review is switched on, with more of them. -/
def reviewedNotes (more : List (String × String)) : Annotations :=
  Dict.ofPairs (("rightsizer.io/webhook-enabled", "true") :: more)

/-- A run tells the outcome of a review, and what it wrote the containers; and the one case in which the outcomes
differ. -/
theorem Controller.review_agrees_apply_quarter :
    let t : Target := ⟨"Deployment", "shop", "api"⟩
    let c (more : List (String × String)) := onBench "rightsizer" (steadyBackend (reviewedNotes more) (.ok ()))
      ProcessDefaults.empty [.journal]
    let review (more : List (String × String)) (cs : List Container) :=
      (c more).review t cs (reviewedNotes more) (freshDesk [])
    let run (more : List (String × String)) (cs : List Container) := (c more).apply t cs false (freshDesk [])
    let dry := [("rightsizer.io/dry-run", "true")]
    let quarter := evenApp (some ⟨.cpu, 250, .decimal⟩)
    (∃ r v, (review [] [evenApp none]).1 = .ok r ∧ r.outcome = some v ∧ v.kind = .success ∧ r.containers = [quarter] ∧
        (run [] [evenApp none]).2.world.writes = [(t, [quarter])]) ∧
      ∃ r v, (review dry [quarter]).1 = .ok r ∧ r.outcome = some v ∧ v.kind = .dryRun ∧ r.containers = [quarter] ∧
        (run dry [quarter]).1 = .ok (.success "shop/api" []) ∧ (run dry [quarter]).2.world.writes = [] := by
  intro t c review run dry quarter
  have ht : t.Supported := by decide
  have hagrees : ∀ more cs, (Effective.of ⟨reviewedNotes more, ProcessDefaults.empty⟩ none).webhookEnabled = true →
      ∃ r v o, (review more cs).1 = .ok r ∧ (run more cs).1 = .ok o ∧
        r.Agrees t cs (Effective.of ⟨reviewedNotes more, ProcessDefaults.empty⟩ none).dryRun v o
          (freshDesk []).world (run more cs).2.world := by
    intro more cs hwebhook
    exact (review_agrees_apply "rightsizer" (steadyBackend (reviewedNotes more) (.ok ())) ProcessDefaults.empty
      [.journal] t cs (reviewedNotes more) (freshDesk [])).2 _ (freshDesk []) ht hwebhook rfl ⟨rfl, rfl⟩ (fun _ => rfl)
  refine ⟨?patched, ?dry⟩
  case patched =>
    obtain ⟨r, v, o, hreview, hrun, h⟩ := hagrees [] [evenApp none] (by decide +kernel)
    have hloud : (Effective.of ⟨reviewedNotes [], ProcessDefaults.empty⟩ none).dryRun = false := by decide +kernel
    have hended : (run [] [evenApp none]).1 = .ok (.success "shop/api"
        [⟨"app", ⟨.cpu, .request⟩, none, ⟨.cpu, 250, .decimal⟩⟩,
          ⟨"app", ⟨.cpu, .limit⟩, none, ⟨.cpu, 250, .decimal⟩⟩]) := by decide +kernel
    have hwrites : (run [] [evenApp none]).2.world.writes = [(t, [quarter])] := by decide +kernel
    obtain rfl := Except.ok.inj (hended.symm.trans hrun)
    rw [hloud] at h
    have hkind : v.kind = .success := Decidable.not_not.1 fun hne => Bool.false_ne_true (h.kind.1 hne).1
    have hcontainers : [(t, [quarter])] = [] ++ [(t, r.containers)] :=
      hwrites.symm.trans (h.written rfl (List.cons_ne_nil _ _))
    exact ⟨r, v, hreview, h.outcome, hkind, by simpa using hcontainers.symm, hwrites⟩
  case dry =>
    obtain ⟨r, v, o, hreview, hrun, h⟩ := hagrees dry [quarter] (by decide +kernel)
    have hdry : (Effective.of ⟨reviewedNotes dry, ProcessDefaults.empty⟩ none).dryRun = true := by decide +kernel
    have hended : (run dry [quarter]).1 = .ok (.success "shop/api" []) := by decide +kernel
    obtain rfl := Except.ok.inj (hended.symm.trans hrun)
    obtain ⟨hcontainers, hwrites⟩ := h.kept (.inl hdry)
    exact ⟨r, v, hreview, h.outcome, (h.dryNoop hdry rfl).1, hcontainers, hended, hwrites⟩

end Allotment
