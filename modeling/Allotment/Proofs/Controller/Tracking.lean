import Allotment.Controller.Schedule
import Allotment.Controller.Store
import Allotment.Proofs.Timetable.Board

/-!
# Scheduling by policy

* `Effective.read_cron` — the expression of a policy always reads, whatever the layers hold, and has no blanks at its
  ends;
* `Running.entries_settle`, `entries_advance`, `entries_change` — workers leave the entries of a timetable alone;
* `Turn` — a call to schedule a target, at a desk where anything may have changed since the last call;
* `Follows`, `Tracks` — an entry is as a policy says; a call made it so, and answered whether it was not before;
* `Office.turns_track_policies` — so does every call of every sequence of turns.
-/

namespace Allotment

/-! ### Expressions of policies -/

namespace Effective

theorem eq_of_readCron {text cron : String} (h : readCron text = .ok cron) :
    cron = Text.trimmed text ∧ ∃ s, Schedule.read text = .ok s := by
  unfold readCron at h
  cases hread : Schedule.read text with
  | error e =>
    rw [hread] at h
    cases h
  | ok s =>
    rw [hread] at h
    exact ⟨(Except.ok.inj h).symm, s, rfl⟩

/-- The expression of a policy was read from a layer, or is the one of last resort. -/
theorem cron_of_cases (c : Cascade) (container : Option String) :
    (∃ text, readCron text = .ok (of c container).cron) ∨ (of c container).cron = Fallback.cron := by
  unfold of
  cases hv : c.value? readCron Setting.cron.name container with
  | none => exact .inr rfl
  | some cron => exact .inl (Cascade.exists_of_value? hv)

theorem read_cron (c : Cascade) (container : Option String) : ∃ s, Schedule.read (of c container).cron = .ok s := by
  rcases cron_of_cases c container with ⟨text, htext⟩ | hfallback
  · obtain ⟨hcron, s, hread⟩ := eq_of_readCron htext
    exact ⟨s, by rw [hcron, Schedule.read_trimmed, hread]⟩
  · rw [hfallback]
    exact ⟨_, rfl⟩

theorem trimmed_cron (c : Cascade) (container : Option String) :
    Text.trimmed (of c container).cron = (of c container).cron := by
  rcases cron_of_cases c container with ⟨text, htext⟩ | hfallback
  · rw [(eq_of_readCron htext).1, Text.trimmed_trimmed]
  · rw [hfallback]
    rfl

end Effective

/-! ### Workers and entries -/

namespace Timetable

theorem entries_move? {J : Type} {t t' : Timetable J} {id : Nat} {m : Move} {hs : List (Happening J)}
    (h : t.move? id m = some (t', hs)) : t'.entries = t.entries := by
  obtain ⟨w, -, fate, -, rfl⟩ := move?_eq_some h
  rfl

end Timetable

namespace Running

variable {J W : Type}

theorem entries_foldl {ends : Running J W → Nat → Running J W}
    (h : ∀ r i, (ends r i).table.entries = r.table.entries) (done : List Nat) (r : Running J W) :
    (done.foldl ends r).table.entries = r.table.entries := by
  induction done generalizing r with
  | nil => rfl
  | cons i done ih => exact (ih _).trans (h r i)

theorem entries_move (h : Host J W) (r : Running J W) (id : Nat) (m : Timetable.Move) :
    (r.move h id m).table.entries = r.table.entries := by
  unfold move
  cases hm : r.table.move? id m with
  | none => rfl
  | some moved =>
    refine (entries_foldl (fun r i => ?_) _ _).trans (Timetable.entries_move? hm)
    cases hends : r.table.move? i .finish with
    | none => rfl
    | some ended => exact Timetable.entries_move? hends

theorem entries_settleFor (h : Host J W) (fuel : Nat) (r : Running J W) :
    (settleFor h fuel r).table.entries = r.table.entries := by
  induction fuel generalizing r with
  | zero => rfl
  | succ fuel ih =>
    unfold settleFor
    cases r.nextMove? with
    | none => rfl
    | some next => exact (ih _).trans (entries_move h r next.1 next.2)

theorem entries_settle (h : Host J W) (r : Running J W) : (r.settle h).table.entries = r.table.entries :=
  entries_settleFor h _ r

theorem entries_wakeFor (h : Host J W) (limit : Instant) (fuel : Nat) (r : Running J W) :
    (wakeFor h limit fuel r).table.entries = r.table.entries := by
  induction fuel generalizing r with
  | zero => rfl
  | succ fuel ih =>
    unfold wakeFor
    cases r.nextWake? limit with
    | none => rfl
    | some next => exact (ih _).trans ((entries_settle h _).trans (entries_move h _ _ _))

theorem entries_advance (h : Host J W) (r : Running J W) (s : Span) :
    (r.advance h s).table.entries = r.table.entries :=
  (entries_wakeFor h _ _ _).trans (entries_settle h r)

theorem entries_change (h : Host J W) (r : Running J W) (t : Timetable J) (hs : List (Happening J)) :
    (r.change h t hs).table.entries = t.entries :=
  entries_settle h _

end Running

/-! ### One call -/

/-- The entry of a key has the expression and the jitter of a policy. -/
def Follows (entries : Dict (Entry Target)) (key : String) (e : Effective) : Prop :=
  ∃ d ∈ entries.get? key, d.cron = e.cron ∧ d.maxJitter = e.maxJitter

instance (entries : Dict (Entry Target)) (key : String) (e : Effective) : Decidable (Follows entries key e) :=
  inferInstanceAs (Decidable (∃ d ∈ entries.get? key, _))

/-- A call made the entry of a key follow a policy, left the other keys alone, and answered whether it had anything to
do. -/
structure Tracks (before after : Dict (Entry Target)) (key : String) (e : Effective)
    (answer : Except RunError Bool) : Prop where
  answer : answer = .ok (decide (¬Follows before key e))
  follows : Follows after key e
  others : ∀ k, k ≠ key → after.get? k = before.get? k

namespace Timetable

/-- A key that is synced with a policy follows it afterwards. -/
theorem sync_tracks {e : Effective} {s : Schedule} (hread : Schedule.read e.cron = .ok s)
    (htrimmed : Text.trimmed e.cron = e.cron) (t : Timetable Target) (key : String) (job : Target) :
    ∃ t' hs, t.sync key e.cron e.maxJitter job = .ok (t', hs, decide (¬Follows t.entries key e)) ∧
      Follows t'.entries key e ∧ ∀ k, k ≠ key → t'.entries.get? k = t.entries.get? k := by
  have hsync : t.InSync key e.cron e.maxJitter ↔ Follows t.entries key e := by
    unfold InSync Follows
    rw [htrimmed]
  by_cases hf : Follows t.entries key e
  · refine ⟨t, [], ?_, hf, fun _ _ => rfl⟩
    rw [sync, if_pos (hsync.2 hf), decide_eq_false (not_not_intro hf)]
  · refine ⟨t.enter key e.cron s e.maxJitter job, [.registered key e.cron e.maxJitter], ?_, ?_, fun k hk => ?_⟩
    · rw [sync, if_neg (mt hsync.1 hf), schedule, hread, decide_eq_true hf]
      rfl
    · have hentry := get?_enter t key e.cron s e.maxJitter job key
      rw [if_pos rfl] at hentry
      exact ⟨_, hentry, htrimmed, rfl⟩
    · rw [get?_enter, if_neg hk]

end Timetable

namespace Office

variable {σ : Type}

/-- The policy of a supported target, once its notes are read. -/
theorem targetPolicy_of_ok {c : Controller σ} {t : Target} {d : Desk σ} {notes : Annotations}
    (hkind : (WorkloadKind.ofName? t.kind).isSome) (hread : (c.backend.policy t d.world).1 = .ok notes) :
    (c.targetPolicy t d).1 = .ok (Effective.of (c.cascade notes) none) := by
  have hsupported : ¬(WorkloadKind.ofName? t.kind).isNone = true := by simpa [Option.isSome_iff_ne_none] using hkind
  simp only [Controller.targetPolicy, if_neg hsupported, Controller.readOf, Controller.ask, hread]
  rfl

/-- A policy that could not be read is told, and nothing is scheduled. -/
theorem schedule_of_error {c : Controller σ} {o : Office σ} {t : Target} {e : RunError}
    (h : (c.targetPolicy t o.world).1 = .error e) :
    (schedule c o t).2 = .error e ∧ (schedule c o t).1.table = o.table := by
  unfold schedule
  cases hp : c.targetPolicy t o.world with
  | mk answer d =>
    rw [hp] at h
    obtain rfl : answer = .error e := h
    exact ⟨rfl, rfl⟩

/-- Only what is looked for in the world can be missing from a policy. -/
theorem ne_invalidCron_of_targetPolicy {c : Controller σ} {t : Target} {d : Desk σ} {e : RunError}
    (h : (c.targetPolicy t d).1 = .error e) (cron : ScheduleError) : e ≠ .invalidCron cron := by
  unfold Controller.targetPolicy at h
  split at h
  · cases h
    simp
  · simp only [Controller.readOf, Controller.ask] at h
    cases hp : (c.backend.policy t d.world).1 with
    | ok notes =>
      rw [hp] at h
      cases h
    | error cause =>
      rw [hp] at h
      cases h
      simp

/-- Every policy that was read is one of a cascade. -/
theorem exists_of_targetPolicy {c : Controller σ} {t : Target} {d : Desk σ} {e : Effective}
    (h : (c.targetPolicy t d).1 = .ok e) : ∃ notes, e = Effective.of (c.cascade notes) none := by
  unfold Controller.targetPolicy at h
  split at h
  · cases h
  · simp only [Controller.readOf, Controller.ask] at h
    cases hp : (c.backend.policy t d.world).1 with
    | error cause =>
      rw [hp] at h
      cases h
    | ok notes =>
      rw [hp] at h
      exact ⟨notes, (Except.ok.inj h).symm⟩

/-- A call follows the policy that it reads. -/
theorem tracks_schedule {c : Controller σ} {o : Office σ} {t : Target} {e : Effective}
    (h : (c.targetPolicy t o.world).1 = .ok e) :
    Tracks o.table.entries (schedule c o t).1.table.entries t.key e (schedule c o t).2 := by
  obtain ⟨notes, rfl⟩ := exists_of_targetPolicy h
  obtain ⟨s, hread⟩ := Effective.read_cron (c.cascade notes) none
  obtain ⟨table, hs, hsync, hfollows, hothers⟩ :=
    Timetable.sync_tracks hread (Effective.trimmed_cron (c.cascade notes) none) o.table t.key t
  cases hp : c.targetPolicy t o.world with
  | mk answer d =>
    rw [hp] at h
    obtain rfl : answer = .ok _ := h
    have hschedule : schedule c o t =
        (tellGauge (Running.change (host c) { o with world := d } table hs),
          .ok (decide (¬Follows o.table.entries t.key (Effective.of (c.cascade notes) none)))) := by
      simp only [schedule, hp, hsync]
    have hentries : (schedule c o t).1.table.entries = table.entries := by
      rw [hschedule]
      exact Running.entries_change (host c) _ _ _
    rw [hentries]
    exact ⟨by rw [hschedule], hfollows, hothers⟩

/-- A call never refuses the expression of a policy. -/
theorem schedule_ne_invalidCron (c : Controller σ) (o : Office σ) (t : Target) (cron : ScheduleError) :
    (schedule c o t).2 ≠ .error (.invalidCron cron) := by
  cases hp : (c.targetPolicy t o.world).1 with
  | error e =>
    rw [(schedule_of_error hp).1]
    intro h
    exact ne_invalidCron_of_targetPolicy hp cron (Except.error.inj h)
  | ok e =>
    rw [(tracks_schedule hp).answer]
    simp

end Office

/-! ### Sequences of calls -/

/-- A call to schedule a target by the policy that a controller finds at a desk, some time after the call before it. What
is found at the desk may be anything, and so the notes of every target may have changed in the meantime. -/
structure Turn (σ : Type) where
  controller : Controller σ
  desk : Desk σ
  waited : Span
  target : Target

namespace Turn

variable {σ : Type}

/-- The office as a call finds it, after the time until then has passed. -/
def find (u : Turn σ) (o : Office σ) : Office σ :=
  { Office.advance u.controller o u.waited with world := u.desk }

/-- Makes the call. -/
def take (u : Turn σ) (o : Office σ) : Office σ × Except RunError Bool :=
  Office.schedule u.controller (u.find o) u.target

theorem entries_find (u : Turn σ) (o : Office σ) : (u.find o).table.entries = o.table.entries :=
  Running.entries_advance _ o u.waited

end Turn

namespace Office

variable {σ : Type}

/-- One turn after the other. -/
def turns (o : Office σ) (us : List (Turn σ)) : Office σ :=
  us.foldl (fun o u => (u.take o).1) o

theorem turns_append_singleton (o : Office σ) (us : List (Turn σ)) (u : Turn σ) :
    o.turns (us ++ [u]) = (u.take (o.turns us)).1 := by
  simp [turns]

/-- The expression of a policy always reads. So a call never refuses it, and whatever calls went before, a call that reads
a policy makes its key follow the policy. -/
theorem turns_track_policies :
    (∀ (c : Cascade) (container : Option String), ∃ s, Schedule.read (Effective.of c container).cron = .ok s) ∧
      ∀ (o : Office σ) (us : List (Turn σ)) (u : Turn σ),
        (∀ e, (u.take (o.turns us)).2 ≠ .error (.invalidCron e)) ∧
          ∀ notes, (WorkloadKind.ofName? u.target.kind).isSome →
            (u.controller.backend.policy u.target u.desk.world).1 = .ok notes →
              Tracks (o.turns us).table.entries (o.turns (us ++ [u])).table.entries u.target.key
                (Effective.of (u.controller.cascade notes) none) (u.take (o.turns us)).2 := by
  refine ⟨Effective.read_cron, fun o us u => ⟨schedule_ne_invalidCron _ _ _, fun notes hkind hread => ?_⟩⟩
  rw [turns_append_singleton, ← u.entries_find]
  exact tracks_schedule (targetPolicy_of_ok hkind hread)

/-- The notes of a workload with a cron expression. -/
def timedNotes (cron : String) : Annotations := Dict.ofPairs [("rightsizer.io/cron", cron)]

/-- A call for this workload, ten minutes after the last one. -/
def timedTurn (cron : String) : Turn Inventory :=
  let t : Target := ⟨"Deployment", "east", "api"⟩
  ⟨⟨"rightsizer", Inventory.backend, ProcessDefaults.empty, []⟩,
    ⟨.ofList [⟨t, timedNotes cron, [], none, []⟩], Ledger.empty⟩, Span.ofSeconds 600, t⟩

/-- Blanks around an expression do not make it another one. -/
theorem turns_track_policies_respelled :
    let start : Office Inventory := Running.start ⟨0⟩ (Draw.ofNat 7) (timedTurn "").desk
    let once := start.turns [timedTurn "@every 5m"]
    ((timedTurn "@every 5m").take start).2 = .ok true ∧ ((timedTurn " @every 5m ").take once).2 = .ok false := by
  intro start once
  have hfirst := (turns_track_policies.2 start [] (timedTurn "@every 5m")).2 (timedNotes "@every 5m") rfl rfl
  have hsecond := (turns_track_policies.2 start [timedTurn "@every 5m"] (timedTurn " @every 5m ")).2
    (timedNotes " @every 5m ") rfl rfl
  have hcron : (Effective.of ⟨timedNotes " @every 5m ", ProcessDefaults.empty⟩ none).cron =
      (Effective.of ⟨timedNotes "@every 5m", ProcessDefaults.empty⟩ none).cron := by decide +kernel
  refine ⟨hfirst.answer.trans rfl, hsecond.answer.trans ?_⟩
  obtain ⟨d, hd, hdcron, hdjitter⟩ := hfirst.follows
  have hfollows : Follows once.table.entries "east/api"
      (Effective.of ⟨timedNotes " @every 5m ", ProcessDefaults.empty⟩ none) :=
    ⟨d, hd, hdcron.trans hcron.symm, hdjitter⟩
  exact congrArg Except.ok (decide_eq_false (not_not_intro hfollows))

end Office

end Allotment
