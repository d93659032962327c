import Allotment.Proofs.Timetable.Caller

/-!
# Timers of entries that are gone

An entry that is replaced or removed leaves its timer behind. The timer is told to stop, and wherever it stands, it begins
no run any more. A run that it had begun goes on, under its run lock, to its end.

* `Worker.Tends`, `Manned t` — the worker that an entry names is the timer of that entry alone, and goes on;
* `Retires t key a` — an action that replaces or removes the entry of a key;
* `Dismissed id t t'` — between two timetables a worker was told to stop, and is the same otherwise;
* `Retired t id` — a name whose workers were told to stop, and that no entry names; `Retired.run` keeps it so;
* `Finishes` — how far a run that had begun has come; `Finishes.run` follows it to its end;
* `cancelled_timer_halts` — hence nothing is begun after the end of an entry, and what had begun is not cut off.
-/

namespace Allotment

/-- A worker is the timer of an entry, and nobody told it to stop. -/
structure Worker.Tends {J : Type} (w : Worker J) (key : String) (e : Entry J) : Prop where
  key : w.key = key
  job : w.job = e.job
  lock : w.lock = e.lock
  role : ∃ s, w.role = .timer s e.maxJitter
  cancelled : w.cancelled = false

/-- A timer stays one in every phase. -/
theorem Worker.Tends.go {J : Type} {w : Worker J} {key : String} {e : Entry J} (h : w.Tends key e) (p : Phase) :
    Worker.Tends { w with phase := p } key e :=
  ⟨h.key, h.job, h.lock, h.role, h.cancelled⟩

namespace Timetable

variable {J : Type} {t t' : Timetable J} {v w : Worker J} {key : String} {e : Entry J} {id : Nat} {job : J} {lock : Nat}
variable {a : Action J} {hs hs' : List (Happening J)}

/-! ### Timers of entries -/

theorem get?_enter_cases {k cron : String} {s : Schedule} {maxJitter : Span}
    (he : (t.enter k cron s maxJitter job).entries.get? key = some e) :
    (key = k ∧ e = ⟨Text.trimmed cron, maxJitter, job, t.lockFor k, t.fresh + 1⟩) ∨
      (key ≠ k ∧ t.entries.get? key = some e) := by
  rw [get?_enter] at he
  split at he
  · next hk => exact .inl ⟨hk, (Option.some.inj he).symm⟩
  · next hk => exact .inr ⟨hk, he⟩

/-- A worker that was let in with an entry. -/
theorem eq_of_mem_enter (hg : Guarded t) {cron : String} {s : Schedule} {maxJitter : Span}
    (hw : w ∈ (t.enter key cron s maxJitter job).workers) (hid : w.id = t.fresh + 1) :
    w = ⟨t.fresh + 1, key, job, t.lockFor key, .timer s maxJitter, .arming, false⟩ := by
  have hold : ∀ u : Timetable J, Guarded u → u.fresh = t.fresh → w ∉ u.workers := by
    intro u hu hfresh hmem
    have := (hu.workers w hmem).1
    omega
  unfold enter at hw
  unfold lockFor
  cases he : t.entries.get? key with
  | none =>
    rw [he] at hw
    rcases List.mem_append.1 hw with hw | hw
    · exact absurd hw (hold t hg rfl)
    · exact List.mem_singleton.1 hw
  | some e =>
    rw [he] at hw
    rcases List.mem_append.1 hw with hw | hw
    · exact absurd hw (hold _ (hg.cancel e.timer) rfl)
    · exact List.mem_singleton.1 hw

/-- The worker that an entry names is its timer, and the timer of no other entry. -/
structure Manned (t : Timetable J) : Prop where
  known : ∀ key e, t.entries.get? key = some e → e.timer < t.fresh
  own : ∀ key e, t.entries.get? key = some e → ∀ key' e', t.entries.get? key' = some e' → e.timer = e'.timer → key = key'
  tends : ∀ key e, t.entries.get? key = some e → ∀ w ∈ t.workers, w.id = e.timer → w.Tends key e

namespace Manned

theorem empty : Manned (empty : Timetable J) := ⟨by simp [Timetable.empty], by simp [Timetable.empty], by simp [Timetable.empty]⟩

/-- Entries that were there before, whose timers were left alone. -/
theorem keep (h : Manned t) (hfresh : t.fresh ≤ t'.fresh)
    (hentries : ∀ key e, t'.entries.get? key = some e → t.entries.get? key = some e ∧ Apart e.timer t t') : Manned t' := by
  refine ⟨fun k e he => ?known, fun k e he k' e' he' => ?own, fun k e he w hw hid => ?tends⟩
  case known => exact Nat.lt_of_lt_of_le (h.known k e (hentries k e he).1) hfresh
  case own => exact h.own k e (hentries k e he).1 k' e' (hentries k' e' he').1
  case tends =>
    obtain ⟨hold, hapart⟩ := hentries k e he
    exact h.tends k e hold w ((hapart w hid).1 hw) hid

theorem enter (hg : Guarded t) (h : Manned t) (k cron : String) (s : Schedule) (maxJitter : Span) (job : J) :
    Manned (t.enter k cron s maxJitter job) := by
  have hfresh := fresh_enter t k cron s maxJitter job
  have hapart : ∀ k' e, k' ≠ k → t.entries.get? k' = some e → Apart e.timer t (t.enter k cron s maxJitter job) := by
    intro k' e hk he
    have := h.known k' e he
    refine apart_enter t k cron s maxJitter job (by omega) fun d hd heq => hk ?_
    exact h.own k' e he k d hd heq.symm
  refine ⟨fun k₁ e₁ h₁ => ?known, fun k₁ e₁ h₁ k₂ e₂ h₂ heq => ?own, fun k₁ e₁ h₁ w hw hid => ?tends⟩
  case known =>
    rcases get?_enter_cases h₁ with ⟨-, rfl⟩ | ⟨-, hold₁⟩
    · exact hfresh ▸ Nat.lt_succ_self _
    · exact hfresh ▸ Nat.lt_add_right 2 (h.known k₁ e₁ hold₁)
  case own =>
    rcases get?_enter_cases h₁ with ⟨rfl, rfl⟩ | ⟨-, hold₁⟩
    · rcases get?_enter_cases h₂ with ⟨rfl, -⟩ | ⟨-, hold₂⟩
      · rfl
      · exact absurd heq.symm (Nat.ne_of_lt (Nat.lt_succ_of_lt (h.known k₂ e₂ hold₂)))
    · rcases get?_enter_cases h₂ with ⟨rfl, rfl⟩ | ⟨-, hold₂⟩
      · exact absurd heq (Nat.ne_of_lt (Nat.lt_succ_of_lt (h.known k₁ e₁ hold₁)))
      · exact h.own k₁ e₁ hold₁ k₂ e₂ hold₂ heq
  case tends =>
    rcases get?_enter_cases h₁ with ⟨rfl, rfl⟩ | ⟨hk, hold₁⟩
    · rw [eq_of_mem_enter hg hw hid]
      exact ⟨rfl, rfl, rfl, ⟨s, rfl⟩, rfl⟩
    · exact h.tends k₁ e₁ hold₁ w ((hapart k₁ e₁ hk hold₁ w hid).1 hw) hid

theorem unschedule (h : Manned t) (k : String) : Manned (t.unschedule k).1 := by
  refine h.keep (Nat.le_of_eq (fresh_unschedule t k).symm) fun k' e he => ?_
  rw [get?_unschedule] at he
  obtain ⟨hk', he⟩ := Option.ite_none_left_eq_some.1 he
  exact ⟨he, apart_unschedule t k fun d hd heq => hk' (h.own k' e he k d hd heq.symm)⟩

theorem invoke (h : Manned t) (k : String) : Manned (t.invoke k).1 := by
  refine h.keep (fresh_le_invoke t k) fun k' e he => ?_
  rw [entries_invoke] at he
  exact ⟨he, apart_invoke k (h.known k' e he)⟩

theorem move (hg : Guarded t) (h : Manned t) {i : Nat} {m : Move} (hm : t.move? i m = some (t', hs)) : Manned t' := by
  obtain ⟨v, hv, fate, -, rfl⟩ := move?_eq_some hm
  refine ⟨h.known, h.own, fun k e he w hw hid => ?_⟩
  rcases mem_settleFate hg.names hv hw with ⟨hw, -⟩ | ⟨p, -, rfl⟩
  · exact h.tends k e he w hw hid
  · exact (h.tends k e he v hv hid).go p

theorem step (hg : Guarded t) (h : Manned t) (hs : Step t t') : Manned t' := by
  cases hs with
  | stays => exact h
  | enters k cron s maxJitter job => exact h.enter hg k cron s maxJitter job
  | removes k => exact h.unschedule k
  | hires k => exact h.invoke k
  | stops => exact h.keep (Nat.le_of_eq (fresh_foldl_cancel _ t).symm) fun _ _ he => by cases he
  | moves hm => exact h.move hg hm

theorem run (as : List (Action J)) : ∀ {t : Timetable J}, Guarded t → Manned t → Manned (t.run as).1 := by
  induction as with
  | nil => exact fun _ h => h
  | cons a as ih =>
    intro t hg h
    have hstep := step_act t a
    exact ih (hg.step hstep) (h.step hg hstep)

end Manned

/-! ### The end of an entry -/

/-- An action that replaces or removes the entry of a key. -/
def Retires (t : Timetable J) (key : String) : Action J → Prop
  | .schedule k cron _ _ => k = key ∧ ∃ s, Schedule.read cron = .ok s
  | .sync k cron maxJitter _ => k = key ∧ ¬ t.InSync key cron maxJitter ∧ ∃ s, Schedule.read cron = .ok s
  | .unschedule k => k = key
  | .shutdown => True
  | .invoke _ | .move _ _ => False

/-- The worker of a name was told to stop, and is the same otherwise. -/
def Dismissed (id : Nat) (t t' : Timetable J) : Prop :=
  ∀ v : Worker J, v.id = id → (v ∈ t'.workers ↔ ∃ w ∈ t.workers, v = { w with cancelled := true })

theorem Dismissed.apart {t'' : Timetable J} (h : Dismissed id t t') (h' : Apart id t' t'') : Dismissed id t t'' :=
  fun v hv => (h' v hv).trans (h v hv)

/-- All workers of some names were told to stop. -/
theorem dismissed_map {p : Nat → Prop} [DecidablePred p] (hid : p id)
    (h : t'.workers = t.workers.map fun w => if p w.id then { w with cancelled := true } else w) : Dismissed id t t' := by
  intro v hv
  rw [h, List.mem_map]
  constructor
  · rintro ⟨w, hw, rfl⟩
    refine ⟨w, hw, ?_⟩
    by_cases hp : p w.id
    · rw [if_pos hp]
    · rw [if_neg hp] at hv
      exact absurd (hv ▸ hid) hp
  · rintro ⟨w, hw, rfl⟩
    exact ⟨w, hw, if_pos (hv ▸ hid)⟩

theorem dismissed_cancel (t : Timetable J) (id : Nat) : Dismissed id t (t.cancel id) :=
  dismissed_map (p := (· = id)) rfl rfl

theorem workers_foldl_cancel (es : List (Entry J)) (t : Timetable J) :
    (es.foldl (fun t e => t.cancel e.timer) t).workers =
      t.workers.map fun w => if w.id ∈ es.map Entry.timer then { w with cancelled := true } else w := by
  induction es generalizing t with
  | nil => simp
  | cons e es ih =>
    rw [List.foldl_cons, ih, cancel, List.map_map]
    refine List.map_congr_left fun w _ => ?_
    by_cases hw : w.id = e.timer
    · simp [hw]
    · simp [hw]

theorem dismissed_enter (hm : Manned t) (he : t.entries.get? key = some e) (cron : String) (s : Schedule)
    (maxJitter : Span) (job : J) : Dismissed e.timer t (t.enter key cron s maxJitter job) := by
  have hnew : t.fresh + 1 ≠ e.timer := Nat.ne_of_gt (Nat.lt_succ_of_lt (hm.known key e he))
  unfold enter
  rw [he]
  exact (dismissed_cancel t e.timer).apart (apart_hire (t.cancel e.timer) hnew _ _ _)

theorem dismissed_unschedule (he : t.entries.get? key = some e) : Dismissed e.timer t (t.unschedule key).1 := by
  unfold unschedule
  rw [he]
  exact dismissed_cancel t e.timer

theorem dismissed_shutdown (he : t.entries.get? key = some e) : Dismissed e.timer t t.shutdown := by
  have hmem : e.timer ∈ t.entries.values.map Entry.timer := List.mem_map_of_mem (Dict.mem_values_iff.2 ⟨key, he⟩)
  exact dismissed_map (p := (· ∈ t.entries.values.map Entry.timer)) hmem (workers_foldl_cancel t.entries.values t)

/-- What an action does that retires an entry. -/
theorem retires_cases (ha : Retires t key a) :
    (∀ id, Unseen (t.act a).2 id) ∧
      ((∃ cron s maxJitter job, (t.act a).1 = t.enter key cron s maxJitter job) ∨
        (t.act a).1 = (t.unschedule key).1 ∨ (t.act a).1 = t.shutdown) := by
  cases a with
  | schedule k cron maxJitter job =>
    obtain ⟨rfl, s, hs⟩ := ha
    simp only [act, schedule, hs]
    exact ⟨fun _ => ⟨rfl, rfl⟩, .inl ⟨cron, s, maxJitter, job, rfl⟩⟩
  | sync k cron maxJitter job =>
    obtain ⟨rfl, hsync, s, hs⟩ := ha
    simp only [act, sync, if_neg hsync, schedule, hs]
    exact ⟨fun _ => ⟨rfl, rfl⟩, .inl ⟨cron, s, maxJitter, job, rfl⟩⟩
  | unschedule k =>
    obtain rfl := ha
    refine ⟨fun id => ?_, .inr (.inl rfl)⟩
    simp only [act, unschedule]
    cases t.entries.get? k <;> exact ⟨rfl, rfl⟩
  | shutdown => exact ⟨fun _ => ⟨rfl, rfl⟩, .inr (.inr rfl)⟩
  | invoke k => exact ha.elim
  | move i m => exact ha.elim

theorem dismissed_of_retires (hm : Manned t) (he : t.entries.get? key = some e) (ha : Retires t key a) :
    Dismissed e.timer t (t.act a).1 := by
  rcases (retires_cases ha).2 with ⟨cron, s, maxJitter, job, h⟩ | h | h <;> rw [h]
  · exact dismissed_enter hm he cron s maxJitter job
  · exact dismissed_unschedule he
  · exact dismissed_shutdown he

/-- No entry has the timer of an entry that is gone. -/
theorem timer_ne_of_retires (hm : Manned t) (he : t.entries.get? key = some e) (ha : Retires t key a) (k : String)
    (d : Entry J) (hd : (t.act a).1.entries.get? k = some d) : d.timer ≠ e.timer := by
  have hold : k ≠ key → t.entries.get? k = some d → d.timer ≠ e.timer := fun hk hd heq =>
    hk (hm.own k d hd key e he heq)
  rcases (retires_cases ha).2 with ⟨cron, s, maxJitter, job, h⟩ | h | h <;> rw [h] at hd
  · rcases get?_enter_cases hd with ⟨-, rfl⟩ | ⟨hk, hd⟩
    · exact Nat.ne_of_gt (Nat.lt_succ_of_lt (hm.known key e he))
    · exact hold hk hd
  · rw [get?_unschedule] at hd
    obtain ⟨hk, hd⟩ := Option.ite_none_left_eq_some.1 hd
    exact hold hk hd
  · cases hd

/-! ### Retired timers -/

/-- All workers of a name were told to stop, and no entry names one of them. -/
structure Retired (t : Timetable J) (id : Nat) : Prop where
  engaged : Engaged t {id}
  told : ∀ w ∈ t.workers, w.id = id → w.cancelled = true

/-- The timer of an entry is retired with the entry. -/
theorem retired_of_retires (hg : Guarded t) (hm : Manned t) (he : t.entries.get? key = some e) (ha : Retires t key a) :
    Retired (t.act a).1 e.timer := by
  have hm' : Manned (t.act a).1 := hm.step hg (step_act t a)
  have hfresh : t.fresh ≤ (t.act a).1.fresh := by
    rcases (retires_cases ha).2 with ⟨cron, s, maxJitter, job, h⟩ | h | h <;> rw [h]
    · rw [fresh_enter]
      omega
    · exact Nat.le_of_eq (fresh_unschedule t key).symm
    · exact Nat.le_of_eq (fresh_foldl_cancel _ t).symm
  refine ⟨⟨fun i hi => ?hired, fun k d hd => ?timers⟩, fun w hw hid => ?told⟩
  case hired =>
    obtain rfl : i = e.timer := hi
    exact Nat.lt_of_lt_of_le (hm.known key e he) hfresh
  case timers => exact ⟨hm'.known k d hd, timer_ne_of_retires hm he ha k d hd⟩
  case told =>
    obtain ⟨v, -, rfl⟩ := (dismissed_of_retires hm he ha w hid).1 hw
    rfl

/-- A worker that was told to stop begins nothing. -/
theorem begunBy_of_cancelled {m : Move} {fate : Fate} (h : t.moveWorker? w m = some (fate, hs))
    (hw : w.cancelled = true) : begunBy hs id = [] := by
  cases m
  all_goals
    simp only [moveWorker?, hw] at h
    repeat' split at h
    all_goals cases h
    all_goals first | rfl | contradiction

namespace Retired

theorem move (hg : Guarded t) (h : Retired t id) {i : Nat} {m : Move} (hm : t.move? i m = some (t', hs)) :
    begunBy hs id = [] ∧ ∀ w ∈ t'.workers, w.id = id → w.cancelled = true := by
  obtain ⟨v, hv, fate, hfate, rfl⟩ := move?_eq_some hm
  constructor
  · by_cases hid : v.id = id
    · exact begunBy_of_cancelled hfate (h.told v hv hid)
    · exact (unseen_of_moveWorker? hfate hid).1
  · intro w hw hid
    rcases mem_settleFate hg.names hv hw with ⟨hw, -⟩ | ⟨p, -, rfl⟩
    · exact h.told w hw hid
    · exact h.told v hv hid

/-- No action has a retired timer begin a run, or go on as if it had not been told to stop. -/
theorem act (hg : Guarded t) (h : Retired t id) (a : Action J) : begunBy (t.act a).2 id = [] ∧ Retired (t.act a).1 id := by
  have hn := h.engaged.step (step_act t a)
  rcases h.engaged.act_cases a with ⟨hapart, hseen⟩ | ⟨i, m, hm⟩
  · exact ⟨hseen.1, hn, fun w hw hid => h.told w ((hapart w hid).1 hw) hid⟩
  · obtain ⟨hbegun, htold⟩ := h.move hg hm
    exact ⟨hbegun, hn, htold⟩

theorem run (as : List (Action J)) : ∀ {t : Timetable J}, Guarded t → Retired t id →
    begunBy (t.run as).2 id = [] ∧ Retired (t.run as).1 id := by
  induction as with
  | nil => exact fun _ h => ⟨rfl, h⟩
  | cons a as ih =>
    intro t hg h
    obtain ⟨hfirst, h'⟩ := h.act hg a
    obtain ⟨hrest, hlast⟩ := ih (hg.act a) h'
    refine ⟨?_, hlast⟩
    show begunBy ((t.act a).2 ++ ((t.act a).1.run as).2) id = []
    rw [begunBy_append, hfirst, hrest, List.append_nil]

end Retired

/-! ### Runs that had begun -/

/-- How far a run has come that a timer had begun before it was told to stop: it is in progress and alone has its lock,
or it has ended and is not followed by another. -/
inductive Finishes (t : Timetable J) (hs : List (Happening J)) (id : Nat) (key : String) (job : J) (lock : Nat) : Prop
  | runs (w : Worker J) (hw : w ∈ t.workers) (hid : w.id = id) (hkey : w.key = key) (hjob : w.job = job)
    (hlock : w.lock = lock) (hphase : w.phase = .running)
    (halone : ∀ v ∈ t.workers, v.lock = lock → v.phase.locks = true → v = w) (hended : endedBy hs id = [])
  | ended (hidle : ∀ w ∈ t.workers, w.id = id → w.phase ≠ .running) (hended : endedBy hs id = [(key, job)])

/-- The one step that a worker takes that runs its job is to end the run. -/
theorem ended_of_running {m : Move} {fate : Fate} (hphase : w.phase = .running)
    (h : t.moveWorker? w m = some (fate, hs)) : hs = [.ended w.id w.key w.job] := by
  cases m
  all_goals
    simp only [moveWorker?, hphase] at h
    repeat' split at h
    all_goals simp_all

/-- Only a worker that runs its job ends a run. -/
theorem endedBy_of_not_running {m : Move} {fate : Fate} (h : t.moveWorker? w m = some (fate, hs))
    (hphase : w.phase ≠ .running) : endedBy hs id = [] := by
  cases m
  all_goals
    simp only [moveWorker?] at h
    repeat' split at h
    all_goals cases h
    all_goals rfl

namespace Finishes

/-- A worker that runs its job has its lock for itself. -/
theorem of_running (hg : Guarded t) (hw : w ∈ t.workers) (hphase : w.phase = .running) (hended : endedBy hs w.id = []) :
    Finishes t hs w.id w.key w.job w.lock := by
  refine .runs w hw rfl rfl rfl rfl hphase (fun v hv hlock hlocks => ?_) hended
  exact hg.eq_of_id_eq hv hw (hg.holder v hv w hw hlock hlocks (by rw [hphase]; rfl))

/-- What is done to other workers does not matter to a run. -/
theorem apart (hg : Guarded t') (h : Finishes t hs id key job lock) (ht : Apart id t t') (hseen : endedBy hs' id = []) :
    Finishes t' (hs ++ hs') id key job lock := by
  have hended : endedBy (hs ++ hs') id = endedBy hs id := by rw [endedBy_append, hseen, List.append_nil]
  cases h with
  | runs w hw hid hkey hjob hlock hphase _ he =>
    subst hid hkey hjob hlock
    exact .of_running hg ((ht w rfl).2 hw) hphase (hended.trans he)
  | ended hidle he => exact .ended (fun w hw hid => hidle w ((ht w hid).1 hw) hid) (hended.trans he)

theorem move (hg : Guarded t) (hr : Retired t id) (h : Finishes t hs id key job lock) {i : Nat} {m : Move}
    (hm : t.move? i m = some (t', hs')) : Finishes t' (hs ++ hs') id key job lock := by
  have hg' := hg.step (.moves hm)
  obtain ⟨v, hv, fate, hfate, rfl⟩ := move?_eq_some hm
  by_cases hid : v.id = id
  case neg => exact h.apart hg' (apart_settleFate hg hv hid fate) (unseen_of_moveWorker? hfate hid).2
  case pos =>
    -- Told to stop, the worker does not come into the phase of a run.
    have hsettled : ∀ w ∈ settleFate t.workers v fate, w.id = id → w.phase ≠ .running := by
      intro w hw hwid hphase
      rcases mem_settleFate hg.names hv hw with ⟨-, hne⟩ | ⟨p, hp, rfl⟩
      · exact hne (hwid.trans hid.symm)
      · have hgoes := (advances_of_moveWorker? hfate hp).running hphase
        rw [hr.told v hv hid] at hgoes
        cases hgoes
    cases h with
    | runs w hw hwid hkey hjob hlock hphase _ hended =>
      obtain rfl := hg.eq_of_id_eq hv hw (hid.trans hwid.symm)
      obtain rfl := ended_of_running hphase hfate
      refine .ended hsettled ?_
      rw [endedBy_append, hended]
      simp [endedBy, hwid, hkey, hjob]
    | ended hidle hended =>
      refine .ended hsettled ?_
      rw [endedBy_append, hended, endedBy_of_not_running hfate (hidle v hv hid), List.append_nil]

theorem act (hg : Guarded t) (hr : Retired t id) (h : Finishes t hs id key job lock) (a : Action J) :
    Finishes (t.act a).1 (hs ++ (t.act a).2) id key job lock := by
  rcases hr.engaged.act_cases a with ⟨hapart, hseen⟩ | ⟨i, m, hm⟩
  · exact h.apart (hg.act a) hapart hseen.2
  · exact h.move hg hr hm

/-- A run that had begun is followed to its end, by induction on the actions. -/
theorem run (as : List (Action J)) : ∀ {t : Timetable J} {hs : List (Happening J)}, Guarded t → Retired t id →
    Finishes t hs id key job lock → Finishes (t.run as).1 (hs ++ (t.run as).2) id key job lock := by
  induction as with
  | nil =>
    intro t hs _ _ h
    simpa [Timetable.run] using h
  | cons a as ih =>
    intro t hs hg hr h
    have hrest := ih (hg.act a) (hr.act hg a).2 (h.act hg hr a)
    rwa [List.append_assoc] at hrest

end Finishes

/-- **A timer that was told to stop begins no run, and ends the one in progress.**  When an entry is replaced, removed or
dropped with all others, its timer is told to stop, wherever it stands, and no entry names it any more.  Whatever is done
from then on and in whatever order, it begins nothing.  A run that it had begun stays in progress, with the run lock for
itself, until it ends. -/
theorem cancelled_timer_halts (before : List (Action J)) (a : Action J) (after : List (Action J)) {key : String}
    {e : Entry J} (he : (empty.run before).1.entries.get? key = some e) (ha : Retires (empty.run before).1 key a) :
    let t := (empty.run before).1
    let u := t.run (a :: after)
    (∀ w ∈ t.workers, w.id = e.timer → w.Tends key e) ∧
    (∀ k d, u.1.entries.get? k = some d → d.timer ≠ e.timer) ∧
    (∀ w ∈ u.1.workers, w.id = e.timer → w.cancelled = true) ∧
    begunBy u.2 e.timer = [] ∧
    ∀ w ∈ t.workers, w.id = e.timer → w.phase = .running → Finishes u.1 u.2 e.timer key e.job e.lock := by
  intro t u
  have hg : Guarded t := Guarded.empty.run before
  have hm : Manned t := Manned.empty.run before .empty
  have htends : ∀ w ∈ t.workers, w.id = e.timer → w.Tends key e := hm.tends key e he
  have hretired : Retired (t.act a).1 e.timer := retired_of_retires hg hm he ha
  have hunseen : Unseen (t.act a).2 e.timer := (retires_cases ha).1 e.timer
  have hg' : Guarded (t.act a).1 := hg.act a
  obtain ⟨hbegun, hlast⟩ := hretired.run after hg'
  refine ⟨htends, fun k d hd => hlast.engaged.timer_ne hd, hlast.told, ?begins, fun w hw hid hphase => ?finishes⟩
  case begins =>
    show begunBy ((t.act a).2 ++ ((t.act a).1.run after).2) e.timer = []
    rw [begunBy_append, hunseen.1, hbegun, List.append_nil]
  case finishes =>
    -- The worker has been told to stop in the meantime, and runs its job as before.
    have hw' : { w with cancelled := true } ∈ (t.act a).1.workers :=
      (dismissed_of_retires hm he ha { w with cancelled := true } hid).2 ⟨w, hw, rfl⟩
    have hfirst := Finishes.of_running hg' hw' hphase (hid ▸ hunseen.2)
    obtain ⟨hkey, hjob, hlock, -, -⟩ := htends w hw hid
    rw [hid, hkey, hjob, hlock] at hfirst
    exact hfirst.run after hg' hretired

/-- The timer of a key waits for the run lock, which a call of the key has. -/
def queuedBehindCall : List (Action Unit) :=
  [.schedule "shop/api" "@every 20ms" ⟨0⟩ (), .invoke "shop/api", .move 2 .acquire, .move 2 .start, .move 1 (.arm ⟨0⟩ 0),
    .move 1 (.rouse ⟨20000000⟩), .move 1 .join]

/-- The timer of a key runs its job. -/
def runningAtOccurrence : List (Action Unit) :=
  [.schedule "shop/api" "@every 20ms" ⟨0⟩ (), .move 1 (.arm ⟨0⟩ 0), .move 1 (.rouse ⟨20000000⟩), .move 1 .join,
    .move 1 .acquire, .move 1 .start]

/-- A timer that waits for the lock is replaced, gets the lock when the call is over, and starts nothing.  A timer that
runs its job when its key is removed ends the run. -/
theorem cancelled_timer_halts_midway :
    ((empty.run queuedBehindCall).1.workers.map fun w => (w.id, w.phase)) = [(2, .running), (1, .queued)] ∧
    begunBy ((empty.run queuedBehindCall).1.run
      [.schedule "shop/api" "@every 1h" ⟨0⟩ (), .move 2 .finish, .move 1 .acquire, .move 1 .start]).2 1 = [] ∧
    ((empty.run runningAtOccurrence).1.workers.map fun w => (w.id, w.phase)) = [(1, .running)] ∧
    let u := (empty.run runningAtOccurrence).1.run
      [.unschedule "shop/api", .invoke "shop/api", .move 1 .finish, .move 1 (.arm ⟨20000000⟩ 0), .move 1 (.rouse ⟨20000000⟩)]
    Finishes u.1 u.2 1 "shop/api" () 0 := by
  have hqueued : ((empty.run queuedBehindCall).1.entries.get? "shop/api").map Entry.timer = some 1 := by decide +kernel
  have hrunning : ((empty.run runningAtOccurrence).1.entries.get? "shop/api").map (fun e => (e.timer, e.lock)) =
      some (1, 0) := by decide +kernel
  have hworker : ((empty.run runningAtOccurrence).1.workers.map fun w => (w.id, w.phase)) = [(1, .running)] := by
    decide +kernel
  obtain ⟨e, he, htimer⟩ := Option.map_eq_some_iff.1 hqueued
  obtain ⟨d, hd, hnames⟩ := Option.map_eq_some_iff.1 hrunning
  obtain ⟨hid, hlock⟩ := Prod.mk.inj hnames
  obtain ⟨w, hw, hphase⟩ := List.mem_map.1 (hworker ▸ List.mem_singleton_self (1, Phase.running))
  obtain ⟨hwid, hphase⟩ := Prod.mk.inj hphase
  have hreads : ∃ s, Schedule.read "@every 1h" = .ok s := ⟨.every ⟨3600000000000⟩, by decide +kernel⟩
  obtain ⟨-, -, -, hbegun, -⟩ := cancelled_timer_halts queuedBehindCall (.schedule "shop/api" "@every 1h" ⟨0⟩ ())
    [.move 2 .finish, .move 1 .acquire, .move 1 .start] he ⟨rfl, hreads⟩
  obtain ⟨-, -, -, -, hends⟩ := cancelled_timer_halts runningAtOccurrence (.unschedule "shop/api")
    [.invoke "shop/api", .move 1 .finish, .move 1 (.arm ⟨20000000⟩ 0), .move 1 (.rouse ⟨20000000⟩)] hd rfl
  rw [htimer] at hbegun
  rw [hid, hlock] at hends
  exact ⟨by decide +kernel, hbegun, hworker, hends w hw hwid hphase⟩

end Timetable

end Allotment
