import Mathlib.Data.List.Nodup
import Allotment.Timetable.Action

/-!
# What a step of a timetable can do

* `Advances t w p` — what lets a worker go on to a phase: the lock is free when it is taken, and a job only starts if
  its worker was not told to stop;
* `mem_settleFate`, `move?_eq_some` — a step of a worker moves this worker alone;
* `Step t t'`, `step_act` — what one action can make of a timetable, over which the invariants go by cases;
* `Guarded t` — workers have names of their own, and a run lock has one holder; `Guarded.run` keeps it along every
  history.
-/

namespace Allotment.Timetable

variable {J : Type} {t t' : Timetable J} {v w : Worker J} {key : String}

/-! ### Steps of workers -/

/-- The phase that a worker comes into, unless it is done. -/
def Fate.phase? : Fate → Option Phase
  | .stays p | .waits p => some p
  | .done => none

/-- What lets a worker go on to a phase. -/
structure Advances (t : Timetable J) (w : Worker J) (p : Phase) : Prop where
  locks : p.locks = true → w.phase.locks = true ∨ t.IsFree w.lock
  running : p = .running → w.cancelled = false

theorem advances_of_locks_eq_false {p : Phase} (hp : p.locks = false) : Advances t w p := by
  refine ⟨fun h => ?_, ?_⟩
  · rw [hp] at h
    cases h
  · rintro rfl
    cases hp

theorem advances_of_moveWorker? {m : Move} {fate : Fate} {hs : List (Happening J)} {p : Phase}
    (h : t.moveWorker? w m = some (fate, hs)) (hp : fate.phase? = some p) : Advances t w p := by
  cases m
  case acquire =>
    simp only [moveWorker?] at h
    repeat' split at h
    all_goals cases h
    all_goals cases hp
    next hfree => exact ⟨fun _ => .inr hfree, by simp⟩
  case start =>
    simp only [moveWorker?] at h
    repeat' split at h
    all_goals cases h
    all_goals cases hp
    next hphase hc => exact ⟨fun _ => .inl (by rw [hphase]; rfl), fun _ => by simpa using hc⟩
  -- The other steps lead to phases without the lock.
  all_goals
    simp only [moveWorker?] at h
    repeat' split at h
    all_goals cases h
    all_goals cases hp
    exact advances_of_locks_eq_false rfl

theorem map_id_map {f : Worker J → Worker J} (hf : ∀ w, (f w).id = w.id) (ws : List (Worker J)) :
    (ws.map f).map Worker.id = ws.map Worker.id := by
  rw [List.map_map]
  exact List.map_congr_left fun w _ => hf w

/-- A step of a worker leaves the others as they are, and brings the worker into a phase that it can go on to. -/
theorem mem_settleFate {ws : List (Worker J)} (hnames : (ws.map Worker.id).Nodup) (hw : w ∈ ws) {fate : Fate}
    (hv : v ∈ settleFate ws w fate) :
    (v ∈ ws ∧ v.id ≠ w.id) ∨ ∃ p, fate.phase? = some p ∧ v = { w with phase := p } := by
  cases fate with
  | stays p =>
    obtain ⟨u, hu, rfl⟩ := List.mem_map.1 hv
    by_cases hid : u.id = w.id
    · obtain rfl := List.inj_on_of_nodup_map hnames hu hw hid
      exact .inr ⟨p, rfl, by simp⟩
    · rw [if_neg hid]
      exact .inl ⟨hu, hid⟩
  | waits p =>
    rcases List.mem_append.1 hv with hv | hv
    · exact .inl (by simpa using List.mem_filter.1 hv)
    · exact .inr ⟨p, rfl, List.mem_singleton.1 hv⟩
  | done => exact .inl (by simpa using List.mem_filter.1 hv)

theorem nodup_settleFate {ws : List (Worker J)} (hnames : (ws.map Worker.id).Nodup) (w : Worker J) (fate : Fate) :
    ((settleFate ws w fate).map Worker.id).Nodup := by
  have hrest : ((ws.filter fun v => v.id ≠ w.id).map Worker.id).Nodup :=
    hnames.sublist (List.filter_sublist.map _)
  cases fate with
  | stays p =>
    have hmap : (settleFate ws w (.stays p)).map Worker.id = ws.map Worker.id :=
      map_id_map (fun v => by split <;> rfl) ws
    rwa [hmap]
  | waits p =>
    rw [settleFate, List.map_append, List.map_singleton]
    refine hrest.append (List.nodup_singleton _) ?_
    simp
  | done => exact hrest

theorem move?_eq_some {id : Nat} {m : Move} {hs : List (Happening J)} (h : t.move? id m = some (t', hs)) :
    ∃ w ∈ t.workers, ∃ fate, t.moveWorker? w m = some (fate, hs) ∧
      t' = { t with workers := settleFate t.workers w fate } := by
  unfold move? at h
  split at h
  · cases h
  · next w hw =>
    obtain ⟨⟨fate, hs'⟩, hfate, he⟩ := Option.map_eq_some_iff.1 h
    obtain ⟨rfl, rfl⟩ := Prod.mk.inj he
    exact ⟨w, List.mem_of_find?_eq_some hw, fate, hfate, rfl⟩

/-! ### Actions -/

/-- What one action can make of a timetable. -/
inductive Step (t : Timetable J) : Timetable J → Prop where
  | stays : Step t t
  | enters (key cron : String) (s : Schedule) (maxJitter : Span) (job : J) : Step t (t.enter key cron s maxJitter job)
  | removes (key : String) : Step t (t.unschedule key).1
  | hires (key : String) : Step t (t.invoke key).1
  | stops : Step t t.shutdown
  | moves {id : Nat} {m : Move} {hs : List (Happening J)} {t' : Timetable J} (h : t.move? id m = some (t', hs)) :
    Step t t'

theorem step_act (t : Timetable J) (a : Action J) : Step t (t.act a).1 := by
  cases a with
  | schedule key cron maxJitter job =>
    simp only [act, schedule]
    cases Schedule.read cron with
    | error e => exact .stays
    | ok s => exact .enters key cron s maxJitter job
  | sync key cron maxJitter job =>
    by_cases hsync : t.InSync key cron maxJitter
    · simp only [act, sync, if_pos hsync]
      exact .stays
    · simp only [act, sync, if_neg hsync, schedule]
      cases Schedule.read cron with
      | error e => exact .stays
      | ok s => exact .enters key cron s maxJitter job
  | unschedule key => exact .removes key
  | invoke key => exact .hires key
  | shutdown => exact .stops
  | move id m =>
    simp only [act]
    cases hm : t.move? id m with
    | none => exact .stays
    | some r => exact .moves hm

/-! ### Names and holders -/

/-- Workers have names of their own, names and locks are not given out again, and a run lock has one holder. -/
structure Guarded (t : Timetable J) : Prop where
  names : (t.workers.map Worker.id).Nodup
  workers : ∀ w ∈ t.workers, w.id < t.fresh ∧ w.lock < t.fresh
  entries : ∀ key e, t.entries.get? key = some e → e.lock < t.fresh
  holder : ∀ v ∈ t.workers, ∀ w ∈ t.workers, v.lock = w.lock → v.phase.locks = true → w.phase.locks = true → v.id = w.id

namespace Guarded

theorem empty : Guarded (empty : Timetable J) where
  names := List.nodup_nil
  workers := by simp [Timetable.empty]
  entries := by simp [Timetable.empty]
  holder := by simp [Timetable.empty]

theorem eq_of_id_eq (h : Guarded t) (hv : v ∈ t.workers) (hw : w ∈ t.workers) (hid : v.id = w.id) : v = w :=
  List.inj_on_of_nodup_map h.names hv hw hid

theorem cancel (h : Guarded t) (id : Nat) : Guarded (t.cancel id) := by
  have hmem : ∀ w ∈ (t.cancel id).workers, ∃ v ∈ t.workers, w.id = v.id ∧ w.lock = v.lock ∧ w.phase = v.phase := by
    intro w hw
    obtain ⟨v, hv, rfl⟩ := List.mem_map.1 hw
    refine ⟨v, hv, ?_⟩
    split <;> exact ⟨rfl, rfl, rfl⟩
  refine ⟨?names, fun w hw => ?workers, h.entries, fun v hv w hw hlock hvl hwl => ?holder⟩
  case names =>
    have hmap : (t.cancel id).workers.map Worker.id = t.workers.map Worker.id :=
      map_id_map (fun v => by split <;> rfl) t.workers
    rw [hmap]
    exact h.names
  case workers =>
    obtain ⟨v, hv, hid, hl, -⟩ := hmem w hw
    rw [hid, hl]
    exact h.workers v hv
  case holder =>
    obtain ⟨v₀, hv₀, hvid, hvlock, hvphase⟩ := hmem v hv
    obtain ⟨w₀, hw₀, hwid, hwlock, hwphase⟩ := hmem w hw
    rw [hvid, hwid]
    refine h.holder v₀ hv₀ w₀ hw₀ ?_ ?_ ?_
    · rw [← hvlock, ← hwlock, hlock]
    · rw [← hvphase, hvl]
    · rw [← hwphase, hwl]

/-- A new worker, with a new name and without its lock. -/
theorem hire (h : Guarded t) {n : Nat} (hid : t.fresh ≤ w.id) (hidn : w.id < n) (hlock : w.lock < n)
    (hphase : w.phase.locks = false) : Guarded { t with workers := t.workers ++ [w], fresh := n } := by
  have hn : t.fresh ≤ n := by omega
  refine ⟨?names, fun v hv => ?workers, fun key e he => ?entries, fun v hv u hu hl hvl hul => ?holder⟩
  case names =>
    rw [List.map_append, List.map_singleton]
    refine h.names.append (List.nodup_singleton _) fun i hi hmem => ?_
    obtain ⟨v, hv, rfl⟩ := List.mem_map.1 hi
    have hlt := (h.workers v hv).1
    have heq := List.mem_singleton.1 hmem
    omega
  case workers =>
    rcases List.mem_append.1 hv with hv | hv
    · obtain ⟨h1, h2⟩ := h.workers v hv
      exact ⟨Nat.lt_of_lt_of_le h1 hn, Nat.lt_of_lt_of_le h2 hn⟩
    · obtain rfl := List.mem_singleton.1 hv
      exact ⟨hidn, hlock⟩
  case entries => exact Nat.lt_of_lt_of_le (h.entries key e he) hn
  case holder =>
    have hold : ∀ u ∈ t.workers ++ [w], u.phase.locks = true → u ∈ t.workers := by
      intro u hu hul
      rcases List.mem_append.1 hu with hu | hu
      · exact hu
      · obtain rfl := List.mem_singleton.1 hu
        rw [hphase] at hul
        cases hul
    exact h.holder v (hold v hv hvl) u (hold u hu hul) hl hvl hul

/-- Other entries, whose locks were given out before. -/
theorem rebind (h : Guarded t) {es : Dict (Entry J)} (hes : ∀ key e, es.get? key = some e → e.lock < t.fresh)
    (gauge : Nat) : Guarded { t with entries := es, gauge := gauge } :=
  ⟨h.names, h.workers, hes, h.holder⟩

theorem enter (h : Guarded t) (key cron : String) (s : Schedule) (maxJitter : Span) (job : J) :
    Guarded (t.enter key cron s maxJitter job) := by
  unfold Timetable.enter
  cases he : t.entries.get? key with
  | none =>
    have hhired := h.hire (w := ⟨t.fresh + 1, key, job, t.fresh, .timer s maxJitter, .arming, false⟩) (n := t.fresh + 2)
      (by simp) (by simp) (by simp) rfl
    refine hhired.rebind (fun k e hk => ?_) _
    rw [Dict.get?_insert] at hk
    split at hk
    · obtain rfl := Option.some.inj hk
      show t.fresh < t.fresh + 2
      omega
    · exact hhired.entries k e hk
  | some e =>
    have hlock : e.lock < t.fresh := h.entries key e he
    have hhired := (h.cancel e.timer).hire
      (w := ⟨t.fresh + 1, key, job, e.lock, .timer s maxJitter, .arming, false⟩) (n := t.fresh + 2)
      (Nat.le_succ _) (Nat.lt_succ_self _) (Nat.lt_add_right 2 hlock) rfl
    refine hhired.rebind (fun k e' hk => ?_) _
    rw [Dict.get?_insert] at hk
    split at hk
    · obtain rfl := Option.some.inj hk
      exact Nat.lt_add_right 2 hlock
    · exact hhired.entries k e' hk

theorem unschedule (h : Guarded t) (key : String) : Guarded (t.unschedule key).1 := by
  unfold Timetable.unschedule
  cases he : t.entries.get? key with
  | none => exact h.rebind h.entries _
  | some e =>
    refine (h.cancel e.timer).rebind (fun k e' hk => ?_) _
    rw [Dict.get?_erase] at hk
    split at hk
    · cases hk
    · exact h.entries k e' hk

theorem invoke (h : Guarded t) (key : String) : Guarded (t.invoke key).1 := by
  unfold Timetable.invoke
  cases he : t.entries.get? key with
  | none => exact h
  | some e => exact h.hire (Nat.le_refl _) (Nat.lt_succ_self _) (Nat.lt_succ_of_lt (h.entries key e he)) rfl

theorem shutdown (h : Guarded t) : Guarded t.shutdown := by
  have hstopped : ∀ (es : List (Entry J)) {t : Timetable J}, Guarded t →
      Guarded (es.foldl (fun t e => t.cancel e.timer) t) := by
    intro es
    induction es with
    | nil => exact fun h => h
    | cons e es ih => exact fun h => ih (h.cancel e.timer)
  exact (hstopped t.entries.values h).rebind (by simp) 0

theorem move (h : Guarded t) {id : Nat} {m : Move} {hs : List (Happening J)} (hm : t.move? id m = some (t', hs)) :
    Guarded t' := by
  obtain ⟨w, hw, fate, hfate, rfl⟩ := move?_eq_some hm
  refine ⟨nodup_settleFate h.names w fate, fun v hv => ?workers, h.entries, fun u hu v hv hlock hul hvl => ?holder⟩
  case workers =>
    rcases mem_settleFate h.names hw hv with ⟨hv, -⟩ | ⟨p, -, rfl⟩
    · exact h.workers v hv
    · exact h.workers w hw
  case holder =>
    -- The worker that moved had the lock before, or found it free: either way nobody else has it.
    have hmoved : ∀ v ∈ t.workers, ∀ p, fate.phase? = some p → p.locks = true → v.lock = w.lock →
        v.phase.locks = true → v.id = w.id := by
      intro v hv p hp hpl hlock hvl
      rcases (advances_of_moveWorker? hfate hp).locks hpl with hwl | hfree
      · exact h.holder v hv w hw hlock hvl hwl
      · rw [hfree v hv hlock] at hvl
        cases hvl
    rcases mem_settleFate h.names hw hu with ⟨hu, -⟩ | ⟨p, hp, rfl⟩
    · rcases mem_settleFate h.names hw hv with ⟨hv, -⟩ | ⟨q, hq, rfl⟩
      · exact h.holder u hu v hv hlock hul hvl
      · exact hmoved u hu q hq hvl hlock hul
    · rcases mem_settleFate h.names hw hv with ⟨hv, -⟩ | ⟨q, hq, rfl⟩
      · exact (hmoved v hv p hp hul hlock.symm hvl).symm
      · rfl

theorem step (h : Guarded t) (hs : Step t t') : Guarded t' := by
  cases hs with
  | stays => exact h
  | enters key cron s maxJitter job => exact h.enter key cron s maxJitter job
  | removes key => exact h.unschedule key
  | hires key => exact h.invoke key
  | stops => exact h.shutdown
  | moves hm => exact h.move hm

theorem run (h : Guarded t) (as : List (Action J)) : Guarded (t.run as).1 := by
  induction as generalizing t with
  | nil => exact h
  | cons a as ih => exact ih (h.step (step_act t a))

end Guarded

end Allotment.Timetable
