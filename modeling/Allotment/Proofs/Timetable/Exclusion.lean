import Allotment.Proofs.Timetable.Step

/-!
# Runs of one key exclude each other

* `Worker.Pending` — the worker runs its job, or may still begin to: nobody told it to stop;
* `Subsides t t'` — what is pending was pending before; so it is with all that does not enter a worker;
* `OneLock t key lock` — what is pending for a key, and what will be, goes by one run lock;
* `Idle t key`, `RegistersIdle key t as` — nothing is pending for a key; a key without an entry gets one only when
  nothing is pending for it;
* `exists_oneLock_run` — such a history leaves one lock for the key;
* `runs_exclude` — hence no two runs of the key are ever in progress together.

A key that is removed loses its lock, and gets another one when it is registered again. What was pending at that time
still goes by the old one, so the condition cannot be dropped: `runs_overlap`.
-/

namespace Allotment

/-- A worker that runs its job, or may still begin to. -/
def Worker.Pending {J : Type} (w : Worker J) : Prop :=
  w.phase = .running ∨ w.cancelled = false

instance {J : Type} (w : Worker J) : Decidable w.Pending :=
  inferInstanceAs (Decidable (_ ∨ _))

namespace Timetable

variable {J : Type} {t t' : Timetable J} {v w : Worker J} {key : String} {lock : Nat}

/-! ### What is pending -/

/-- Whatever is pending was pending before, for the same key and by the same lock. -/
def Subsides (t t' : Timetable J) : Prop :=
  ∀ w ∈ t'.workers, w.Pending → ∃ v ∈ t.workers, v.Pending ∧ v.key = w.key ∧ v.lock = w.lock

theorem subsides_cancel (t : Timetable J) (id : Nat) : Subsides t (t.cancel id) := by
  intro w hw hp
  obtain ⟨v, hv, rfl⟩ := List.mem_map.1 hw
  by_cases hid : v.id = id
  · rw [if_pos hid] at hp ⊢
    rcases hp with hp | hp
    · exact ⟨v, hv, .inl hp, rfl, rfl⟩
    · cases hp
  · rw [if_neg hid] at hp ⊢
    exact ⟨v, hv, hp, rfl, rfl⟩

theorem Subsides.trans {t'' : Timetable J} (h : Subsides t t') (h' : Subsides t' t'') : Subsides t t'' := by
  intro w hw hp
  obtain ⟨v, hv, hvp, hvk, hvl⟩ := h' w hw hp
  obtain ⟨u, hu, hup, huk, hul⟩ := h v hv hvp
  exact ⟨u, hu, hup, huk.trans hvk, hul.trans hvl⟩

theorem subsides_foldl_cancel (es : List (Entry J)) (t : Timetable J) :
    Subsides t (es.foldl (fun t e => t.cancel e.timer) t) := by
  induction es generalizing t with
  | nil => exact fun w hw hp => ⟨w, hw, hp, rfl, rfl⟩
  | cons e es ih => exact (subsides_cancel t e.timer).trans (ih _)

/-- A worker that begins its job was pending before: it was not told to stop. -/
theorem subsides_move (h : Guarded t) {id : Nat} {m : Move} {hs : List (Happening J)}
    (hm : t.move? id m = some (t', hs)) : Subsides t t' := by
  obtain ⟨w, hw, fate, hfate, rfl⟩ := move?_eq_some hm
  intro v hv hp
  rcases mem_settleFate h.names hw hv with ⟨hv, -⟩ | ⟨p, hphase, rfl⟩
  · exact ⟨v, hv, hp, rfl, rfl⟩
  · refine ⟨w, hw, .inr ?_, rfl, rfl⟩
    rcases hp with hp | hp
    · exact (advances_of_moveWorker? hfate hphase).running hp
    · exact hp

/-- What is pending for a key, and what will be, goes by one run lock. -/
structure OneLock (t : Timetable J) (key : String) (lock : Nat) : Prop where
  pending : ∀ w ∈ t.workers, w.key = key → w.Pending → w.lock = lock
  entry : ∀ e, t.entries.get? key = some e → e.lock = lock

/-- Nothing is pending for a key. -/
def Idle (t : Timetable J) (key : String) : Prop :=
  ∀ w ∈ t.workers, w.key = key → ¬ w.Pending

instance (t : Timetable J) (key : String) : Decidable (t.Idle key) :=
  inferInstanceAs (Decidable (∀ _ ∈ _, _))

/-- A key gets an entry that had none. -/
def Opens (t t' : Timetable J) (key : String) : Prop :=
  t.entries.contains key = false ∧ t'.entries.contains key = true

instance (t t' : Timetable J) (key : String) : Decidable (Opens t t' key) :=
  inferInstanceAs (Decidable (_ ∧ _))

/-- A history gives a key an entry that had none only when nothing is pending for the key. -/
def RegistersIdle (key : String) : Timetable J → List (Action J) → Prop
  | _, [] => True
  | t, a :: as => (Opens t (t.act a).1 key → t.Idle key) ∧ RegistersIdle key (t.act a).1 as

/-- The run lock that a key gets when it is entered. -/
def lockFor (t : Timetable J) (key : String) : Nat :=
  match t.entries.get? key with
  | some e => e.lock
  | none => t.fresh

section Enter

variable (t : Timetable J) (k cron : String) (s : Schedule) (maxJitter : Span) (job : J)

theorem get?_enter (key : String) :
    (t.enter k cron s maxJitter job).entries.get? key =
      if key = k then some ⟨Text.trimmed cron, maxJitter, job, t.lockFor k, t.fresh + 1⟩ else t.entries.get? key := by
  unfold enter lockFor
  cases t.entries.get? k <;> exact Dict.get?_insert _ _ _ _

/-- After a key was entered, its timer is pending, and otherwise at most what was pending before. -/
theorem pending_enter (hw : w ∈ (t.enter k cron s maxJitter job).workers) (hp : w.Pending) :
    (∃ v ∈ t.workers, v.Pending ∧ v.key = w.key ∧ v.lock = w.lock) ∨ (w.key = k ∧ w.lock = t.lockFor k) := by
  unfold enter at hw
  unfold lockFor
  cases he : t.entries.get? k with
  | none =>
    rw [he] at hw
    rcases List.mem_append.1 hw with hw | hw
    · exact .inl ⟨w, hw, hp, rfl, rfl⟩
    · rw [List.mem_singleton.1 hw]
      exact .inr ⟨rfl, rfl⟩
  | some e =>
    rw [he] at hw
    rcases List.mem_append.1 hw with hw | hw
    · exact .inl (subsides_cancel t e.timer w hw hp)
    · rw [List.mem_singleton.1 hw]
      exact .inr ⟨rfl, rfl⟩

end Enter

namespace OneLock

theorem subside (h : OneLock t key lock) (hw : Subsides t t')
    (he : ∀ e, t'.entries.get? key = some e → t.entries.get? key = some e) : OneLock t' key lock := by
  refine ⟨fun w hmem hk hp => ?_, fun e hmem => h.entry e (he e hmem)⟩
  obtain ⟨v, hv, hvp, hvk, hvl⟩ := hw w hmem hp
  rw [← hvl]
  exact h.pending v hv (hvk.trans hk) hvp

theorem enter_of_ne {k : String} (h : OneLock t key lock) (hk : key ≠ k) (cron : String) (s : Schedule)
    (maxJitter : Span) (job : J) : OneLock (t.enter k cron s maxJitter job) key lock := by
  refine ⟨fun w hw hwk hp => ?_, fun e he => ?_⟩
  · rcases pending_enter t k cron s maxJitter job hw hp with ⟨v, hv, hvp, hvk, hvl⟩ | ⟨hwk', -⟩
    · rw [← hvl]
      exact h.pending v hv (hvk.trans hwk) hvp
    · exact absurd (hwk.symm.trans hwk') hk
  · rw [get?_enter, if_neg hk] at he
    exact h.entry e he

/-- A key goes on with the lock that it is entered with, if that is the lock of all that is pending for it. -/
theorem enter_self (h : ∀ w ∈ t.workers, w.key = key → w.Pending → w.lock = t.lockFor key) (cron : String)
    (s : Schedule) (maxJitter : Span) (job : J) :
    OneLock (t.enter key cron s maxJitter job) key (t.lockFor key) := by
  refine ⟨fun w hw hwk hp => ?_, fun e he => ?_⟩
  · rcases pending_enter t key cron s maxJitter job hw hp with ⟨v, hv, hvp, hvk, hvl⟩ | ⟨-, hl⟩
    · rw [← hvl]
      exact h v hv (hvk.trans hwk) hvp
    · exact hl
  · rw [get?_enter, if_pos rfl] at he
    obtain rfl := Option.some.inj he
    rfl

theorem invoke (h : OneLock t key lock) (k : String) : OneLock (t.invoke k).1 key lock := by
  unfold Timetable.invoke
  cases he : t.entries.get? k with
  | none => exact h
  | some e =>
    refine ⟨fun w hw hk hp => ?_, h.entry⟩
    rcases List.mem_append.1 hw with hw | hw
    · exact h.pending w hw hk hp
    · obtain rfl := List.mem_singleton.1 hw
      obtain rfl : k = key := hk
      exact h.entry e he

theorem unschedule (h : OneLock t key lock) (k : String) : OneLock (t.unschedule k).1 key lock := by
  unfold Timetable.unschedule
  cases he : t.entries.get? k with
  | none => exact ⟨h.pending, h.entry⟩
  | some e =>
    refine h.subside (subsides_cancel t e.timer) fun e' he' => ?_
    replace he' : (t.entries.erase k).get? key = some e' := he'
    rw [Dict.get?_erase] at he'
    split at he'
    · cases he'
    · exact he'

theorem shutdown (h : OneLock t key lock) : OneLock t.shutdown key lock :=
  h.subside (subsides_foldl_cancel t.entries.values t) fun e he => by cases he

end OneLock

/-- Every action leaves one lock for a key, if it does not open the key while something is pending for it. -/
theorem exists_oneLock_step (hg : Guarded t) (h : OneLock t key lock) (hs : Step t t')
    (hidle : Opens t t' key → t.Idle key) : ∃ lock', OneLock t' key lock' := by
  cases hs with
  | stays => exact ⟨lock, h⟩
  | enters k cron s maxJitter job =>
    by_cases hk : key = k
    case neg => exact ⟨lock, h.enter_of_ne hk cron s maxJitter job⟩
    case pos =>
      subst hk
      refine ⟨t.lockFor key, .enter_self (fun w hw hwk hp => ?_) cron s maxJitter job⟩
      unfold lockFor
      cases he : t.entries.get? key with
      | some e =>
        rw [h.pending w hw hwk hp]
        exact (h.entry e he).symm
      | none =>
        have hopens : Opens t (t.enter key cron s maxJitter job) key := by
          refine ⟨?_, ?_⟩
          · rw [Dict.contains, he]
            rfl
          · rw [Dict.contains, get?_enter, if_pos rfl]
            rfl
        exact absurd hp (hidle hopens w hw hwk)
  | removes k => exact ⟨lock, h.unschedule k⟩
  | hires k => exact ⟨lock, h.invoke k⟩
  | stops => exact ⟨lock, h.shutdown⟩
  | moves hm =>
    refine ⟨lock, h.subside (subsides_move hg hm) fun e he => ?_⟩
    obtain ⟨w, -, fate, -, rfl⟩ := move?_eq_some hm
    exact he

theorem exists_oneLock_run {as : List (Action J)} :
    ∀ {t : Timetable J} {lock : Nat}, Guarded t → OneLock t key lock → RegistersIdle key t as →
      ∃ lock', OneLock (t.run as).1 key lock' := by
  induction as with
  | nil => exact fun _ h _ => ⟨_, h⟩
  | cons a as ih =>
    intro t lock hg h hidle
    obtain ⟨hfirst, hrest⟩ := hidle
    have hstep := step_act t a
    obtain ⟨lock', h'⟩ := exists_oneLock_step hg h hstep hfirst
    exact ih (hg.step hstep) h' hrest

/-! ### Runs in progress -/

/-- The runs of a key that are in progress. -/
def runsOf (t : Timetable J) (key : String) : List (Worker J) :=
  t.workers.filter fun w => w.key = key ∧ w.phase = .running

theorem length_runsOf_le_one (hg : Guarded t) (h : OneLock t key lock) : (t.runsOf key).length ≤ 1 := by
  have hsame : ∀ v ∈ t.runsOf key, ∀ w ∈ t.runsOf key, v = w := by
    intro v hv w hw
    obtain ⟨hv, hvr⟩ := List.mem_filter.1 hv
    obtain ⟨hw, hwr⟩ := List.mem_filter.1 hw
    obtain ⟨hvk, hvr⟩ := of_decide_eq_true hvr
    obtain ⟨hwk, hwr⟩ := of_decide_eq_true hwr
    have hlock : v.lock = w.lock := (h.pending v hv hvk (.inl hvr)).trans (h.pending w hw hwk (.inl hwr)).symm
    exact hg.eq_of_id_eq hv hw (hg.holder v hv w hw hlock (by rw [hvr]; rfl) (by rw [hwr]; rfl))
  have hnodup : (t.runsOf key).Nodup := hg.names.of_map.filter _
  cases hruns : t.runsOf key with
  | nil => simp
  | cons v vs =>
    cases vs with
    | nil => simp
    | cons w ws =>
      rw [hruns] at hsame hnodup
      have hvw : v = w := hsame v (by simp) w (by simp)
      exact absurd hvw (List.ne_of_not_mem_cons (List.nodup_cons.1 hnodup).1)

theorem registersIdle_of_append {bs : List (Action J)} :
    ∀ {as : List (Action J)} {t : Timetable J}, RegistersIdle key t (as ++ bs) → RegistersIdle key t as
  | [], _, _ => trivial
  | _ :: _, _, ⟨hfirst, hrest⟩ => ⟨hfirst, registersIdle_of_append hrest⟩

instance decidableRegistersIdle (key : String) :
    ∀ (t : Timetable J) (as : List (Action J)), Decidable (RegistersIdle key t as)
  | _, [] => isTrue trivial
  | t, a :: as =>
    have := decidableRegistersIdle key (t.act a).1 as
    inferInstanceAs (Decidable ((Opens t (t.act a).1 key → t.Idle key) ∧ _))

/-- **Runs of one key exclude each other.**  At no moment of a history, with any order of its actions, are two runs of a
key in progress, if the key never gets an entry anew while a run of it is in progress or still to come.  Replacing an
entry is free of the condition, whatever is pending. -/
theorem runs_exclude (key : String) (as : List (Action J)) (h : RegistersIdle key empty as) :
    ∀ before, before <+: as → ((empty.run before).1.runsOf key).length ≤ 1 := by
  rintro before ⟨after, rfl⟩
  have hstart : OneLock (empty : Timetable J) key 0 := ⟨by simp [empty], by simp [empty]⟩
  obtain ⟨lock, hlock⟩ := exists_oneLock_run .empty hstart (registersIdle_of_append h)
  exact length_runsOf_le_one (Guarded.empty.run before) hlock

/-- A key is replaced while a run of it is in progress, whose end a second run waits for; it is removed and registered
again when both are over. -/
def replacedInFlight : List (Action Unit) :=
  [.schedule "shop/api" "@hourly" ⟨0⟩ (), .invoke "shop/api", .move 2 .acquire, .move 2 .start,
    .schedule "shop/api" "@daily" ⟨0⟩ (), .invoke "shop/api", .move 5 .acquire, .move 2 .finish, .move 5 .acquire,
    .move 5 .start, .move 5 .finish, .unschedule "shop/api", .schedule "shop/api" "@hourly" ⟨0⟩ ()]

/-- While the first run is in progress the second one does not get the lock, and then it does. -/
theorem runs_exclude_replacedInFlight :
    RegistersIdle "shop/api" empty replacedInFlight ∧
      ((empty.run (replacedInFlight.take 7)).1.runsOf "shop/api").length ≤ 1 ∧
      ((empty.run (replacedInFlight.take 7)).1.runsOf "shop/api").map Worker.id = [2] ∧
      ((empty.run (replacedInFlight.take 10)).1.runsOf "shop/api").map Worker.id = [5] := by
  have h : RegistersIdle "shop/api" empty replacedInFlight := by decide
  exact ⟨h, runs_exclude "shop/api" replacedInFlight h _ (List.take_prefix 7 _), by decide, by decide⟩

/-- A key is removed while a run of it is in progress, and registered again. -/
def removedInFlight : List (Action Unit) :=
  [.schedule "shop/api" "@hourly" ⟨0⟩ (), .invoke "shop/api", .move 2 .acquire, .move 2 .start, .unschedule "shop/api",
    .schedule "shop/api" "@hourly" ⟨0⟩ (), .invoke "shop/api", .move 5 .acquire, .move 5 .start]

/-- The new entry has a lock of its own, so its first run does not wait for the one in progress. -/
theorem runs_overlap :
    ¬ ∀ before, before <+: removedInFlight → ((empty.run before).1.runsOf "shop/api").length ≤ 1 := by
  intro h
  have htwo : ((empty.run removedInFlight).1.runsOf "shop/api").length = 2 := by decide
  have hone := h removedInFlight (List.prefix_refl _)
  omega

end Timetable

end Allotment
