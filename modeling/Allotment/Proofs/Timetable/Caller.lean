import Allotment.Proofs.Timetable.Exclusion

/-!
# Calls of jobs

A call that finds its key scheduled lets in a caller. The caller waits for the run lock, runs the job that was scheduled
when it was let in, and is done.

* `begunBy`, `endedBy` — the runs that a worker has begun and ended, among what was seen;
* `Worker.CallsFor` — a worker is the caller of a job;
* `Served` — how far a call has come: its caller waits, runs the job, or is done and has run it once;
* `Engaged`, `Apart` — a name that is no timer's; two timetables have the same to say about a name;
* `Served.run` — a call that was let in is served so, whatever is done meanwhile;
* `exists_moves_gone` — the steps of workers can always bring a caller to its end;
* `RunsOnce`, `runsOnce_invoke` — a call of a scheduled key runs the job of that key once.
-/

namespace Allotment

/-- A worker is the caller of a job, and nobody told it to stop. -/
structure Worker.CallsFor {J : Type} (w : Worker J) (id : Nat) (key : String) (job : J) : Prop where
  id : w.id = id
  key : w.key = key
  job : w.job = job
  role : w.role = .caller
  cancelled : w.cancelled = false

/-- A caller stays one in every phase. -/
theorem Worker.CallsFor.go {J : Type} {w : Worker J} {id : Nat} {key : String} {job : J} (h : w.CallsFor id key job)
    (p : Phase) : Worker.CallsFor { w with phase := p } id key job :=
  ⟨h.id, h.key, h.job, h.role, h.cancelled⟩

namespace Timetable

variable {J : Type} {t t' : Timetable J} {v w : Worker J} {key : String} {job : J} {id : Nat}
variable {hs hs' : List (Happening J)}

/-! ### What a worker was seen to do -/

/-- The runs that a worker has begun: their keys and jobs. -/
def begunBy (hs : List (Happening J)) (id : Nat) : List (String × J) :=
  hs.filterMap fun
    | .begun worker key job => if worker = id then some (key, job) else none
    | _ => none

/-- The runs that a worker has ended. -/
def endedBy (hs : List (Happening J)) (id : Nat) : List (String × J) :=
  hs.filterMap fun
    | .ended worker key job => if worker = id then some (key, job) else none
    | _ => none

/-- No worker has a name. -/
def Gone (t : Timetable J) (id : Nat) : Prop :=
  ∀ w ∈ t.workers, w.id ≠ id

/-- Nothing of what was seen was done by a worker. -/
def Unseen (hs : List (Happening J)) (id : Nat) : Prop :=
  begunBy hs id = [] ∧ endedBy hs id = []

theorem begunBy_append : begunBy (hs ++ hs') id = begunBy hs id ++ begunBy hs' id :=
  List.filterMap_append

theorem endedBy_append : endedBy (hs ++ hs') id = endedBy hs id ++ endedBy hs' id :=
  List.filterMap_append

/-- A step of a worker is seen as its own. -/
theorem unseen_of_moveWorker? {m : Move} {fate : Fate} (h : t.moveWorker? w m = some (fate, hs)) (hid : w.id ≠ id) :
    Unseen hs id := by
  cases m
  all_goals
    simp only [moveWorker?] at h
    repeat' split at h
    all_goals cases h
    all_goals simp [Unseen, begunBy, endedBy, hid]

/-! ### Other names -/

/-- Two timetables have the same worker of a name, or both have none. -/
def Apart (id : Nat) (t t' : Timetable J) : Prop :=
  ∀ w : Worker J, w.id = id → (w ∈ t'.workers ↔ w ∈ t.workers)

theorem Apart.refl (id : Nat) (t : Timetable J) : Apart id t t := fun _ _ => .rfl

theorem Apart.trans {t'' : Timetable J} (h : Apart id t t') (h' : Apart id t' t'') : Apart id t t'' := fun w hw =>
  (h' w hw).trans (h w hw)

theorem apart_cancel (t : Timetable J) {timer : Nat} (h : timer ≠ id) : Apart id t (t.cancel timer) := by
  intro w hw
  constructor
  · intro hmem
    obtain ⟨v, hv, rfl⟩ := List.mem_map.1 hmem
    split at hw
    · next hvid => exact absurd (hvid.symm.trans hw) h
    · next hvid => rwa [if_neg hvid]
  · intro hmem
    refine List.mem_map.2 ⟨w, hmem, if_neg fun hwid => h ?_⟩
    rw [← hwid, hw]

theorem apart_foldl_cancel :
    ∀ (es : List (Entry J)) (t : Timetable J), (∀ e ∈ es, e.timer ≠ id) →
      Apart id t (es.foldl (fun t e => t.cancel e.timer) t)
  | [], t, _ => .refl id t
  | e :: es, t, h =>
    (apart_cancel t (h e List.mem_cons_self)).trans
      (apart_foldl_cancel es _ fun d hd => h d (List.mem_cons_of_mem e hd))

/-- A new worker of another name; entries, names and gauge do not matter. -/
theorem apart_hire (t : Timetable J) (h : w.id ≠ id) (es : Dict (Entry J)) (n gauge : Nat) :
    Apart id t ⟨es, t.workers ++ [w], n, gauge⟩ := by
  intro v hv
  have hne : v ≠ w := by
    rintro rfl
    exact h hv
  simp [hne]

/-! Actions that change entries leave the worker of a name alone, if they neither let it in nor tell it to stop. -/

theorem apart_enter (t : Timetable J) (key cron : String) (s : Schedule) (maxJitter : Span) (job : J)
    (hfresh : t.fresh + 1 ≠ id) (htimer : ∀ e, t.entries.get? key = some e → e.timer ≠ id) :
    Apart id t (t.enter key cron s maxJitter job) := by
  unfold enter
  cases he : t.entries.get? key with
  | none => exact apart_hire t hfresh _ _ _
  | some e => exact (apart_cancel t (htimer e he)).trans (apart_hire (t.cancel e.timer) hfresh _ _ _)

theorem apart_unschedule (t : Timetable J) (key : String)
    (htimer : ∀ e, t.entries.get? key = some e → e.timer ≠ id) : Apart id t (t.unschedule key).1 := by
  unfold unschedule
  cases he : t.entries.get? key with
  | none => exact .refl id t
  | some e => exact apart_cancel t (htimer e he)

theorem apart_invoke (key : String) (h : id < t.fresh) : Apart id t (t.invoke key).1 := by
  unfold invoke
  cases t.entries.get? key with
  | none => exact .refl id t
  | some e => exact apart_hire t (Nat.ne_of_gt h) _ _ _

theorem apart_shutdown (t : Timetable J) (htimer : ∀ key e, t.entries.get? key = some e → e.timer ≠ id) :
    Apart id t t.shutdown := by
  refine apart_foldl_cancel t.entries.values t fun e he => ?_
  obtain ⟨key, hkey⟩ := Dict.mem_values_iff.1 he
  exact htimer key e hkey

theorem mem_settleFate_of_ne {ws : List (Worker J)} (fate : Fate) (hv : v ∈ ws) (h : v.id ≠ w.id) :
    v ∈ settleFate ws w fate := by
  cases fate with
  | stays p => exact List.mem_map.2 ⟨v, hv, if_neg h⟩
  | waits p => exact List.mem_append_left _ (List.mem_filter.2 ⟨hv, decide_eq_true h⟩)
  | done => exact List.mem_filter.2 ⟨hv, decide_eq_true h⟩

/-- A step that leaves a worker in its place brings it into the phase of its fate. -/
theorem mem_settleFate_stays {ws : List (Worker J)} (hw : w ∈ ws) (p : Phase) :
    { w with phase := p } ∈ settleFate ws w (.stays p) :=
  List.mem_map.2 ⟨w, hw, if_pos rfl⟩

theorem id_ne_of_mem_settleFate_done {ws : List (Worker J)} (h : v ∈ settleFate ws w .done) : v.id ≠ w.id :=
  of_decide_eq_true (List.mem_filter.1 h).2

theorem apart_settleFate (hg : Guarded t) (hw : w ∈ t.workers) (h : w.id ≠ id) (fate : Fate) :
    Apart id t { t with workers := settleFate t.workers w fate } := by
  intro v hv
  have hne : v.id ≠ w.id := fun hvw => h (hvw.symm.trans hv)
  refine ⟨fun hmem => ?_, fun hmem => mem_settleFate_of_ne fate hmem hne⟩
  rcases mem_settleFate hg.names hw hmem with ⟨hmem, -⟩ | ⟨p, -, rfl⟩
  · exact hmem
  · exact absurd rfl hne

/-- Some names were given out, and those of the timers of all entries were given out to others. So it is with callers. -/
structure Engaged (t : Timetable J) (callers : Set Nat) : Prop where
  hired : ∀ i ∈ callers, i < t.fresh
  timers : ∀ key e, t.entries.get? key = some e → e.timer < t.fresh ∧ e.timer ∉ callers

theorem fresh_foldl_cancel (es : List (Entry J)) (t : Timetable J) :
    (es.foldl (fun t e => t.cancel e.timer) t).fresh = t.fresh := by
  induction es generalizing t with
  | nil => rfl
  | cons e es ih => exact ih (t.cancel e.timer)

theorem fresh_enter (t : Timetable J) (key cron : String) (s : Schedule) (maxJitter : Span) (job : J) :
    (t.enter key cron s maxJitter job).fresh = t.fresh + 2 := by
  unfold enter
  cases t.entries.get? key <;> rfl

theorem fresh_unschedule (t : Timetable J) (key : String) : (t.unschedule key).1.fresh = t.fresh := by
  unfold unschedule
  cases t.entries.get? key <;> rfl

theorem get?_unschedule (t : Timetable J) (key k : String) :
    (t.unschedule key).1.entries.get? k = if k = key then none else t.entries.get? k := by
  unfold unschedule
  cases he : t.entries.get? key with
  | none =>
    show t.entries.get? k = _
    split
    · next hk => rw [hk, he]
    · rfl
  | some e => exact Dict.get?_erase t.entries key k

theorem entries_invoke (t : Timetable J) (key : String) : (t.invoke key).1.entries = t.entries := by
  unfold invoke
  cases t.entries.get? key <;> rfl

theorem fresh_le_invoke (t : Timetable J) (key : String) : t.fresh ≤ (t.invoke key).1.fresh := by
  unfold invoke
  cases t.entries.get? key with
  | none => exact Nat.le_refl _
  | some e => exact Nat.le_succ _

namespace Engaged

variable {callers : Set Nat}

theorem empty : Engaged (Timetable.empty : Timetable J) ∅ := ⟨fun _ hi => False.elim hi, by simp [Timetable.empty]⟩

theorem timer_ne (h : Engaged t {id}) {e : Entry J} (he : t.entries.get? key = some e) : e.timer ≠ id :=
  (h.timers key e he).2

/-- More names, and entries that were there before. -/
theorem grow (h : Engaged t callers) (hfresh : t.fresh ≤ t'.fresh)
    (hentries : ∀ key e, t'.entries.get? key = some e → t.entries.get? key = some e) : Engaged t' callers := by
  refine ⟨fun i hi => Nat.lt_of_lt_of_le (h.hired i hi) hfresh, fun key e he => ?_⟩
  obtain ⟨hlt, hnot⟩ := h.timers key e (hentries key e he)
  exact ⟨Nat.lt_of_lt_of_le hlt hfresh, hnot⟩

theorem step (h : Engaged t callers) (hs : Step t t') : Engaged t' callers := by
  cases hs with
  | stays => exact h
  | enters key cron s maxJitter job =>
    have hfresh := fresh_enter t key cron s maxJitter job
    refine ⟨fun i hi => ?_, fun k e he => ?_⟩
    · have := h.hired i hi
      omega
    · rw [get?_enter] at he
      split at he
      · obtain rfl := Option.some.inj he
        have htimer : t.fresh + 1 ∉ callers := fun hmem => by
          have := h.hired _ hmem
          omega
        exact ⟨by rw [hfresh]; exact Nat.lt_succ_self _, htimer⟩
      · obtain ⟨hlt, hnot⟩ := h.timers k e he
        exact ⟨by omega, hnot⟩
  | removes key =>
    refine h.grow (Nat.le_of_eq (fresh_unschedule t key).symm) fun k e he => ?_
    rw [get?_unschedule] at he
    split at he
    · cases he
    · exact he
  | hires key => exact h.grow (fresh_le_invoke t key) fun k e he => by rwa [entries_invoke] at he
  | stops => exact h.grow (Nat.le_of_eq (fresh_foldl_cancel _ t).symm) fun k e he => by cases he
  | moves hm =>
    obtain ⟨w, -, fate, -, rfl⟩ := move?_eq_some hm
    exact h.grow (Nat.le_refl _) fun k e he => he

theorem run (as : List (Action J)) : ∀ {t : Timetable J}, Engaged t callers → Engaged (t.run as).1 callers := by
  induction as with
  | nil => exact fun h => h
  | cons a as ih => exact fun h => ih (h.step (step_act _ a))

/-- An action is a step of some worker, or it leaves the worker of an engaged name alone and shows nothing of it. -/
theorem act_cases (h : Engaged t {id}) (a : Action J) :
    (Apart id t (t.act a).1 ∧ Unseen (t.act a).2 id) ∨ ∃ i m, t.move? i m = some (t.act a) := by
  have henter : ∀ key cron s maxJitter job, Apart id t (t.enter key cron s maxJitter job) := fun key cron s maxJitter job =>
    apart_enter t key cron s maxJitter job (by have := h.hired id rfl; omega) fun _ he => h.timer_ne he
  cases a with
  | schedule key cron maxJitter job =>
    left
    simp only [act, schedule]
    cases Schedule.read cron with
    | error e => exact ⟨.refl id t, rfl, rfl⟩
    | ok s => exact ⟨henter key cron s maxJitter job, rfl, rfl⟩
  | sync key cron maxJitter job =>
    left
    by_cases hsync : t.InSync key cron maxJitter
    · simp only [act, sync, if_pos hsync]
      exact ⟨.refl id t, rfl, rfl⟩
    · simp only [act, sync, if_neg hsync, schedule]
      cases Schedule.read cron with
      | error e => exact ⟨.refl id t, rfl, rfl⟩
      | ok s => exact ⟨henter key cron s maxJitter job, rfl, rfl⟩
  | unschedule key =>
    refine .inl ⟨apart_unschedule t key fun _ he => h.timer_ne he, ?_⟩
    simp only [act, unschedule]
    cases t.entries.get? key <;> exact ⟨rfl, rfl⟩
  | invoke key => exact .inl ⟨apart_invoke key (h.hired id rfl), rfl, rfl⟩
  | shutdown => exact .inl ⟨apart_shutdown t fun _ _ he => h.timer_ne he, rfl, rfl⟩
  | move i m =>
    simp only [act]
    cases hm : t.move? i m with
    | none => exact .inl ⟨.refl id t, rfl, rfl⟩
    | some r => exact .inr ⟨i, m, hm⟩

end Engaged

/-! ### A call and its course -/

/-- How far the call of a job has come, by what was seen since its caller was let in. -/
inductive Served (t : Timetable J) (hs : List (Happening J)) (id : Nat) (key : String) (job : J) : Prop
  | waits (w : Worker J) (hw : w ∈ t.workers) (hc : w.CallsFor id key job)
    (hphase : w.phase = .queued ∨ w.phase = .holding) (hseen : Unseen hs id)
  | runs (w : Worker J) (hw : w ∈ t.workers) (hc : w.CallsFor id key job) (hphase : w.phase = .running)
    (hbegun : begunBy hs id = [(key, job)]) (hended : endedBy hs id = [])
  | done (hgone : Gone t id) (hbegun : begunBy hs id = [(key, job)])
    (hended : endedBy hs id = [(key, job)])

/-- A caller that is not there any more has run its job. -/
theorem Served.seen_of_gone (h : Served t hs id key job) (hgone : Gone t id) :
    begunBy hs id = [(key, job)] ∧ endedBy hs id = [(key, job)] := by
  cases h with
  | waits w hw hc _ _ => exact absurd hc.id (hgone w hw)
  | runs w hw hc _ _ _ => exact absurd hc.id (hgone w hw)
  | done _ hbegun hended => exact ⟨hbegun, hended⟩

/-- The three steps of a caller. -/
theorem moveWorker?_caller {m : Move} {fate : Fate} (hc : w.CallsFor id key job)
    (hphase : w.phase = .queued ∨ w.phase = .holding ∨ w.phase = .running)
    (h : t.moveWorker? w m = some (fate, hs)) :
    (w.phase = .queued ∧ fate = .stays .holding ∧ hs = []) ∨
      (w.phase = .holding ∧ fate = .stays .running ∧ hs = [.begun id key job]) ∨
      (w.phase = .running ∧ fate = .done ∧ hs = [.ended id key job]) := by
  obtain ⟨rfl, rfl, rfl, hrole, hcancelled⟩ := hc
  cases m
  all_goals
    simp only [moveWorker?, hrole, hcancelled] at h
    repeat' split at h
    all_goals simp_all

namespace Served

/-- What is done to other workers does not matter to a call. -/
theorem apart (h : Served t hs id key job) (ht : Apart id t t') (hseen : Unseen hs' id) :
    Served t' (hs ++ hs') id key job := by
  have hbegun : begunBy (hs ++ hs') id = begunBy hs id := by rw [begunBy_append, hseen.1, List.append_nil]
  have hended : endedBy (hs ++ hs') id = endedBy hs id := by rw [endedBy_append, hseen.2, List.append_nil]
  cases h with
  | waits w hw hc hp hs => exact .waits w ((ht w hc.id).2 hw) hc hp ⟨hbegun.trans hs.1, hended.trans hs.2⟩
  | runs w hw hc hp hb he => exact .runs w ((ht w hc.id).2 hw) hc hp (hbegun.trans hb) (hended.trans he)
  | done hgone hb he =>
    exact .done (fun w hw hid => hgone w ((ht w hid).1 hw) hid) (hbegun.trans hb) (hended.trans he)

/-- A step of some worker: of another one, or one of the three that the caller takes. -/
theorem move (hg : Guarded t) (h : Served t hs id key job) {i : Nat} {m : Move}
    (hm : t.move? i m = some (t', hs')) : Served t' (hs ++ hs') id key job := by
  obtain ⟨v, hv, fate, hfate, rfl⟩ := move?_eq_some hm
  by_cases hid : v.id = id
  case neg => exact h.apart (apart_settleFate hg hv hid fate) (unseen_of_moveWorker? hfate hid)
  case pos =>
    cases h with
    | waits w hw hc hp hseen =>
      obtain rfl := hg.eq_of_id_eq hv hw (hid.trans hc.id.symm)
      rcases moveWorker?_caller hc (by tauto) hfate with ⟨-, rfl, rfl⟩ | ⟨-, rfl, rfl⟩ | ⟨hrunning, -, -⟩
      · exact .waits _ (mem_settleFate_stays hv _) (hc.go _) (.inr rfl) (by rwa [List.append_nil])
      · exact .runs _ (mem_settleFate_stays hv _) (hc.go _) rfl (by rw [begunBy_append, hseen.1]; simp [begunBy])
          (by rw [endedBy_append, hseen.2]; simp [endedBy])
      · rw [hrunning] at hp
        simp at hp
    | runs w hw hc hp hb he =>
      obtain rfl := hg.eq_of_id_eq hv hw (hid.trans hc.id.symm)
      rcases moveWorker?_caller hc (.inr (.inr hp)) hfate with ⟨hqueued, -, -⟩ | ⟨hholding, -, -⟩ | ⟨-, rfl, rfl⟩
      · rw [hqueued] at hp
        cases hp
      · rw [hholding] at hp
        cases hp
      · refine .done (fun w hw => ?_) (by rw [begunBy_append, hb]; simp [begunBy])
          (by rw [endedBy_append, he]; simp [endedBy])
        rw [← hid]
        exact id_ne_of_mem_settleFate_done hw
    | done hgone hb he => exact absurd hid (hgone v hv)

theorem act (hg : Guarded t) (hn : Engaged t {id}) (h : Served t hs id key job) (a : Action J) :
    Served (t.act a).1 (hs ++ (t.act a).2) id key job := by
  rcases hn.act_cases a with ⟨hapart, hseen⟩ | ⟨i, m, hm⟩
  · exact h.apart hapart hseen
  · exact h.move hg hm

/-- A call is served, whatever else is done and in whatever order, by induction on the actions. -/
theorem run (as : List (Action J)) : ∀ {t : Timetable J} {hs : List (Happening J)}, Guarded t → Engaged t {id} →
    Served t hs id key job → Served (t.run as).1 (hs ++ (t.run as).2) id key job := by
  induction as with
  | nil =>
    intro t hs _ _ h
    simpa [Timetable.run] using h
  | cons a as ih =>
    intro t hs hg hn h
    have hstep := step_act t a
    have hrest := ih (hg.step hstep) (hn.step hstep) (h.act hg hn a)
    rwa [List.append_assoc] at hrest

end Served

theorem invoke_eq {e : Entry J} (he : t.entries.get? key = some e) :
    t.invoke key =
      (⟨t.entries, t.workers ++ [⟨t.fresh, key, e.job, e.lock, .caller, .queued, false⟩], t.fresh + 1, t.gauge⟩,
        some t.fresh) := by
  unfold invoke
  rw [he]

/-- A call lets in a caller with a new name, for the job of its key. -/
theorem served_invoke (hn : Engaged t ∅) {e : Entry J} (he : t.entries.get? key = some e) :
    Engaged (t.invoke key).1 {t.fresh} ∧ Served (t.invoke key).1 [] t.fresh key e.job := by
  rw [invoke_eq he]
  refine ⟨⟨fun i hi => ?hired, fun k e' he' => ?timers⟩, ?served⟩
  case hired =>
    obtain rfl : i = t.fresh := hi
    exact Nat.lt_succ_self _
  case timers =>
    have hlt := (hn.timers k e' he').1
    exact ⟨Nat.lt_succ_of_lt hlt, fun heq => Nat.ne_of_lt hlt heq⟩
  case served =>
    exact .waits ⟨t.fresh, key, e.job, e.lock, .caller, .queued, false⟩ (by simp) ⟨rfl, rfl, rfl, rfl, rfl⟩ (.inl rfl)
      ⟨rfl, rfl⟩

/-! ### A call comes to its end -/

/-- Steps of workers, as a history. -/
def moves (ms : List (Nat × Move)) : List (Action J) :=
  ms.map fun (worker, m) => .move worker m

theorem worker?_eq_some (hg : Guarded t) (hw : w ∈ t.workers) : t.worker? w.id = some w := by
  unfold worker?
  cases hfind : t.workers.find? fun v => v.id = w.id with
  | none => exact absurd (List.find?_eq_none.1 hfind w hw) (by simp)
  | some v =>
    have hid : v.id = w.id := by simpa using List.find?_some hfind
    rw [hg.eq_of_id_eq (List.mem_of_find?_eq_some hfind) hw hid]

/-- A step that a worker can take is taken. -/
theorem act_move (hg : Guarded t) (hw : w ∈ t.workers) {m : Move} {fate : Fate}
    (h : t.moveWorker? w m = some (fate, hs)) :
    (t.act (.move w.id m)).1 = { t with workers := settleFate t.workers w fate } := by
  simp only [act, move?, worker?_eq_some hg hw, h, Option.map_some, Option.getD_some]

theorem run_moves_cons (t : Timetable J) (id : Nat) (m : Move) (ms : List (Nat × Move)) :
    (t.run (moves ((id, m) :: ms))).1 = ((t.act (.move id m)).1.run (moves ms)).1 := rfl

theorem run_moves_append (t : Timetable J) (ms ms' : List (Nat × Move)) :
    (t.run (moves (ms ++ ms'))).1 = ((t.run (moves ms)).1.run (moves ms')).1 := by
  rw [moves, List.map_append, run_append]
  rfl

theorem Guarded.act (hg : Guarded t) (a : Action J) : Guarded (t.act a).1 :=
  hg.step (step_act t a)

/-- A holder that is not told to stop can start. -/
theorem moveWorker?_start (hphase : w.phase = .holding) (hcancelled : w.cancelled = false) :
    t.moveWorker? w .start = some (.stays .running, [.begun w.id w.key w.job]) := by
  simp only [moveWorker?, hphase, hcancelled, if_neg Bool.false_ne_true]

/-- Who has a lock is moved, and nobody else. -/
theorem mem_act_of_locks (hg : Guarded t) (hv : v ∈ t.workers) (hlocks : v.phase.locks = true) {m : Move} {fate : Fate}
    (h : t.moveWorker? v m = some (fate, hs)) (hw : w ∈ t.workers) (hfree : w.phase.locks = false) :
    w ∈ (t.act (.move v.id m)).1.workers := by
  rw [act_move hg hv h]
  refine mem_settleFate_of_ne fate hw fun hid => ?_
  rw [hg.eq_of_id_eq hw hv hid, hlocks] at hfree
  cases hfree

/-- Steps of workers that free a lock, and leave those alone that have none. -/
structure Frees (t : Timetable J) (lock : Nat) (ms : List (Nat × Move)) : Prop where
  free : (t.run (moves ms)).1.IsFree lock
  keeps : ∀ w ∈ t.workers, w.phase.locks = false → w ∈ (t.run (moves ms)).1.workers

/-- A holder that goes on to a phase without the lock, or is done, leaves its lock free. -/
theorem frees_of_move (hg : Guarded t) (hv : v ∈ t.workers) (hlocks : v.phase.locks = true) {m : Move} {fate : Fate}
    (h : t.moveWorker? v m = some (fate, hs)) (hfate : ∀ p, fate.phase? = some p → p.locks = false) :
    Frees t v.lock [(v.id, m)] := by
  refine ⟨?_, fun w hw hfree => mem_act_of_locks hg hv hlocks h hw hfree⟩
  rw [run_moves_cons, act_move hg hv h]
  intro w hw hlock
  rcases mem_settleFate hg.names hv hw with ⟨hw, hne⟩ | ⟨p, hp, rfl⟩
  · by_contra hw'
    exact hne (hg.holder w hw v hv hlock (by simpa using hw') hlocks)
  · exact hfate p hp

theorem frees_of_running (hg : Guarded t) (hv : v ∈ t.workers) (hphase : v.phase = .running) :
    Frees t v.lock [(v.id, .finish)] := by
  have hlocks : v.phase.locks = true := by rw [hphase]; rfl
  cases hrole : v.role with
  | timer s maxJitter =>
    have hfinish : t.moveWorker? v .finish = some (.stays .arming, [.ended v.id v.key v.job]) := by
      simp only [moveWorker?, hphase, hrole]
    exact frees_of_move hg hv hlocks hfinish fun p hp => by cases hp; rfl
  | caller =>
    have hfinish : t.moveWorker? v .finish = some (.done, [.ended v.id v.key v.job]) := by
      simp only [moveWorker?, hphase, hrole]
    exact frees_of_move hg hv hlocks hfinish fun p hp => by cases hp

theorem exists_frees (hg : Guarded t) (lock : Nat) : ∃ ms, Frees t lock ms := by
  by_cases hfree : t.IsFree lock
  case pos => exact ⟨[], hfree, fun w hw _ => hw⟩
  case neg =>
    obtain ⟨v, hv, rfl, hlocks⟩ : ∃ v ∈ t.workers, v.lock = lock ∧ v.phase.locks = true := by
      simpa [IsFree] using hfree
    cases hphase : v.phase with
    | running => exact ⟨_, frees_of_running hg hv hphase⟩
    | holding =>
      cases hcancelled : v.cancelled with
      | true =>
        have hstart : t.moveWorker? v .start = some (.done, []) := by
          simp only [moveWorker?, hphase, hcancelled, if_true]
        exact ⟨_, frees_of_move hg hv hlocks hstart fun p hp => by cases hp⟩
      | false =>
        -- It has to run its job first.
        have hstart := moveWorker?_start (t := t) hphase hcancelled
        have hv' : { v with phase := .running } ∈ (t.act (.move v.id .start)).1.workers := by
          rw [act_move hg hv hstart]
          exact mem_settleFate_stays hv .running
        have hfrees := frees_of_running (hg.act _) hv' rfl
        exact ⟨[(v.id, .start), (v.id, .finish)], hfrees.free, fun w hw hfree =>
          hfrees.keeps w (mem_act_of_locks hg hv hlocks hstart hw hfree) hfree⟩
    | arming | sleeping | roused | queued =>
      rw [hphase] at hlocks
      cases hlocks

/-! Each phase of a caller has one more step to go than the next one. -/

theorem gone_of_running (hg : Guarded t) (hw : w ∈ t.workers) (hc : w.CallsFor id key job) (hphase : w.phase = .running) :
    Gone (t.run (moves [(id, .finish)])).1 id := by
  have hfinish : t.moveWorker? w .finish = some (.done, [.ended w.id w.key w.job]) := by
    simp only [moveWorker?, hphase, hc.role]
  obtain rfl := hc.id
  rw [run_moves_cons, act_move hg hw hfinish]
  exact fun v hv => id_ne_of_mem_settleFate_done hv

theorem gone_of_holding (hg : Guarded t) (hw : w ∈ t.workers) (hc : w.CallsFor id key job) (hphase : w.phase = .holding) :
    Gone (t.run (moves [(id, .start), (id, .finish)])).1 id := by
  have hstart := moveWorker?_start (t := t) hphase hc.cancelled
  have hw' : { w with phase := .running } ∈ (t.act (.move w.id .start)).1.workers := by
    rw [act_move hg hw hstart]
    exact mem_settleFate_stays hw .running
  obtain rfl := hc.id
  rw [run_moves_cons]
  exact gone_of_running (hg.act _) hw' (hc.go _) rfl

theorem gone_of_queued (hg : Guarded t) (hw : w ∈ t.workers) (hc : w.CallsFor id key job) (hphase : w.phase = .queued)
    (hfree : t.IsFree w.lock) : Gone (t.run (moves [(id, .acquire), (id, .start), (id, .finish)])).1 id := by
  have hacquire : t.moveWorker? w .acquire = some (.stays .holding, []) := by
    simp only [moveWorker?, hphase, if_pos hfree]
  have hw' : { w with phase := .holding } ∈ (t.act (.move w.id .acquire)).1.workers := by
    rw [act_move hg hw hacquire]
    exact mem_settleFate_stays hw .holding
  obtain rfl := hc.id
  rw [run_moves_cons]
  exact gone_of_holding (hg.act _) hw' (hc.go _) rfl

/-- A caller can always be brought to its end: the lock that it waits for can be freed. -/
theorem exists_moves_gone (hg : Guarded t) (h : Served t hs id key job) : ∃ ms, Gone (t.run (moves ms)).1 id := by
  cases h with
  | done hgone _ _ => exact ⟨[], hgone⟩
  | runs w hw hc hphase _ _ => exact ⟨_, gone_of_running hg hw hc hphase⟩
  | waits w hw hc hphase _ =>
    rcases hphase with hqueued | hholding
    case inr => exact ⟨_, gone_of_holding hg hw hc hholding⟩
    case inl =>
      obtain ⟨ms, hfrees⟩ := exists_frees hg w.lock
      have hw' := hfrees.keeps w hw (by rw [hqueued]; rfl)
      refine ⟨ms ++ [(id, .acquire), (id, .start), (id, .finish)], ?_⟩
      rw [run_moves_append]
      exact gone_of_queued (hg.run _) hw' hc hqueued hfrees.free

/-- A call lets in a caller. Whatever is done after that, the caller has run the job at most once, and nothing else; and
it can still come to its end, where it has run the job exactly once. -/
def RunsOnce (t : Timetable J) (key : String) (job : J) : Prop :=
  ∃ caller, (t.invoke key).2 = some caller ∧ ∀ after,
    Served ((t.invoke key).1.run after).1 ((t.invoke key).1.run after).2 caller key job ∧
    ∃ ms, begunBy ((t.invoke key).1.run (after ++ moves ms)).2 caller = [(key, job)] ∧
      endedBy ((t.invoke key).1.run (after ++ moves ms)).2 caller = [(key, job)]

theorem runsOnce_invoke (hg : Guarded t) (hn : Engaged t ∅) {e : Entry J} (he : t.entries.get? key = some e) :
    RunsOnce t key e.job := by
  obtain ⟨hengaged, hserved⟩ := served_invoke hn he
  have hg' := hg.invoke key
  have hrun : ∀ as, Served ((t.invoke key).1.run as).1 ((t.invoke key).1.run as).2 t.fresh key e.job := fun as =>
    hserved.run as hg' hengaged
  refine ⟨t.fresh, by rw [invoke_eq he], fun after => ⟨hrun after, ?_⟩⟩
  obtain ⟨ms, hgone⟩ := exists_moves_gone (hg'.run after) (hrun after)
  refine ⟨ms, (hrun (after ++ moves ms)).seen_of_gone ?_⟩
  rwa [run_append]

end Timetable

end Allotment
