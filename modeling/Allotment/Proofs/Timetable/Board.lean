import Mathlib.Data.Finmap
import Allotment.Proofs.Text.Blanks
import Allotment.Proofs.Timetable.Caller

/-!
# A timetable as a map

A board is a finite map from keys to what is posted for them. It has no workers, no locks and no gauge: it only says
what a timetable should answer.

* `Board.act`, `Board.answer`, `Board.run` — what calls make of a board and what they are answered, over histories;
* `Timetable.answer` — what calls of a timetable are answered;
* `Agrees t b` — the entries of a timetable post what stands on a board; `Agrees.act` keeps this over one call;
* `Mirrors t b` — all that can be found out about a timetable by calls: keys, their number, expressions, the gauge, the
  answers, and which job a call runs;
* `run_mirrors_board` — so it is along every history.

An expression is posted without the blanks at its ends, which `Schedule.read_trimmed` says do not matter.
-/

namespace Allotment

theorem Schedule.read_trimmed (expression : String) : read (Text.trimmed expression) = read expression := by
  simp only [read, Text.trimmed, String.toList_ofList, Text.trim_trim]

/-! ### Boards -/

/-- What is posted for a key: the cron expression without blanks at its ends, the jitter and the job. -/
structure Posting (J : Type) where
  cron : String
  maxJitter : Span
  job : J

/-- What an entry posts. -/
def Entry.posting {J : Type} (e : Entry J) : Posting J := ⟨e.cron, e.maxJitter, e.job⟩

/-- What is posted for each key. -/
abbrev Board (J : Type) := Finmap fun _ : String => Posting J

/-- What a call is answered. -/
inductive Answer where
  | done
  | flag (b : Bool)
  | refused (e : ScheduleError)
  deriving DecidableEq, Repr

/-- Whether an answer says that nothing was done. -/
def Answer.Negative (a : Answer) : Prop :=
  a = .flag false ∨ ∃ e, a = .refused e

open Timetable (Action)

variable {J : Type}

namespace Board

/-- Posts an expression, a jitter and a job for a key, in place of what was posted for it. -/
def post (b : Board J) (key cron : String) (maxJitter : Span) (job : J) : Board J :=
  b.insert key ⟨Text.trimmed cron, maxJitter, job⟩

/-- Whether an expression and a jitter are posted for a key. -/
def Shows (b : Board J) (key cron : String) (maxJitter : Span) : Prop :=
  ∃ p ∈ b.lookup key, p.cron = Text.trimmed cron ∧ p.maxJitter = maxJitter

instance (b : Board J) (key cron : String) (maxJitter : Span) : Decidable (b.Shows key cron maxJitter) :=
  inferInstanceAs (Decidable (∃ p ∈ b.lookup key, _))

/-- What a call makes of a board. A step of a worker makes nothing of it. -/
def act (b : Board J) : Action J → Board J
  | .schedule key cron maxJitter job =>
    match Schedule.read cron with
    | .ok _ => b.post key cron maxJitter job
    | .error _ => b
  | .sync key cron maxJitter job =>
    match Schedule.read cron with
    | .ok _ => if b.Shows key cron maxJitter then b else b.post key cron maxJitter job
    | .error _ => b
  | .unschedule key => b.erase key
  | .invoke _ => b
  | .shutdown => ∅
  | .move _ _ => b

/-- What a call is answered, by what is posted. -/
def answer (b : Board J) : Action J → Answer
  | .schedule _ cron _ _ =>
    match Schedule.read cron with
    | .ok _ => .done
    | .error e => .refused e
  | .sync key cron maxJitter _ =>
    match Schedule.read cron with
    | .ok _ => .flag (decide (¬b.Shows key cron maxJitter))
    | .error e => .refused e
  | .unschedule key => .flag (decide (key ∈ b))
  | .invoke key => .flag (decide (key ∈ b))
  | .shutdown => .done
  | .move _ _ => .done

/-- What a history makes of a board. -/
def run (b : Board J) (as : List (Action J)) : Board J :=
  as.foldl act b

theorem lookup_post (b : Board J) (key cron : String) (maxJitter : Span) (job : J) (k : String) :
    (b.post key cron maxJitter job).lookup k =
      if k = key then some ⟨Text.trimmed cron, maxJitter, job⟩ else b.lookup k := by
  split
  · next hk =>
    subst hk
    exact b.lookup_insert
  · next hk => exact b.lookup_insert_of_ne hk

theorem lookup_erase (b : Board J) (key k : String) :
    Finmap.lookup k (b.erase key) = if k = key then none else b.lookup k := by
  split
  · next hk =>
    subst hk
    exact Finmap.lookup_erase k b
  · next hk => exact Finmap.lookup_erase_ne hk

end Board

namespace Timetable

variable {t : Timetable J} {b : Board J}

/-- What a call is answered. A caller is let in to be told of success when it is done. -/
def answer (t : Timetable J) : Action J → Answer
  | .schedule key cron maxJitter job =>
    match t.schedule key cron maxJitter job with
    | .ok _ => .done
    | .error e => .refused e
  | .sync key cron maxJitter job =>
    match t.sync key cron maxJitter job with
    | .ok (_, _, changed) => .flag changed
    | .error e => .refused e
  | .unschedule key => .flag (t.unschedule key).2.2
  | .invoke key => .flag (t.invoke key).2.isSome
  | .shutdown => .done
  | .move _ _ => .done

/-! ### What stands in a timetable -/

/-- The entries of a timetable post what stands on a board, each expression reads, and the gauge was told last. -/
structure Agrees (t : Timetable J) (b : Board J) : Prop where
  posting : ∀ key, (t.entries.get? key).map Entry.posting = b.lookup key
  reads : ∀ key, ∀ p ∈ b.lookup key, ∃ s, Schedule.read p.cron = .ok s
  gauge : t.gauge = t.size

namespace Agrees

theorem empty : Agrees (Timetable.empty : Timetable J) ∅ :=
  ⟨fun _ => rfl, fun _ _ hp => (by cases hp), rfl⟩

theorem contains (h : Agrees t b) (key : String) : t.entries.contains key = decide (key ∈ b) := by
  rw [Dict.contains, ← Option.isSome_map, h.posting]
  exact Bool.eq_iff_iff.2 (by rw [Finmap.lookup_isSome, decide_eq_true_iff])

theorem cron? (h : Agrees t b) (key : String) : t.cron? key = (b.lookup key).map Posting.cron := by
  rw [← h.posting, Option.map_map]
  rfl

theorem keys (h : Agrees t b) : t.entries.keys.toFinset = b.keys := by
  ext key
  rw [List.mem_toFinset, Dict.mem_keys_iff, h.contains, decide_eq_true_iff, Finmap.mem_keys]

theorem size (h : Agrees t b) : t.size = b.keys.card := by
  rw [← h.keys, List.toFinset_card_of_nodup (Dict.nodup_keys _), Dict.keys, List.length_map]
  rfl

theorem isEmpty (h : Agrees t b) : t.entries.isEmpty = true ↔ b = ∅ := by
  have hkeys : t.entries.isEmpty = true ↔ t.entries.keys.toFinset = ∅ := by
    rw [List.toFinset_eq_empty_iff, Dict.keys, List.map_eq_nil_iff, Dict.isEmpty, List.isEmpty_iff]
  rw [hkeys, h.keys]
  constructor
  · intro hb
    refine Finmap.ext_lookup fun key => ?_
    rw [Finmap.lookup_empty, Finmap.lookup_eq_none, ← Finmap.mem_keys, hb]
    exact Finset.notMem_empty key
  · rintro rfl
    exact Finmap.keys_empty

theorem inSync_iff (h : Agrees t b) (key cron : String) (maxJitter : Span) :
    t.InSync key cron maxJitter ↔ b.Shows key cron maxJitter := by
  simp only [InSync, Board.Shows, ← h.posting, Option.mem_def, Option.map_eq_some_iff]
  constructor
  · rintro ⟨e, he, hcron, hjitter⟩
    exact ⟨e.posting, ⟨e, he, rfl⟩, hcron, hjitter⟩
  · rintro ⟨_, ⟨e, he, rfl⟩, hcron, hjitter⟩
    exact ⟨e, he, hcron, hjitter⟩

/-- What is posted with an expression reads if the expression does. -/
theorem reads_of_shows (h : Agrees t b) {key cron : String} {maxJitter : Span} (hs : b.Shows key cron maxJitter) :
    ∃ s, Schedule.read cron = .ok s := by
  obtain ⟨p, hp, hcron, -⟩ := hs
  obtain ⟨s, hread⟩ := h.reads key p hp
  rw [hcron, Schedule.read_trimmed] at hread
  exact ⟨s, hread⟩

theorem enter (h : Agrees t b) {key cron : String} {s : Schedule} (hread : Schedule.read cron = .ok s)
    (maxJitter : Span) (job : J) : Agrees (t.enter key cron s maxJitter job) (b.post key cron maxJitter job) := by
  refine ⟨fun k => ?posting, fun k p hp => ?reads, ?gauge⟩
  case posting =>
    rw [get?_enter, Board.lookup_post]
    split
    · rfl
    · exact h.posting k
  case reads =>
    rw [Board.lookup_post] at hp
    split at hp
    · obtain rfl := Option.some.inj hp
      exact ⟨s, by rw [Schedule.read_trimmed, hread]⟩
    · exact h.reads k p hp
  case gauge =>
    unfold Timetable.enter
    cases t.entries.get? key <;> rfl

theorem unschedule (h : Agrees t b) (key : String) : Agrees (t.unschedule key).1 (b.erase key) := by
  refine ⟨fun k => ?posting, fun k p hp => ?reads, ?gauge⟩
  case posting =>
    rw [get?_unschedule, Board.lookup_erase]
    split
    · rfl
    · exact h.posting k
  case reads =>
    rw [Board.lookup_erase] at hp
    split at hp
    · cases hp
    · exact h.reads k p hp
  case gauge =>
    unfold Timetable.unschedule
    cases t.entries.get? key <;> rfl

theorem shutdown (t : Timetable J) : Agrees t.shutdown (∅ : Board J) :=
  ⟨fun _ => rfl, fun _ _ hp => (by cases hp), rfl⟩

/-- Workers do not matter. -/
theorem keep {t' : Timetable J} (h : Agrees t b) (hentries : t'.entries = t.entries) (hgauge : t'.gauge = t.gauge) :
    Agrees t' b := by
  refine ⟨fun key => ?_, h.reads, ?_⟩
  · rw [hentries, h.posting]
  · rw [hgauge, h.gauge, Timetable.size, Timetable.size, hentries]

theorem invoke (h : Agrees t b) (key : String) : Agrees (t.invoke key).1 b := by
  refine h.keep (entries_invoke t key) ?_
  unfold Timetable.invoke
  cases t.entries.get? key <;> rfl

/-- One call keeps a timetable and a board in agreement. -/
theorem act (h : Agrees t b) (a : Action J) : Agrees (t.act a).1 (b.act a) := by
  cases a with
  | schedule key cron maxJitter job =>
    simp only [Timetable.act, Timetable.schedule, Board.act]
    cases hread : Schedule.read cron with
    | error e => exact h
    | ok s => exact h.enter hread maxJitter job
  | sync key cron maxJitter job =>
    by_cases hsync : t.InSync key cron maxJitter
    · have hshows := (h.inSync_iff key cron maxJitter).1 hsync
      obtain ⟨s, hread⟩ := h.reads_of_shows hshows
      simp only [Timetable.act, sync, if_pos hsync, Board.act, hread, if_pos hshows]
      exact h
    · have hshows := mt (h.inSync_iff key cron maxJitter).2 hsync
      simp only [Timetable.act, sync, if_neg hsync, Timetable.schedule, Board.act, if_neg hshows]
      cases hread : Schedule.read cron with
      | error e => exact h
      | ok s => exact h.enter hread maxJitter job
  | unschedule key => exact h.unschedule key
  | invoke key => exact h.invoke key
  | shutdown => exact shutdown t
  | move worker m =>
    simp only [Timetable.act]
    cases hm : t.move? worker m with
    | none => exact h
    | some r =>
      obtain ⟨w, -, fate, -, hr⟩ := move?_eq_some hm
      rw [Option.getD_some, hr]
      exact h.keep rfl rfl

/-- Both answer alike. -/
theorem answer (h : Agrees t b) (a : Action J) : t.answer a = b.answer a := by
  cases a with
  | schedule key cron maxJitter job =>
    simp only [Timetable.answer, Timetable.schedule, Board.answer]
    cases Schedule.read cron <;> rfl
  | sync key cron maxJitter job =>
    by_cases hsync : t.InSync key cron maxJitter
    · have hshows := (h.inSync_iff key cron maxJitter).1 hsync
      obtain ⟨s, hread⟩ := h.reads_of_shows hshows
      simp [Timetable.answer, sync, hsync, Board.answer, hread, hshows]
    · have hshows := mt (h.inSync_iff key cron maxJitter).2 hsync
      simp only [Timetable.answer, sync, if_neg hsync, Timetable.schedule, Board.answer, hshows]
      cases Schedule.read cron <;> rfl
  | unschedule key =>
    rw [Timetable.answer, Board.answer, ← h.contains, Dict.contains, Timetable.unschedule]
    cases t.entries.get? key <;> rfl
  | invoke key =>
    rw [Timetable.answer, Board.answer, ← h.contains, Dict.contains, Timetable.invoke]
    cases t.entries.get? key <;> rfl
  | shutdown => rfl
  | move worker m => rfl

/-- Who is told no, or an error, has changed nothing. -/
theorem act_of_negative (h : Agrees t b) {a : Action J} (ha : (t.answer a).Negative) : t.act a = (t, []) := by
  cases a with
  | schedule key cron maxJitter job =>
    simp only [Timetable.answer, Timetable.act] at ha ⊢
    cases hs : t.schedule key cron maxJitter job with
    | error e => rfl
    | ok r => simp [hs, Answer.Negative] at ha
  | sync key cron maxJitter job =>
    by_cases hsync : t.InSync key cron maxJitter
    · simp only [Timetable.act, sync, if_pos hsync]
    · simp only [Timetable.answer, Timetable.act, sync, if_neg hsync] at ha ⊢
      cases hs : t.schedule key cron maxJitter job with
      | error e => rfl
      | ok r => simp [hs, Answer.Negative, Except.map] at ha
  | unschedule key =>
    -- The gauge is told again, and it was right before.
    have hgauge : t.tellGauge = t := by rw [tellGauge, ← h.gauge]
    simp only [Timetable.answer, Timetable.act, Timetable.unschedule] at ha ⊢
    cases he : t.entries.get? key with
    | none => rw [hgauge]
    | some e => simp [he, Answer.Negative] at ha
  | invoke key =>
    simp only [Timetable.answer, Timetable.act, Timetable.invoke] at ha ⊢
    cases he : t.entries.get? key with
    | none => rfl
    | some e => simp [he, Answer.Negative] at ha
  | shutdown => simp [Timetable.answer, Answer.Negative] at ha
  | move worker m => simp [Timetable.answer, Answer.Negative] at ha

theorem run (as : List (Action J)) : ∀ {t : Timetable J} {b : Board J}, Agrees t b → Agrees (t.run as).1 (b.run as) := by
  induction as with
  | nil => exact fun h => h
  | cons a as ih => exact fun h => ih (h.act a)

end Agrees

/-! ### Histories -/

/-- What can be found out about a timetable by calls is what stands on a board. -/
structure Mirrors (t : Timetable J) (b : Board J) : Prop where
  contains : ∀ key, t.entries.contains key = decide (key ∈ b)
  size : t.size = b.keys.card
  isEmpty : t.entries.isEmpty = true ↔ b = ∅
  cron? : ∀ key, t.cron? key = (b.lookup key).map Posting.cron
  reads : ∀ key cron, t.cron? key = some cron → ∃ s, Schedule.read cron = .ok s
  gauge : t.gauge = t.size
  answer : ∀ a, t.answer a = b.answer a
  negative : ∀ a, (t.answer a).Negative → t.act a = (t, [])
  runsOnce : ∀ key, ∀ p ∈ b.lookup key, t.RunsOnce key p.job

/-- A timetable behaves as a map, along every history of calls, with steps of workers anywhere between them. -/
theorem run_mirrors_board (as : List (Action J)) :
    Mirrors (Timetable.empty.run as).1 (Board.run ∅ as) := by
  have hg := (Guarded.empty (J := J)).run as
  have hn := Engaged.run as (Engaged.empty (J := J))
  have h := Agrees.run as (Agrees.empty (J := J))
  refine ⟨h.contains, h.size, h.isEmpty, h.cron?, fun key cron hcron => ?reads, h.gauge, h.answer, fun a => h.act_of_negative,
    fun key p hp => ?runs⟩
  case reads =>
    rw [h.cron?] at hcron
    obtain ⟨p, hp, rfl⟩ := Option.map_eq_some_iff.1 hcron
    exact h.reads key p hp
  case runs =>
    rw [← h.posting] at hp
    obtain ⟨e, he, rfl⟩ := Option.map_eq_some_iff.1 hp
    exact runsOnce_invoke hg hn he

end Timetable

end Allotment
