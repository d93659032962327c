import Allotment.Proofs.Plan.Pass

/-!
# The resources of a container do not interfere

CPU is planned from CPU alone.  So is memory from memory, unless it is derived from CPU; and then it reads no more of
CPU than what is there once the axes of CPU were worked on.

* `Brief` — what a pass over one container is given; `Brief.cpuPass`, `Brief.pass` — the pass after the axes of CPU,
  and the whole of it;
* `Brief.AgreeOn r` — two briefs that are the same as far as a resource goes; `Pass.EqualOn r` — two passes that came
  out the same as far as it goes;
* `Brief.DeriveAlike` — memory is derived in neither of two briefs, or in both in one way and from the same CPU;
* `commitment?_of_agree` — then the same is committed; `Pass.EqualOn.work` — and the same all along the axes of a
  resource, while the axes of the other one leave it alone (`Pass.equalOn_foldl_of_ne`);
* `resources_apart` — so it is in whole passes.
-/

namespace Allotment

/-- The axes of a resource, the request first. -/
def Axis.along (r : Resource) : List Axis := [⟨r, .request⟩, ⟨r, .limit⟩]

/-- What a pass over one container is given. -/
structure Brief where
  policy : Effective
  candidates : Candidates
  container : Container
  deriving DecidableEq

namespace Brief

/-- The pass once the axes of CPU were worked on. -/
def cpuPass (b : Brief) : Pass :=
  (Axis.along .cpu).foldl (Pass.step b.policy b.candidates) ⟨b.container, []⟩

/-- The whole pass. -/
def pass (b : Brief) : Pass :=
  planContainer b.policy b.candidates b.container

theorem pass_eq (b : Brief) : b.pass = (Axis.along .memory).foldl (Pass.step b.policy b.candidates) b.cpuPass := rfl

/-- How memory is derived from CPU on a side. -/
def derivation (b : Brief) (s : Side) : Derivation :=
  PerSide.get b.policy.memoryFromCpu s

/-- Two briefs are the same as far as a resource goes: they are about containers of one name, which have the same
quantities along its axes, with the same candidates and under the same policies. -/
structure AgreeOn (r : Resource) (x y : Brief) : Prop where
  name : x.container.name = y.container.name
  quantities : ∀ s, x.container.get ⟨r, s⟩ = y.container.get ⟨r, s⟩
  candidates : ∀ s, x.candidates.get ⟨r, s⟩ = y.candidates.get ⟨r, s⟩
  policies : ∀ s, x.policy.axis ⟨r, s⟩ = y.policy.axis ⟨r, s⟩

/-- On a side, memory is derived from CPU in neither of two briefs, or in both in one way and from the same CPU. -/
def DeriveAlike (x y : Brief) (c d : Container) (s : Side) : Prop :=
  ((x.derivation s).enabled = false ∧ (y.derivation s).enabled = false) ∨
    (x.derivation s = y.derivation s ∧ ∀ t, c.get ⟨.cpu, t⟩ = d.get ⟨.cpu, t⟩)

end Brief

/-- Two passes over containers of one name have the same quantities along the axes of a resource, and have made the
same changes there. -/
structure Pass.EqualOn (r : Resource) (p q : Pass) : Prop where
  name : p.container.name = q.container.name
  quantities : ∀ s, p.container.get ⟨r, s⟩ = q.container.get ⟨r, s⟩
  changes : p.changes.filter (fun ch => ch.axis.resource = r) = q.changes.filter fun ch => ch.axis.resource = r

/-! ### What is committed -/

section Commitment

variable {x y : Brief} {c d : Container} {r : Resource}

theorem requestProposal_of_agree (h : Brief.AgreeOn r x y)
    (hderive : r = .memory → Brief.DeriveAlike x y c d .request) (q : Quantity) :
    requestProposal x.policy c r q = requestProposal y.policy d r q := by
  unfold requestProposal
  rw [h.policies .request]
  cases r with
  | cpu => rfl
  | memory =>
    rcases hderive rfl with ⟨hx, hy⟩ | ⟨hsame, hcpu⟩
    · have hx : x.policy.memoryFromCpu.request.enabled = false := hx
      have hy : y.policy.memoryFromCpu.request.enabled = false := hy
      simp only [hx, hy, Bool.false_eq_true, if_false]
    · have hsame : x.policy.memoryFromCpu.request = y.policy.memoryFromCpu.request := hsame
      simp only [hsame, hcpu .request]

theorem ownLimitProposal?_of_agree (h : Brief.AgreeOn r x y) (hc : c.get ⟨r, .request⟩ = d.get ⟨r, .request⟩) :
    ownLimitProposal? x.policy x.candidates c r = ownLimitProposal? y.policy y.candidates d r := by
  unfold ownLimitProposal?
  rw [h.policies .limit, h.candidates .limit, hc]

theorem limitProposal?_of_agree (h : Brief.AgreeOn r x y) (hc : c.get ⟨r, .request⟩ = d.get ⟨r, .request⟩)
    (hderive : r = .memory → Brief.DeriveAlike x y c d .limit) :
    limitProposal? x.policy x.candidates c r = limitProposal? y.policy y.candidates d r := by
  have hown := ownLimitProposal?_of_agree h hc
  unfold limitProposal?
  cases r with
  | cpu => exact hown
  | memory =>
    rcases hderive rfl with ⟨hx, hy⟩ | ⟨hsame, hcpu⟩
    · have hx : x.policy.memoryFromCpu.limit.enabled = false := hx
      have hy : y.policy.memoryFromCpu.limit.enabled = false := hy
      simpa only [hx, hy, Bool.false_eq_true, if_false] using hown
    · have hsame : x.policy.memoryFromCpu.limit = y.policy.memoryFromCpu.limit := hsame
      simp only [hsame, hcpu .limit, hcpu .request, hown]

/-- Where two briefs agree on a resource and derive alike, the same is committed along its axes. -/
theorem commitment?_of_agree (h : Brief.AgreeOn r x y) (hc : ∀ s, c.get ⟨r, s⟩ = d.get ⟨r, s⟩)
    (hderive : r = .memory → ∀ s, Brief.DeriveAlike x y c d s) (s : Side) :
    commitment? x.policy x.candidates c ⟨r, s⟩ = commitment? y.policy y.candidates d ⟨r, s⟩ := by
  have hproposal : proposal? x.policy x.candidates c ⟨r, s⟩ = proposal? y.policy y.candidates d ⟨r, s⟩ := by
    have hcandidate : x.candidates.get (Axis.request ⟨r, s⟩) = y.candidates.get (Axis.request ⟨r, s⟩) :=
      h.candidates .request
    unfold proposal?
    rw [hcandidate]
    cases y.candidates.get (Axis.request ⟨r, s⟩) with
    | none => rfl
    | some q =>
      cases s with
      | request => simp only [requestProposal_of_agree h (fun hr => hderive hr .request) q]
      | limit => exact limitProposal?_of_agree h (hc .request) fun hr => hderive hr .limit
  unfold commitment?
  rw [hproposal, h.policies s, hc s]

end Commitment

/-! ### Passes -/

namespace Pass

variable {policy : Effective} {candidates : Candidates} {p p' q q' : Pass} {r : Resource} {a : Axis}

theorem EqualOn.refl (r : Resource) (p : Pass) : EqualOn r p p :=
  ⟨rfl, fun _ => rfl, rfl⟩

theorem EqualOn.symm (h : EqualOn r p q) : EqualOn r q p :=
  ⟨h.name.symm, fun s => (h.quantities s).symm, h.changes.symm⟩

theorem EqualOn.trans (h : EqualOn r p p') (h' : EqualOn r p' q) : EqualOn r p q :=
  ⟨h.name.trans h'.name, fun s => (h.quantities s).trans (h'.quantities s), h.changes.trans h'.changes⟩

/-- A step along an axis of the other resource is not noticed. -/
theorem equalOn_step_of_ne (p : Pass) (h : a.resource ≠ r) : EqualOn r p (p.step policy candidates a) := by
  refine ⟨(name_step ..).symm, fun s => (get_step_of_ne _ _ _ _ ?_).symm, ?_⟩
  · rintro rfl
    exact h rfl
  · rcases p.step_cases policy candidates a with ⟨-, hs⟩ | ⟨v, -, hs⟩ <;> rw [hs]
    simp [h]

theorem equalOn_foldl_of_ne {as : List Axis} (h : ∀ a ∈ as, a.resource ≠ r) :
    ∀ p : Pass, EqualOn r p (as.foldl (step policy candidates) p) := by
  induction as with
  | nil => exact fun p => EqualOn.refl r p
  | cons a as ih =>
    obtain ⟨ha, has⟩ := List.forall_mem_cons.1 h
    exact fun p => (equalOn_step_of_ne p ha).trans (ih has _)

/-- Two steps that commit the same along one axis keep passes equal. -/
theorem EqualOn.step {policy' : Effective} {candidates' : Candidates} (h : EqualOn r p q) (ha : a.resource = r)
    (hsame : commitment? policy candidates p.container a = commitment? policy' candidates' q.container a) :
    EqualOn r (p.step policy candidates a) (q.step policy' candidates' a) := by
  have hcurrent : p.container.get a = q.container.get a := by
    subst ha
    exact h.quantities a.side
  rcases p.step_cases policy candidates a with ⟨hp, hps⟩ | ⟨v, hp, hps⟩
  · rcases q.step_cases policy' candidates' a with ⟨-, hqs⟩ | ⟨w, hq, -⟩
    · rw [hps, hqs]
      exact h
    · rw [← hsame, hp] at hq
      cases hq
  · rcases q.step_cases policy' candidates' a with ⟨hq, -⟩ | ⟨w, hq, hqs⟩
    · rw [← hsame, hp] at hq
      cases hq
    · obtain rfl : v = w := Option.some.inj (hp.symm.trans (hsame.trans hq))
      rw [hps, hqs]
      refine ⟨h.name, fun s => ?_, ?_⟩
      · rw [Container.get_set, Container.get_set, h.quantities s]
      · rw [List.filter_append, List.filter_append, h.changes, h.name, hcurrent]

variable {x y : Brief}

/-- Where two briefs agree on a resource and derive alike, the work on its axes keeps passes equal. -/
theorem EqualOn.work (h : EqualOn r p q) (hagree : Brief.AgreeOn r x y)
    (hderive : r = .memory → ∀ s, Brief.DeriveAlike x y p.container q.container s) :
    EqualOn r ((Axis.along r).foldl (Pass.step x.policy x.candidates) p)
      ((Axis.along r).foldl (Pass.step y.policy y.candidates) q) := by
  have hrequest : EqualOn r (p.step x.policy x.candidates ⟨r, .request⟩) (q.step y.policy y.candidates ⟨r, .request⟩) :=
    h.step rfl (commitment?_of_agree hagree h.quantities hderive .request)
  -- the request of memory was committed without touching the CPU that the limit may be derived from
  have hkept : r = .memory → ∀ s, Brief.DeriveAlike x y (p.step x.policy x.candidates ⟨r, .request⟩).container
      (q.step y.policy y.candidates ⟨r, .request⟩).container s := by
    rintro rfl s
    refine (hderive rfl s).imp_right (And.imp_right fun hcpu t => ?_)
    rw [get_step_of_ne _ _ _ _ (by simp), get_step_of_ne _ _ _ _ (by simp), hcpu t]
  exact hrequest.step rfl (commitment?_of_agree hagree hrequest.quantities hkept .limit)

/-- Where nothing is committed along the axes of a resource, a pass leaves it alone. -/
theorem equalOn_foldl_of_none (as : List Axis)
    (h : ∀ c : Container, ∀ s, commitment? policy candidates c ⟨r, s⟩ = none) :
    ∀ p : Pass, EqualOn r p (as.foldl (Pass.step policy candidates) p) := by
  induction as with
  | nil => exact fun p => EqualOn.refl r p
  | cons a as ih =>
    intro p
    refine EqualOn.trans ?_ (ih _)
    by_cases ha : a.resource = r
    · subst ha
      rcases p.step_cases policy candidates a with ⟨-, hs⟩ | ⟨v, hv, -⟩
      · rw [hs]
        exact EqualOn.refl _ p
      · rw [h p.container a.side] at hv
        cases hv
    · exact equalOn_step_of_ne p ha

end Pass

/-! ### Whole passes -/

section Whole

variable {x y : Brief} {r : Resource}

theorem Brief.AgreeOn.equalOn (h : Brief.AgreeOn r x y) : Pass.EqualOn r ⟨x.container, []⟩ ⟨y.container, []⟩ :=
  ⟨h.name, h.quantities, rfl⟩

theorem equalOn_cpu (h : Brief.AgreeOn .cpu x y) : Pass.EqualOn .cpu x.pass y.pass := by
  have hcpu : Pass.EqualOn .cpu x.cpuPass y.cpuPass := h.equalOn.work h fun hr => nomatch hr
  have hmemory : ∀ a ∈ Axis.along .memory, a.resource ≠ .cpu := by decide
  rw [x.pass_eq, y.pass_eq]
  exact (Pass.equalOn_foldl_of_ne hmemory _).symm.trans (hcpu.trans (Pass.equalOn_foldl_of_ne hmemory _))

theorem equalOn_memory (h : Brief.AgreeOn .memory x y)
    (hderive : ∀ s, Brief.DeriveAlike x y x.cpuPass.container y.cpuPass.container s) :
    Pass.EqualOn .memory x.pass y.pass := by
  have hcpu : ∀ a ∈ Axis.along .cpu, a.resource ≠ .memory := by decide
  have hstart : Pass.EqualOn .memory x.cpuPass y.cpuPass :=
    (Pass.equalOn_foldl_of_ne hcpu _).symm.trans (h.equalOn.trans (Pass.equalOn_foldl_of_ne hcpu _))
  rw [x.pass_eq, y.pass_eq]
  exact hstart.work h fun _ => hderive

theorem equalOn_of_no_candidate (h : x.candidates.get ⟨r, .request⟩ = none) :
    Pass.EqualOn r ⟨x.container, []⟩ x.pass := by
  refine Pass.equalOn_foldl_of_none Axis.all (fun c s => ?_) _
  have hproposal : proposal? x.policy x.candidates c ⟨r, s⟩ = none := by
    have hcandidate : x.candidates.get (Axis.request ⟨r, s⟩) = none := h
    unfold proposal?
    rw [hcandidate]
  unfold commitment?
  rw [hproposal, Option.bind_none]

end Whole

/-- **Resources do not interfere, but by the derivation that is configured.**  Passes that are given the same as far as
CPU goes come out the same as far as it goes.  So they do for memory where none is derived from CPU; where some is, it
is enough that it is derived in one way, and that the CPU is the same once its axes were worked on.  A resource without a
candidate for its request stays as it is, and no change is made to it. -/
theorem resources_apart (x y : Brief) :
    (Brief.AgreeOn .cpu x y → Pass.EqualOn .cpu x.pass y.pass) ∧
    (Brief.AgreeOn .memory x y → (∀ s, (x.derivation s).enabled = false) → (∀ s, (y.derivation s).enabled = false) →
      Pass.EqualOn .memory x.pass y.pass) ∧
    (Brief.AgreeOn .memory x y → (∀ s, Brief.DeriveAlike x y x.cpuPass.container y.cpuPass.container s) →
      Pass.EqualOn .memory x.pass y.pass) ∧
    ∀ r, x.candidates.get ⟨r, .request⟩ = none →
      (∀ s, x.pass.container.get ⟨r, s⟩ = x.container.get ⟨r, s⟩) ∧ ∀ ch ∈ x.pass.changes, ch.axis.resource ≠ r := by
  refine ⟨equalOn_cpu, fun h hx hy => ?plain, equalOn_memory, fun r hr => ?idle⟩
  case plain => exact equalOn_memory h fun s => .inl ⟨hx s, hy s⟩
  case idle =>
    have hequal := equalOn_of_no_candidate hr
    refine ⟨fun s => (hequal.quantities s).symm, fun ch hch hresource => ?_⟩
    have hnil : x.pass.changes.filter (fun ch => ch.axis.resource = r) = [] := hequal.changes.symm
    exact List.filter_eq_nil_iff.1 hnil ch hch (decide_eq_true hresource)

/-- No more than a fifth of a core is requested, and the limit of memory follows CPU. -/
def cappedNotes : Annotations :=
  Dict.ofPairs [("rightsizer.io/cpu-request-max-allowed", "200m"), ("rightsizer.io/memory-limit-from-cpu-enabled", "true")]

/-- A bare container with candidates for its requests, and one for its limit of memory. -/
def bareBrief (notes : Annotations) (cpu memory : Option Int64) : Brief :=
  ⟨Effective.of ⟨notes, ProcessDefaults.empty⟩ none,
    ⟨⟨cpu.map (⟨.cpu, ·, .decimal⟩), none⟩, ⟨memory.map (⟨.memory, ·, .decimal⟩), some ⟨.memory, 7, .decimal⟩⟩⟩,
    ⟨"app", Allotments.empty⟩⟩

/-- What is recommended for CPU does not matter to memory: without a derivation never, and with one as long as the
same is left of it under the cap. -/
theorem resources_apart_capped :
    let derived (cpu : Int64) (memory : Option Int64) := bareBrief cappedNotes (some cpu) memory
    let plain (cpu : Int64) := bareBrief Dict.empty (some cpu) (some 1000)
    (Brief.AgreeOn .cpu (derived 300 (some 1000)) (derived 300 none) ∧
      Pass.EqualOn .cpu (derived 300 (some 1000)).pass (derived 300 none).pass) ∧
    (Brief.AgreeOn .memory (plain 300) (plain 500) ∧ Pass.EqualOn .memory (plain 300).pass (plain 500).pass ∧
      (plain 300).pass ≠ (plain 500).pass) ∧
    (Brief.AgreeOn .memory (derived 300 (some 1000)) (derived 500 (some 1000)) ∧
      Pass.EqualOn .memory (derived 300 (some 1000)).pass (derived 500 (some 1000)).pass ∧
      (derived 300 (some 1000)).pass.container.get ⟨.memory, .limit⟩ = some ⟨.memory, 200000000, .decimal⟩) ∧
    (derived 300 none).candidates.get ⟨.memory, .request⟩ = none ∧
      (derived 300 none).pass.container.get ⟨.memory, .limit⟩ = none := by
  intro derived plain
  have hcpu : Brief.AgreeOn .cpu (derived 300 (some 1000)) (derived 300 none) :=
    ⟨rfl, fun _ => rfl, fun s => by cases s <;> rfl, fun _ => rfl⟩
  have hplain : Brief.AgreeOn .memory (plain 300) (plain 500) :=
    ⟨rfl, fun _ => rfl, fun s => by cases s <;> rfl, fun _ => rfl⟩
  have hderived : Brief.AgreeOn .memory (derived 300 (some 1000)) (derived 500 (some 1000)) :=
    ⟨rfl, fun _ => rfl, fun s => by cases s <;> rfl, fun _ => rfl⟩
  have hoff : ∀ s, (PerSide.get (Effective.of ⟨Dict.empty, ProcessDefaults.empty⟩ none).memoryFromCpu s).enabled = false := by
    intro s
    cases s <;> decide +kernel
  have hsame : ∀ t, (derived 300 (some 1000)).cpuPass.container.get ⟨.cpu, t⟩ =
      (derived 500 (some 1000)).cpuPass.container.get ⟨.cpu, t⟩ := by
    intro t
    cases t <;> decide +kernel
  obtain ⟨hfirst, -, -, hidle⟩ := resources_apart (derived 300 (some 1000)) (derived 300 none)
  obtain ⟨-, hsecond, -, -⟩ := resources_apart (plain 300) (plain 500)
  obtain ⟨-, -, hthird, -⟩ := resources_apart (derived 300 (some 1000)) (derived 500 (some 1000))
  obtain ⟨-, -, -, hfourth⟩ := resources_apart (derived 300 none) (derived 300 none)
  refine ⟨⟨hcpu, hfirst hcpu⟩, ⟨hplain, hsecond hplain hoff hoff, ?_⟩,
    ⟨hderived, hthird hderived fun s => .inr ⟨rfl, hsame⟩, ?_⟩, rfl, ?_⟩
  · decide +kernel
  · decide +kernel
  · exact (hfourth .memory rfl).1 .limit

end Allotment
