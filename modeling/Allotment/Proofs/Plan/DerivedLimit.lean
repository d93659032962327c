import Allotment.Proofs.Plan.Settled
import Allotment.Proofs.Plan.TextGate
import Allotment.Proofs.Plan.Typing
import Allotment.Proofs.Quantity.Grammar

/-!
# Limits that are derived

A limit can follow its request, or a memory limit CPU. It follows what the pass has left there, be that just committed or
kept from before; and as the last guard compares texts, what it has in the end is what is derived, up to its text.

* `AxisPolicy.Open` — an axis without bounds, whose guards refuse nothing but what is there already;
* `exists_text_of_atRest` — an open axis at rest has the text of what is proposed for it;
* `get_planContainer_cases` — an axis has what it had, or what is proposed for it in the end;
* `Adjustment.NeverLowers`, `le_apply` — an adjustment that is blank or adds something never makes an amount less, not
  even where the sum is out of range;
* `Container.Spelled` — every quantity of a container was read from a text of its resource;
* `exists_limit_of_request`, `le_limit_of_request`, `exists_limit_of_cpu`, `limit_kept_without_cpu` — what a pass makes of
  an open limit;
* `limit_derived` — a derived limit has the text of what is derived, and one that follows its request is not below it.
-/

namespace Allotment

/-! ### Adjustments that never lower -/

/-- An adjustment that is blank, or adds a margin that is not negative as an amount of the resource. -/
def Adjustment.NeverLowers (adj : Adjustment) (r : Resource) : Prop :=
  adj.isBlank = true ∨ (adj.method = .margin ∧ ∀ m, Quantity.read r adj.literal = .ok m → ¬ m.amount < 0)

theorem toInt_of_amount? {n : Int} {v : Int64} (h : amount? n = some v) : v.toInt = n := by
  unfold amount? at h
  obtain ⟨⟨hlow, hhigh⟩, h⟩ := Option.ite_none_right_eq_some.1 h
  obtain rfl := Option.some.inj h
  rw [Int64.toInt_minValue] at hlow
  rw [Int64.toInt_maxValue] at hhigh
  exact Int64.toInt_ofInt_of_le hlow (by omega)

namespace Quantity

variable {p q v m : Quantity}

/-- A sum with what is not negative is no less, and one that is out of range is not made. -/
theorem le_add? (hm : ¬ m.amount < 0) : q ≤ (q.add? m).getD q := by
  cases hadd : q.add? m with
  | none => exact le_refl q
  | some s =>
    refine ⟨(resource_add? hadd).1.symm, ?_⟩
    unfold add? at hadd
    obtain ⟨-, hsum⟩ := Option.ite_none_right_eq_some.1 hadd
    obtain ⟨n, hn, rfl⟩ := Option.map_eq_some_iff.1 hsum
    have hvalue := toInt_of_amount? hn
    rw [Int64.lt_iff_toInt_lt, Int64.toInt_zero] at hm
    simp only [Option.getD_some, Int64.le_iff_toInt_le]
    omega

/-- What has the text of another quantity is no less than what that one is no less than, unless it is the least amount. -/
theorem le_of_text_eq (hle : p ≤ q) (hr : v.resource = q.resource) (htext : v.text = q.text)
    (hmin : v.amount ≠ Int64.minValue) : p ≤ v := by
  refine ⟨hle.1.trans hr.symm, ?_⟩
  by_cases hne : v.amount = q.amount
  · exact hne ▸ hle.2
  · rcases (text_eq_text_iff hr hne).1 htext with ⟨hv, -⟩ | ⟨-, hq⟩
    · exact absurd hv hmin
    · exact Int64.le_trans (hq ▸ hle.2) (Int64.minValue_le _)

end Quantity

theorem Adjustment.NeverLowers.le_apply {adj : Adjustment} {q : Quantity} (h : adj.NeverLowers q.resource) :
    q ≤ adj.apply q := by
  rcases h with hblank | ⟨hmethod, hliteral⟩
  · rw [apply_of_isBlank hblank]
    exact Quantity.le_refl q
  · unfold apply
    simp only [hmethod]
    split
    · exact Quantity.le_refl q
    · cases hread : Quantity.read q.resource (String.ofList (Text.trim adj.literal.toList)) with
      | error e => exact Quantity.le_refl q
      | ok m => exact Quantity.le_add? (hliteral m (Quantity.read_ofList_trim.1 hread))

/-! ### Open axes -/

/-- An axis that is written whatever is proposed: it is not switched off, has no bounds and no least difference, and may
go up and down. -/
structure AxisPolicy.Open (p : AxisPolicy) : Prop where
  mode : p.mode = .enforce
  direction : p.direction = .both
  minDiff : p.minDiff.isBlank = true
  minAllowed : p.minAllowed = none
  maxAllowed : p.maxAllowed = none

namespace AxisPolicy.Open

variable {p : AxisPolicy} {a : Axis} {current : Option Quantity} {q : Quantity}

theorem clamp_eq (h : p.Open) : p.clamp q = q := by
  unfold clamp
  rw [h.minAllowed, h.maxAllowed]

theorem passes (h : p.Open) : p.Passes a current q := by
  refine ⟨fun hshort => ?_, fun hblocks => ?_, h.mode⟩
  · have hblank := hshort.1
    rw [h.minDiff] at hblank
    cases hblank
  · rw [h.direction] at hblocks
    exact hblocks

theorem text_of_accept?_eq_none (h : p.Open) (hnone : p.accept? a current q = none) :
    current.map Quantity.text = some q.text := by
  rw [accept?_of_passes h.passes, h.clamp_eq] at hnone
  by_contra htext
  rw [if_neg htext] at hnone
  cases hnone

end AxisPolicy.Open

section Pass

variable {policy : Effective} {candidates : Candidates} {c : Container} {p : Pass} {a : Axis} {q : Quantity}

/-- An open axis at rest has the text of what is proposed for it. -/
theorem exists_text_of_atRest (hopen : (policy.axis a).Open) (hrest : AtRest policy candidates c a)
    (hq : proposal? policy candidates c a = some q) : ∃ v, c.get a = some v ∧ v.text = q.text := by
  unfold AtRest commitment? at hrest
  rw [hq, Option.bind_some] at hrest
  exact Option.map_eq_some_iff.1 (hopen.text_of_accept?_eq_none hrest)

/-- An axis has what it had, or what is proposed for it in the end: what the proposal reads was worked on before. -/
theorem get_foldl_cases {as : List Axis} (has : as.Pairwise fun a b => a.rank < b.rank) (ha : a ∈ as) (p : Pass) :
    (as.foldl (Pass.step policy candidates) p).container.get a = p.container.get a ∨
      ∃ q, proposal? policy candidates (as.foldl (Pass.step policy candidates) p).container a = some q ∧
        (as.foldl (Pass.step policy candidates) p).container.get a = some ((policy.axis a).clamp q) := by
  induction as generalizing p with
  | nil => cases ha
  | cons b as ih =>
    obtain ⟨hb, has⟩ := List.pairwise_cons.1 has
    rw [List.foldl_cons]
    rcases List.mem_cons.1 ha with rfl | hmem
    · have hnot : ∀ b : Axis, b.rank ≤ a.rank → b ∉ as := fun b hle hmem => Nat.not_lt.2 hle (hb b hmem)
      rw [Pass.get_foldl_of_notMem _ _ _ (hnot a (Nat.le_refl _))]
      rcases p.step_cases policy candidates a with ⟨-, hstep⟩ | ⟨v, hv, hstep⟩
      · exact .inl (by rw [hstep])
      · obtain ⟨q, hq, hacc⟩ := commitment?_eq_some_iff.1 hv
        obtain ⟨rfl, -⟩ := AxisPolicy.accept?_eq_some_iff.1 hacc
        refine .inr ⟨q, ?_, by rw [hstep, Container.get_set, if_pos rfl]⟩
        rw [← hq]
        refine proposal?_congr fun b hlt => ?_
        have hne : b ≠ a := by
          rintro rfl
          exact Nat.lt_irrefl _ hlt
        rw [Pass.get_foldl_of_notMem _ _ _ (hnot b (Nat.le_of_lt hlt)), Pass.get_step_of_ne _ _ _ _ hne]
    · have hne : a ≠ b := by
        rintro rfl
        exact Nat.lt_irrefl _ (hb a hmem)
      rw [← Pass.get_step_of_ne policy candidates p b hne]
      exact ih has hmem _

theorem get_planContainer_cases (policy : Effective) (candidates : Candidates) (c : Container) (a : Axis) :
    (planContainer policy candidates c).container.get a = c.get a ∨
      ∃ q, proposal? policy candidates (planContainer policy candidates c).container a = some q ∧
        (planContainer policy candidates c).container.get a = some ((policy.axis a).clamp q) :=
  get_foldl_cases Axis.pairwise_rank_all a.mem_all _

end Pass

/-! ### Derived limits -/

/-- Every quantity of the container was read from a text, as an amount of the resource of its axis. -/
def Container.Spelled (c : Container) : Prop :=
  ∀ a q, c.get a = some q → ∃ text, Quantity.read a.resource text = .ok q

theorem Container.Spelled.typed {c : Container} (h : c.Spelled) : c.Typed := by
  intro a q hq
  obtain ⟨text, hread⟩ := h a q hq
  exact Quantity.resource_read hread

/-- The limit of a resource is one of memory that is derived from CPU. -/
def Effective.LimitFollowsCpu (policy : Effective) (r : Resource) : Prop :=
  r = .memory ∧ policy.memoryFromCpu.limit.enabled = true

section Limit

variable {policy : Effective} {candidates : Candidates} {c : Container} {r : Resource}
  {request limit cpu candidate : Quantity}

theorem proposal?_limit (hcandidate : candidates.get ⟨r, .request⟩ = some candidate) :
    proposal? policy candidates c ⟨r, .limit⟩ = limitProposal? policy candidates c r := by
  have hrequest : candidates.get (Axis.request ⟨r, .limit⟩) = some candidate := hcandidate
  unfold proposal?
  rw [hrequest]

theorem limitProposal?_of_request (hcpu : ¬ policy.LimitFollowsCpu r) (hauto : (policy.axis ⟨r, .limit⟩).target = .auto)
    (hrequest : c.get ⟨r, .request⟩ = some request) :
    limitProposal? policy candidates c r = some ((policy.axis ⟨r, .limit⟩).adjustment.apply request) := by
  have hown : ownLimitProposal? policy candidates c r = some ((policy.axis ⟨r, .limit⟩).adjustment.apply request) := by
    unfold ownLimitProposal?
    rw [if_pos hauto, hrequest, Option.map_some]
  cases r with
  | cpu => exact hown
  | memory =>
    unfold limitProposal?
    simp only
    rw [if_neg fun henabled => hcpu ⟨rfl, henabled⟩, hown]

theorem limitProposal?_of_cpu (hcpu : policy.LimitFollowsCpu r) :
    limitProposal? policy candidates c r =
      ((c.get ⟨.cpu, .limit⟩).or (c.get ⟨.cpu, .request⟩)).map policy.memoryFromCpu.limit.memory := by
  obtain ⟨rfl, henabled⟩ := hcpu
  unfold limitProposal?
  simp only
  rw [if_pos henabled]

/-- A limit that follows its request has the text of what the calculator makes of the request that the pass has left. -/
theorem exists_limit_of_request (hcandidate : candidates.get ⟨r, .request⟩ = some candidate)
    (hopen : (policy.axis ⟨r, .limit⟩).Open) (hcpu : ¬ policy.LimitFollowsCpu r)
    (hauto : (policy.axis ⟨r, .limit⟩).target = .auto)
    (hrequest : (planContainer policy candidates c).container.get ⟨r, .request⟩ = some request) :
    ∃ limit, (planContainer policy candidates c).container.get ⟨r, .limit⟩ = some limit ∧
      limit.text = ((policy.axis ⟨r, .limit⟩).adjustment.apply request).text :=
  exists_text_of_atRest hopen (atRest_planContainer _ _ _ _)
    ((proposal?_limit hcandidate).trans (limitProposal?_of_request hcpu hauto hrequest))

/-- It is not below that request, if the calculator never lowers. What was kept for its text was read from one, so it is
not the least amount. -/
theorem le_limit_of_request (hcandidates : PerAxis.Typed candidates) (hc : c.Spelled)
    (hcandidate : candidates.get ⟨r, .request⟩ = some candidate) (hopen : (policy.axis ⟨r, .limit⟩).Open)
    (hcpu : ¬ policy.LimitFollowsCpu r) (hauto : (policy.axis ⟨r, .limit⟩).target = .auto)
    (hlowers : (policy.axis ⟨r, .limit⟩).adjustment.NeverLowers r)
    (hrequest : (planContainer policy candidates c).container.get ⟨r, .request⟩ = some request)
    (hlimit : (planContainer policy candidates c).container.get ⟨r, .limit⟩ = some limit)
    (htext : limit.text = ((policy.axis ⟨r, .limit⟩).adjustment.apply request).text) : request ≤ limit := by
  have htyped : (planContainer policy candidates c).container.Typed := typed_planContainer hcandidates hc.typed
  have hresource : request.resource = r := htyped _ _ hrequest
  have hle : request ≤ (policy.axis ⟨r, .limit⟩).adjustment.apply request :=
    Adjustment.NeverLowers.le_apply (hresource.symm ▸ hlowers)
  rcases get_planContainer_cases policy candidates c ⟨r, .limit⟩ with hkept | ⟨q, hq, hcommitted⟩
  · obtain ⟨text, hread⟩ := hc ⟨r, .limit⟩ limit (hkept.symm.trans hlimit)
    refine Quantity.le_of_text_eq hle ?_ htext (Quantity.amount_ne_of_read hread)
    rw [Quantity.resource_read hread, Adjustment.resource_apply, hresource]
  · have hderived := (proposal?_limit hcandidate).trans (limitProposal?_of_request hcpu hauto hrequest)
    obtain rfl := Option.some.inj (hq.symm.trans hderived)
    rw [hopen.clamp_eq] at hcommitted
    obtain rfl := Option.some.inj (hcommitted.symm.trans hlimit)
    exact hle

/-- A limit that follows CPU has the text of what is derived from the CPU that the pass has left. -/
theorem exists_limit_of_cpu (hcandidate : candidates.get ⟨r, .request⟩ = some candidate)
    (hopen : (policy.axis ⟨r, .limit⟩).Open) (hcpu : policy.LimitFollowsCpu r)
    (hvalue : ((planContainer policy candidates c).container.get ⟨.cpu, .limit⟩).or
      ((planContainer policy candidates c).container.get ⟨.cpu, .request⟩) = some cpu) :
    ∃ limit, (planContainer policy candidates c).container.get ⟨r, .limit⟩ = some limit ∧
      limit.text = (policy.memoryFromCpu.limit.memory cpu).text := by
  refine exists_text_of_atRest hopen (atRest_planContainer _ _ _ _) ?_
  rw [proposal?_limit hcandidate, limitProposal?_of_cpu hcpu, hvalue, Option.map_some]

/-- Without CPU to follow it is left alone. -/
theorem limit_kept_without_cpu (hcandidate : candidates.get ⟨r, .request⟩ = some candidate)
    (hcpu : policy.LimitFollowsCpu r) (hlimit : (planContainer policy candidates c).container.get ⟨.cpu, .limit⟩ = none)
    (hrequest : (planContainer policy candidates c).container.get ⟨.cpu, .request⟩ = none) :
    (planContainer policy candidates c).container.get ⟨r, .limit⟩ = c.get ⟨r, .limit⟩ := by
  rcases get_planContainer_cases policy candidates c ⟨r, .limit⟩ with hkept | ⟨q, hq, -⟩
  · exact hkept
  · rw [proposal?_limit hcandidate, limitProposal?_of_cpu hcpu, hlimit, hrequest] at hq
    cases hq

end Limit

/-- **A derived limit is derived from what the pass has left.**  Along an open limit axis of a resource whose request has
a candidate: a limit that follows its request has, after the pass, the text of what the calculator makes of the request
after the pass, and is not below that request if the calculator never lowers; and a memory limit that follows CPU has the
text of what is derived from the limit of CPU after the pass, or else from the request, or is left alone without
either. -/
theorem limit_derived {policy : Effective} {candidates : Candidates} {c : Container} {r : Resource} {candidate : Quantity}
    (hcandidates : PerAxis.Typed candidates) (hc : c.Spelled)
    (hcandidate : candidates.get ⟨r, .request⟩ = some candidate) (hopen : (policy.axis ⟨r, .limit⟩).Open) :
    let after := (planContainer policy candidates c).container
    (¬ policy.LimitFollowsCpu r → (policy.axis ⟨r, .limit⟩).target = .auto →
      ∀ request, after.get ⟨r, .request⟩ = some request →
        ∃ limit, after.get ⟨r, .limit⟩ = some limit ∧
          limit.text = ((policy.axis ⟨r, .limit⟩).adjustment.apply request).text ∧
          ((policy.axis ⟨r, .limit⟩).adjustment.NeverLowers r → request ≤ limit)) ∧
    (policy.LimitFollowsCpu r →
      ∀ cpu, (after.get ⟨.cpu, .limit⟩).or (after.get ⟨.cpu, .request⟩) = some cpu →
        ∃ limit, after.get ⟨r, .limit⟩ = some limit ∧
          limit.text = (policy.memoryFromCpu.limit.adjustment.apply
            ⟨.memory, nearestAmount (cpu.amount.toInt * 1000000), .decimal⟩).text) ∧
    (policy.LimitFollowsCpu r → after.get ⟨.cpu, .limit⟩ = none → after.get ⟨.cpu, .request⟩ = none →
      after.get ⟨r, .limit⟩ = c.get ⟨r, .limit⟩) := by
  intro after
  refine ⟨fun hcpu hauto request hrequest => ?_, fun hcpu cpu hvalue => exists_limit_of_cpu hcandidate hopen hcpu hvalue,
    fun hcpu hlimit hrequest => limit_kept_without_cpu hcandidate hcpu hlimit hrequest⟩
  obtain ⟨limit, hlimit, htext⟩ := exists_limit_of_request hcandidate hopen hcpu hauto hrequest
  exact ⟨limit, hlimit, htext, fun hlowers =>
    le_limit_of_request hcandidates hc hcandidate hopen hcpu hauto hlowers hrequest hlimit htext⟩

/-- A margin that no sum has room for, on limits of memory. -/
def hugeMarginNotes : Annotations :=
  Dict.ofPairs [("rightsizer.io/memory-limit-calculator-algo", "margin"),
    ("rightsizer.io/memory-limit-calculator-value", "9223372036854775807")]

/-- Limits of memory follow CPU, and limits of CPU are left alone. -/
def followCpuNotes : Annotations :=
  Dict.ofPairs [("rightsizer.io/memory-limit-from-cpu-enabled", "true"), ("rightsizer.io/cpu-limit-apply-mode", "off")]

/-- A tenth of a core is requested, and 4097 bytes of memory, as many as are the limit. -/
def tightContainer : Container :=
  ⟨"app", ⟨⟨some ⟨.cpu, 100, .decimal⟩, none⟩, ⟨some ⟨.memory, 4097, .binary⟩, some ⟨.memory, 4097, .decimal⟩⟩⟩⟩

/-- Three tenths of a core, and 4097 bytes. -/
def tightCandidates : Candidates :=
  ⟨⟨some ⟨.cpu, 300, .decimal⟩, none⟩, ⟨some ⟨.memory, 4097, .decimal⟩, none⟩⟩

theorem spelled_tightContainer : tightContainer.Spelled := by
  rintro ⟨r, s⟩ q hq
  cases r <;> cases s
  · obtain rfl := Option.some.inj hq
    exact ⟨"100m", by decide +kernel⟩
  · cases hq
  · obtain rfl := Option.some.inj hq
    exact ⟨"4.0009765625Ki", by decide +kernel⟩
  · obtain rfl := Option.some.inj hq
    exact ⟨"4097", by decide +kernel⟩

theorem typed_tightCandidates : PerAxis.Typed tightCandidates := by
  rintro ⟨r, s⟩ q hq
  cases r <;> cases s <;> cases hq <;> rfl

/-- The policy of the container under some notes. -/
def tightPolicy (notes : Annotations) : Effective :=
  Effective.of ⟨notes, ProcessDefaults.empty⟩ (some "app")

/-- A limit axis that follows its request and is open. -/
def followRequest (adj : Adjustment) : AxisPolicy :=
  ⟨.enforce, .auto, adj, none, none, ⟨.ratio, ""⟩, .both⟩

theorem open_followRequest (adj : Adjustment) : (followRequest adj).Open :=
  ⟨rfl, rfl, rfl, rfl, rfl⟩

/-- The limit keeps its own family next to a request of the other one, and with CPU raised by the pass it follows what it
was raised to. -/
theorem limit_derived_tight :
    let after (notes : Annotations) := (planContainer (tightPolicy notes) tightCandidates tightContainer).container
    (∃ limit, (after hugeMarginNotes).get ⟨.memory, .limit⟩ = some limit ∧ limit.text = "4097" ∧
      ⟨.memory, 4097, .binary⟩ ≤ limit) ∧
    ∃ limit, (after followCpuNotes).get ⟨.memory, .limit⟩ = some limit ∧ limit.text = "300M" := by
  intro after
  constructor
  · have haxis : (tightPolicy hugeMarginNotes).axis ⟨.memory, .limit⟩ = followRequest ⟨.margin, "9223372036854775807"⟩ := by
      decide +kernel
    have hlowers : (Adjustment.mk .margin "9223372036854775807").NeverLowers .memory := by
      have hread : Quantity.read .memory "9223372036854775807" = .ok ⟨.memory, Int64.maxValue, .decimal⟩ := by
        decide +kernel
      refine .inr ⟨rfl, fun m hm => ?_⟩
      obtain rfl := Except.ok.inj (hm.symm.trans hread)
      decide
    have hrequest : (after hugeMarginNotes).get ⟨.memory, .request⟩ = some ⟨.memory, 4097, .binary⟩ := by
      decide +kernel
    have hcpu : ¬ (tightPolicy hugeMarginNotes).LimitFollowsCpu .memory := by
      rintro ⟨-, henabled⟩
      revert henabled
      decide +kernel
    obtain ⟨hderived, -, -⟩ :=
      limit_derived typed_tightCandidates spelled_tightContainer rfl (haxis ▸ open_followRequest _)
    obtain ⟨limit, hlimit, htext, hle⟩ := hderived hcpu (by rw [haxis]; rfl) _ hrequest
    rw [haxis] at htext hle
    exact ⟨limit, hlimit, htext.trans (by decide +kernel), hle hlowers⟩
  · have haxis : (tightPolicy followCpuNotes).axis ⟨.memory, .limit⟩ = followRequest ⟨.ratio, ""⟩ := by
      decide +kernel
    have hlimit : (tightPolicy followCpuNotes).memoryFromCpu.limit = ⟨true, ⟨.ratio, ""⟩⟩ := by decide +kernel
    have hcpu : ((after followCpuNotes).get ⟨.cpu, .limit⟩).or ((after followCpuNotes).get ⟨.cpu, .request⟩) =
        some ⟨.cpu, 300, .decimal⟩ := by decide +kernel
    obtain ⟨-, hderived, -⟩ :=
      limit_derived typed_tightCandidates spelled_tightContainer rfl (haxis ▸ open_followRequest _)
    obtain ⟨limit, hvalue, htext⟩ := hderived ⟨rfl, by rw [hlimit]⟩ _ hcpu
    rw [hlimit] at htext
    exact ⟨limit, hvalue, htext.trans (by decide +kernel)⟩

end Allotment
