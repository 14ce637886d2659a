import Money.Ethics
import Money.Library.Runs
import Money.Theorems.Eligibility

/-! Where a clearance comes from. Every assessment was once an answer of the evaluator, and a pass holds only as long as
    all its quotations stand in documents that are present and approved. -/

namespace Money
open Checked List Text ScreeningRequest

variable {T : EthicsPlatform} {evidence : List EthicalEvidence} {a : EthicalAssessment}

theorem openReason_eq_nil {item : ExclusionAssessment} :
    openReason evidence a item = [] ↔ exposed evidence item ∨ clears evidence a item := by
  cases conclusion : item.conclusion <;> simp only [openReason, exposed, clears, conclusion, flag_eq_nil, not_not]
  all_goals simp

/-- The assessment is about the issuer, clears every exclusion and conflicts with none. -/
structure EthicalAssessment.Passes (T : EthicsPlatform) (issuer : IssuerIdentity) (evidence : List EthicalEvidence)
    (exclusions : List String) (a : EthicalAssessment) : Prop where
  issuerKey : a.issuerKey = issuer.issuerKey
  legalName : a.legalName = issuer.legalName
  cleared : ∀ item ∈ a.assessments, clears evidence a item
  unconflicted : ∀ b ∈ a.businessActivities, normalizedActivity T b.activity ∉ exclusions
  scope : scopeValid evidence a
  activities : activitiesValid T evidence a

variable {issuer : IssuerIdentity} {exclusions : List String} {r : ScreeningRequest} {previous : Option IssuerScreening}
  {screening : IssuerScreening}

theorem EthicalAssessment.assess_pass (h : (a.assess T issuer evidence exclusions).1 = .pass) :
    a.Passes T issuer evidence exclusions ∧
      (a.assess T issuer evidence exclusions).2.2 = a.businessActivities.map (·.activity) := by
  unfold assess at h ⊢
  by_cases other : a.issuerKey ≠ issuer.issuerKey ∨ a.legalName ≠ issuer.legalName
  · rw [if_pos other] at h
    cases h
  by_cases partial_ : ¬ (a.assessments.map (·.category)).Nodup ∨
      ¬ CrossExaminationPacket.sameMembers (a.assessments.map (·.category)) exclusions
  · rw [if_neg other, if_pos partial_] at h
    cases h
  by_cases conflict : a.conflictingEvidence = true ∨ ∃ item ∈ a.assessments, item.conclusion = .conflicting
  · rw [if_neg other, if_neg partial_, if_pos conflict] at h
    cases h
  rw [if_neg other, if_neg partial_, if_neg conflict] at h ⊢
  by_cases exposure : a.assessments.filter (fun item => exposed evidence item) ≠ []
  · rw [if_pos exposure] at h
    cases h
  by_cases unsettled : openReasons T evidence a exclusions ≠ []
  · rw [if_neg exposure, if_pos unsettled] at h
    cases h
  rw [if_neg exposure, if_neg unsettled]
  refine ⟨?_, rfl⟩
  simp only [ne_eq, not_or, not_not] at other
  simp only [ne_eq, not_not, filter_eq_nil_iff, decide_eq_true_eq] at exposure
  have settled := not_not.mp unsettled
  simp only [openReasons, append_eq_nil_iff, flatMap_eq_nil_iff, flag_eq_nil, openReason_eq_nil, not_not,
    not_exists, not_and] at settled
  obtain ⟨⟨⟨⟨cleared, unconflicted⟩, scope⟩, activities⟩, -⟩ := settled
  exact ⟨other.1, other.2, fun item hitem => (cleared item hitem).resolve_left (exposure item hitem), unconflicted, scope,
    activities⟩

theorem EthicalAssessment.Passes.supported (h : a.Passes T issuer evidence exclusions) {c : EthicalCitation}
    (hc : c ∈ a.citations) : c.supported evidence := by
  simp only [citations, mem_append, mem_flatMap] at hc
  rcases hc with (hc | ⟨b, hb, hc⟩) | ⟨item, hitem, hc⟩
  · exact h.scope.2.1.2 c hc
  · exact (h.activities.2.1 b hb).2 c hc
  · exact (h.cleared item hitem).2.1.2 c hc

/-! ### What one run returns -/

theorem clearanceOf_eq_ok {screenedAt validityDays : Int}
    {reasons activities : List String} {result : ClearanceResult} {c : EthicalClearance}
    (h : clearanceOf T issuer evidence screenedAt validityDays exclusions result reasons activities = .ok c) :
    T.consistentScreening c = .ok () ∧ T.ethicalPolicyHash exclusions = .ok c.policyHash ∧ c.result = result ∧
      c.screenedAt = screenedAt ∧ c.validUntil = screenedAt + days validityDays ∧ c.assessedExclusions = exclusions ∧
      c.businessActivities = sortedSet activities := by
  simp only [clearanceOf, ok_iff] at h
  obtain ⟨policyHash, hashed, _, consistent, rfl⟩ := h
  exact ⟨consistent, hashed, rfl, rfl, rfl, rfl, rfl⟩

theorem interpret_eq_some {answer : Except Err String} (h : interpret T answer = some a) :
    ∃ raw, answer = .ok raw ∧ T.readAssessment raw = .ok a := by
  unfold interpret at h
  split at h
  · cases h
  next raw =>
    split at h
    · cases h
    split at h
    next read =>
      cases h
      exact ⟨raw, rfl, read⟩
    · cases h

namespace ScreeningRequest
variable {r : ScreeningRequest} {key policyHash : Hash} {exclusions : List String} {previous : Option IssuerScreening}

/-- An earlier screening that may be used again: same material and policy, still valid, same result. -/
structure Reusable (T : EthicsPlatform) (r : ScreeningRequest) (key policyHash : Hash) (exclusions : List String)
    (p : IssuerScreening) (a : EthicalAssessment) : Prop where
  assessment : p.assessment = some a
  admitted : r.refusals T = []
  key : p.cacheKey = key
  begun : p.clearance.screenedAt ≤ r.now
  current : r.now < p.clearance.validUntil
  bounded : p.clearance.validUntil ≤ p.clearance.screenedAt + days r.validityDays
  policy : p.clearance.policyHash = policyHash
  result : (a.assess T r.issuer r.evidence exclusions).1 = p.clearance.result

theorem reusable_eq_some {p : IssuerScreening} : r.reusable T key policyHash exclusions previous = some (p, a) ↔
      previous = some p ∧ Reusable T r key policyHash exclusions p a := by
  simp only [reusable, unchanged, Option.filter_eq_some_iff, Option.bind_eq_bind, Option.bind_eq_some_iff,
    Option.ite_none_right_eq_some, Option.some.injEq, Prod.mk.injEq, decide_eq_true_eq]
  constructor
  · rintro ⟨⟨p, rfl, a, assessment, ⟨admitted, key, begun, current, bounded, policy⟩, rfl, rfl⟩, result⟩
    exact ⟨rfl, assessment, admitted, key, begun, current, bounded, policy, result⟩
  · rintro ⟨rfl, h⟩
    exact ⟨⟨p, rfl, a, h.assessment, ⟨h.admitted, h.key, h.begun, h.current, h.bounded, h.policy⟩, rfl, rfl⟩, h.result⟩

end ScreeningRequest

/-- The hashes under which the answer to a request is kept. -/
structure ScreeningRequest.Keyed (T : EthicsPlatform) (r : ScreeningRequest) (key policyHash : Hash)
    (exclusions : List String) : Prop where
  excluded : Platform.policyExclusions r.excludedActivities = .ok exclusions
  policy : T.ethicalPolicyHash exclusions = .ok policyHash
  material : key = T.materialHash r.issuer.issuerKey r.issuer.legalName (materialEvidence r.evidence) policyHash

/-- The hash of the exclusions of a request, as the cache key of its screening holds it. -/
def ScreeningRequest.policyHash (T : EthicsPlatform) (r : ScreeningRequest) : Hash :=
  T.exclusionsHash (sortedSet r.excludedActivities)

theorem ScreeningRequest.Keyed.policyHash_eq {key policyHash : Hash} (h : r.Keyed T key policyHash exclusions) :
    policyHash = r.policyHash T := by
  have hashed := h.policy
  simp only [Platform.ethicalPolicyHash, ok_iff, Platform.policyExclusions_eq_ok] at hashed
  obtain ⟨_, ⟨-, -, rfl⟩, rfl⟩ := hashed
  obtain ⟨-, -, rfl⟩ := Platform.policyExclusions_eq_ok.mp h.excluded
  rw [sortedSet_sortedSet, policyHash]

theorem ScreeningRequest.consult_eq_ok {c : Consultation}
    (h : r.consult T previous = .ok c) : ∃ key policyHash exclusions, r.Keyed T key policyHash exclusions ∧
      ((∃ p a s, previous = some p ∧ Reusable T r key policyHash exclusions p a ∧ r.reuse T exclusions p a = .ok s ∧
          c = .settled s) ∨
        (r.refusals T ≠ [] ∧ ∃ s, r.conclude T key exclusions none (r.refusals T) = .ok s ∧ c = .settled s) ∨
        (r.refusals T = [] ∧ (∀ p a, previous = some p → ¬ Reusable T r key policyHash exclusions p a) ∧
          c = .pending key exclusions)) := by
  simp only [consult, ok_iff, screeningCacheKey] at h
  obtain ⟨-, exclusions, excluded, key, ⟨policyHash, hashed, keyed⟩, policyHash', hashed', h⟩ := h
  rw [hashed, Except.ok.injEq] at hashed'
  subst hashed' keyed
  refine ⟨_, policyHash, exclusions, ⟨excluded, hashed, rfl⟩, ?_⟩
  split at h
  next p a found =>
    obtain ⟨rfl, reusable⟩ := reusable_eq_some.mp found
    obtain ⟨s, reused, rfl⟩ := map_eq_ok.mp h
    exact .inl ⟨p, a, s, rfl, reusable, reused, rfl⟩
  next missing =>
    split at h
    next admitted =>
      refine .inr (.inr ⟨admitted, fun p a hp reusable => ?_, (pure_eq_ok.mp h).symm⟩)
      rw [reusable_eq_some.mpr ⟨hp, reusable⟩] at missing
      cases missing
    next refused =>
      obtain ⟨s, concluded, rfl⟩ := map_eq_ok.mp h
      exact .inr (.inl ⟨refused, s, concluded, rfl⟩)

/-- What a screening that was returned says: it is the assessment of the evidence under the policy of the request. -/
structure ScreeningRequest.Returned (T : EthicsPlatform) (r : ScreeningRequest) (key policyHash : Hash)
    (exclusions : List String) (s : IssuerScreening) : Prop where
  consistent : T.consistentScreening s.clearance = .ok ()
  key : s.cacheKey = key
  policy : s.clearance.policyHash = policyHash
  assessed : s.clearance.assessedExclusions = exclusions
  whole : ∃ n, s.clearance.validUntil = s.clearance.screenedAt + days n
  result : ∀ a ∈ s.assessment, s.clearance.result = (a.assess T r.issuer r.evidence exclusions).1
  passes : s.clearance.result = .pass → ∃ a, s.assessment = some a ∧ a.Passes T r.issuer r.evidence exclusions ∧
    s.clearance.businessActivities = sortedSet (a.businessActivities.map (·.activity))

namespace ScreeningRequest
variable {r : ScreeningRequest} {key policyHash : Hash} {exclusions : List String} {s : IssuerScreening}

theorem conclude_eq_ok {assessment : Option EthicalAssessment} {reasons : List String}
    (keyed : r.Keyed T key policyHash exclusions)
    (h : r.conclude T key exclusions assessment reasons = .ok s) : Returned T r key policyHash exclusions s ∧
      s.assessment = assessment ∧ s.reused = false ∧ s.clearance.screenedAt = r.now ∧
      s.clearance.validUntil = r.now + days r.validityDays := by
  simp only [conclude, ok_iff] at h
  obtain ⟨clearance, cleared, rfl⟩ := h
  obtain ⟨consistent, policy, result, screenedAt, validUntil, assessed, activities⟩ := clearanceOf_eq_ok cleared
  rw [keyed.policy, Except.ok.injEq] at policy
  refine ⟨⟨consistent, rfl, policy.symm, assessed, ⟨r.validityDays, screenedAt.symm ▸ validUntil⟩, ?_, fun pass => ?_⟩, rfl,
    rfl, screenedAt, validUntil⟩
  · rintro a ⟨⟩
    exact result
  change clearance.result = .pass at pass
  rw [result] at pass
  cases assessment with
  | none => cases pass
  | some a =>
    obtain ⟨passes, names⟩ := EthicalAssessment.assess_pass pass
    exact ⟨a, rfl, passes, activities.trans (congrArg sortedSet names)⟩

theorem reuse_eq_ok {p : IssuerScreening} (keyed : r.Keyed T key policyHash exclusions)
    (reusable : Reusable T r key policyHash exclusions p a) (h : r.reuse T exclusions p a = .ok s) :
    Returned T r key policyHash exclusions s ∧ s.assessment = some a ∧ s.reused = true ∧
      s.clearance.screenedAt = p.clearance.screenedAt ∧ s.clearance.result = p.clearance.result ∧
      s.clearance.validUntil = p.clearance.screenedAt +
        days ((p.clearance.validUntil - p.clearance.screenedAt) / days 1) := by
  simp only [reuse, ok_iff] at h
  obtain ⟨clearance, cleared, rfl⟩ := h
  obtain ⟨consistent, policy, result, screenedAt, validUntil, assessed, activities⟩ := clearanceOf_eq_ok cleared
  rw [keyed.policy, Except.ok.injEq] at policy
  refine ⟨⟨consistent, reusable.key, policy.symm, assessed, ⟨_, screenedAt.symm ▸ validUntil⟩, ?_,
    fun pass => ?_⟩, reusable.assessment, rfl, screenedAt, result.trans reusable.result, validUntil⟩
  · intro a' ha'
    cases reusable.assessment.symm.trans ha'
    exact result
  change clearance.result = .pass at pass
  rw [result] at pass
  obtain ⟨passes, names⟩ := EthicalAssessment.assess_pass pass
  exact ⟨a, reusable.assessment, passes, activities.trans (congrArg sortedSet names)⟩

end ScreeningRequest

/-- A run reuses the previous screening, ends without an assessment, or has an answer of the evaluator. -/
theorem screenIssuer_eq_ok {σ : Type} {evaluator : Option (Evaluator σ)} {s : σ}
    (h : (screenIssuer T r evaluator previous s).1 = .ok screening) :
    ∃ key policyHash exclusions, r.Keyed T key policyHash exclusions ∧
      ((∃ p a, previous = some p ∧ r.Reusable T key policyHash exclusions p a ∧ r.reuse T exclusions p a = .ok screening) ∨
        (∃ reasons, r.conclude T key exclusions none reasons = .ok screening) ∨
        (∃ ask raw a, evaluator = some ask ∧ r.refusals T = [] ∧ (ask ⟨r.issuer, exclusions, r.evidence⟩ s).1 = .ok raw ∧
          T.readAssessment raw = .ok a ∧ r.conclude T key exclusions (some a) [] = .ok screening)) := by
  unfold screenIssuer at h
  split at h
  · cases h
  next consulted =>
    obtain ⟨key, policyHash, exclusions, keyed, outcome⟩ := consult_eq_ok consulted
    refine ⟨key, policyHash, exclusions, keyed, ?_⟩
    cases h
    rcases outcome with ⟨p, a, s, hp, reusable, reused, ⟨⟩⟩ | ⟨-, s, concluded, ⟨⟩⟩ | ⟨-, -, ⟨⟩⟩
    · exact .inl ⟨p, a, hp, reusable, reused⟩
    · exact .inr (.inl ⟨_, concluded⟩)
  next key exclusions consulted =>
    obtain ⟨key', policyHash, exclusions', keyed, outcome⟩ := consult_eq_ok consulted
    rcases outcome with ⟨p, a, s, -, -, -, ⟨⟩⟩ | ⟨-, s, -, ⟨⟩⟩ | ⟨admitted, -, ⟨⟩⟩
    refine ⟨key, policyHash, exclusions, keyed, .inr ?_⟩
    cases evaluator with
    | none => exact .inl ⟨_, h⟩
    | some ask =>
      simp only [answered] at h
      split at h
      · exact .inl ⟨_, h⟩
      next a interpreted =>
        obtain ⟨raw, answered, read⟩ := interpret_eq_some interpreted
        exact .inr ⟨ask, raw, a, rfl, admitted, answered, read, h⟩

theorem screenIssuer_returned {σ : Type} {evaluator : Option (Evaluator σ)} {s : σ}
    (h : (screenIssuer T r evaluator previous s).1 = .ok screening) :
    ∃ key policyHash exclusions, r.Keyed T key policyHash exclusions ∧
      r.Returned T key policyHash exclusions screening ∧ (screening.assessment ≠ none → r.refusals T = []) := by
  obtain ⟨key, policyHash, exclusions, keyed, outcome⟩ := screenIssuer_eq_ok h
  refine ⟨key, policyHash, exclusions, keyed, ?_⟩
  rcases outcome with ⟨p, a, -, reusable, reused⟩ | ⟨_, concluded⟩ | ⟨_, _, a, -, admitted, -, -, concluded⟩
  · exact ⟨(reuse_eq_ok keyed reusable reused).1, fun _ => reusable.admitted⟩
  · obtain ⟨returned, unassessed, -⟩ := conclude_eq_ok keyed concluded
    exact ⟨returned, fun assessed => absurd unassessed assessed⟩
  · exact ⟨(conclude_eq_ok keyed concluded).1, fun _ => admitted⟩

/-- The exclusions are their own normal forms, and no activity has the normal form of an exclusion, a label that says
    nothing, or a blank. -/
structure LabelsAgree (P : Platform) (m : ResearchMandate) (activities : List String) : Prop where
  exclusions : ∀ e, e ∈ m.excludedActivities ↔ ∃ e' ∈ m.excludedActivities, activity P.casefold e' = e
  named : ∀ a ∈ activities, activity P.casefold a ≠ "" ∧ activity P.casefold a ∉ unknownActivities
  permitted : ∀ a ∈ activities, ∀ e ∈ m.excludedActivities, activity P.casefold a ≠ activity P.casefold e

section
variable {P : Platform} {i : InstrumentMetadata} {m : ResearchMandate} {now : Int} {c : EthicalClearance}

theorem mem_exclusionsOf_of_fixed (fixed : ∀ a ∈ excludedActivities, a ∈ m.excludedActivities) {e : String} :
    e ∈ exclusionsOf P m ↔ ∃ e' ∈ m.excludedActivities, activity P.casefold e' = e := by
  rw [mem_exclusionsOf]
  constructor
  · rintro ⟨e', origin, he⟩
    rcases origin with hfixed | configured
    · exact ⟨e', fixed e' hfixed, he⟩
    · exact ⟨e', configured, he⟩
  · rintro ⟨e', configured, he⟩
    exact ⟨e', .inr configured, he⟩

/-- The policy of a clearance is the one that the gate computes if and only if normalizing the exclusions changes
    nothing. -/
theorem exclusionsOf_eq_iff (fixed : ∀ a ∈ excludedActivities, a ∈ m.excludedActivities) :
    sortedSet m.excludedActivities = exclusionsOf P m ↔
      ∀ e, e ∈ m.excludedActivities ↔ ∃ e' ∈ m.excludedActivities, activity P.casefold e' = e := by
  have normal : sortedSet (exclusionsOf P m) = exclusionsOf P m := sortedSet_sortedSet _
  rw [← normal, sortedSet_eq_iff]
  exact forall_congr' fun e => by rw [mem_exclusionsOf_of_fixed fixed]

theorem mem_eligibilityFailures {failures : List String} {policy : Hash} (consistent : P.consistentScreening c = .ok ())
    (pass : c.result = .pass) (cleared : i.ethicalClearance = some c) (verified : i.activitiesVerified = true)
    (hashed : P.ethicalPolicyHash (exclusionsOf P m) = .ok policy)
    (h : eligibilityFailures P (some i) m now = .ok failures) :
    ("PROHIBITED_ACTIVITY" ∈ failures ↔ ∃ a ∈ activitiesOf P i.businessActivities, a ∈ exclusionsOf P m) ∧
    ("ETHICAL_POLICY_CHANGED" ∈ failures ↔ c.policyHash ≠ policy) ∧
    ("ETHICAL_SCREEN_UNKNOWN" ∈ failures ↔ (activitiesOf P i.businessActivities = [] ∨
      ∃ a ∈ activitiesOf P i.businessActivities, a = "" ∨ a ∈ unknownActivities) ∨
        ¬ ∀ e ∈ exclusionsOf P m, e ∈ activitiesOf P c.assessedExclusions) := by
  simp only [eligibilityFailures, screeningFailures, cleared, clearanceFailures, consistent, hashed, ok_iff,
    current_eq_ok] at h
  obtain ⟨_, ⟨_, ⟨⟩, rfl⟩, _, ⟨-, rfl⟩, rfl⟩ := h
  refine ⟨?_, ?_, ?_⟩ <;>
    simp only [distinct, mem_eraseDups, mem_append, mem_flag, listingFailures, pass, verified] <;> simp

end

theorem ethicalPolicyHash_of_named (folding : T.toPlatform.Folding) {m : ResearchMandate}
    (named : ∀ e ∈ m.excludedActivities, strip e ≠ "") :
    T.toPlatform.ethicalPolicyHash (exclusionsOf T.toPlatform m) = .ok (T.exclusionsHash (exclusionsOf T.toPlatform m)) := by
  obtain ⟨hash, hashed⟩ := (ethicalPolicyHash_exclusionsOf folding).mpr named
  rw [hashed]
  simp only [Platform.ethicalPolicyHash, ok_iff, Platform.policyExclusions_eq_ok] at hashed
  obtain ⟨_, ⟨-, -, rfl⟩, rfl⟩ := hashed
  rw [exclusionsOf, sortedSet_sortedSet]

/-- An instrument with a pass of the screening is free of ethical failures throughout its clearance if and only if the
    labels mean the same to the screening and to the gate, at every instant that the gate can go a day back from. -/
theorem screened_pass_is_eligible {σ : Type} (folding : T.toPlatform.Folding) (m : ResearchMandate) (r : ScreeningRequest)
    (mandated : r.excludedActivities = m.excludedActivities) (evaluator : Option (Evaluator σ))
    (previous : Option IssuerScreening) (s : σ) (screening : IssuerScreening)
    (screened : (screenIssuer T r evaluator previous s).1 = .ok screening) (pass : screening.clearance.result = .pass)
    (a : EthicalAssessment) (assessed : screening.assessment = some a) (i : InstrumentMetadata)
    (carried : i.ethicalClearance = some screening.clearance) (verified : i.activitiesVerified = true)
    (activities : i.businessActivities = a.businessActivities.map (·.activity))
    (unambiguous : T.exclusionsHash (sortedSet m.excludedActivities) = T.exclusionsHash (exclusionsOf T.toPlatform m) →
      sortedSet m.excludedActivities = exclusionsOf T.toPlatform m) (now : Int) :
    (∃ failures, eligibilityFailures T.toPlatform (some i) m now = .ok failures ∧ "PROHIBITED_ACTIVITY" ∉ failures ∧
        "ETHICAL_SCREEN_UNKNOWN" ∉ failures ∧ "ETHICAL_POLICY_CHANGED" ∉ failures) ↔
      LabelsAgree T.toPlatform m i.businessActivities ∧ Dated now := by
  obtain ⟨key, policyHash, exclusions, keyed, returned, -⟩ := screenIssuer_returned screened
  obtain ⟨_, rfl, passes, -⟩ : ∃ a', a' = a ∧ a'.Passes T r.issuer r.evidence exclusions ∧ _ := by
    obtain ⟨a', ha', passes, names⟩ := returned.passes pass
    exact ⟨a', Option.some.inj (ha'.symm.trans assessed), passes, names⟩
  -- the screening was made for the exclusions of the mandate as they are written
  obtain ⟨fixed, stripped, rfl⟩ := Platform.policyExclusions_eq_ok.mp keyed.excluded
  rw [mandated] at fixed stripped
  have policy : policyHash = T.exclusionsHash (sortedSet m.excludedActivities) := by
    rw [keyed.policyHash_eq, ScreeningRequest.policyHash, mandated]
  -- the gate hashes their normal forms
  have gate := ethicalPolicyHash_of_named folding fun e he blank => (stripped e he).1 ((stripped e he).2.trans blank)
  have unchanged : screening.clearance.policyHash = T.exclusionsHash (exclusionsOf T.toPlatform m) ↔
      ∀ e, e ∈ m.excludedActivities ↔ ∃ e' ∈ m.excludedActivities, activity T.casefold e' = e := by
    rw [returned.policy, policy, ← exclusionsOf_eq_iff fixed]
    exact ⟨unambiguous, congrArg _⟩
  have covered : ∀ e ∈ exclusionsOf T.toPlatform m, e ∈ activitiesOf T.toPlatform screening.clearance.assessedExclusions := by
    intro e he
    obtain ⟨e', configured, rfl⟩ := (mem_exclusionsOf_of_fixed fixed).mp he
    rw [returned.assessed, mandated]
    exact mem_map_of_mem (mem_sortedSet.mpr configured)
  have some_ : activitiesOf T.toPlatform i.businessActivities ≠ [] := by
    rw [activities]
    simpa [activitiesOf] using passes.activities.1
  constructor
  · rintro ⟨failures, returns, unprohibited, known, kept⟩
    obtain ⟨prohibited, changed, unknown⟩ :=
      mem_eligibilityFailures returned.consistent pass carried verified gate returns
    rw [prohibited] at unprohibited
    rw [unknown] at known
    rw [changed, not_not] at kept
    refine ⟨⟨unchanged.mp kept, fun b hb => ?_, fun b hb e he same => ?_⟩, dated_of_eligibilityFailures returns⟩
    · refine ⟨fun blank => ?_, fun vague => ?_⟩
      · exact known (.inl (.inr ⟨_, mem_map_of_mem hb, .inl blank⟩))
      · exact known (.inl (.inr ⟨_, mem_map_of_mem hb, .inr vague⟩))
    · exact unprohibited ⟨_, mem_map_of_mem hb, (mem_exclusionsOf_of_fixed fixed).mpr ⟨e, he, same.symm⟩⟩
  · rintro ⟨agree, dated⟩
    obtain ⟨failures, returns⟩ : ∃ failures, eligibilityFailures T.toPlatform (some i) m now = .ok failures := by
      simp only [eligibilityFailures, screeningFailures, carried, clearanceFailures, returned.consistent, gate,
        bind_of_ok (current_eq_ok.mpr ⟨dated, rfl⟩)]
      exact ⟨_, rfl⟩
    obtain ⟨prohibited, changed, unknown⟩ :=
      mem_eligibilityFailures returned.consistent pass carried verified gate returns
    refine ⟨failures, returns, ?_, ?_, ?_⟩
    · rw [prohibited]
      rintro ⟨_, hmem, hexcluded⟩
      obtain ⟨b, hb, rfl⟩ := mem_map.mp hmem
      obtain ⟨e, he, same⟩ := (mem_exclusionsOf_of_fixed fixed).mp hexcluded
      exact agree.permitted b hb e he same.symm
    · rw [unknown]
      rintro ((empty | ⟨_, hmem, vague⟩) | missing)
      · exact some_ empty
      · obtain ⟨b, hb, rfl⟩ := mem_map.mp hmem
        rcases vague with blank | vague
        · exact (agree.named b hb).1 blank
        · exact (agree.named b hb).2 vague
      · exact missing covered
    · rw [changed, not_not]
      exact unchanged.mpr agree.exclusions

/-! ### A screening that passes -/

def hashOf (c : Char) : Hash := String.ofList (List.replicate 64 c)

def annualReport : EthicalEvidence where
  sourceId := hashOf 'a'
  provider := "provider"
  issuerKey := "isin:GB0000000001"
  content := "All operations of the group are named here."
  contentSha256 := hashOf 'a'
  retrievedAt := days 20700
  evidenceKind := .businessProfile

def annualCitation : EthicalCitation where
  sourceId := hashOf 'a'
  evidenceHash := hashOf 'a'
  quote := "operations of the group"

/-- The answer that clears every exclusion from the scope of the annual report. -/
def assessmentOf (exclusions activities : List String) : EthicalAssessment where
  issuerKey := "isin:GB0000000001"
  legalName := "Issuer plc"
  completeMaterialBusinessScope := true
  scopeCitations := [annualCitation]
  businessActivities := activities.map fun activity => ⟨activity, [annualCitation]⟩
  assessments := exclusions.map fun category => ⟨category, .noMaterialExposure, .completeBusinessScope, [annualCitation]⟩

/-- A hash of 64 digits over every character of the texts. -/
def sumHash (texts : List String) : Hash :=
  String.ofList ((Nat.toDigits 16 ((texts.flatMap String.toList).map Char.toNat).sum).leftpad 64 '0')

/-- A platform on which the hash of a policy tells whether it names fossil fuels. -/
def samplePlatform (answer : EthicalAssessment) : EthicsPlatform where
  toPlatform := { plainPlatform with
    exclusionsHash := fun exclusions => if "fossil_fuels" ∈ exclusions then hashOf 'b' else hashOf 'a' }
  lower := id
  sha256 _ := hashOf 'a'
  materialHash issuerKey legalName material policy := sumHash (issuerKey :: legalName :: policy :: material.flatten)
  readAssessment _ := .ok answer

def sampleRequest (exclusions : List String) : ScreeningRequest where
  issuer := {
    issuerKey := "isin:GB0000000001", legalName := "Issuer plc", isins := ["GB0000000001"], identityEvidenceHashes := [] }
  evidence := [annualReport]
  now := days 20714
  sourceApprovals := [{ provider := "provider", evidenceHashes := [hashOf 'a'], validUntil := days 20720 }]
  excludedActivities := exclusions

def sampleScreening (exclusions activities : List String) : Except Err IssuerScreening :=
  (screenIssuer (samplePlatform (assessmentOf exclusions activities)) (sampleRequest exclusions)
    (some fun _ (u : Unit) => (.ok "", u)) none ()).1

def withClearance (activities : List String) (clearance : EthicalClearance) : InstrumentMetadata :=
  { clearedInstrument with businessActivities := activities, ethicalClearance := some clearance }

theorem screened_pass_is_eligible_software : ∃ screening, sampleScreening excludedActivities ["software"] = .ok screening ∧
    ∃ failures, eligibilityFailures (samplePlatform (assessmentOf excludedActivities ["software"])).toPlatform
      (some (withClearance ["software"] screening.clearance)) {} (days 20714) = .ok failures ∧
      "PROHIBITED_ACTIVITY" ∉ failures ∧ "ETHICAL_SCREEN_UNKNOWN" ∉ failures ∧ "ETHICAL_POLICY_CHANGED" ∉ failures := by
  obtain ⟨screening, screened, pass, assessed⟩ := exists_of_toOption
    (show ∃ s ∈ (sampleScreening excludedActivities ["software"]).toOption, s.clearance.result = .pass ∧
      s.assessment = some (assessmentOf excludedActivities ["software"]) by decide +kernel)
  have labels : LabelsAgree (samplePlatform (assessmentOf excludedActivities ["software"])).toPlatform {} ["software"] := by
    have fixed : ∀ e ∈ excludedActivities, activity id e = e := by decide
    refine ⟨fun e => ⟨fun he => ⟨e, he, fixed e he⟩, ?_⟩, by decide, by decide⟩
    rintro ⟨e', he', rfl⟩
    exact (fixed e' he').symm ▸ he'
  exact ⟨screening, screened, (screened_pass_is_eligible ⟨fun _ => Iff.rfl, fun _ _ => rfl⟩ {} _ rfl _ _ _ screening screened
    pass _ assessed (withClearance ["software"] screening.clearance) rfl rfl rfl (fun _ => by decide) _).mpr ⟨labels, by decide⟩⟩

/-- Two blanks in an activity, an exclusion of two words and a label that only the gate takes for none: the gate finds
    all three failures. -/
theorem differently_labelled_pass_is_refused :
    (mandateExcluding "fossil fuels").enforceMandate = .ok () ∧
    ∃ s ∈ (sampleScreening (mandateExcluding "fossil fuels").excludedActivities
        ["oil  production", "not available"]).toOption, s.clearance.result = .pass ∧
      (eligibilityFailures (samplePlatform (assessmentOf [] [])).toPlatform
        (some (withClearance ["oil  production", "not available"] s.clearance)) (mandateExcluding "fossil fuels")
        (days 20714)).toOption =
        some ["ETHICAL_SCREEN_UNKNOWN", "PROHIBITED_ACTIVITY", "ETHICAL_POLICY_CHANGED"] := by
  decide +kernel

/-! ### Chains of runs -/

/-- One run of a chain: its request, and what the evaluator would answer in it. -/
structure ScreeningTurn where
  request : ScreeningRequest
  evaluator : Option (Prompt → Except Err String) := none

def ScreeningTurn.screen (T : EthicsPlatform) (t : ScreeningTurn) (previous : Option IssuerScreening) :
    Except Err IssuerScreening :=
  (screenIssuer T t.request (t.evaluator.map fun ask prompt (u : Unit) => (ask prompt, u)) previous ()).1

def screeningStep (T : EthicsPlatform) (previous : Option IssuerScreening) (t : ScreeningTurn) :
    Except Err (Option IssuerScreening) :=
  some <$> t.screen T previous

/-- The evaluator of a run gave the assessment of a screening, under its key and with its lifetime. -/
structure ScreeningTurn.Obtained (T : EthicsPlatform) (origin : ScreeningTurn) (s : IssuerScreening)
    (a : EthicalAssessment) : Prop where
  keyed : ∃ policyHash exclusions, origin.request.Keyed T s.cacheKey policyHash exclusions ∧
    ∃ ask raw, origin.evaluator = some ask ∧
      ask ⟨origin.request.issuer, exclusions, origin.request.evidence⟩ = .ok raw ∧ T.readAssessment raw = .ok a
  screenedAt : s.clearance.screenedAt = origin.request.now
  validUntil : s.clearance.validUntil = origin.request.now + days origin.request.validityDays

def Traced (T : EthicsPlatform) (turns : List ScreeningTurn) (s : IssuerScreening) : Prop :=
  ∀ a ∈ s.assessment, ∃ origin ∈ turns, origin.Obtained T s a

theorem days_ediv (n : Int) : days n / days 1 = n := by
  have unit : days n = n * days 1 := by
    simp only [days, hours, minutes, seconds]
    ring
  rw [unit]
  exact Int.mul_ediv_cancel n (by decide)

theorem screen_traced {turns : List ScreeningTurn} {t : ScreeningTurn}
    {s : IssuerScreening} (traced : ∀ p ∈ previous, Traced T turns p) (h : t.screen T previous = .ok s) :
    (s.reused = true → (∃ a, s.assessment = some a) ∧ Traced T turns s ∧
      s.clearance.validUntil ≤ s.clearance.screenedAt + days t.request.validityDays) ∧
    (s.reused = false → ∀ a ∈ s.assessment, t.Obtained T s a) := by
  obtain ⟨key, policyHash, exclusions, keyed, outcome⟩ := screenIssuer_eq_ok h
  rcases outcome with ⟨p, a, rfl, reusable, reused⟩ | ⟨_, concluded⟩ | ⟨ask, raw, a, asked, -, answered, read, concluded⟩
  · obtain ⟨returned, assessed, flag_, screenedAt, -, validUntil⟩ := reuse_eq_ok keyed reusable reused
    refine ⟨fun _ => ⟨⟨a, assessed⟩, fun a' ha' => ?_, ?_⟩, fun fresh => absurd fresh (by simp [flag_])⟩
    · rw [assessed] at ha'
      cases ha'
      obtain ⟨origin, member, obtained⟩ := traced p rfl a reusable.assessment
      refine ⟨origin, member, ⟨?_, screenedAt.trans obtained.screenedAt, ?_⟩⟩
      · rw [returned.key, ← reusable.key]
        exact obtained.keyed
      · rw [validUntil, obtained.validUntil, obtained.screenedAt, add_sub_cancel_left, days_ediv]
    · obtain ⟨origin, -, obtained⟩ := traced p rfl a reusable.assessment
      have bounded := reusable.bounded
      rw [validUntil, screenedAt, obtained.validUntil, obtained.screenedAt, add_sub_cancel_left, days_ediv]
      rwa [obtained.validUntil, obtained.screenedAt] at bounded
  · obtain ⟨-, unassessed, fresh, -⟩ := conclude_eq_ok keyed concluded
    refine ⟨fun reused => absurd reused (by simp [fresh]), fun _ a ha => ?_⟩
    rw [unassessed] at ha
    cases ha
  · obtain ⟨returned, assessed, fresh, screenedAt, validUntil⟩ := conclude_eq_ok keyed concluded
    refine ⟨fun reused => absurd reused (by simp [fresh]), fun _ a' ha' => ?_⟩
    rw [assessed] at ha'
    cases ha'
    obtain ⟨ask', found, rfl⟩ := Option.map_eq_some_iff.mp asked
    refine ⟨⟨policyHash, exclusions, returned.key.symm ▸ keyed, ask', raw, found, answered, read⟩, screenedAt, validUntil⟩

theorem chain_traced (turns : List ScreeningTurn) : ∀ s ∈ Runs.run (screeningStep T) none turns, Traced T turns s := by
  refine Runs.run_inv_of (Q := (· ∈ turns)) (P := fun s => ∀ p ∈ s, Traced T turns p) ?_ turns (fun _ h => h) (by simp)
  intro previous t next member traced h
  obtain ⟨s, screened, rfl⟩ := map_eq_ok.mp h
  obtain ⟨reused, fresh⟩ := screen_traced traced screened
  rintro _ ⟨⟩ a ha
  cases kind : s.reused with
  | true => exact (reused kind).2.1 a ha
  | false => exact ⟨t, member, fresh kind a ha⟩

/-- No two requests of a chain have one key or one policy hash without having the same contents behind it. -/
structure CollisionFree (T : EthicsPlatform) (requests : List ScreeningRequest) : Prop where
  keys : ∀ r ∈ requests, ∀ r' ∈ requests,
    T.materialHash r.issuer.issuerKey r.issuer.legalName (materialEvidence r.evidence) (r.policyHash T) =
      T.materialHash r'.issuer.issuerKey r'.issuer.legalName (materialEvidence r'.evidence) (r'.policyHash T) →
    r.issuer.issuerKey = r'.issuer.issuerKey ∧ r.issuer.legalName = r'.issuer.legalName ∧
      materialEvidence r.evidence = materialEvidence r'.evidence ∧ r.policyHash T = r'.policyHash T
  policies : ∀ r ∈ requests, ∀ r' ∈ requests, r.policyHash T = r'.policyHash T →
    sortedSet r.excludedActivities = sortedSet r'.excludedActivities

/-- A run asked the evaluator at this instant, about the same issuer, material evidence and policy as a request. -/
structure ScreeningTurn.SameQuestion (origin : ScreeningTurn) (r : ScreeningRequest) (at_ : Int) : Prop where
  instant : origin.request.now = at_
  issuerKey : origin.request.issuer.issuerKey = r.issuer.issuerKey
  legalName : origin.request.issuer.legalName = r.issuer.legalName
  material : (origin.request.evidence.map (·.material)).Perm (r.evidence.map (·.material))
  policy : ∀ e, e ∈ origin.request.excludedActivities ↔ e ∈ r.excludedActivities

/-- A document that is present in a run, from a provider whose approval is in force. -/
def ScreeningRequest.Approved (r : ScreeningRequest) (e : EthicalEvidence) : Prop :=
  e ∈ r.evidence ∧ ∃ approval ∈ r.sourceApprovals, approval.provider = e.provider ∧ r.now < approval.validUntil

theorem ScreeningRequest.approved_of_admitted (h : r.refusals T = []) {e : EthicalEvidence}
    (he : e ∈ r.evidence) : r.Approved e := by
  simp only [refusals, append_eq_nil_iff, flag_eq_nil, not_exists, not_and] at h
  obtain ⟨⟨⟨⟨-, approved⟩, -⟩, -⟩, -⟩ := h
  obtain ⟨approval, found⟩ := Option.ne_none_iff_exists'.mp (approved e he)
  have member := mem_filter.mp (mem_reverse.mp (mem_of_find?_eq_some found))
  refine ⟨he, approval, member.1, ?_, by simpa using member.2⟩
  simpa using List.find?_some found

theorem Obtained.sameQuestion {requests : List ScreeningRequest} (unambiguous : CollisionFree T requests)
    {origin : ScreeningTurn} (horigin : origin.request ∈ requests) (hr : r ∈ requests)
    {s : IssuerScreening} {key policyHash : Hash}
    (obtained : origin.Obtained T s a) (keyed : r.Keyed T key policyHash exclusions) (same : s.cacheKey = key) :
    origin.SameQuestion r s.clearance.screenedAt := by
  obtain ⟨policyHash', exclusions', keyed', -⟩ := obtained.keyed
  obtain rfl := keyed.policyHash_eq
  obtain rfl := keyed'.policyHash_eq
  obtain ⟨issuerKey, legalName, material, policy⟩ := unambiguous.keys _ horigin _ hr
    (by rw [← keyed'.material, same, keyed.material])
  refine ⟨obtained.screenedAt.symm, issuerKey, legalName, ?_, sortedSet_eq_iff.mp (unambiguous.policies _ horigin _ hr policy)⟩
  have sorted := perm_insertionSort tupleBefore (origin.request.evidence.map (·.material))
  have sorted' := perm_insertionSort tupleBefore (r.evidence.map (·.material))
  rw [materialEvidence, materialEvidence] at material
  exact sorted.symm.trans (material ▸ sorted')

/-- A reused clearance ends within the validity period after its original screening, and every pass rests on an answer
    whose quotations stand in documents that are present and approved now. -/
theorem reused_clearances_keep_their_basis (turns : List ScreeningTurn) (t : ScreeningTurn)
    (unambiguous : CollisionFree T ((turns ++ [t]).map (·.request))) (s : IssuerScreening)
    (h : t.screen T (Runs.run (screeningStep T) none turns) = .ok s) :
    (s.reused = true → s.clearance.validUntil ≤ s.clearance.screenedAt + days t.request.validityDays ∧
      ∃ origin ∈ turns, s.clearance.screenedAt = origin.request.now ∧
        s.clearance.validUntil = origin.request.now + days origin.request.validityDays) ∧
    (s.clearance.result = .pass → ∃ origin ∈ turns ++ [t], ∃ a, s.assessment = some a ∧ origin.Obtained T s a ∧
      origin.SameQuestion t.request s.clearance.screenedAt ∧
      ∀ c ∈ a.citations, ∃ e, t.request.Approved e ∧ e.sourceId = c.sourceId ∧ e.contentSha256 = c.evidenceHash ∧
        c.quote.toList <:+: e.content.toList) := by
  obtain ⟨reused, fresh⟩ := screen_traced (chain_traced turns) h
  refine ⟨fun again => ?_, fun pass => ?_⟩
  · obtain ⟨⟨a, assessed⟩, traced, bounded⟩ := reused again
    obtain ⟨origin, member, obtained⟩ := traced a assessed
    exact ⟨bounded, origin, member, obtained.screenedAt, obtained.validUntil⟩
  · obtain ⟨key, policyHash, exclusions, keyed, returned, admitted⟩ := screenIssuer_returned h
    obtain ⟨a, assessed, passes, -⟩ := returned.passes pass
    obtain ⟨origin, member, obtained⟩ : ∃ origin ∈ turns ++ [t], origin.Obtained T s a := by
      cases again : s.reused with
      | true =>
        obtain ⟨origin, member, obtained⟩ := (reused again).2.1 a assessed
        exact ⟨origin, mem_append_left _ member, obtained⟩
      | false => exact ⟨t, mem_append_right _ (mem_singleton_self t), fresh again a assessed⟩
    refine ⟨origin, member, a, assessed, obtained, ?_, fun c hc => ?_⟩
    · exact Obtained.sameQuestion unambiguous (mem_map_of_mem member)
        (mem_map_of_mem (mem_append_right _ (mem_singleton_self t))) obtained keyed returned.key
    · obtain ⟨e, found, hash, quoted⟩ := passes.supported hc
      have present : e ∈ t.request.evidence := mem_reverse.mp (mem_of_find?_eq_some found)
      exact ⟨e, approved_of_admitted (admitted (by simp [assessed])) present,
        by simpa using List.find?_some found, hash, quoted⟩

/-- The second of two runs a day apart, which reuses the screening of the first. -/
def sampleTurn (day : Int) : ScreeningTurn where
  request := { sampleRequest excludedActivities with now := days day }
  evaluator := some fun _ => .ok ""

theorem reused_clearances_keep_their_basis_sample : ∃ s,
    (sampleTurn 20715).screen (samplePlatform (assessmentOf excludedActivities ["software"]))
      (Runs.run (screeningStep (samplePlatform (assessmentOf excludedActivities ["software"]))) none [sampleTurn 20714]) =
        .ok s ∧ s.reused = true ∧ ∃ origin ∈ [sampleTurn 20714, sampleTurn 20715],
      origin.SameQuestion (sampleTurn 20715).request s.clearance.screenedAt := by
  obtain ⟨s, screened, reused, pass⟩ := exists_of_toOption
    (show ∃ s ∈ ((sampleTurn 20715).screen (samplePlatform (assessmentOf excludedActivities ["software"]))
      (Runs.run (screeningStep (samplePlatform (assessmentOf excludedActivities ["software"]))) none
        [sampleTurn 20714])).toOption, s.reused = true ∧ s.clearance.result = .pass by decide +kernel)
  have unambiguous : CollisionFree (samplePlatform (assessmentOf excludedActivities ["software"]))
      (([sampleTurn 20714] ++ [sampleTurn 20715]).map (·.request)) := by
    -- the two requests differ in their instants only
    have alike : ∀ r ∈ ([sampleTurn 20714] ++ [sampleTurn 20715]).map (·.request),
        r.issuer = (sampleRequest excludedActivities).issuer ∧ r.evidence = [annualReport] ∧
          r.excludedActivities = excludedActivities := by
      rintro r hr
      simp only [cons_append, nil_append, map_cons, map_nil, mem_cons, not_mem_nil,
        or_false] at hr
      rcases hr with rfl | rfl <;> exact ⟨rfl, rfl, rfl⟩
    constructor
    · intro r hr r' hr' _
      obtain ⟨issuer, evidence, exclusions⟩ := alike r hr
      obtain ⟨issuer', evidence', exclusions'⟩ := alike r' hr'
      rw [policyHash, policyHash, issuer, issuer', evidence, evidence', exclusions, exclusions']
      exact ⟨rfl, rfl, rfl, rfl⟩
    · intro r hr r' hr' _
      rw [(alike r hr).2.2, (alike r' hr').2.2]
  obtain ⟨origin, member, a, -, -, same, -⟩ :=
    (reused_clearances_keep_their_basis [sampleTurn 20714] (sampleTurn 20715) unambiguous s screened).2 pass
  exact ⟨s, screened, reused, origin, member, same⟩

end Money
