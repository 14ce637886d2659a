import Money.Governance

/-! When the evidence gates are clear: facts about the sealed inputs, and windows the instant has to lie in. -/

namespace Money
open Checked List

theorem foldl_min_le {first : Int} {rest : List Int} {e : Int} (h : e ∈ first :: rest) : rest.foldl min first ≤ e :=
  (List.min?_eq_some_iff.mp List.min?_cons').2 e h

variable {P : Platform}

/-! ### Eligibility -/

/-- The part of a clearance that does not depend on the instant. -/
structure Standing (P : Platform) (i : InstrumentMetadata) (m : ResearchMandate) (c : EthicalClearance) : Prop where
  consistent : P.consistentScreening c = .ok ()
  passed : c.result = .pass
  policy : P.ethicalPolicyHash (exclusionsOf P m) = .ok c.policyHash
  activities : CrossExaminationPacket.sameMembers (activitiesOf P c.businessActivities)
    (activitiesOf P i.businessActivities)
  assessed : ∀ e ∈ exclusionsOf P m, e ∈ activitiesOf P c.assessedExclusions

variable {i : InstrumentMetadata} {m : ResearchMandate} {now : Int} {s : ResearchSnapshot}

theorem clearanceFailures_eq_nil {c : EthicalClearance} :
    clearanceFailures P i m now c = .ok [] ↔ Standing P i m c ∧ c.screenedAt ≤ now ∧ now < c.validUntil := by
  unfold clearanceFailures
  cases consistent : P.consistentScreening c with
  | error e => exact ⟨fun h => by simp at h, fun h => by simp [h.1.consistent] at consistent⟩
  | ok u =>
    simp only [ok_iff, append_eq_nil_iff, flag_eq_nil, not_not]
    constructor
    · rintro ⟨policy, hash, ⟨⟨⟨result, lifetime⟩, same⟩, activities⟩, assessed⟩
      refine ⟨⟨consistent, ?_, by rw [hash, same], activities, assessed⟩, lifetime⟩
      cases kind : c.result <;> simp [kind] at result ⊢
    · rintro ⟨standing, lifetime⟩
      refine ⟨_, standing.policy, ⟨⟨⟨?_, lifetime⟩, rfl⟩, standing.activities⟩, standing.assessed⟩
      simp [standing.passed]

theorem screeningFailures_eq_nil : screeningFailures P i m now = .ok [] ↔
      ∀ c ∈ i.ethicalClearance, Standing P i m c ∧ c.screenedAt ≤ now ∧ now < c.validUntil := by
  unfold screeningFailures
  cases i.ethicalClearance <;> simp [clearanceFailures_eq_nil]

/-- The part of the eligibility that does not depend on the instant. -/
structure Listed (P : Platform) (i : InstrumentMetadata) (m : ResearchMandate) : Prop where
  listing : listingFailures P i m = []
  provenance : provenanceValid i
  standing : ∀ c ∈ i.ethicalClearance, Standing P i m c

/-- The instant lies within the windows of the verification and of the clearance. -/
structure InWindow (i : InstrumentMetadata) (now : Int) : Prop where
  dated : Dated now
  verified : now - eligibilityMaximumAge < i.verifiedAt ∧ i.verifiedAt ≤ now
  cleared : ∀ c ∈ i.ethicalClearance, c.screenedAt ≤ now ∧ now < c.validUntil

theorem Dated.later {next : Int} (h : Dated now) (le : now ≤ next) : Dated next :=
  h.trans (sub_le_sub_right le _)

theorem current_eq_ok {fresh : Bool} : current i now = .ok fresh ↔
    Dated now ∧ decide (now - eligibilityMaximumAge < i.verifiedAt ∧ i.verifiedAt ≤ now) = fresh := by
  simp only [current, ok_iff]

theorem eligibilityFailures_eq_nil : eligibilityFailures P (some i) m now = .ok [] ↔ Listed P i m ∧ InWindow i now := by
  simp only [eligibilityFailures, ok_iff, current_eq_ok, distinct_eq_nil, append_eq_nil_iff, flag_eq_nil, not_not,
    Bool.not_eq_false]
  constructor
  · rintro ⟨_, screening, _, ⟨dated, rfl⟩, ⟨⟨listing, rfl⟩, provenance⟩, verified⟩
    have cleared := screeningFailures_eq_nil.mp screening
    exact ⟨⟨listing, provenance, fun c hc => (cleared c hc).1⟩, dated, of_decide_eq_true verified, fun c hc => (cleared c hc).2⟩
  · rintro ⟨listed, window⟩
    have screening := screeningFailures_eq_nil.mpr fun c hc => ⟨listed.standing c hc, window.cleared c hc⟩
    exact ⟨[], screening, _, ⟨window.dated, rfl⟩, ⟨⟨listed.listing, rfl⟩, listed.provenance⟩,
      decide_eq_true window.verified⟩

theorem dated_of_eligibilityFailures {failures : List String} (h : eligibilityFailures P (some i) m now = .ok failures) :
    Dated now := by
  simp only [eligibilityFailures, ok_iff, current_eq_ok] at h
  obtain ⟨_, -, _, ⟨dated, -⟩, -⟩ := h
  exact dated

theorem Listed.isOk (listed : Listed P i m) (dated : Dated now) :
    ∃ failures, eligibilityFailures P (some i) m now = .ok failures := by
  have screening : ∃ failures, screeningFailures P i m now = .ok failures := by
    unfold screeningFailures
    cases clearance : i.ethicalClearance with
    | none => exact ⟨[], rfl⟩
    | some c =>
      have standing := listed.standing c clearance
      simp only [clearanceFailures, standing.consistent, standing.policy]
      exact ⟨_, rfl⟩
  obtain ⟨failures, screened⟩ := screening
  exact ⟨_, bind_eq_ok.mpr ⟨failures, screened, bind_eq_ok.mpr ⟨_, current_eq_ok.mpr ⟨dated, rfl⟩, rfl⟩⟩⟩

/-- There is a critical price record, and no critical one is in conflict or too late for its cutoff. -/
structure Sourced (s : ResearchSnapshot) : Prop where
  priced : ∃ e ∈ s.evidence, e.critical = true ∧ e.payload.isOhlcv = true
  agreed : ∀ e ∈ s.evidence, e.critical = true → e.conflicting = false ∧ e.availableAt (s.cutoffFor e) = true

def Fresh (s : ResearchSnapshot) (now : Int) : Prop := ∀ e ∈ s.evidence, e.critical = true → now < e.freshUntil

theorem recordFailures_eq_nil {e : EvidenceRecord} : recordFailures s now e = [] ↔
      (e.critical = true → now < e.freshUntil ∧ e.conflicting = false ∧ e.availableAt (s.cutoffFor e) = true) := by
  simp only [recordFailures, append_eq_nil_iff, flag_eq_nil, not_and, Bool.not_eq_true, Bool.not_eq_false, not_le]
  constructor
  · rintro ⟨⟨fresh, agreed⟩, available⟩ critical
    exact ⟨fresh critical, agreed critical, available critical⟩
  · intro all
    exact ⟨⟨fun critical => (all critical).1, fun critical => (all critical).2.1⟩, fun critical => (all critical).2.2⟩

theorem snapshotFailures_eq_nil : snapshotFailures s now = [] ↔ Sourced s ∧ Fresh s now := by
  simp only [snapshotFailures, distinct_eq_nil, append_eq_nil_iff, flag_eq_nil, not_not,
    flatMap_eq_nil_iff, recordFailures_eq_nil]
  constructor
  · rintro ⟨priced, all⟩
    exact ⟨⟨priced, fun e he critical => (all e he critical).2⟩, fun e he critical => (all e he critical).1⟩
  · rintro ⟨sourced, fresh⟩
    exact ⟨sourced.priced, fun e he critical => ⟨fresh e he critical, sourced.agreed e he critical⟩⟩

/-! ### Consensus -/

/-- No gate of the consensus is violated at the instant. -/
structure Clear (P : Platform) (m : ResearchMandate) (s : ResearchSnapshot) (now : Int) : Prop where
  listed : Listed P s.instrument m
  window : InWindow s.instrument now
  sourced : Sourced s
  fresh : Fresh s now

section
variable {m : ResearchMandate} {s : ResearchSnapshot} {reports : List FirmReport} {lean : LeanValidationReport}
  {audit : CIOAuditReport} {redTeam : RedTeamReport} {independence : EvidenceIndependenceReport} {now next : Int}
  {rounds : Nat} {disagreement : Bool} {result : ResearchState × List String}

theorem consensus_eq_ok : consensus P m s reports lean audit redTeam independence now rounds disagreement = .ok result ↔
      rounds ≤ 2 ∧ ∃ failures, eligibilityFailures P (some s.instrument) m now = .ok failures ∧
        (Clear P m s now ∧ result = decision s reports lean audit redTeam independence disagreement ∨
          ¬ Clear P m s now ∧ result = (.reject, failures ++ snapshotFailures s now)) := by
  have clear_iff : ∀ failures, eligibilityFailures P (some s.instrument) m now = .ok failures →
      (failures ++ snapshotFailures s now = [] ↔ Clear P m s now) := by
    intro failures eligible
    rw [append_eq_nil_iff, snapshotFailures_eq_nil]
    constructor
    · rintro ⟨rfl, sourced, fresh⟩
      obtain ⟨listed, window⟩ := eligibilityFailures_eq_nil.mp eligible
      exact ⟨listed, window, sourced, fresh⟩
    · intro clear
      have none := eligibilityFailures_eq_nil.mpr ⟨clear.listed, clear.window⟩
      rw [eligible] at none
      exact ⟨Except.ok.inj none, clear.sourced, clear.fresh⟩
  rw [consensus, require_bind_eq_ok]
  simp only [bind_eq_ok]
  refine and_congr_right fun _ => exists_congr fun failures => and_congr_right fun eligible => ?_
  by_cases none : failures ++ snapshotFailures s now = []
  · have clear := (clear_iff failures eligible).mp none
    simp [none, clear, pure_eq_ok, eq_comm (a := result)]
  · have blocked : ¬ Clear P m s now := fun clear => none ((clear_iff failures eligible).mpr clear)
    simp [none, blocked, pure_eq_ok, eq_comm (a := result)]

theorem consensus_clear (ok : consensus P m s reports lean audit redTeam independence now rounds disagreement = .ok result)
    (positive : result.1 ≠ .reject) :
    rounds ≤ 2 ∧ Clear P m s now ∧ result = decision s reports lean audit redTeam independence disagreement := by
  obtain ⟨bounded, failures, -, ⟨clear, same⟩ | ⟨-, same⟩⟩ := consensus_eq_ok.mp ok
  · exact ⟨bounded, clear, same⟩
  · exact absurd (congrArg Prod.fst same) positive

theorem consensus_of_clear (bounded : rounds ≤ 2) (clear : Clear P m s now) :
    consensus P m s reports lean audit redTeam independence now rounds disagreement =
      .ok (decision s reports lean audit redTeam independence disagreement) :=
  consensus_eq_ok.mpr ⟨bounded, [], eligibilityFailures_eq_nil.mpr ⟨clear.listed, clear.window⟩, .inl ⟨clear, rfl⟩⟩

theorem Listed.consensus (bounded : rounds ≤ 2) (listed : Listed P s.instrument m) (dated : Dated now) :
    ∃ result, Money.consensus P m s reports lean audit redTeam independence now rounds disagreement = .ok result := by
  obtain ⟨failures, eligible⟩ := listed.isOk dated
  by_cases clear : Clear P m s now
  · exact ⟨_, consensus_of_clear bounded clear⟩
  · exact ⟨_, consensus_eq_ok.mpr ⟨bounded, failures, eligible, .inr ⟨clear, rfl⟩⟩⟩

theorem Clear.later (clear : Clear P m s now) (le : now ≤ next)
    (verified : next < s.instrument.verifiedAt + eligibilityMaximumAge)
    (cleared : ∀ c ∈ s.instrument.ethicalClearance, next < c.validUntil) (fresh : Fresh s next) : Clear P m s next where
  listed := clear.listed
  sourced := clear.sourced
  fresh := fresh
  window := {
    dated := clear.window.dated.later le
    verified := ⟨by omega, le_trans clear.window.verified.2 le⟩
    cleared := fun c hc => ⟨le_trans (clear.window.cleared c hc).1 le, cleared c hc⟩ }

end
end Money
