import Mathlib.Algebra.GroupWithZero.Nat
import Money.Platform

/-! The evidence gates of `adapters/eligibility.py` and `policy/governance.py`: what fails at an instant, and the
    research state that the sealed inputs justify. -/

namespace Money
open Checked

def flag (c : Prop) [Decidable c] (code : String) : List String := if c then [code] else []

@[simp] theorem flag_eq_nil {c : Prop} [Decidable c] {code : String} : flag c code = [] ↔ ¬ c := by
  unfold flag
  split <;> simp_all

theorem mem_flag {c : Prop} [Decidable c] {code x : String} : x ∈ flag c code ↔ c ∧ x = code := by
  unfold flag
  split <;> simp_all

theorem flag_congr {c d : Prop} [Decidable c] [Decidable d] (h : c ↔ d) (code : String) : flag c code = flag d code := by
  unfold flag
  exact if_congr h rfl rfl

/-- `tuple(dict.fromkeys(codes))`: each code once, where it first stood. -/
def distinct (codes : List String) : List String := codes.eraseDups

@[simp] theorem distinct_eq_nil {codes : List String} : distinct codes = [] ↔ codes = [] := by
  constructor
  · intro none
    refine List.eq_nil_iff_forall_not_mem.mpr fun code member => ?_
    have : code ∈ distinct codes := List.mem_eraseDups.mpr member
    simp [none] at this
  · rintro rfl
    rfl

/-! ### Eligibility -/

def eligibilityMaximumAge : Int := hours 24

def unknownActivities : List String :=
  ["unknown", "unclassified", "unverified", "not_available", "not_classified", "unknown_material_exposure",
    "unknown_material_business_exposure"]

/-- `datetime.min` in UTC. -/
def datetimeMin : Int := days (-719162)

/-- The instant has a datetime `ELIGIBILITY_MAXIMUM_AGE` before it. -/
def Dated (now : Int) : Prop := datetimeMin ≤ now - eligibilityMaximumAge
  deriving Decidable

/-- `_current`: the broker membership was verified within the last day. The subtraction raises `OverflowError` in the
    first day of year 1. -/
def current (instrument : InstrumentMetadata) (now : Int) : Except Err Bool := do
  require (Dated now) .arithmetic
  pure (decide (now - eligibilityMaximumAge < instrument.verifiedAt ∧ instrument.verifiedAt ≤ now))

def provenanceValid (i : InstrumentMetadata) : Prop :=
  ∀ value ∈ [i.source, i.provider, i.sourceId], Text.strip value ≠ ""
  deriving Decidable

section
variable (P : Platform)

/-- The normalized exclusions of the mandate with the fixed ones, as `sorted` of a set. -/
def exclusionsOf (mandate : ResearchMandate) : List String :=
  Text.sortedSet ((excludedActivities ++ mandate.excludedActivities).map (Text.activity P.casefold))

def activitiesOf (values : List String) : List String := values.map (Text.activity P.casefold)

/-- The failures of a screening that is reused, not re-run, at each boundary. -/
def clearanceFailures (instrument : InstrumentMetadata) (mandate : ResearchMandate) (now : Int)
    (clearance : EthicalClearance) : Except Err (List String) :=
  match P.consistentScreening clearance with
  | .error _ => .ok ["ETHICAL_CLEARANCE_INVALID"]
  | .ok _ => do
    let activities := activitiesOf P instrument.businessActivities
    let policy ← P.ethicalPolicyHash (exclusionsOf P mandate)
    pure ((match clearance.result with
        | .fail => ["PROHIBITED_ACTIVITY"]
        | .unknown => ["ETHICAL_SCREEN_UNKNOWN"]
        | .pass => []) ++
      flag (¬ (clearance.screenedAt ≤ now ∧ now < clearance.validUntil)) "ETHICAL_CLEARANCE_EXPIRED" ++
      flag (clearance.policyHash ≠ policy) "ETHICAL_POLICY_CHANGED" ++
      flag (¬ CrossExaminationPacket.sameMembers (activitiesOf P clearance.businessActivities) activities)
        "ETHICAL_CLEARANCE_ACTIVITY_MISMATCH" ++
      flag (¬ ∀ e ∈ exclusionsOf P mandate, e ∈ activitiesOf P clearance.assessedExclusions) "ETHICAL_SCREEN_UNKNOWN")

def screeningFailures (i : InstrumentMetadata) (mandate : ResearchMandate) (now : Int) : Except Err (List String) :=
  match i.ethicalClearance with
  | none => .ok []
  | some clearance => clearanceFailures P i mandate now clearance

def listingFailures (i : InstrumentMetadata) (mandate : ResearchMandate) : List String :=
  let activities := activitiesOf P i.businessActivities
  flag (i.currentlyAvailable ≠ some true) "INSTRUMENT_UNAVAILABLE" ++
    flag (i.instrumentType ≠ "STOCK" ∨ i.instrumentType ∉ mandate.instrumentTypes) "INSTRUMENT_TYPE_EXCLUDED" ++
    flag (i.quoteCurrency ≠ "GBX" ∨ i.quoteCurrency ∉ mandate.quoteCurrencies) "CURRENCY_EXCLUDED" ++
    flag (i.activitiesVerified = false ∨ activities = [] ∨ ∃ a ∈ activities, a = "" ∨ a ∈ unknownActivities)
      "ETHICAL_SCREEN_UNKNOWN" ++
    flag (∃ a ∈ activities, a ∈ exclusionsOf P mandate) "PROHIBITED_ACTIVITY"

def eligibilityFailures (instrument : Option InstrumentMetadata) (mandate : ResearchMandate) (now : Int) :
    Except Err (List String) :=
  match instrument with
  | none => .ok ["INSTRUMENT_ELIGIBILITY_UNKNOWN"]
  | some i => do
    let screening ← screeningFailures P i mandate now
    let fresh ← current i now
    pure (distinct (listingFailures P i mandate ++ screening ++
      flag (¬ provenanceValid i) "ELIGIBILITY_PROVENANCE_MISSING" ++ flag (fresh = false) "ELIGIBILITY_STALE"))

end

def recordFailures (s : ResearchSnapshot) (now : Int) (e : EvidenceRecord) : List String :=
  flag (e.critical = true ∧ e.freshUntil ≤ now) "CRITICAL_EVIDENCE_STALE" ++
    flag (e.critical = true ∧ e.conflicting = true) "CRITICAL_EVIDENCE_CONFLICT" ++
    flag (e.critical = true ∧ e.availableAt (s.cutoffFor e) = false) "CRITICAL_EVIDENCE_PIT_UNKNOWN"

def snapshotFailures (s : ResearchSnapshot) (now : Int) : List String :=
  distinct (flag (¬ ∃ e ∈ s.evidence, e.critical = true ∧ e.payload.isOhlcv = true) "CRITICAL_PRICE_MISSING" ++
    s.evidence.flatMap (recordFailures s now))

/-- `_overlap` as an exact ratio; the rounded quotients compare alike with its thresholds. -/
def overlap (families : List (List String)) : Rat :=
  let count := (families.map fun s => s.eraseDups.length).sum
  if count = 0 then 1 else 1 - (families.flatten.eraseDups.length : Rat) / count

/-- The record of each cited evidence id; a report that cites anything else is refused. -/
def citedRecords (s : ResearchSnapshot) (claims : List ReportClaim) : Except Err (List (ReportClaim × EvidenceRecord)) :=
  (claims.flatMap fun c => c.evidenceIds.map fun id => (c, id)).mapM fun (c, id) => do
    let record ← demand (s.evidence.reverse.find? fun e => e.evidenceId = id)
      (.value "report cites evidence outside the snapshot")
    pure (c, record)

def sortedFamilies (families : List Family) : List Family :=
  [Family.catalyst, .fundamental, .quantitative, .risk, .technical].filter (· ∈ families)

def evidenceIndependence (s : ResearchSnapshot) (reports : List FirmReport) : Except Err EvidenceIndependenceReport := do
  let cited ← reports.mapM fun r => citedRecords s r.claims
  let sourceSets := cited.map fun rows => rows.map (·.2.canonicalSourceId)
  let providers := (cited.flatten.map (·.2.provider)).eraseDups
  let families := (cited.flatten.map (·.1.family)).eraseDups
  let sources := sourceSets.flatten.eraseDups
  let sourceOverlap := overlap sourceSets
  let modelOverlap := overlap (reports.map fun r =>
    r.modelFamily :: (match r.llmProviderFamily with
      | some family => if family = "" then [] else [family]
      | none => []))
  let featureOverlap := overlap (reports.map (·.featureFamilies))
  let argumentOverlap := overlap (reports.map (·.argumentFamilies))
  let strength : Strength :=
    if 5 ≤ sources.length ∧ 3 ≤ families.length ∧ 2 ≤ providers.length ∧
        max (max sourceOverlap modelOverlap) (max featureOverlap argumentOverlap) < 2 / 5 then .high
    else if 3 ≤ sources.length ∧ 2 ≤ families.length ∧ sourceOverlap < 3 / 5 then .medium
    else .low
  pure {
    uniqueSources := sources.length
    uniqueProviders := providers.length
    evidenceFamilies := sortedFamilies families
    sourceOverlap, modelOverlap, featureOverlap, argumentOverlap, strength
    limitations := ["Agreement between firms is not independent confirmation."] ++
      flag (providers.length < 2) "Evidence depends on a single provider." ++
      flag (1 / 2 ≤ sourceOverlap) "Firms substantially share original sources." ++
      flag (1 / 2 ≤ modelOverlap) "Shared model or LLM provider families reduce independence." }

/-! ### Consensus -/

def claimOf (claims : List ReportClaim) (id : String) : Option ReportClaim :=
  claims.reverse.find? fun c => c.claimId = id

/-- A finding that verifies its claim with evidence of the snapshot that the claim itself cites. -/
def verifiedClaim (s : ResearchSnapshot) (claims : List ReportClaim) (f : AuditFinding) : Option ReportClaim :=
  (claimOf claims (f.claimId.getD "")).filter fun c =>
    f.evidenceIds ≠ [] ∧ (∀ e ∈ f.evidenceIds, e ∈ s.evidenceIds) ∧ ∃ e ∈ f.evidenceIds, e ∈ c.evidenceIds

def leanComplete (l : LeanValidationReport) : Prop :=
  30 ≤ l.observations ∧ l.walkForward = true ∧ l.outOfSample = true ∧ l.pitSafe = true ∧
    l.survivorshipChecked = true ∧ l.costsIncluded = true ∧ l.sensitivityChecked = true ∧
    l.spreadBps ≠ none ∧ l.slippageBps ≠ none
  deriving Decidable

/-- The reasons for which complete inputs still are no sufficient evidence, in the order of the checks. -/
def evidenceReasons (s : ResearchSnapshot) (reports : List FirmReport) (lean : LeanValidationReport)
    (audit : CIOAuditReport) (crossDisagreement : Bool) : List String :=
  let claims := reports.flatMap (·.claims)
  let findings := audit.findings.filter fun f => f.state = .verified
  flag (∃ r ∈ reports, r.claims = []) "FIRST_PASS_FIRM_ABSTAINED" ++
    flag (∃ r ∈ reports, r.runtime ≠ .live) "DEMONSTRATION_ONLY" ++
    (if lean.state ≠ .pass then ["LEAN_INSUFFICIENT_EVIDENCE"]
      else flag (¬ leanComplete lean) "LEAN_VALIDATION_METADATA_INCOMPLETE") ++
    flag (audit.completed = false) "CIO_AUDIT_INCOMPLETE" ++
    flag (audit.materialDisagreement = true ∨ crossDisagreement = true) "UNRESOLVED_MATERIAL_DISAGREEMENT" ++
    flag (∃ f ∈ audit.findings, f.state = .unsupported ∨ f.state = .contradicted) "UNVERIFIED_CLAIMS" ++
    flag (¬ (claims.map (·.claimId)).Nodup) "DUPLICATE_CLAIM_IDENTITY" ++
    findings.flatMap (fun f => flag (verifiedClaim s claims f = none) "AUDIT_EVIDENCE_LINK_INVALID") ++
    flag (claims = [] ∨ ∃ c ∈ claims, c.claimId ∉ (findings.filterMap (verifiedClaim s claims)).map (·.claimId))
      "CLAIM_VERIFICATION_INCOMPLETE"

/-- What the sealed inputs justify once no gate fails; no clock enters it. -/
def decision (s : ResearchSnapshot) (reports : List FirmReport) (lean : LeanValidationReport)
    (audit : CIOAuditReport) (redTeam : RedTeamReport) (independence : EvidenceIndependenceReport)
    (crossDisagreement : Bool) : ResearchState × List String :=
  if (reports.map (·.firm)).isPerm s.requiredFirstPassFirms = false then
    (.insufficientEvidence, ["FIRST_PASS_INCOMPLETE"])
  else if ∃ r ∈ reports, r.snapshotHash ≠ s.hash ∨ r.snapshotId ≠ s.snapshotId then
    (.insufficientEvidence, ["REPORT_SNAPSHOT_MISMATCH"])
  else if audit.snapshotId ≠ s.snapshotId ∨ lean.snapshotId ≠ s.snapshotId then
    (.insufficientEvidence, ["AUDIT_SNAPSHOT_MISMATCH"])
  else if redTeam.state = .veto ∨ lean.state = .fail then (.reject, ["RED_TEAM_OR_VALIDATION_VETO"])
  else if evidenceReasons s reports lean audit crossDisagreement ≠ [] then
    (.insufficientEvidence, evidenceReasons s reports lean audit crossDisagreement)
  else if independence.strength = .low ∨ redTeam.state = .warn then
    (.watch, ["LIMITED_INDEPENDENCE_OR_RED_TEAM_WARNING"])
  else (.researchCandidate, ["REQUIRED_EVIDENCE_GATES_PASSED"])

/-- `consensus`: research quality only. No vote, position or order is constructed. -/
def consensus (P : Platform) (mandate : ResearchMandate) (s : ResearchSnapshot) (reports : List FirmReport)
    (lean : LeanValidationReport) (audit : CIOAuditReport) (redTeam : RedTeamReport)
    (independence : EvidenceIndependenceReport) (now : Int) (rounds : Nat) (crossDisagreement : Bool) :
    Except Err (ResearchState × List String) := do
  require (rounds ≤ 2) (.value "at most two cross-examination rounds are permitted")
  let failures := (← eligibilityFailures P (some s.instrument) mandate now) ++ snapshotFailures s now
  if failures ≠ [] then pure (.reject, failures)
  else pure (decision s reports lean audit redTeam independence crossDisagreement)

end Money
