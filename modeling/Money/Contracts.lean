import Mathlib.Algebra.Order.Ring.Rat
import Money.Library.Checked

/-! The research contracts of `schemas/contracts.py`. Prices are exact rationals, instants UTC microseconds, and a hash
    is text. Fields that no modelled function reads are kept together in `details`. -/

namespace Money
open Checked

abbrev Hash := String

def seconds (n : Int) : Int := n * 1000000
def minutes (n : Int) : Int := seconds (n * 60)
def hours (n : Int) : Int := minutes (n * 60)
def days (n : Int) : Int := hours (n * 24)

def dateOf (t : Int) : Int := t / days 1

/-- The exceptions of the modelled code. Contract validation raises a `ValueError`. -/
inductive Err where
  | value (message : String)
  | store (message : String)
  | barrierNotLocked (message : String)
  | leaseLost (message : String)
  | queueCapacityExceeded (message : String)
  | enqueueRateExceeded (message : String)
  | idempotencyConflict (message : String)
  | upstream (message : String)
  /-- A result that its type cannot hold: `InvalidOperation` and `Overflow` of the decimal context and `OverflowError`,
      which are no `ValueError`. -/
  | arithmetic
  /-- Nested too deeply for the parser: `RecursionError`, which is no `ValueError` either. -/
  | recursion
  /-- A unique or primary key constraint refused an insert. -/
  | integrity
  /-- A query for exactly one row found none. -/
  | noResult
  /-- A key or an item that is not there: `KeyError` and `StopIteration`. -/
  | absent
  /-- A provider failure that `classify_failure` calls retryable. -/
  | transient (code : String)
  | account (code detail : String) (status : Nat)
  | entitlementDenied (code : String)
  | billingUnavailable (code : String)
  | referenceTable (code : String)
  deriving DecidableEq

/-! ### Enumerations -/

inductive Firm where
  | tradingagents | aiHedgeFund | qlib
  deriving DecidableEq

def Firm.name : Firm → String
  | .tradingagents => "tradingagents"
  | .aiHedgeFund => "ai_hedge_fund"
  | .qlib => "qlib"

inductive Runtime where
  | live | demo
  deriving DecidableEq

inductive ResearchState where
  | strongResearchCandidate | researchCandidate | watch | reject | insufficientEvidence | expired
  deriving DecidableEq

inductive Currency where
  | gbp | gbx
  deriving DecidableEq

def Currency.code : Currency → String
  | .gbp => "GBP"
  | .gbx => "GBX"

/-- `required_first_pass_firms`: the explicitly selected mode, never an unavailable-runtime fallback. -/
def requiredFirstPassFirms (qlibEnabled : Bool) : List Firm :=
  [.tradingagents, .aiHedgeFund] ++ if qlibEnabled then [.qlib] else []

def excludedActivities : List String :=
  ["defence", "weapons", "firearms", "material_military_contracting", "oil_exploration", "oil_production",
    "integrated_oil", "oil_refining", "oil_services"]

structure ResearchMandate where
  version : Int := 1
  accountType : Option String := none
  maximumCapitalGbp : Rat := 200
  instrumentTypes : List String := ["STOCK"]
  quoteCurrencies : List String := ["GBX"]
  excludedActivities : List String := Money.excludedActivities
  minimumHorizonDays : Int := 1
  maximumHorizonDays : Int := 30
  stretchProfitGbp : Rat := 1000
  deriving DecidableEq

def ResearchMandate.enforceMandate (m : ResearchMandate) : Except Err Unit := do
  require (m.minimumHorizonDays ≤ m.maximumHorizonDays) (.value "research horizon is reversed")
  require (m.quoteCurrencies ≠ [] ∧ m.instrumentTypes = ["STOCK"])
    (.value "individual stocks and at least one permitted currency are required")
  require (∀ a ∈ Money.excludedActivities, a ∈ m.excludedActivities)
    (.value "ethical exclusions cannot be removed")

inductive ClearanceResult where
  | pass | fail | unknown
  deriving DecidableEq

/-- One immutable issuer screening, reused rather than re-approved downstream. -/
structure EthicalClearance where
  result : ClearanceResult
  issuerKey : String
  isins : List String
  screenedAt : Int
  validUntil : Int
  policyHash : Hash
  evidenceHashes : List Hash := []
  assessedExclusions : List String := []
  reasons : List String := []
  businessActivities : List String := []
  screeningHash : Hash
  deriving DecidableEq

structure InstrumentMetadata where
  ticker : String
  company : String
  instrumentType : String
  quoteCurrency : String
  isaAvailable : Option Bool := none
  currentlyAvailable : Option Bool := none
  businessActivities : List String := []
  activitiesVerified : Bool := false
  verifiedAt : Int
  source : String
  provider : String
  sourceId : String
  ethicalClearance : Option EthicalClearance := none
  deriving DecidableEq

/-! ### Evidence -/

/-- `PositiveMoney`: above zero, six decimal places and eighteen digits. -/
def positiveMoney (x : Rat) : Prop := 0 < x ∧ (x * 1000000).den = 1 ∧ x < 1000000000000
  deriving Decidable

structure PriceBar where
  opening : Rat
  high : Rat
  low : Rat
  close : Rat
  volume : Nat
  currency : Currency
  deriving DecidableEq

def PriceBar.valid (b : PriceBar) : Prop :=
  (∀ price ∈ [b.opening, b.high, b.low, b.close], positiveMoney price) ∧
    b.low ≤ min b.opening b.close ∧ max b.opening b.close ≤ b.high
  deriving Decidable

structure FinancialFact where
  metric : String
  value : Rat
  unit : String
  periodEnd : Int
  /-- The offset from UTC in which the period end is written. -/
  periodOffset : Int := 0
  deriving DecidableEq

inductive DocumentKind where
  | filing | announcement | news | corporateAction | macroeconomic | instrumentMetadata
  deriving DecidableEq

structure DocumentFact where
  kind : DocumentKind
  title : String
  excerpt : String
  url : String
  deriving DecidableEq

inductive EvidencePayload where
  | ohlcv (bar : PriceBar)
  | financial (fact : FinancialFact)
  | document (fact : DocumentFact)
  deriving DecidableEq

def EvidencePayload.isOhlcv : EvidencePayload → Bool
  | .ohlcv _ => true
  | _ => false

def EvidencePayload.bar? : EvidencePayload → Option PriceBar
  | .ohlcv bar => some bar
  | _ => none

def EvidencePayload.periodEnd? : EvidencePayload → Option Int
  | .financial fact => some fact.periodEnd
  | _ => none

def EvidencePayload.isCorporateAction : EvidencePayload → Bool
  | .document fact => fact.kind = .corporateAction
  | _ => false

structure EvidenceRecord where
  evidenceId : String
  snapshotId : String
  source : String
  provider : String
  sourceId : String
  canonicalSourceId : String
  observationTime : Int
  publicationTime : Option Int
  retrievalTime : Int
  freshUntil : Int
  pitSafe : Bool
  critical : Bool := false
  conflicting : Bool := false
  payload : EvidencePayload
  hash : Hash := ""
  deriving DecidableEq

def EvidenceRecord.availableAt (e : EvidenceRecord) (cutoff : Int) : Bool :=
  e.pitSafe && (match e.publicationTime with
    | some p => decide (p ≤ cutoff)
    | none => false) && decide (e.observationTime ≤ cutoff)

/-! ### Snapshot -/

structure ResearchEnrichment where
  evidenceIds : List String := []
  details : String
  deriving DecidableEq

inductive Purpose where
  | productionQualification | researchTesting
  deriving DecidableEq

inductive UsageMode where
  | personalResearch | hostedCommercialProduction
  deriving DecidableEq

structure ResearchSnapshot where
  purpose : Purpose := .productionQualification
  enrichment : List ResearchEnrichment := []
  snapshotId : String
  ticker : String
  createdAt : Int
  priceCutoff : Int
  newsCutoff : Int
  filingCutoff : Int
  fundamentalCutoff : Int
  instrument : InstrumentMetadata
  evidence : List EvidenceRecord
  historical : Bool := false
  qlibEnabled : Bool := true
  usageMode : UsageMode := .hostedCommercialProduction
  universeHash : Option Hash := none
  details : String := ""
  hash : Hash := ""
  deriving DecidableEq

namespace ResearchSnapshot

def requiredFirstPassFirms (s : ResearchSnapshot) : List Firm := Money.requiredFirstPassFirms s.qlibEnabled

def evidenceIds (s : ResearchSnapshot) : List String := s.evidence.map (·.evidenceId)

def cutoffFor (s : ResearchSnapshot) (record : EvidenceRecord) : Int :=
  match record.payload with
  | .ohlcv _ => s.priceCutoff
  | .financial _ => s.fundamentalCutoff
  | .document fact => if fact.kind = .filing then s.filingCutoff else s.newsCutoff

end ResearchSnapshot

/-! ### Reports -/

inductive Family where
  | technical | fundamental | catalyst | quantitative | risk
  deriving DecidableEq

/-- `Claim` of `schemas/contracts.py`, one cited statement of a report. -/
structure ReportClaim where
  claimId : String
  family : Family
  evidenceIds : List String
  details : String := ""
  deriving DecidableEq

/-- A non-negative decimal as it is written: `coefficient · 10 ^ exponent`. Two texts of one value differ. -/
structure Amount where
  coefficient : Nat
  exponent : Int
  deriving DecidableEq

structure Usage where
  inputTokens : Option Nat := none
  outputTokens : Option Nat := none
  costGbp : Option Amount := none
  deriving DecidableEq

structure FirmReport where
  firm : Firm
  snapshotId : String
  snapshotHash : Hash
  claims : List ReportClaim
  modelFamily : String
  llmProviderFamily : Option String := none
  featureFamilies : List String := []
  argumentFamilies : List String := []
  createdAt : Int
  usage : Usage := {}
  runtime : Runtime := .live
  details : String := ""
  deriving DecidableEq

inductive LeanState where
  | pass | fail | insufficientEvidence
  deriving DecidableEq

structure LeanValidationReport where
  state : LeanState
  snapshotId : String
  observations : Nat := 0
  walkForward : Bool := false
  outOfSample : Bool := false
  pitSafe : Bool := false
  survivorshipChecked : Bool := false
  costsIncluded : Bool := false
  sensitivityChecked : Bool := false
  scenarioPolicyHash : Option Hash := none
  spreadBps : Option Rat := none
  slippageBps : Option Rat := none
  details : String := ""
  deriving DecidableEq

inductive FindingState where
  | verified | unsupported | contradicted | warn
  deriving DecidableEq

structure AuditFinding where
  auditor : String
  claimId : Option String := none
  state : FindingState
  explanation : String
  evidenceIds : List String := []
  deriving DecidableEq

structure CIOAuditReport where
  snapshotId : String
  completed : Bool
  findings : List AuditFinding
  activeSpecialists : List String
  materialDisagreement : Bool := false
  deriving DecidableEq

inductive RedTeamState where
  | pass | warn | veto
  deriving DecidableEq

structure RedTeamReport where
  state : RedTeamState
  findings : List String
  deriving DecidableEq

inductive Strength where
  | low | medium | high
  deriving DecidableEq

structure EvidenceIndependenceReport where
  uniqueSources : Nat
  uniqueProviders : Nat
  evidenceFamilies : List Family
  sourceOverlap : Rat
  modelOverlap : Rat
  featureOverlap : Rat
  argumentOverlap : Rat
  strength : Strength
  limitations : List String
  deriving DecidableEq

structure DiscoveryReason where
  channel : String
  reason : String
  evidenceIds : List String
  deriving DecidableEq

structure Candidate where
  ticker : String
  discovery : List DiscoveryReason
  deriving DecidableEq

/-! ### Signals and packets -/

inductive SignalState where
  | strongResearchCandidate | researchCandidate | watch
  deriving DecidableEq

def SignalState.toState : SignalState → ResearchState
  | .strongResearchCandidate => .strongResearchCandidate
  | .researchCandidate => .researchCandidate
  | .watch => .watch

structure ResearchSignal where
  researchId : String
  ticker : String
  state : SignalState
  issuedAt : Int
  validUntil : Int
  entryLow : Rat
  entryHigh : Rat
  quoteCurrency : Currency
  invalidationConditions : List String
  eventInvalidators : List String
  potentialTargets : List Rat
  assumedCapitalGbp : Rat
  illustrativeAllocationGbp : Rat
  modelledDownsideGbp : Rat
  horizonDays : Int
  calibratedConfidence : Option Rat := none
  invalidatedAt : Option Int := none
  deriving DecidableEq

def ResearchSignal.bounded (s : ResearchSignal) : Prop :=
  (positiveMoney s.entryLow ∧ positiveMoney s.entryHigh ∧ ∀ t ∈ s.potentialTargets, positiveMoney t) ∧
    (s.invalidationConditions ≠ [] ∧ s.eventInvalidators ≠ []) ∧
    (0 < s.assumedCapitalGbp ∧ s.assumedCapitalGbp ≤ 200) ∧
    (0 < s.illustrativeAllocationGbp ∧ s.illustrativeAllocationGbp ≤ 200) ∧
    (0 ≤ s.modelledDownsideGbp ∧ s.modelledDownsideGbp ≤ 200) ∧
    (1 ≤ s.horizonDays ∧ s.horizonDays ≤ 30) ∧ ∀ c ∈ s.calibratedConfidence, 0 ≤ c ∧ c ≤ 1
  deriving Decidable

def ResearchSignal.limits (s : ResearchSignal) : Except Err Unit := do
  require s.bounded (.value "signal field out of bounds")
  require (s.issuedAt < s.validUntil ∧ s.entryLow ≤ s.entryHigh) (.value "invalid signal interval")
  require (s.illustrativeAllocationGbp ≤ s.assumedCapitalGbp) (.value "allocation exceeds capital")
  require (s.modelledDownsideGbp ≤ s.illustrativeAllocationGbp) (.value "downside exceeds allocation")
  require (s.validUntil - s.issuedAt ≤ days s.horizonDays) (.value "signal validity exceeds research horizon")

structure DecisionPacket where
  researchId : String
  mandate : ResearchMandate
  snapshotId : String
  snapshotHash : Hash
  candidate : Candidate
  eligibility : InstrumentMetadata
  reports : List FirmReport
  lean : LeanValidationReport
  audit : CIOAuditReport
  redTeam : RedTeamReport
  independence : EvidenceIndependenceReport
  finalState : ResearchState
  reasons : List String
  sources : List EvidenceRecord
  issuedAt : Int
  signal : Option ResearchSignal := none
  crossExaminationRounds : Nat := 0
  runtime : Runtime
  qlibEnabled : Bool := true
  frozenSnapshot : Option ResearchSnapshot := none
  crossExaminationHash : Option Hash := none
  details : String := ""
  deriving DecidableEq

/-- The clauses of `consistent_packet` that a published signal has to meet. -/
def DecisionPacket.consistentSignal (p : DecisionPacket) (s : ResearchSignal) : Except Err Unit := do
  s.limits
  require (p.runtime ≠ .demo ∧ p.finalState = s.state.toState) (.value "signal inconsistent with packet state/runtime")
  require (s.researchId = p.researchId) (.value "signal research identity mismatch")
  require (s.ticker = p.candidate.ticker) (.value "signal candidate mismatch")
  require (s.quoteCurrency.code = p.eligibility.quoteCurrency) (.value "signal and instrument quote currencies differ")
  require (p.mandate.minimumHorizonDays ≤ s.horizonDays ∧ s.horizonDays ≤ p.mandate.maximumHorizonDays)
    (.value "signal horizon exceeds mandate")
  require (p.lean.state = .pass ∧ p.audit.completed = true ∧ p.redTeam.state ≠ .veto)
    (.value "signal requires validation and completed audit without veto")
  require (s.assumedCapitalGbp ≤ p.mandate.maximumCapitalGbp) (.value "signal exceeds mandate capital")

/-- `consistent_packet`: the packet's own validator, in the order of its checks. -/
def DecisionPacket.consistentPacket (p : DecisionPacket) : Except Err Unit := do
  require (p.qlibEnabled ∨ p.frozenSnapshot ≠ none)
    (.value "disabled Qlib requires explicit frozen snapshot provenance")
  require (∀ s ∈ p.frozenSnapshot, s.hash = p.snapshotHash ∧ s.snapshotId = p.snapshotId ∧
      s.evidence = p.sources ∧ s.qlibEnabled = p.qlibEnabled)
    (.value "packet frozen snapshot mismatch")
  let required := requiredFirstPassFirms p.qlibEnabled
  require ((∀ r ∈ p.reports, r.firm ∈ required) ∧ ∀ f ∈ required, f ∈ p.reports.map (·.firm))
    (.value "packet requires all independent firms")
  require (p.reports.length = required.length)
    (.value "packet requires exactly the configured independent reports")
  require (∀ r ∈ p.reports, r.runtime = p.runtime) (.value "packet runtime must match all report runtimes")
  require (∀ r ∈ p.reports, r.snapshotId = p.snapshotId ∧ r.snapshotHash = p.snapshotHash)
    (.value "packet reports use different snapshots")
  require (p.lean.snapshotId = p.snapshotId ∧ p.audit.snapshotId = p.snapshotId)
    (.value "validation or audit uses a different snapshot")
  require (p.candidate.ticker = p.eligibility.ticker) (.value "packet candidate mismatch")
  require (∀ s ∈ p.sources, s.snapshotId = p.snapshotId) (.value "packet evidence uses a different snapshot")
  match p.signal with
  | none => .ok ()
  | some s => p.consistentSignal s

end Money
