import Money.Market

/-! `generate_signal` of `signals/generation.py`. An early `return unavailable(...)` of the source is the error
    `Halt.unavailable` of the scenario, from which `generateSignal` builds the design without a signal. -/

namespace Money
open Checked Decimals

/-- The arguments of `generate_signal`; a missing policy stands for the default one. -/
structure SignalRequest where
  researchId : String
  mandate : ResearchMandate
  snapshot : ResearchSnapshot
  reports : List FirmReport
  lean : LeanValidationReport
  audit : CIOAuditReport
  redTeam : RedTeamReport
  state : ResearchState
  issuedAt : Int
  marketQuality : MarketQuality
  costApplicability : CostApplicability
  policy : SignalPolicy := {}
  rounds : Nat := 0

/-- How a scenario ends without a signal: with its reasons, or by an exception. -/
inductive Halt where
  | unavailable (reasons : List String)
  | raised (e : Err)

def raising {α : Type} (x : Except Err α) : Except Halt α := x.mapError Halt.raised

@[simp] theorem raising_eq_ok {α : Type} {x : Except Err α} {a : α} : raising x = .ok a ↔ x = .ok a := by
  cases x <;> simp [raising, Except.mapError]

/-- A `ValueError` with a Money-owned code becomes the reason; any other exception passes through. -/
def codedErrors {α : Type} : Except Err α → Except Halt α
  | .ok a => .ok a
  | .error (.value code) => .error (.unavailable [code])
  | .error e => .error (.raised e)

@[simp] theorem codedErrors_eq_ok {α : Type} {x : Except Err α} {a : α} : codedErrors x = .ok a ↔ x = .ok a := by
  rcases x with e | b
  · cases e <;> simp [codedErrors]
  · simp [codedErrors]

def SignalPolicy.bounded (p : SignalPolicy) : Prop :=
  (0 < p.maximumAllocationGbp ∧ p.maximumAllocationGbp ≤ 200) ∧ (0 < p.maximumDownsideGbp ∧ p.maximumDownsideGbp ≤ 4) ∧
    (0 < p.maximumDownsideFraction ∧ p.maximumDownsideFraction ≤ 1 / 50) ∧
    (0 < p.entryHalfWidthAtr ∧ p.entryHalfWidthAtr ≤ 1) ∧ (1 ≤ p.invalidationAtr ∧ p.invalidationAtr ≤ 5) ∧
    (2 ≤ p.targetAtr ∧ p.targetAtr ≤ 10) ∧ (3 / 2 ≤ p.minimumRiskReward ∧ p.minimumRiskReward ≤ 10) ∧
    (1 ≤ p.horizonDays ∧ p.horizonDays ≤ 30)
  deriving Decidable

def CostApplicability.bounded (c : CostApplicability) : Prop :=
  c.evidenceSource ≠ "" ∧ (∀ fee ∈ c.brokerRoundTripFeeGbp, 0 ≤ fee) ∧ ∀ charge ∈ c.otherRoundTripChargesGbp, 0 ≤ charge
  deriving Decidable

namespace SignalRequest
variable (P : Platform) (q : SignalRequest)

/-- The design of `unavailable(*reasons)`: it keeps the inputs and the instant. -/
def unavailable (reasons : List String) : SignalDesign where
  policyVersion := q.policy.version
  policy := some q.policy
  marketQuality := some q.marketQuality
  costApplicability := some q.costApplicability
  designedAt := some q.issuedAt
  reasons

/-- Hypothetical price levels in pounds, with the bar and the range they are built on. -/
structure Levels where
  latest : PriceBar
  price : Rat
  atr : Rat
  low : Rat
  high : Rat
  invalidation : Rat
  target : Rat

/-- The levels around the latest close, rounded to six places in the direction each one needs. -/
def levels (technical : TechnicalFeatures) : Except Halt Levels := do
  let atr ← demand (quantize 6 .halfEven technical.atr14Gbp) (.raised .arithmetic)
  let last ← demand (byObservation (priceRecords q.snapshot)).getLast? (.raised .noResult)
  let latest := last.2
  let price ← raising (priceGbp P latest.close latest.currency)
  let step (factor : Rat) := P.round (factor * atr)
  let low ← demand (quantize 6 .floor (P.round (price - step q.policy.entryHalfWidthAtr))) (.raised .arithmetic)
  let high ← demand (quantize 6 .ceiling (P.round (price + step q.policy.entryHalfWidthAtr))) (.raised .arithmetic)
  let invalidation ← demand (quantize 6 .floor (P.round (price - step q.policy.invalidationAtr))) (.raised .arithmetic)
  let target ← demand (quantize 6 .floor (P.round (price + step q.policy.targetAtr))) (.raised .arithmetic)
  require (0 < atr ∧ 0 < invalidation ∧ invalidation < low ∧ low ≤ high ∧ high < target)
    (.unavailable ["SCENARIO_LEVELS_INVALID"])
  pure { latest, price, atr, low, high, invalidation, target }

/-- An illustrative allocation with its modelled downside and costs. -/
structure Allocation where
  allocation : Rat
  downside : Rat
  costs : ResearchCostEstimate

/-- The costs and the downside of whole pennies of illustrative capital. -/
def allocate (l : Levels) (spread slippage : Rat) (pennies : Int) : Except Err Allocation := do
  let allocation := P.round (pennies / 100)
  let costs ← estimateCosts P allocation (dateOf q.issuedAt) q.costApplicability spread slippage
  let fall := P.round (P.round (allocation * P.round (l.high - l.invalidation)) / l.high)
  pure { allocation, downside := P.round (fall + costs.totalRoundTripGbp), costs }

/-- The largest number of pennies whose downside keeps within the limit, by halving the interval. Fuel never ends the
    search. -/
def search (try_ : Int → Except Err Allocation) (limit : Rat) :
    Nat → Int → Int → Option Allocation → Except Err (Option Allocation)
  | 0, _, _, best => pure best
  | fuel + 1, left, right, best =>
    if right < left then pure best
    else do
      let middle := (left + right) / 2
      let a ← try_ middle
      if a.downside ≤ limit then search try_ limit fuel (middle + 1) right (some a)
      else search try_ limit fuel left (middle - 1) best

theorem search_enough (try_ : Int → Except Err Allocation) (limit : Rat) (fuel : Nat) (left right : Int)
    (best : Option Allocation) (long : right - left < fuel) :
    search try_ limit (fuel + 1) left right best = search try_ limit fuel left right best := by
  induction fuel generalizing left right best with
  | zero =>
    have empty : right < left := by omega
    simp [search, empty]
  | succ fuel ih =>
    by_cases empty : right < left
    · simp [search, empty]
    · -- Both halves are shorter than the interval, whatever the middle costs.
      have upper := fun b => ih ((left + right) / 2 + 1) right b (by omega)
      have lower := fun b => ih left ((left + right) / 2 - 1) b (by omega)
      rw [search, search, if_neg empty, if_neg empty]
      simp only [upper, lower]

/-- The whole pennies that may be allocated. -/
def pennies : Int :=
  Rounding.floor.apply (P.round (min q.mandate.maximumCapitalGbp q.policy.maximumAllocationGbp * 100))

def downsideLimit : Rat :=
  min q.policy.maximumDownsideGbp (P.round (q.mandate.maximumCapitalGbp * q.policy.maximumDownsideFraction))

def bestAllocation (l : Levels) (spread slippage : Rat) : Except Err (Option Allocation) :=
  search (allocate P q l spread slippage) (downsideLimit P q) (pennies P q).toNat 1 (pennies P q) none

/-! ### Scenario -/

def validUntil : Int :=
  ((q.snapshot.evidence.filter (·.critical)).map (·.freshUntil)).foldl min
    (min (q.issuedAt + days q.policy.horizonDays) (q.snapshot.instrument.verifiedAt + hours 24))

/-- The qualification of the market at the instant of issue; earlier success makes no old snapshot eligible. -/
def qualifyMarket : Except Halt Unit := do
  let quality := q.marketQuality
  require (quality.passed = true ∧ quality.spreadBps ≠ none)
    (.unavailable ("MARKET_QUALITY_NOT_QUALIFIED" :: quality.reasons))
  require (quality.adjustmentBasis ≠ .unknown) (.unavailable ["CORPORATE_ACTION_COVERAGE_UNKNOWN"])
  let checked ← raising (evaluateMarketQuality P q.snapshot q.issuedAt quality.spreadBps quality.adjustmentBasis true)
  require (checked.passed = true) (.unavailable ("MARKET_QUALITY_EXPIRED_OR_CHANGED" :: checked.reasons))

def technical : Except Halt TechnicalFeatures :=
  match calculateTechnical P q.snapshot with
  | .ok features => .ok features
  | .error (.value _) => .error (.unavailable ["TECHNICAL_SCENARIO_UNAVAILABLE"])
  | .error e => .error (.raised e)

def signalOf (l : Levels) (a : Allocation) : ResearchSignal :=
  let divisor : Rat := if l.latest.currency = .gbx then 100 else 1
  let scaled (x : Rat) := P.round (x * divisor)
  { researchId := q.researchId
    ticker := q.snapshot.ticker
    state := if q.state = .watch then .watch else .researchCandidate
    issuedAt := q.issuedAt
    validUntil := q.validUntil
    entryLow := scaled l.low
    entryHigh := scaled l.high
    quoteCurrency := l.latest.currency
    potentialTargets := [scaled l.target]
    invalidationConditions := [
      "Hypothetical price invalidation at " ++ P.text (scaled l.invalidation) ++ " " ++ l.latest.currency.code ++ ".",
      "Material source contradiction or ethical/broker-universe eligibility change."]
    eventInvalidators := [
      "New corporate action, dilution, or material adverse filing.",
      "Critical evidence becomes stale, conflicted, or unavailable."]
    assumedCapitalGbp := q.mandate.maximumCapitalGbp
    illustrativeAllocationGbp := a.allocation
    modelledDownsideGbp := a.downside
    horizonDays := q.policy.horizonDays }

/-- What is checked in front of the levels, once the state is the one that the consensus justifies. -/
def gates : Except Halt (TechnicalFeatures × Rat × Rat) := do
  -- The validated horizon is never clamped to a different mandate horizon.
  require (q.lean.scenarioPolicyHash = some (P.policyHash q.policy) ∧
      q.mandate.minimumHorizonDays ≤ q.policy.horizonDays ∧ q.policy.horizonDays ≤ q.mandate.maximumHorizonDays)
    (.unavailable ["LEAN_SCENARIO_POLICY_UNQUALIFIED"])
  qualifyMarket P q
  let spread ← demand q.lean.spreadBps (.unavailable ["TRANSACTION_COST_EVIDENCE_MISSING"])
  let slippage ← demand q.lean.slippageBps (.unavailable ["TRANSACTION_COST_EVIDENCE_MISSING"])
  require (some spread = q.marketQuality.spreadBps) (.unavailable ["VALIDATION_SPREAD_MISMATCH"])
  let technical ← q.technical P
  require (technical.available = true) (.unavailable technical.limitations)
  pure (technical, spread, slippage)

def riskReward (l : Levels) (a : Allocation) : Rat :=
  let rise := P.round (P.round (a.allocation * P.round (l.target - l.high)) / l.high)
  P.round (P.round (rise - a.costs.totalRoundTripGbp) / a.downside)

def designOf (l : Levels) (a : Allocation) : SignalDesign where
  policyVersion := q.policy.version
  policy := some q.policy
  marketQuality := some q.marketQuality
  costApplicability := some q.costApplicability
  designedAt := some q.issuedAt
  signal := some (signalOf P q l a)
  currentRaw := some l.latest.close
  currentCurrency := some l.latest.currency
  currentGbp := some l.price
  entryLowGbp := some l.low
  entryHighGbp := some l.high
  invalidationGbp := some l.invalidation
  targetsGbp := [l.target]
  atrGbp := some l.atr
  costs := some a.costs
  riskReward := some (riskReward P l a)
  evidenceIds := (byObservation (priceRecords q.snapshot)).map (·.1.evidenceId)

/-- The last checks of an allocation, and the design of its signal. -/
def issue (l : Levels) (a : Allocation) : Except Halt SignalDesign := do
  require (q.policy.minimumRiskReward ≤ riskReward P l a) (.unavailable ["COST_ADJUSTED_RISK_REWARD_INSUFFICIENT"])
  require (q.issuedAt < q.validUntil) (.unavailable ["SIGNAL_EVIDENCE_ALREADY_EXPIRED"])
  raising (signalOf P q l a).limits
  pure (designOf P q l a)

/-- The levels, the search for an allocation, and what follows from the one that it found. -/
def conclude (technical : TechnicalFeatures) (spread slippage : Rat) : Except Halt SignalDesign := do
  let l ← levels P q technical
  let found ← codedErrors (bestAllocation P q l spread slippage)
  let a ← demand found (.unavailable ["ILLUSTRATIVE_RISK_BUDGET_INSUFFICIENT"])
  issue P q l a

/-- Everything after the policy is read, in the order of the source. -/
def scenario : Except Halt SignalDesign := do
  require (q.state = .researchCandidate ∨ q.state = .watch) (.unavailable ["SIGNAL_STATE_NOT_ADMISSIBLE"])
  let independence ← raising (evidenceIndependence q.snapshot q.reports)
  let expected ← raising (consensus P q.mandate q.snapshot q.reports q.lean q.audit q.redTeam independence q.issuedAt
    q.rounds false)
  require (expected.1 = q.state) (.unavailable ("SIGNAL_CONSENSUS_MISMATCH" :: expected.2))
  let (technical, spread, slippage) ← gates P q
  conclude P q technical spread slippage

end SignalRequest

/-- `DOWNGRADE_REASONS`: codes that can only suppress a positive research state. -/
def downgradeReasons : List String :=
  ["SPREAD_EVIDENCE_STALE", "LEAN_SCENARIO_POLICY_UNQUALIFIED", "MARKET_QUALITY_NOT_QUALIFIED",
    "MARKET_QUALITY_EXPIRED_OR_CHANGED", "TRANSACTION_COST_EVIDENCE_MISSING", "VALIDATION_SPREAD_MISMATCH",
    "TECHNICAL_SCENARIO_UNAVAILABLE", "TA_LIB_WARMUP_INSUFFICIENT", "SCENARIO_LEVELS_INVALID", "COST_INPUT_INVALID",
    "COST_RULE_NOT_EFFECTIVE", "COST_APPLICABILITY_UNKNOWN", "COST_COVERAGE_MISSING",
    "ILLUSTRATIVE_RISK_BUDGET_INSUFFICIENT", "COST_ADJUSTED_RISK_REWARD_INSUFFICIENT",
    "SIGNAL_EVIDENCE_ALREADY_EXPIRED", "PIT_VIOLATION", "CRITICAL_DATA_CONFLICT", "CRITICAL_DATA_STALE",
    "NON_MONOTONIC_PRICES", "DUPLICATE_PRICE_TIMESTAMP", "INSUFFICIENT_PRICE_OBSERVATIONS", "PRICE_CURRENCY_MISMATCH",
    "CORPORATE_ACTION_COVERAGE_UNKNOWN", "CORPORATE_ACTION_REQUIRES_ADJUSTMENT_REVIEW", "LIQUIDITY_INSUFFICIENT",
    "ZERO_VOLUME_BARS", "SPREAD_EVIDENCE_MISSING", "SPREAD_EVIDENCE_INVALID", "SPREAD_EXCEEDS_POLICY",
    "EXTREME_PRICE_MOVE_REQUIRES_REVIEW"]

def generateSignal (P : Platform) (q : SignalRequest) : Except Err SignalDesign := do
  require q.policy.bounded (.value "signal policy out of bounds")
  match q.scenario P with
  | .ok design => .ok design
  | .error (.unavailable reasons) => .ok (q.unavailable reasons)
  | .error (.raised e) => .error e

/-! ### A request whose gates are clear -/

def dailyBars : List EvidenceRecord :=
  (List.range 60).map fun i => {
    evidenceId := "bar-" ++ toString i
    snapshotId := "snapshot"
    source := "exchange"
    provider := "provider"
    sourceId := "bars"
    canonicalSourceId := "bars"
    observationTime := days (20655 + i)
    publicationTime := some (days (20655 + i))
    retrievalTime := days 20714
    freshUntil := days 20717
    pitSafe := true
    critical := true
    payload := .ohlcv { opening := 1000, high := 1010, low := 990, close := 1000, volume := 100000, currency := .gbx } }

/-- An instrument verified on 2026-09-18 whose ethical clearance ends six hours later. -/
def clearedInstrument : InstrumentMetadata where
  ticker := "ABC"
  company := "ABC plc"
  instrumentType := "STOCK"
  quoteCurrency := "GBX"
  currentlyAvailable := some true
  businessActivities := ["software"]
  activitiesVerified := true
  verifiedAt := days 20714
  source := "broker"
  provider := "broker"
  sourceId := "ABC"
  ethicalClearance := some {
    result := .pass
    issuerKey := "ABC"
    isins := ["GB0000000001"]
    screenedAt := days 20684
    validUntil := days 20714 + hours 6
    policyHash := String.ofList (List.replicate 64 'a')
    evidenceHashes := [String.ofList (List.replicate 64 'a')]
    assessedExclusions := excludedActivities
    businessActivities := ["software"]
    screeningHash := String.ofList (List.replicate 64 'a') }

def sampleReport (firm : Firm) : FirmReport where
  firm
  snapshotId := "snapshot"
  snapshotHash := "hash"
  claims := [{ claimId := firm.name, family := .technical, evidenceIds := ["bar-0"] }]
  modelFamily := "model"
  createdAt := days 20714

def clearedRequest : SignalRequest where
  researchId := "research"
  mandate := {}
  snapshot := {
    snapshotId := "snapshot", ticker := "ABC", createdAt := days 20714, priceCutoff := days 20714
    newsCutoff := days 20714, filingCutoff := days 20714, fundamentalCutoff := days 20714
    instrument := clearedInstrument, evidence := dailyBars, qlibEnabled := false, hash := "hash" }
  reports := [sampleReport .tradingagents, sampleReport .aiHedgeFund]
  lean := {
    state := .pass, snapshotId := "snapshot", observations := 60, walkForward := true, outOfSample := true
    pitSafe := true, survivorshipChecked := true, costsIncluded := true, sensitivityChecked := true
    scenarioPolicyHash := some "policy", spreadBps := some 10, slippageBps := some 5 }
  audit := {
    snapshotId := "snapshot", completed := true, activeSpecialists := []
    findings := [.tradingagents, .aiHedgeFund].map fun firm : Firm => {
      auditor := "auditor", claimId := some firm.name, state := .verified, explanation := "", evidenceIds := ["bar-0"] } }
  redTeam := { state := .pass, findings := [] }
  state := .watch
  issuedAt := days 20714 + hours 1
  marketQuality := {
    policyVersion := "uk-daily-conservative-v1", passed := true, reasons := [], observations := 60
    averageDailyValueGbp := some 1000000, medianDailyVolume := some 100000, spreadBps := some 10, adjustmentBasis := .raw }
  costApplicability := {
    sdrt := .exempt, evidenceSource := "issuer", exemptionReason := some "growth market"
    brokerRoundTripFeeGbp := some 0, brokerFeeSource := some "broker", otherRoundTripChargesGbp := some 0
    otherChargeSource := some "broker" }

def clearedIndependence : EvidenceIndependenceReport where
  uniqueSources := 1
  uniqueProviders := 1
  evidenceFamilies := [.technical]
  sourceOverlap := 1 / 2
  modelOverlap := 1 / 2
  featureOverlap := 1
  argumentOverlap := 1
  strength := .low
  limitations := ["Agreement between firms is not independent confirmation.", "Evidence depends on a single provider.",
    "Firms substantially share original sources.", "Shared model or LLM provider families reduce independence."]

end Money
