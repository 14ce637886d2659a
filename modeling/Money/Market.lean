import Mathlib.Data.List.Sort
import Money.Library.Decimals
import Money.Governance

/-! Prices, costs, market quality and technical scenarios: `data/normalization/prices.py`, `risk/costs.py`,
    `data/quality/market.py` and `scanner/technical.py`. -/

namespace Money
open Checked Decimals

section
variable (P : Platform)

/-- The result of an operation whose operands no contract bounds. -/
def Platform.decimal (x : Rat) : Except Err Rat := do
  require (|P.round x| < P.overflow) .arithmetic
  pure (P.round x)

/-- The least whole number that rounds beyond the largest float. -/
def floatLimit : Nat := 2 ^ 1024 - 2 ^ 970

/-- A whole number or a quotient of whole numbers as a float, exactly; `OverflowError` beyond the largest one. -/
def asFloat (x : Rat) : Except Err Rat := do
  require (x < floatLimit) .arithmetic
  pure x

def priceGbp (value : Rat) : Currency → Except Err Rat
  | currency => do
    require (0 < value) (.value "price must be finite and positive")
    match currency with
    | .gbp => pure value
    | .gbx => pure (P.round (value / 100))

/-- The price bars of a snapshot with their records, in the order of the evidence. -/
def priceRecords (s : ResearchSnapshot) : List (EvidenceRecord × PriceBar) :=
  s.evidence.filterMap fun e => e.payload.bar?.map fun bar => (e, bar)

/-- `sorted(records, key=observation_time)`, which keeps the order of equal keys. -/
def byObservation (records : List (EvidenceRecord × PriceBar)) : List (EvidenceRecord × PriceBar) :=
  records.insertionSort fun a b => a.1.observationTime ≤ b.1.observationTime

/-! ### Costs -/

structure CostRule where
  ruleId : String
  /-- Days since the epoch, from the first day inclusive to the last exclusive. -/
  effectiveFrom : Int
  effectiveTo : Int
  source : String
  rate : Rat := 0
  fixedGbp : Rat := 0
  thresholdGbp : Rat := 0

def sdrtRule : CostRule where
  ruleId := "hmrc-sdrt-verified-2026-09-16"
  effectiveFrom := 20712
  effectiveTo := 20742
  source := "https://www.gov.uk/hmrc-internal-manuals/stamp-taxes-shares-manual/stsm031030"
  rate := 1 / 200

def ptmRule : CostRule where
  ruleId := "ptm-verified-2026-09-16"
  effectiveFrom := 20712
  effectiveTo := 20742
  source := "https://www.thetakeoverpanel.org.uk/disclosure/ptm-levy"
  fixedGbp := 3 / 2
  thresholdGbp := 10000

def CostRule.effective (r : CostRule) (onDate : Int) : Prop := r.effectiveFrom ≤ onDate ∧ onDate < r.effectiveTo
  deriving Decidable

def present (text : Option String) : Prop := text ≠ none ∧ text ≠ some ""
  deriving Decidable

def stampDuty (notional : Rat) (a : CostApplicability) : Except Err Rat :=
  if a.sdrt = .applies then demand (quantize 2 .halfUp (P.round (notional * sdrtRule.rate))) .arithmetic else pure 0

def estimateCosts (notional : Rat) (onDate : Int) (a : CostApplicability) (spread slippage : Rat) :
    Except Err ResearchCostEstimate := do
  require ((0 < notional ∧ notional ≤ 200) ∧ 0 ≤ min spread slippage) (.value "COST_INPUT_INVALID")
  require (sdrtRule.effective onDate ∧ ptmRule.effective onDate) (.value "COST_RULE_NOT_EFFECTIVE")
  require (a.sdrt ≠ .unknown ∧ (a.sdrt = .exempt → present a.exemptionReason)) (.value "COST_APPLICABILITY_UNKNOWN")
  require (present a.brokerFeeSource ∧ present a.otherChargeSource) (.value "COST_COVERAGE_MISSING")
  let fee ← demand a.brokerRoundTripFeeGbp (.value "COST_COVERAGE_MISSING")
  let other ← demand a.otherRoundTripChargesGbp (.value "COST_COVERAGE_MISSING")
  let tax ← stampDuty P notional a
  let levy := if ptmRule.thresholdGbp < notional then P.round (2 * ptmRule.fixedGbp) else 0
  let market := P.round (P.round (notional * P.round (spread + P.round (2 * slippage))) / 10000)
  -- nothing is negative, so that the last sum overflows if any does
  let total ← P.decimal (P.round (P.round (P.round (tax + levy) + market) + fee) + other)
  let basisPoints ← P.decimal (P.round (total / notional) * 10000)
  pure {
    version := sdrtRule.ruleId ++ "/" ++ ptmRule.ruleId
    notionalGbp := notional
    spreadBps := spread
    slippagePerSideBps := slippage
    taxGbp := tax
    marketLevyGbp := levy
    totalRoundTripGbp := total
    totalRoundTripBps := basisPoints
    assumptions := [
      "One full spread and slippage on both sides; hypothetical research only.",
      "PTM levy " ++ (if levy = 0 then "does not apply" else "applies on both sides") ++ " at £" ++ P.text notional ++
        ": configured threshold is £" ++ P.text ptmRule.thresholdGbp ++ ".",
      if present a.exemptionReason then a.exemptionReason.getD ""
        else "SDRT applies based on supplied instrument evidence."]
    sources := [sdrtRule.source, ptmRule.source, a.evidenceSource, a.brokerFeeSource.getD "",
      a.otherChargeSource.getD ""] }

def lastTwenty (bars : List PriceBar) : List PriceBar := bars.drop (bars.length - 20)

/-- `Decimal(str(median(values)))` as an exact number; none of an empty list. The one in the middle is written out in
    digits, the mean of two is a float. -/
def median (values : List Nat) : Except Err (Option Rat) :=
  let sorted := values.insertionSort (· ≤ ·)
  let half := sorted.length / 2
  match sorted[half]? with
  | none => pure none
  | some v =>
    if sorted.length % 2 = 1 then do
      require (v < 10 ^ 4300) (.value ("Exceeds the limit (4300 digits) for integer string conversion; " ++
        "use sys.set_int_max_str_digits() to increase the limit"))
      pure (some v)
    else do
      let mean ← asFloat (((sorted[half - 1]?.getD 0 : Rat) + v) / 2)
      pure (some mean)

def averageDailyValue (bars : List PriceBar) : Except Err (Option Rat) := do
  let values ← bars.mapM fun b => do
    let price ← priceGbp P b.close b.currency
    P.decimal (price * b.volume)
  let total ← values.foldlM (fun total v => P.decimal (total + v)) 0
  pure (if values = [] then none else some (P.round (total / values.length)))

def extremeMove (limit : Rat) (bars : List PriceBar) : Prop :=
  ∃ pair ∈ bars.zip bars.tail, limit < |P.round (P.round (pair.2.close / pair.1.close) - 1)|
  deriving Decidable

def evaluateMarketQuality (s : ResearchSnapshot) (now : Int) (spread : Option Rat) (basis : AdjustmentBasis)
    (corporateActionsComplete : Bool) : Except Err MarketQuality := do
  let policy : MarketQualityPolicy := {}
  let records := priceRecords s
  let ordered := byObservation records
  let bars := ordered.map (·.2)
  let average ← averageDailyValue P (lastTwenty bars)
  let volume ← median ((lastTwenty bars).map (·.volume))
  let reasons :=
    flag (now < s.createdAt ∨ ∃ r ∈ records, r.1.availableAt s.priceCutoff = false) "PIT_VIOLATION" ++
    flag (∃ r ∈ records, r.1.conflicting = true) "CRITICAL_DATA_CONFLICT" ++
    flag (∃ r ∈ records, r.1.freshUntil ≤ now) "CRITICAL_DATA_STALE" ++
    flag (records ≠ ordered) "NON_MONOTONIC_PRICES" ++
    flag (¬ (records.map (·.1.observationTime)).Nodup) "DUPLICATE_PRICE_TIMESTAMP" ++
    flag (records.length < policy.minimumBars) "INSUFFICIENT_PRICE_OBSERVATIONS" ++
    flag (∀ last ∈ ordered.getLast?, hours policy.maximumLatestAgeHours < now - last.1.observationTime)
      "CRITICAL_DATA_STALE" ++
    flag (∃ b ∈ bars, b.currency.code ≠ s.instrument.quoteCurrency) "PRICE_CURRENCY_MISMATCH" ++
    flag (basis = .unknown ∨ corporateActionsComplete = false) "CORPORATE_ACTION_COVERAGE_UNKNOWN" ++
    flag ((∃ e ∈ s.evidence, e.payload.isCorporateAction = true) ∧ basis = .raw)
      "CORPORATE_ACTION_REQUIRES_ADJUSTMENT_REVIEW" ++
    flag (∀ v ∈ average, v < policy.minimumAverageDailyValueGbp) "LIQUIDITY_INSUFFICIENT" ++
    flag (policy.maximumZeroVolumeBars < ((lastTwenty bars).filter (·.volume = 0)).length) "ZERO_VOLUME_BARS" ++
    flag (spread = none) "SPREAD_EVIDENCE_MISSING" ++
    flag (∃ v ∈ spread, v < 0 ∨ policy.maximumSpreadBps < v) "SPREAD_EXCEEDS_POLICY" ++
    flag (extremeMove P policy.maximumOneDayMove bars) "EXTREME_PRICE_MOVE_REQUIRES_REVIEW"
  pure {
    policyVersion := policy.version
    passed := decide (reasons = [])
    reasons := distinct reasons
    observations := bars.length
    averageDailyValueGbp := average
    medianDailyVolume := volume
    spreadBps := spread
    adjustmentBasis := basis }

/-- `relative_volume_20`: the last volume over the mean of the twenty before it, where that is not zero. It may be
    infinite, which is no error yet. -/
def relativeVolume (bars : List PriceBar) : Except Err (Option Rat) := do
  let volumes := bars.map (·.volume)
  let previous ← asFloat ((((volumes.drop (volumes.length - 21)).dropLast).sum : Rat) / 20)
  if 0 < previous then do
    let last ← asFloat (volumes.getLast?.getD 0)
    pure (some (last / previous))
  else pure none

/-- `calculate_technical` as far as signal generation reads it; the indicators come from TA-Lib. -/
def calculateTechnical (s : ResearchSnapshot) : Except Err TechnicalFeatures := do
  let records := byObservation (priceRecords s)
  if records.length < 60 then
    pure { available := false, atr14Gbp := 0, limitations := ["TA_LIB_WARMUP_INSUFFICIENT"] }
  else do
    require (records.map (·.1.observationTime)).Nodup (.value "duplicate technical observation")
    require (∀ r ∈ records, r.1.availableAt s.priceCutoff = true ∧ r.1.conflicting = false)
      (.value "technical input is unsafe")
    require (∀ r ∈ records, s.createdAt < r.1.freshUntil ∧ r.2.currency.code = s.instrument.quoteCurrency)
      (.value "technical input freshness or currency mismatch")
    let volume ← relativeVolume (records.map (·.2))
    require (∀ v ∈ volume, v < floatLimit) (.value "TA-Lib returned unavailable indicator")
    let atr ← demand (P.averageTrueRange (records.map (·.2))) (.value "TA-Lib returned unavailable indicator")
    pure { available := true, atr14Gbp := atr }

end
end Money
