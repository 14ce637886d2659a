import Money.Contracts

/-! The contracts of signal generation: market quality, costs, technical features and signal designs. -/

namespace Money

structure SignalPolicy where
  version : String := "atr-research-scenarios-v1"
  maximumAllocationGbp : Rat := 200
  maximumDownsideGbp : Rat := 4
  maximumDownsideFraction : Rat := 1 / 50
  entryHalfWidthAtr : Rat := 1 / 4
  invalidationAtr : Rat := 2
  targetAtr : Rat := 6
  minimumRiskReward : Rat := 3 / 2
  horizonDays : Int := 5
  rationale : String := ""
  deriving DecidableEq

structure MarketQualityPolicy where
  version : String := "uk-daily-conservative-v1"
  minimumBars : Nat := 60
  maximumLatestAgeHours : Int := 96
  maximumZeroVolumeBars : Nat := 0
  minimumAverageDailyValueGbp : Rat := 100000
  maximumSpreadBps : Rat := 100
  maximumOneDayMove : Rat := 1 / 2
  deriving DecidableEq

inductive AdjustmentBasis where
  | raw | splitAdjusted | totalReturn | unknown
  deriving DecidableEq

structure MarketQuality where
  policyVersion : String
  passed : Bool
  reasons : List String
  observations : Nat
  averageDailyValueGbp : Option Rat
  medianDailyVolume : Option Rat
  spreadBps : Option Rat
  adjustmentBasis : AdjustmentBasis
  deriving DecidableEq

inductive Sdrt where
  | applies | exempt | unknown
  deriving DecidableEq

structure CostApplicability where
  sdrt : Sdrt
  evidenceSource : String
  exemptionReason : Option String := none
  brokerRoundTripFeeGbp : Option Rat := none
  brokerFeeSource : Option String := none
  otherRoundTripChargesGbp : Option Rat := none
  otherChargeSource : Option String := none
  deriving DecidableEq

structure ResearchCostEstimate where
  version : String
  notionalGbp : Rat
  spreadBps : Rat
  slippagePerSideBps : Rat
  taxGbp : Rat
  marketLevyGbp : Rat
  totalRoundTripGbp : Rat
  totalRoundTripBps : Rat
  assumptions : List String
  sources : List String
  deriving DecidableEq

/-- What signal generation reads of `TechnicalFeatures`. -/
structure TechnicalFeatures where
  available : Bool
  atr14Gbp : Rat
  limitations : List String := []
  deriving DecidableEq

structure SignalDesign where
  policyVersion : String
  policy : Option SignalPolicy := none
  marketQuality : Option MarketQuality := none
  costApplicability : Option CostApplicability := none
  designedAt : Option Int := none
  signal : Option ResearchSignal := none
  reasons : List String := []
  currentRaw : Option Rat := none
  currentCurrency : Option Currency := none
  currentGbp : Option Rat := none
  entryLowGbp : Option Rat := none
  entryHighGbp : Option Rat := none
  invalidationGbp : Option Rat := none
  targetsGbp : List Rat := []
  atrGbp : Option Rat := none
  costs : Option ResearchCostEstimate := none
  riskReward : Option Rat := none
  evidenceIds : List String := []
  deriving DecidableEq

end Money
