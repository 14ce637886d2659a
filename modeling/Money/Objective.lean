import Money.Outcomes

/-! The comparison of published signals with the stretch objective: `AsymmetryAnalyzer` of `research/objective.py`, and
    the rows of `objective_publications`. -/

namespace Money
open Checked

def targetProfit : Rat := 1000

structure OpportunityAssessment where
  researchId : String
  ticker : String
  company : String
  packetHash : Hash
  snapshotHash : Hash
  signalDesignHash : Hash
  state : ResearchState := .researchCandidate
  rawPrice : Rat
  rawCurrency : Currency
  normalizedPriceGbp : Rat
  conversionMethod : String := "GBP unchanged; GBX divided by 100"
  assumedCapitalGbp : Rat
  illustrativeAllocationGbp : Rat
  percentageOfAssumedCapital : Rat
  modelledDownsideGbp : Rat
  potentialUpsideGbp : Rat
  scenarioReturnFraction : Rat
  riskReward : Rat
  roundTripCostGbp : Rat
  horizonDays : Int
  issuedAt : Int
  validUntil : Int
  evidenceIndependence : Strength
  qlibRank : Option Nat
  qlibUniverseSize : Option Nat
  spreadBps : Rat
  gapToStretchProfitGbp : Rat
  calibration : String := "UNCALIBRATED"
  evidenceIds : List String
  deriving DecidableEq

def OpportunityAssessment.bounded (a : OpportunityAssessment) : Prop :=
  (0 < a.assumedCapitalGbp ∧ a.assumedCapitalGbp ≤ 200) ∧
    (0 < a.illustrativeAllocationGbp ∧ a.illustrativeAllocationGbp ≤ 200) ∧
    (0 < a.percentageOfAssumedCapital ∧ a.percentageOfAssumedCapital ≤ 100) ∧
    (0 ≤ a.modelledDownsideGbp ∧ a.modelledDownsideGbp ≤ 200) ∧ 0 < a.potentialUpsideGbp ∧ 0 < a.riskReward ∧
    0 ≤ a.roundTripCostGbp ∧ (1 ≤ a.horizonDays ∧ a.horizonDays ≤ 30) ∧ 0 ≤ a.gapToStretchProfitGbp
  deriving Decidable

def ResearchSignal.effectiveState (signal : ResearchSignal) (now : Int) : ResearchState :=
  if signal.validUntil ≤ now ∨ ∃ at_ ∈ signal.invalidatedAt, at_ ≤ now then .expired else signal.state.toState

/-- The values that an assessment repeats without a use of its own: two content hashes and the rank of the quant report. -/
structure Repeats where
  packetHash : DecisionPacket → Hash
  designHash : SignalDesign → Hash
  rank : FirmReport → Option Nat
  universeSize : FirmReport → Option Nat

/-! ### Assessment -/

structure Comparison where
  signal : ResearchSignal
  snapshot : ResearchSnapshot
  designedAt : Int
  policy : SignalPolicy
  quality : MarketQuality
  costs : CostApplicability

/-- The first check of `assess`: a live candidate that is issued and stands at the instant, with its own design. -/
def comparison (p : DecisionPacket) (design : SignalDesign) (now : Int) (invalidated : Bool) : Option Comparison := do
  let signal ← p.signal
  let snapshot ← p.frozenSnapshot
  let designedAt ← design.designedAt
  let policy ← design.policy
  let quality ← design.marketQuality
  let costs ← design.costApplicability
  if invalidated = false ∧ p.runtime = .live ∧ p.finalState = .researchCandidate ∧ p.issuedAt ≤ now ∧
      signal.issuedAt ≤ now ∧ signal.effectiveState now = .researchCandidate ∧ design.signal = some signal ∧
      designedAt ≤ p.issuedAt then
    some { signal, snapshot, designedAt, policy, quality, costs }
  else none

section
variable {Doc : Type} (E : Env Doc) (o : Repeats) (p : DecisionPacket) (design : SignalDesign)

/-- The upside at the conservative entry bound and the first target, after costs. -/
def upside (P : Platform) (allocation target high costs : Rat) : Rat :=
  P.round (P.round (allocation * P.round (P.round (target / high) - 1)) - costs)

/-- The assessment of a scenario that was reproduced; none where the design lacks one of its numbers. -/
def appraise (c : Comparison) (independence : EvidenceIndependenceReport) : Except Err (Option OpportunityAssessment) :=
  match design.targetsGbp, design.costs, design.currentRaw, design.currentCurrency, design.currentGbp,
    design.entryHighGbp, design.riskReward, c.quality.spreadBps with
  | target :: _, some costs, some raw, some currency, some price, some high, some riskReward, some spread => do
    let allocation := c.signal.illustrativeAllocationGbp
    let capital := c.signal.assumedCapitalGbp
    -- a decimal division by zero raises
    require (high ≠ 0 ∧ allocation ≠ 0 ∧ capital ≠ 0) .arithmetic
    let gain := upside E.toPlatform allocation target high costs.totalRoundTripGbp
    let quant := p.reports.find? fun report => report.firm = .qlib
    let assessment : OpportunityAssessment := {
      researchId := p.researchId
      ticker := c.signal.ticker
      company := p.eligibility.company
      packetHash := o.packetHash p
      snapshotHash := p.snapshotHash
      signalDesignHash := o.designHash design
      rawPrice := raw
      rawCurrency := currency
      normalizedPriceGbp := price
      assumedCapitalGbp := capital
      illustrativeAllocationGbp := allocation
      percentageOfAssumedCapital := E.round (E.round (allocation / capital) * 100)
      modelledDownsideGbp := c.signal.modelledDownsideGbp
      potentialUpsideGbp := gain
      scenarioReturnFraction := E.round (gain / allocation)
      riskReward
      roundTripCostGbp := costs.totalRoundTripGbp
      horizonDays := c.signal.horizonDays
      issuedAt := c.signal.issuedAt
      validUntil := c.signal.validUntil
      evidenceIndependence := if independence.strength = .high then .high else .medium
      qlibRank := quant.bind o.rank
      qlibUniverseSize := quant.bind o.universeSize
      spreadBps := spread
      gapToStretchProfitGbp := max 0 (E.round (targetProfit - gain))
      evidenceIds := design.evidenceIds }
    require assessment.bounded (.value "OpportunityAssessment")
    pure (some assessment)
  | _, _, _, _, _, _, _, _ => pure none

/-- The rest of `assess`: the consensus at the instant, and the design generated once more. -/
def reassess (c : Comparison) (now : Int) : Except Err (Option OpportunityAssessment) := do
  let independence ← evidenceIndependence c.snapshot p.reports
  let result ← consensus E.toPlatform p.mandate c.snapshot p.reports p.lean p.audit p.redTeam independence now
    p.crossExaminationRounds false
  if result.1 ≠ .researchCandidate ∨ independence ≠ p.independence then pure none
  else do
    let reproduced ← generateSignal E.toPlatform
      (p.request p.researchId c.snapshot result.1 c.designedAt c.quality c.costs c.policy)
    if reproduced ≠ design then pure none
    else appraise E o p design c independence

/-- `AsymmetryAnalyzer.assess` at an instant of an aware clock. -/
def assess (now : Int) (invalidated : Bool) : Except Err (Option OpportunityAssessment) := do
  E.validatePacket p
  design.consistent
  match comparison p design now invalidated with
  | none => pure none
  | some c => reassess E o p design c now

end

/-! ### Publications -/

variable {Doc : Type} {E : Env Doc}

structure ObjectiveRow (Doc : Type) where
  jobId : String
  packet : PacketPayload Doc
  design : Doc
  invalidatedAt : Option Int
  deriving DecidableEq

/-- `_signal_invalidations`: the earliest invalidation event of a job up to now. -/
def invalidatedAt (events : List (String × Int)) (now : Int) (jobId : String) : Option Int :=
  ((events.filter fun e => e.1 = jobId ∧ e.2 ≤ now).map (·.2)).min?

/-- The publication of a complete job, where it has a signal and a sealed design. -/
def objectiveRow (db : Database E) (events : List (String × Int)) (now : Int) (job : Job) : Option (ObjectiveRow Doc) := do
  let packet ← db.packet? job.id
  let _ ← db.signal? job.id
  let design ← db.artifact? job.id .signalDesign
  some { jobId := job.id, packet, design, invalidatedAt := invalidatedAt events now job.id }

def newestFirst (a b : Job) : Prop := b.createdAt < a.createdAt ∨ a.createdAt = b.createdAt ∧ a.id ≤ b.id
  deriving Decidable

def objectivePublications (db : Database E) (h : Handle) (events : List (String × Int)) (now limit offset : Int) :
    Except Err (List (ObjectiveRow Doc)) := do
  require ((1 ≤ limit ∧ limit ≤ 50) ∧ 0 ≤ offset ∧ offset ≤ 10000) (.value "Invalid objective page")
  let jobs := (db.jobs.filter fun job => h.sees job ∧ job.kind = .standard ∧ job.status = .complete).insertionSort newestFirst
  let rows := jobs.filterMap (objectiveRow db events now)
  pure ((rows.drop offset.toNat).take (limit.toNat + 1))

/-- The assessment of a row, whose packet and design are read back from their documents. -/
def ObjectiveRow.assess (E : Env Doc) (o : Repeats) (row : ObjectiveRow Doc) (now : Int) :
    Except Err (Option OpportunityAssessment) :=
  match row.packet with
  | .decision p => do
    E.validatePacket p
    let design ← E.validateDesign row.design
    Money.assess E o p design now row.invalidatedAt.isSome
  | _ => .error (.value "DecisionPacket")

end Money
