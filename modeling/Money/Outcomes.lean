import Money.Completion

/-! Research outcomes: `performance/outcomes.py`, and what `research/outcomes.py` reads of the published signal and the
    frozen evidence. -/

namespace Money
open Checked

/-- `OutcomeSpecification`. Its ticker is the one of a signal, which has the same contract. -/
structure OutcomeSpecification where
  researchId : String
  ticker : String
  issuedAt : Int
  referencePriceGbp : Rat
  targetGbp : Option Rat := none
  invalidationGbp : Option Rat := none
  maximumEndpointAgeHours : Int := 24
  deriving DecidableEq

def OutcomeSpecification.bounded (o : OutcomeSpecification) : Prop :=
  o.researchId ≠ "" ∧ positiveMoney o.referencePriceGbp ∧ (∀ x ∈ o.targetGbp, positiveMoney x) ∧
    (∀ x ∈ o.invalidationGbp, positiveMoney x) ∧ 0 ≤ o.maximumEndpointAgeHours ∧ o.maximumEndpointAgeHours ≤ 72
  deriving Decidable

/-- The validation of a specification, with its `level_order`. -/
def OutcomeSpecification.levelOrder (o : OutcomeSpecification) : Except Err Unit := do
  require o.bounded (.value "outcome field out of bounds")
  require (∀ x ∈ o.targetGbp, o.referencePriceGbp < x) (.value "long research target must exceed its reference price")
  require (∀ x ∈ o.invalidationGbp, x < o.referencePriceGbp)
    (.value "long research invalidation must be below its reference price")

/-! ### The calculation -/

structure OutcomeBar where
  evidenceId : String
  evidenceHash : Hash
  startAt : Int
  endAt : Int
  availableAt : Int
  openGbp : Rat
  highGbp : Rat
  lowGbp : Rat
  closeGbp : Rat
  deriving DecidableEq

def OutcomeBar.bounded (b : OutcomeBar) : Prop :=
  b.evidenceId ≠ "" ∧ Platform.isHash b.evidenceHash = true ∧ positiveMoney b.openGbp ∧ positiveMoney b.highGbp ∧
    positiveMoney b.lowGbp ∧ positiveMoney b.closeGbp
  deriving Decidable

def OutcomeBar.validBar (b : OutcomeBar) : Except Err Unit := do
  require b.bounded (.value "outcome bar field out of bounds")
  require (b.startAt < b.endAt ∧ b.endAt ≤ b.availableAt) (.value "bar must be complete before it becomes available")
  require (b.lowGbp ≤ min b.openGbp b.closeGbp ∧ max b.openGbp b.closeGbp ≤ b.highGbp)
    (.value "invalid normalized OHLC range")

inductive HorizonState where
  | observed | notMatured | missingData
  deriving DecidableEq

structure HorizonOutcome where
  calendarDays : Int
  deadline : Int
  state : HorizonState
  returnFraction : Option Rat := none
  priceObservedAt : Option Int := none
  knownAt : Option Int := none
  evidenceId : Option String := none
  deriving DecidableEq

/-- The first observed touch of a level: an interval, never an instant within a bar. -/
structure LevelOccurrence where
  evidenceId : String
  intervalStart : Int
  intervalEnd : Int
  knownAt : Int
  earliestSecondsAfterIssue : Rat
  latestSecondsAfterIssue : Rat
  deriving DecidableEq

inductive EventOrder where
  | targetFirst | invalidationFirst | sameBarAmbiguous | targetOnly | invalidationOnly | noneObserved
  deriving DecidableEq

structure ResearchOutcome where
  researchId : String
  ticker : String
  issuedAt : Int
  evaluatedAt : Int
  referencePriceGbp : Rat
  targetGbp : Option Rat
  invalidationGbp : Option Rat
  maximumEndpointAgeHours : Int
  horizons : List HorizonOutcome
  mfeFraction : Option Rat
  maeFraction : Option Rat
  firstObservedTarget : Option LevelOccurrence
  firstObservedInvalidation : Option LevelOccurrence
  eventOrder : EventOrder
  observationCount : Nat
  sourceHashes : List Hash
  deriving DecidableEq

def outcomeHorizons : List Int := [1, 3, 5, 10, 20, 30]

def OutcomeBar.touch (b : OutcomeBar) (issuedAt : Int) : LevelOccurrence where
  evidenceId := b.evidenceId
  intervalStart := b.startAt
  intervalEnd := b.endAt
  knownAt := b.availableAt
  earliestSecondsAfterIssue := (b.startAt - issuedAt : Int) / 1000000
  latestSecondsAfterIssue := (b.endAt - issuedAt : Int) / 1000000

def eventOrder : Option OutcomeBar → Option OutcomeBar → EventOrder
  | some target, some failure =>
    if target.evidenceId = failure.evidenceId then .sameBarAmbiguous
    else if target.endAt < failure.endAt then .targetFirst
    else .invalidationFirst
  | some _, none => .targetOnly
  | none, some _ => .invalidationOnly
  | none, none => .noneObserved

namespace OutcomeSpecification
variable (P : Platform) (spec : OutcomeSpecification) (asOf : Int)

/-- A bar that spans the issuance may have its extremes before the signal. -/
def Usable (b : OutcomeBar) : Prop :=
  spec.issuedAt ≤ b.startAt ∧ b.endAt ≤ min asOf (spec.issuedAt + days 30) ∧ b.availableAt ≤ asOf
  deriving Decidable

def TouchesTarget (b : OutcomeBar) : Prop := ∃ target ∈ spec.targetGbp, target ≤ b.highGbp
  deriving Decidable

def TouchesInvalidation (b : OutcomeBar) : Prop := ∃ invalidation ∈ spec.invalidationGbp, b.lowGbp ≤ invalidation
  deriving Decidable

def change (price : Rat) : Rat := P.round (P.round (price / spec.referencePriceGbp) - 1)

/-- The outcome at the end of one horizon: the latest close that is not too old. -/
def horizon (usable : List OutcomeBar) (calendarDays : Int) : HorizonOutcome :=
  let deadline := spec.issuedAt + days calendarDays
  if asOf < deadline then { calendarDays, deadline, state := .notMatured }
  else
    let eligible := usable.filter fun b => b.endAt ≤ deadline ∧ deadline - b.endAt ≤ hours spec.maximumEndpointAgeHours
    match eligible.getLast? with
    | none => { calendarDays, deadline, state := .missingData }
    | some endpoint => {
        calendarDays, deadline
        state := .observed
        returnFraction := some (spec.change P endpoint.closeGbp)
        priceObservedAt := some endpoint.endAt
        knownAt := some endpoint.availableAt
        evidenceId := some endpoint.evidenceId }

def outcome (usable : List OutcomeBar) : ResearchOutcome :=
  let targetBar := usable.find? fun b => spec.TouchesTarget b
  let failureBar := usable.find? fun b => spec.TouchesInvalidation b
  { researchId := spec.researchId
    ticker := spec.ticker
    issuedAt := spec.issuedAt
    evaluatedAt := asOf
    referencePriceGbp := spec.referencePriceGbp
    targetGbp := spec.targetGbp
    invalidationGbp := spec.invalidationGbp
    maximumEndpointAgeHours := spec.maximumEndpointAgeHours
    horizons := outcomeHorizons.map (spec.horizon P asOf usable)
    mfeFraction := (usable.map (·.highGbp)).max?.map fun high => max 0 (spec.change P high)
    maeFraction := (usable.map (·.lowGbp)).min?.map fun low => min 0 (spec.change P low)
    firstObservedTarget := targetBar.map (·.touch spec.issuedAt)
    firstObservedInvalidation := failureBar.map (·.touch spec.issuedAt)
    eventOrder := eventOrder targetBar failureBar
    observationCount := usable.length
    sourceHashes := usable.map (·.evidenceHash) }

end OutcomeSpecification

/-- The bars as they are calculated with: validated, in the order of their starts, distinct and apart. -/
def checkedBars (bars : List OutcomeBar) : Except Err (List OutcomeBar) := do
  bars.forM OutcomeBar.validBar
  let checked := bars.insertionSort fun a b => a.startAt ≤ b.startAt
  require (checked.map (·.evidenceId)).Nodup (.value "duplicate outcome evidence identity")
  require (∀ pair ∈ checked.zip checked.tail, pair.1.endAt ≤ pair.2.startAt)
    (.value "overlapping outcome bars are ambiguous")
  pure checked

def calculateOutcome (P : Platform) (spec : OutcomeSpecification) (bars : List OutcomeBar) (asOf : Int) :
    Except Err ResearchOutcome := do
  spec.levelOrder
  require (spec.issuedAt ≤ asOf) (.value "evaluation time must be timezone-aware and no earlier than issuance")
  let checked ← checkedBars bars
  pure (spec.outcome P asOf (checked.filter fun b => spec.Usable asOf b))

inductive OutcomeBasis where
  | unadjustedNoActions | splitAdjusted | totalReturn
  deriving DecidableEq

variable {Doc : Type} {E : Env Doc}

def Database.signal? (db : Database E) (jobId : String) : Option ResearchSignal :=
  (db.signals.find? fun row => row.jobId = jobId).map (·.signal)

def Database.frozen? (db : Database E) (jobId : String) : Option (Frozen E.toPlatform) :=
  (db.snapshots.find? fun row => row.jobId = jobId).bind fun row =>
    match row.payload with
    | .research s => some s
    | .study _ => none

/-- `SignalDesign.model_validate` of the sealed design, if there is one. -/
def Database.design? (db : Database E) (jobId : String) : Except Err (Option SignalDesign) :=
  match db.artifact? jobId .signalDesign with
  | none => pure none
  | some doc => some <$> E.validateDesign doc

/-- `evaluate_signal_outcome` up to the specification that it calculates the outcome of. -/
def evaluateSignalOutcome (db : Database E) (h : Handle) (jobId : String) (basis : OutcomeBasis)
    (datasetVersion : String) : Except Err OutcomeSpecification := do
  require (basis = .unadjustedNoActions)
    (.store "Adjusted outcomes require a common basis with the original reference price")
  require ((∃ job ∈ db.job? jobId, h.sees job) ∧ datasetVersion ≠ "" ∧ datasetVersion.length ≤ 200)
    (.store "Outcome requires an accessible published research signal and dataset")
  let signal ← demand (db.signal? jobId) (.store "No published research signal is available for outcome evaluation")
  let frozen ← demand (db.frozen? jobId) (.store "No published research signal is available for outcome evaluation")
  signal.limits
  let last ← demand (byObservation (priceRecords frozen.snapshot)).getLast?
    (.store "Original reference price is unavailable")
  let reference ← priceGbp E.toPlatform last.2.close last.2.currency
  let targets ← signal.potentialTargets.mapM fun value => priceGbp E.toPlatform value signal.quoteCurrency
  let design ← db.design? jobId
  require (∀ d ∈ design, d.signal = some signal) (.store "Signal design differs from the published research signal")
  let specification : OutcomeSpecification := {
    researchId := jobId
    ticker := signal.ticker
    issuedAt := signal.issuedAt
    referencePriceGbp := reference
    targetGbp := (targets.filter fun value => reference < value).min?
    invalidationGbp := design.bind (·.invalidationGbp) }
  specification.levelOrder
  pure specification

end Money
