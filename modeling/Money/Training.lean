import Mathlib.Data.List.Dedup
import Mathlib.Data.List.Sort
import Money.Contracts

/-! The chronological experiments of `models/training.py`. The solver, the regression scores and the content hashes are
    parameters. -/

namespace Money.Training
open Checked

def features : List String := ["momentum_5", "momentum_20", "volatility_20", "relative_volume_20", "range_fraction"]

/-! ### Contracts -/

structure TrainingObservation where
  ticker : String
  featureTime : Int
  featureAvailableAt : Int
  predictionTime : Int
  features : List Rat
  featureEvidenceHashes : List Hash
  labelStart : Int
  labelEnd : Int
  labelAvailableAt : Int
  labelReturn : Rat
  labelEvidenceHashes : List Hash
  bounded : (features.length = Training.features.length ∧ ∀ f ∈ features, -1000000 ≤ f ∧ f ≤ 1000000) ∧
    -1 ≤ labelReturn ∧ labelReturn ≤ 1000000
  chronological : featureTime ≤ featureAvailableAt ∧ featureAvailableAt ≤ predictionTime ∧
    predictionTime < labelStart ∧ labelStart ≤ labelEnd ∧ labelEnd ≤ labelAvailableAt
  distinct : (featureEvidenceHashes.length = 21 ∧ featureEvidenceHashes.Nodup) ∧
    (labelEvidenceHashes.length ∈ [1, 2] ∧ labelEvidenceHashes.Nodup) ∧
    ∀ hash ∈ featureEvidenceHashes, hash ∉ labelEvidenceHashes
  deriving DecidableEq

inductive Origin where
  | syntheticTest | archivedEvidence
  deriving DecidableEq

/-- A sealed dataset: its rows are in the strict order of prediction time and ticker. -/
structure TrainingDataset where
  version : String
  origin : Origin
  maximumHorizonDays : Nat
  observations : List TrainingObservation
  hash : Hash
  bounded : (1 ≤ maximumHorizonDays ∧ maximumHorizonDays ≤ 30) ∧
    1 ≤ observations.length ∧ observations.length ≤ 20000
  ordered : observations.Pairwise fun a b =>
    a.predictionTime < b.predictionTime ∨ a.predictionTime = b.predictionTime ∧ a.ticker < b.ticker
  distinct : (observations.map fun row => (row.ticker, row.featureTime)).Nodup
  horizon : ∀ row ∈ observations, row.labelEnd - row.predictionTime ≤ days maximumHorizonDays

structure TrainingConfiguration where
  modelId : String
  modelVersion : String
  trainingCutoff : Int
  evaluationCutoff : Int
  ridgeAlpha : Rat := 1
  embargoDays : Nat := 2
  walkForwardFolds : Nat := 3
  minimumTrainingObservations : Nat := 60
  minimumFoldObservations : Nat := 10
  minimumOosObservations : Nat := 30
  bounded : (1 ≤ embargoDays ∧ embargoDays ≤ 30) ∧ (3 ≤ walkForwardFolds ∧ walkForwardFolds ≤ 10) ∧
    (30 ≤ minimumTrainingObservations ∧ minimumTrainingObservations ≤ 20000) ∧
    (10 ≤ minimumFoldObservations ∧ minimumFoldObservations ≤ 20000) ∧
    (30 ≤ minimumOosObservations ∧ minimumOosObservations ≤ 20000)
  chronology : trainingCutoff < evaluationCutoff

def TrainingConfiguration.embargo (c : TrainingConfiguration) : Int := days c.embargoDays

/-- What `fit` returns: the raw-space weights, the intercept and the mean of the training labels. -/
structure Fit where
  weights : List Rat
  intercept : Rat
  trainingMean : Rat
  deriving DecidableEq

structure Scores where
  rmse : Rat
  mae : Rat
  trainingMeanBaselineRmse : Rat
  improvesTrainingMeanBaseline : Bool
  directionalAccuracy : Rat
  rSquared : Option Rat
  deriving DecidableEq

structure RegressionMetrics extends Scores where
  observations : Nat
  uniquePredictionTimes : Nat
  instruments : Nat
  deriving DecidableEq

structure FitEvaluation where
  name : String
  fitCutoff : Int
  trainingStart : Int
  trainingLatestLabelAvailability : Int
  trainingObservations : Nat
  trainingRowsHash : Hash
  purgedTrainingObservations : Nat
  validationStart : Int
  validationEnd : Int
  validationRowsHash : Hash
  excludedUnavailableLabels : Nat
  excludedOverlappingLabels : Nat
  coefficients : List Rat
  intercept : Rat
  metrics : RegressionMetrics
  deriving DecidableEq

/-- `LinearModelArtifact` of `adapters/native_qlib.py` as an experiment fills it. -/
structure LinearModelArtifact where
  modelId : String
  modelVersion : String
  coefficients : List Rat
  intercept : Rat
  trainingDataVersion : String
  datasetHash : Hash
  trainingStart : Int
  trainingCutoff : Int
  validationStart : Int
  validationEnd : Int
  oosObservations : Nat
  walkForwardFolds : Nat
  oosRmse : Rat
  pitValidated : Bool
  deriving DecidableEq

def LinearModelArtifact.Windows (a : LinearModelArtifact) : Prop :=
  a.trainingStart ≤ a.trainingCutoff ∧ a.trainingCutoff < a.validationStart ∧ a.validationStart ≤ a.validationEnd
  deriving Decidable

/-- The field bounds of the artifact and `validate_artifact`. -/
def LinearModelArtifact.validateArtifact (a : LinearModelArtifact) : Except Err LinearModelArtifact := do
  require (30 ≤ a.oosObservations ∧ 3 ≤ a.walkForwardFolds ∧ 0 ≤ a.oosRmse)
    (.value "model artifact exceeds its field bounds")
  require (a.coefficients.length = features.length)
    (.value "model features do not match the Money feature implementation")
  require a.Windows (.value "training and validation windows overlap or are reversed")
  pure a

structure TrainingValidationReport where
  datasetHash : Hash
  datasetOrigin : Origin
  configurationHash : Hash
  artifactHash : Hash
  walkForward : List FitEvaluation
  heldOut : FitEvaluation
  deriving DecidableEq

structure TrainingResult where
  artifact : LinearModelArtifact
  validation : TrainingValidationReport
  artifactHash : Hash
  deriving DecidableEq

/-- The numeric code and the hashes that an experiment is given. A solver or a score that is not finite raises. -/
structure Solver where
  fit : List TrainingObservation → Rat → Except Err Fit
  scores : List TrainingObservation → Fit → Except Err Scores
  rowHash : TrainingObservation → Hash
  rowsHash : List Hash → Hash
  configHash : TrainingConfiguration → Hash
  artifactHash : LinearModelArtifact → Hash

/-! ### One fit and its evaluation -/

/-- The arguments that `_train` hands to `_evaluate` for one fit. -/
structure FitPlan where
  name : String
  allRows : List TrainingObservation
  validationRows : List TrainingObservation
  fitCutoff : Int
  evaluationCutoff : Int
  minimumValidation : Nat
  deriving DecidableEq

def datetimeMin : Int := -seconds 62135596800

/-- The loop over `available`: a row is evaluated if the last evaluated label of its ticker has ended. -/
def nonOverlapping (lastLabelEnd : String → Int) : List TrainingObservation → List TrainingObservation
  | [] => []
  | row :: rows =>
    if lastLabelEnd row.ticker < row.predictionTime then
      row :: nonOverlapping (Function.update lastLabelEnd row.ticker row.labelEnd) rows
    else nonOverlapping lastLabelEnd rows

namespace FitPlan

def candidates (p : FitPlan) : List TrainingObservation :=
  p.allRows.filter fun row => p.validationRows.head?.any fun first => row.predictionTime < first.predictionTime

-- Both the known outcome and its publication strictly precede the fit.
def train (p : FitPlan) : List TrainingObservation :=
  p.candidates.filter fun row =>
    row.predictionTime < p.fitCutoff ∧ row.labelEnd < p.fitCutoff ∧ row.labelAvailableAt < p.fitCutoff

def available (p : FitPlan) : List TrainingObservation :=
  p.validationRows.filter fun row => row.labelAvailableAt ≤ p.evaluationCutoff

def test (p : FitPlan) : List TrainingObservation := nonOverlapping (fun _ => datetimeMin) p.available

end FitPlan

def metrics (s : Solver) (rows : List TrainingObservation) (fitted : Fit) : Except Err RegressionMetrics := do
  let scores ← s.scores rows fitted
  pure { scores with
    observations := rows.length
    uniquePredictionTimes := (rows.map (·.predictionTime)).dedup.length
    instruments := (rows.map (·.ticker)).dedup.length }

def evaluate (s : Solver) (c : TrainingConfiguration) (p : FitPlan) : Except Err FitEvaluation := do
  require (p.validationRows ≠ []) (.value (p.name ++ ": validation partition is empty"))
  require (c.minimumTrainingObservations ≤ p.train.length)
    (.value (p.name ++ ": insufficient training observations after purge and embargo"))
  require (p.minimumValidation ≤ p.test.length)
    (.value (p.name ++ ": insufficient non-overlapping available validation observations"))
  let fitted ← s.fit p.train c.ridgeAlpha
  -- The training and the evaluated rows are not empty, because both minimums are positive.
  let trainingStart ← demand (p.train.map (·.predictionTime)).min? .absent
  let trainingLatest ← demand (p.train.map (·.labelAvailableAt)).max? .absent
  let first ← demand p.test.head? .absent
  let validationEnd ← demand (p.test.map (·.labelAvailableAt)).max? .absent
  let measured ← metrics s p.test fitted
  pure
    { name := p.name
      fitCutoff := p.fitCutoff
      trainingStart
      trainingLatestLabelAvailability := trainingLatest
      trainingObservations := p.train.length
      trainingRowsHash := s.rowsHash (p.train.map s.rowHash)
      purgedTrainingObservations := p.candidates.length - p.train.length
      validationStart := first.predictionTime
      validationEnd
      validationRowsHash := s.rowsHash (p.test.map s.rowHash)
      excludedUnavailableLabels := p.validationRows.length - p.available.length
      excludedOverlappingLabels := p.available.length - p.test.length
      coefficients := fitted.weights
      intercept := fitted.intercept
      metrics := measured }

/-! ### The experiment -/

section
variable (c : TrainingConfiguration) (d : TrainingDataset)

def preOos : List TrainingObservation := d.observations.filter fun row => row.predictionTime < c.trainingCutoff

def times : List Int := ((preOos c d).map (·.predictionTime)).dedup.insertionSort (· ≤ ·)

def validationTimes : List Int :=
  (times c d).drop (max c.minimumTrainingObservations ((times c d).length / 2))

/-- Where fold `index` starts in the validation times; the end of a fold is the start of the next one. -/
def foldStart (index : Nat) : Nat := index * (validationTimes c d).length / c.walkForwardFolds

def selected (index : Nat) : List Int :=
  ((validationTimes c d).drop (foldStart c d index)).take (foldStart c d (index + 1) - foldStart c d index)

/-- Outcomes of a fold may not overlap the next fold's fit and embargo. -/
def outcomeCutoff (index : Nat) : Int :=
  match (validationTimes c d)[foldStart c d (index + 1)]? with
  | some next => next - c.embargo
  | none => c.trainingCutoff

/-- The plan of fold `index`, whose first validation time is `first`. -/
def planFrom (index : Nat) (first : Int) : FitPlan :=
  { name := "walk-forward-" ++ toString (index + 1)
    allRows := preOos c d
    validationRows := (preOos c d).filter fun row => row.predictionTime ∈ selected c d index
    fitCutoff := first - c.embargo
    evaluationCutoff := outcomeCutoff c d index
    minimumValidation := c.minimumFoldObservations }

def foldPlan (index : Nat) : Except Err FitPlan := do
  let first ← demand (selected c d index).min? (.value "min() iterable argument is empty")
  pure (planFrom c d index first)

def heldOutPlan : FitPlan :=
  { name := "held-out"
    allRows := d.observations
    validationRows := d.observations.filter fun row =>
      c.trainingCutoff + c.embargo ≤ row.predictionTime ∧ row.predictionTime ≤ c.evaluationCutoff
    fitCutoff := c.trainingCutoff
    evaluationCutoff := c.evaluationCutoff
    minimumValidation := c.minimumOosObservations }

def walkForward (s : Solver) : Except Err (List FitEvaluation) :=
  (List.range c.walkForwardFolds).mapM fun index => do evaluate s c (← foldPlan c d index)

/-- The artifact that an experiment proposes, before its own validation. -/
def proposedArtifact (folds : Nat) (e : FitEvaluation) : LinearModelArtifact :=
  { modelId := c.modelId
    modelVersion := c.modelVersion
    coefficients := e.coefficients
    intercept := e.intercept
    trainingDataVersion := d.version
    datasetHash := d.hash
    trainingStart := e.trainingStart
    trainingCutoff := c.trainingCutoff
    validationStart := e.validationStart
    validationEnd := e.validationEnd
    oosObservations := e.metrics.observations
    walkForwardFolds := folds
    oosRmse := e.metrics.rmse
    pitValidated := false }

def train (s : Solver) : Except Err TrainingResult := do
  require (c.walkForwardFolds ≤ (validationTimes c d).length)
    (.value "insufficient chronological timestamp groups for walk-forward validation")
  let folds ← walkForward c d s
  let evaluation ← evaluate s c (heldOutPlan c d)
  let artifact ← (proposedArtifact c d folds.length evaluation).validateArtifact
  pure
    { artifact
      validation :=
        { datasetHash := d.hash
          datasetOrigin := d.origin
          configurationHash := s.configHash c
          artifactHash := s.artifactHash artifact
          walkForward := folds
          heldOut := evaluation }
      artifactHash := s.artifactHash artifact }

end
end Money.Training
