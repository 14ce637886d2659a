import Money.Budgets

/-! `research/live.py`: the static check of a live configuration, and the reservations that `flows/research.py` and
    `research/correspondence.py` make under it. -/

namespace Money
open Checked

structure InferenceSelection where
  provider : String
  model : String
  maxOutputTokens : Nat := 3000
  maximumPromptBytes : Nat := 30000
  deriving DecidableEq

/-- The tokens that one call is reserved with: UTF-8 bytes bound the input, and the protocol takes some more. -/
def InferenceSelection.size (s : InferenceSelection) : Nat := s.maximumPromptBytes + s.maxOutputTokens + 1024

structure InferenceSelections where
  tradingagents : InferenceSelection
  aiHedgeFund : InferenceSelection
  crewai : InferenceSelection
  deriving DecidableEq

def InferenceSelections.toList (s : InferenceSelections) : List InferenceSelection := [s.tradingagents, s.aiHedgeFund, s.crewai]

def validateInvocationBudgets (selections : InferenceSelections) (calls : Nat) (limits : BudgetLimits)
    (correspondenceChallenges : Nat := 0) : Except Err Unit := do
  require (correspondenceChallenges ≤ 24) (.value "LIVE_CORRESPONDENCE_CHALLENGE_LIMIT_INVALID")
  let reservations := selections.toList.map fun item => calls * item.size
  let correspondence := List.zipWith (fun item count => correspondenceChallenges * 2 * count * item.size)
    selections.toList [2, 1, 1]
  let totals := List.zipWith (· + ·) reservations correspondence
  require (totals.sum ≤ min (min limits.perJob limits.perCandidate) limits.daily ∧
      totals.foldl max 0 ≤ limits.perAgent ∧
      max (max (reservations.take 2).sum (reservations.getD 2 0)) correspondence.sum ≤ limits.perStage)
    (.value "LIVE_BUDGET_CONFIGURATION_INSUFFICIENT")
  limits.perModel.forM fun entry =>
    require ((((selections.toList.zip totals).filter fun item =>
        item.1.provider ++ "/" ++ item.1.model = entry.1).map (·.2)).sum ≤ entry.2)
      (.value "LIVE_MODEL_BUDGET_CONFIGURATION_INSUFFICIENT")

structure InvocationBudget where
  agent : String
  provider : String
  model : String
  maximum : Nat
  deriving DecidableEq

def reservationName (jobId : String) (attempt : Int) (name : String) : String :=
  jobId ++ ":" ++ toString attempt ++ ":" ++ name

/-- The reservation of a native invocation of an attempt, in the stage it belongs to. -/
def InvocationBudget.request (b : InvocationBudget) (jobId : String) (attempt : Int) : BudgetReservation where
  reservationId := reservationName jobId attempt b.agent
  jobId
  stage := agentStage b.agent
  agent := b.agent
  provider := b.provider
  model := b.model
  maximumTokens := b.maximum
  promptVersion := "money-native-v1"

def correspondenceRequest (jobId : String) (attempt : Int) (component : String) (selection : InferenceSelection)
    (maximumCalls : Nat) (identity : String) : BudgetReservation where
  reservationId := reservationName jobId attempt identity
  jobId
  stage := "CROSS_EXAMINATION"
  agent := component
  provider := selection.provider
  model := selection.model
  maximumTokens := maximumCalls * selection.size
  promptVersion := "money-native-correspondence-v1"

end Money
