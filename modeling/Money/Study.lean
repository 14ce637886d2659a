import Money.Contracts.Signal
import Money.Library.Decimals

/-! The momentum study that runs inside LEAN: `backtest/study.py`, and the result that `backtest/lean.py` takes from it.
    Bars have the exact values of their floats. -/

namespace Money
open Checked Decimals

/-- The arithmetic of the interpreter: floats, their sums and texts, and the decimal context. -/
structure StudyArithmetic where
  float : Rat → Rat
  sum : List Rat → Rat
  decimal : Rat → Rat
  context : Rat → Rat

def StudyArithmetic.exact : StudyArithmetic where
  float := id
  sum := List.sum
  decimal := id
  context := id

structure StudyBar where
  time : Int
  availableAt : Int
  opening : Rat
  high : Rat
  low : Rat
  close : Rat
  deriving DecidableEq

/-- What the study reads of `LeanStudyParameters`, with the cost of the runner. -/
structure StudyParameters where
  horizonDays : Int := 5
  targetFraction : Rat := 1 / 10
  invalidationFraction : Rat := 1 / 20
  momentumThreshold : Rat := 0
  roundTripCostBps : Rat
  scenarioPolicy : Option SignalPolicy := none
  deriving DecidableEq

inductive Regime where
  | positiveSlowTrend | nonpositiveSlowTrend
  deriving DecidableEq

structure StudyCase where
  time : Int
  measuredReturn : Rat
  mae : Rat
  mfe : Rat
  targetDay : Option Int
  invalidationDay : Option Int
  regime : Regime
  deriving DecidableEq

structure StudyFold where
  observations : Nat
  meanReturn : Option Rat
  deriving DecidableEq

structure StudyResult where
  observations : Nat
  barsReceived : Nat
  meanReturn : Option Rat
  maximumDrawdown : Rat
  mae : Option Rat
  mfe : Option Rat
  targetOccurrences : Nat
  invalidationOccurrences : Nat
  walkForwardFolds : List StudyFold
  regimesObserved : List Regime
  costStressMeanReturn : Option Rat
  cases : List StudyCase
  deriving DecidableEq

namespace Study
variable (A : StudyArithmetic)

def trueRange (previous bar : StudyBar) : Rat :=
  max (max (A.float (bar.high - bar.low)) |A.float (bar.high - previous.close)|) |A.float (bar.low - previous.close)|

def trueRanges (bars : List StudyBar) : List Rat := List.zipWith (trueRange A) bars bars.tail

def smooth (previous range : Rat) : Rat := A.float (A.float (A.float (previous * 13) + range) / 14)

/-- `_atr14`: one value for each bar, from the fifteenth on. -/
def atr14 (bars : List StudyBar) : List (Option Rat) :=
  let ranges := trueRanges A bars
  if 14 < bars.length then
    List.replicate 14 none ++
      ((ranges.drop 14).scanl (smooth A) (A.float (A.sum (ranges.take 14) / 14))).map some
  else List.replicate bars.length none

/-! ### Decisions -/

structure Decision where
  entry : Rat
  target : Rat
  invalidation : Rat
  regime : Regime
  deriving DecidableEq

/-- The thresholds of the scenario policy around the last close; none where the next open is no entry. -/
def scenarioLevels (policy : SignalPolicy) (close : Rat) (atr : Option Rat) (entry : Rat) : Except Err (Option (Rat × Rat)) :=
  match atr with
  | none => pure none
  | some atr =>
    if atr ≤ 0 then pure none
    else do
      let reference := A.decimal close
      let atr ← demand (quantize 6 .halfEven (A.decimal atr)) .arithmetic
      let halfWidth := A.context (policy.entryHalfWidthAtr * atr)
      let entryLow ← demand (quantize 6 .floor (A.context (reference - halfWidth))) .arithmetic
      let entryHigh ← demand (quantize 6 .ceiling (A.context (reference + halfWidth))) .arithmetic
      -- the open of the next session is observed, no fill within the day is assumed
      if entryLow ≤ A.decimal entry ∧ A.decimal entry ≤ entryHigh then do
        let target ← demand (quantize 6 .floor (A.context (reference + A.context (policy.targetAtr * atr)))) .arithmetic
        let invalidation ←
          demand (quantize 6 .floor (A.context (reference - A.context (policy.invalidationAtr * atr)))) .arithmetic
        pure (if 0 < A.float invalidation ∧ A.float invalidation < entry ∧ entry < A.float target then
          some (A.float target, A.float invalidation) else none)
      else pure none

def levels (p : StudyParameters) (close : Rat) (atr : Option Rat) (entry : Rat) : Except Err (Option (Rat × Rat)) :=
  match p.scenarioPolicy with
  | none => pure (some (A.float (entry * A.float (1 + p.targetFraction)),
      A.float (entry * A.float (1 - p.invalidationFraction))))
  | some policy => scenarioLevels A policy close atr entry

variable (p : StudyParameters) (bars : List StudyBar)

def horizon : Nat := p.horizonDays.toNat

/-- `range(reserved_start, len(bars) - horizon, horizon)`. -/
def indices : List Nat :=
  let reservedStart := max 61 (bars.length * 3 / 5)
  List.range' reservedStart ((bars.length - horizon p - reservedStart + horizon p - 1) / horizon p) (horizon p)

def slice (start stop : Nat) : List StudyBar := (bars.take stop).drop start

/-- What the loop decides at an index: none where it continues with the next one. -/
def decision (index : Nat) : Except Err (Option Decision) := do
  let bar ← demand bars[index]? .absent
  let last ← demand bars.getLast? .absent
  let past := slice bars (index - 20) index
  let regimePast := slice bars (index - 60) index
  -- data become usable only after their publication
  let requiredPast := if p.scenarioPolicy.isSome then slice bars 0 index else regimePast
  if ∃ row ∈ requiredPast, bar.time < row.availableAt then pure none
  else do
    let first ← demand past.head? .absent
    let latest ← demand past.getLast? .absent
    require (first.close ≠ 0) .arithmetic
    if A.float (A.float (latest.close / first.close) - 1) ≤ p.momentumThreshold then pure none
    else do
      let entry := bar.opening
      require (0 < entry) (.value "non-positive historical reference value")
      let found ← levels A p latest.close ((atr14 A bars)[index - 1]?.join) entry
      match found with
      | none => pure none
      | some (target, invalidation) =>
        if last.time < bar.time + days (horizon p) then pure none
        else do
          let slowFirst ← demand regimePast.head? .absent
          let slowLast ← demand regimePast.getLast? .absent
          pure (some {
            entry, target, invalidation
            regime := if slowFirst.close < slowLast.close then .positiveSlowTrend else .nonpositiveSlowTrend })

/-! ### Measurements -/

structure Measurement where
  outcome : Rat
  targetDay : Option Int
  invalidationDay : Option Int
  deriving DecidableEq

def change (entry price : Rat) : Rat := A.float (A.float (price / entry) - 1)

/-- The first threshold that the bars touch; on an ambiguous bar the invalidation precedes the target. -/
def follow (d : Decision) (start : Int) (outcome : Rat) : List StudyBar → Measurement
  | [] => { outcome, targetDay := none, invalidationDay := none }
  | row :: rest =>
    let day := (row.time - start) / days 1 + 1
    if row.low ≤ d.invalidation then
      -- a gap below the threshold counts with the open that was observed
      { outcome := min (change A d.entry row.opening) (change A d.entry d.invalidation)
        targetDay := none, invalidationDay := some day }
    else if d.target ≤ row.high then
      { outcome := change A d.entry d.target, targetDay := some day, invalidationDay := none }
    else follow d start outcome rest

/-- `bisect_left(timestamps, instant)` of timestamps in order. -/
def bisectLeft (instant : Int) : Nat := bars.findIdx fun row => instant ≤ row.time

def future (index : Nat) (start : Int) : List StudyBar :=
  slice bars index (bisectLeft bars (start + days (horizon p)))

def measure (cost : Rat) (index : Nat) (d : Decision) : Except Err StudyCase := do
  let bar ← demand bars[index]? .absent
  let rows := future p bars index bar.time
  let mae ← demand (rows.map fun row => change A d.entry row.low).min? (.value "min() iterable argument is empty")
  let mfe ← demand (rows.map fun row => change A d.entry row.high).max? (.value "max() iterable argument is empty")
  let final ← demand rows.getLast? .absent
  let measured := follow A d bar.time (change A d.entry final.close) rows
  pure {
    time := bar.time
    measuredReturn := A.float (measured.outcome - cost)
    mae, mfe
    targetDay := measured.targetDay
    invalidationDay := measured.invalidationDay
    regime := d.regime }

def visit (cost : Rat) (index : Nat) : Except Err (Option StudyCase) := do
  match ← decision A p bars index with
  | none => pure none
  | some d => some <$> measure A p bars cost index d

/-! ### The summary -/

structure Drawdown where
  value : Rat := 1
  peak : Rat := 1
  maximum : Rat := 0
  deriving DecidableEq

def Drawdown.next (s : Drawdown) (change : Rat) : Drawdown :=
  let value := A.float (s.value * max 0 (A.float (1 + change)))
  let peak := max s.peak value
  { value, peak, maximum := max s.maximum (A.float (A.float (peak - value) / peak)) }

def mean (values : List Rat) : Option Rat :=
  if values = [] then none else some (A.float (A.sum values / values.length))

/-- `returns[len(returns) * fold // 3 : len(returns) * (fold + 1) // 3]`. -/
def foldSection {α : Type} (values : List α) (fold : Nat) : List α :=
  (values.take (values.length * (fold + 1) / 3)).drop (values.length * fold / 3)

def fold (returns : List Rat) (number : Nat) : StudyFold where
  observations := (foldSection returns number).length
  meanReturn := mean A (foldSection returns number)

def summarize (cost : Rat) (cases : List StudyCase) : StudyResult :=
  let returns := cases.map (·.measuredReturn)
  { observations := cases.length
    barsReceived := bars.length
    meanReturn := mean A returns
    maximumDrawdown := (returns.foldl (Drawdown.next A) {}).maximum
    mae := (cases.map (·.mae)).min?
    mfe := (cases.map (·.mfe)).max?
    targetOccurrences := cases.countP (·.targetDay.isSome)
    invalidationOccurrences := cases.countP (·.invalidationDay.isSome)
    walkForwardFolds := (List.range 3).map (fold A returns)
    regimesObserved := [.nonpositiveSlowTrend, .positiveSlowTrend].filter fun r => ∃ c ∈ cases, c.regime = r
    costStressMeanReturn := (mean A returns).map fun m => A.float (m - cost)
    cases }

def evaluate : Except Err StudyResult := do
  let cost := A.float (p.roundTripCostBps / 10000)
  require ((1 ≤ p.horizonDays ∧ p.horizonDays ≤ 30) ∧ (0 < p.targetFraction ∧ p.targetFraction ≤ 1) ∧
      0 < p.invalidationFraction ∧ p.invalidationFraction < 1)
    (.value "invalid fixed study parameters")
  require (0 ≤ cost ∧ cost < 1) (.value "invalid research cost assumption")
  require (∀ pair ∈ bars.zip bars.tail, pair.1.time < pair.2.time)
    (.value "study data must be unique and chronological")
  let visited ← (indices p bars).mapM (visit A p bars cost)
  pure (summarize A bars cost visited.reduceOption)

def scaled (value factor : Rat) : Rat := A.float (A.float value * A.float factor)

def withHorizon (days : Int) : StudyParameters := { p with horizonDays := days }

/-- The six variations of the parameters: two of the target, two of the invalidation and two of the horizon. -/
def variations : List StudyParameters :=
  (match p.scenarioPolicy with
    | none => [
        { p with targetFraction := scaled A p.targetFraction (4 / 5) },
        { p with targetFraction := min 1 (scaled A p.targetFraction (6 / 5)) },
        { p with invalidationFraction := scaled A p.invalidationFraction (4 / 5) },
        { p with invalidationFraction := min (A.float (99 / 100)) (scaled A p.invalidationFraction (6 / 5)) }]
    | some policy => [
        { p with scenarioPolicy := some { policy with targetAtr := A.decimal (scaled A policy.targetAtr (4 / 5)) } },
        { p with scenarioPolicy := some { policy with targetAtr := A.decimal (scaled A policy.targetAtr (6 / 5)) } },
        { p with
          scenarioPolicy := some { policy with invalidationAtr := A.decimal (scaled A policy.invalidationAtr (4 / 5)) } },
        { p with
          scenarioPolicy := some { policy with invalidationAtr := A.decimal (scaled A policy.invalidationAtr (6 / 5)) } }]) ++
  [withHorizon p (max 1 (p.horizonDays - 1)), withHorizon p (min 30 (p.horizonDays + 1))]

structure Sensitivity where
  varied : StudyParameters
  observations : Nat
  meanReturn : Option Rat
  maximumDrawdown : Rat
  deriving DecidableEq

/-- `evaluate_study`: the result and its sensitivity to the parameters. -/
def evaluateStudy : Except Err (StudyResult × List Sensitivity) := do
  let result ← evaluate A p bars
  let sensitivity ← (variations A p).mapM fun varied => do
    let measured ← evaluate A varied bars
    pure {
      varied
      observations := measured.observations
      meanReturn := measured.meanReturn
      maximumDrawdown := measured.maximumDrawdown : Sensitivity }
  pure (result, sensitivity)

end Study

/-- The field bounds of `LeanEngineResult` and of its cases and folds. -/
def StudyResult.bounded (r : StudyResult) : Prop :=
  (0 ≤ r.maximumDrawdown ∧ r.maximumDrawdown ≤ 1) ∧
    ∀ c ∈ r.cases, (∀ day ∈ c.targetDay, 1 ≤ day ∧ day ≤ 30) ∧ ∀ day ∈ c.invalidationDay, 1 ≤ day ∧ day ≤ 30
  deriving Decidable

def StudyResult.consistent (r : StudyResult) : Except Err Unit := do
  require r.bounded (.value "LEAN result field out of bounds")
  require (r.observations = r.cases.length) (.value "LEAN observation count differs from measured cases")
  require ((r.walkForwardFolds.map (·.observations)).sum = r.observations)
    (.value "LEAN fold coverage differs from measured cases")
  require (r.observations ≠ 0 → r.meanReturn ≠ none ∧ r.costStressMeanReturn ≠ none)
    (.value "LEAN measured returns are missing")

end Money
