import Money.Objective
import Money.Theorems.Outcomes
import Money.Theorems.Publication

/-! Which published signals are assessed. The levels of a design are far enough apart for a decimal of 28 digits, so an
    assessment never fails its own contract. -/

namespace Money
open Checked Decimals List Money.System

namespace Platform.Arithmetic
variable {P : Platform}

theorem exists_truncated {x : Rat} (k : Nat) (nonneg : 0 ≤ x) : ∃ n : Int, 0 ≤ n ∧ n ≤ x * 10 ^ k ∧ x * 10 ^ k < n + 1 := by
  refine ⟨(x * 10 ^ k).floor, Rat.le_floor_iff.mpr (by push_cast; positivity), Rat.floor_le _, ?_⟩
  exact_mod_cast Rat.lt_floor_add_one (x * 10 ^ k)

theorem sub_le_round (h : P.Arithmetic) {x : Rat} (k : Nat) (hk : k ≤ 100) (nonneg : 0 ≤ x)
    (small : x * 10 ^ k < 10 ^ 28) : x - 1 / 10 ^ k ≤ P.round x := by
  have power : (0 : Rat) < 10 ^ k := by positivity
  obtain ⟨n, least, below, above⟩ := exists_truncated k nonneg
  have most : n < 10 ^ 28 := by exact_mod_cast below.trans_lt small
  calc x - 1 / 10 ^ k = (x * 10 ^ k - 1) / 10 ^ k := by field_simp
    _ ≤ n / 10 ^ k := div_le_div_of_nonneg_right (by linarith) power.le
    _ = P.round (n / 10 ^ k) := (h.exact_ n k hk (by omega)).symm
    _ ≤ P.round x := h.mono ((div_le_iff₀ power).mpr below)

theorem round_le_add (h : P.Arithmetic) {x : Rat} (k : Nat) (hk : k ≤ 100) (nonneg : 0 ≤ x)
    (small : x * 10 ^ k < 10 ^ 28 - 1) : P.round x ≤ x + 1 / 10 ^ k := by
  have power : (0 : Rat) < 10 ^ k := by positivity
  obtain ⟨n, least, below, above⟩ := exists_truncated k nonneg
  have most : n + 1 < 10 ^ 28 := by
    have : (n : Rat) + 1 < 10 ^ 28 := by linarith
    exact_mod_cast this
  have whole := h.exact_ (n + 1) k hk (by omega)
  push_cast at whole
  calc P.round x ≤ P.round ((n + 1) / 10 ^ k) := h.mono ((le_div_iff₀ power).mpr above.le)
    _ = (n + 1) / 10 ^ k := whole
    _ ≤ (x * 10 ^ k + 1) / 10 ^ k := div_le_div_of_nonneg_right (by linarith) power.le
    _ = x + 1 / 10 ^ k := by field_simp

theorem lt_of_round_lt (h : P.Arithmetic) {x y : Rat} (lt : P.round x < P.round y) : x < y := by
  by_contra le
  exact absurd (h.mono (not_lt.mp le)) (not_le.mpr lt)

end Platform.Arithmetic

namespace SignalRequest
variable {P : Platform} {q : SignalRequest} {t : TechnicalFeatures} {bar : PriceBar} {l : Levels} {a : Allocation}

theorem level_millionths {mode : Rounding} {x y : Rat} (level : quantize 6 mode y = some x) :
    ∃ n : Int, x = n / 10 ^ 6 ∧ n.natAbs < 10 ^ 28 := by
  obtain ⟨small, rfl⟩ := quantize_eq_some.mp level
  exact ⟨_, rfl, small⟩

theorem millionth_le {m n : Int} (lt : (m / 10 ^ 6 : Rat) < n / 10 ^ 6) : (m / 10 ^ 6 : Rat) + 1 / 10 ^ 6 ≤ n / 10 ^ 6 := by
  have less : (m : Rat) < n := by linarith
  have next : (m : Rat) + 1 ≤ n := by exact_mod_cast less
  linarith

theorem Around.target_le (hP : P.Arithmetic) (bounded : q.policy.bounded) (close : positiveMoney bar.close)
    (around : q.Around P t bar l) : l.target ≤ 100 * l.high := by
  obtain ⟨exact_, rounds⟩ := pounds_exact hP close bar.currency
  have price : l.price = bar.close / divisor bar.currency := around.price.trans exact_
  obtain ⟨-, high⟩ := around.price_between hP bounded (by rw [price, rounds])
  obtain ⟨-, -, -, -, ⟨least, -⟩, ⟨-, most⟩, -⟩ := bounded
  obtain ⟨n, range, small⟩ := level_millionths around.quantized.range
  have invalidation := around.quantized.invalidation
  have target := around.quantized.target
  rw [← around.price] at invalidation target
  -- one range below the price is still above zero
  have step : l.atr ≤ P.round (q.policy.invalidationAtr * l.atr) := by
    have same : P.round l.atr = l.atr := by rw [range]; exact hP.exact_ n 6 (by decide) small
    rw [← same]
    refine hP.mono ?_
    rw [same]
    exact le_mul_of_one_le_left around.ranges.le least
  have above : 0 < l.price - P.round (q.policy.invalidationAtr * l.atr) := by
    refine hP.lt_of_round_lt ?_
    rw [hP.zero]
    exact around.positive.trans_le (quantize_floor_le invalidation)
  -- ten ranges above it are within a hundred times the price
  have ten : P.round (q.policy.targetAtr * l.atr) ≤ 10 * l.atr := by
    have same : P.round (10 * l.atr) = 10 * l.atr := by
      have tenfold : 10 * l.atr = n / 10 ^ 5 := by rw [range]; ring
      rw [tenfold]
      exact hP.exact_ n 5 (by decide) small
    rw [← same]
    exact hP.mono (mul_le_mul_of_nonneg_right most around.ranges.le)
  have hundred : P.round (100 * l.price) = 100 * l.price := by
    obtain ⟨m, hm, small'⟩ := positiveMoney_millionths close
    cases currency : bar.currency with
    | gbp =>
      have : 100 * l.price = m / 10 ^ 4 := by
        rw [price, hm, currency]
        simp only [divisor, reduceCtorEq, if_false]
        ring
      rw [this]
      exact hP.exact_ m 4 (by decide) small'
    | gbx =>
      have : 100 * l.price = m / 10 ^ 6 := by
        rw [price, hm, currency]
        simp only [divisor, if_true]
        ring
      rw [this]
      exact hP.exact_ m 6 (by decide) small'
  calc l.target ≤ P.round (l.price + P.round (q.policy.targetAtr * l.atr)) := quantize_floor_le target
    _ ≤ P.round (100 * l.price) := hP.mono (by linarith [around.ranges])
    _ = 100 * l.price := hundred
    _ ≤ 100 * l.high := by linarith

/-! ### Upside -/

/-- The arithmetic of a scenario: whole pennies, levels at least a millionth apart and below the greatest price. -/
structure Spread (a high invalidation target costs : Rat) : Prop where
  penny : 1 / 100 ≤ a
  most : a ≤ 200
  entry : 0 < high
  below : 0 < invalidation
  falls : invalidation + 1 / 10 ^ 6 ≤ high
  rises : high + 1 / 10 ^ 6 ≤ target
  price : target < 1000000000000
  near : target ≤ 100 * high
  costs : 0 ≤ costs

theorem Spread.upside_pos (hP : P.Arithmetic) {a high invalidation target costs : Rat}
    (h : Spread a high invalidation target costs)
    (reward : 3 / 2 ≤ P.round (P.round (P.round (a * (target - high) / high) - costs) /
      P.round (P.round (a * (high - invalidation) / high) + costs))) : 1 / 10 ^ 21 ≤ upside P a target high costs := by
  obtain ⟨penny, most, entry, below, falls, rises, price, near, costs'⟩ := h
  -- the rise and the fall for each pound
  have rise : 1 / 10 ^ 18 ≤ (target - high) / high := by
    rw [le_div_iff₀ entry]
    linarith
  have riseMost : (target - high) / high ≤ 99 := by
    rw [div_le_iff₀ entry]
    linarith
  have fall : 1 / 10 ^ 18 ≤ (high - invalidation) / high := by
    rw [le_div_iff₀ entry]
    linarith
  have fallMost : (high - invalidation) / high ≤ 1 := by
    rw [div_le_iff₀ entry]
    linarith
  have ratio : target / high = (target - high) / high + 1 := by field_simp; ring
  rw [mul_div_assoc, mul_div_assoc] at reward
  generalize (target - high) / high = w at *
  generalize (high - invalidation) / high = v at *
  have gain : a * w ≤ 200 * 99 := mul_le_mul most riseMost (by linarith) (by norm_num)
  have loss : a * v ≤ 200 * 1 := mul_le_mul most fallMost (by linarith) (by norm_num)
  have loss' : 1 / 100 * (1 / 10 ^ 18) ≤ a * v := mul_le_mul penny fall (by norm_num) (by linarith)
  -- the reward exceeds the downside, also before it is rounded
  have downside : 0 ≤ P.round (P.round (a * v) + costs) := hP.nonneg (by linarith [hP.nonneg (x := a * v) (by linarith)])
  have exceeds : 1 < P.round (P.round (a * w) - costs) / P.round (P.round (a * v) + costs) := by
    by_contra le
    have rounded := hP.mono (not_lt.mp le)
    have one := hP.exact_ 1 0 (by decide) (by decide)
    norm_num at one
    linarith
  have positive : 0 < P.round (P.round (a * v) + costs) := by
    refine lt_of_le_of_ne downside fun zero => ?_
    rw [← zero, div_zero] at exceeds
    linarith
  rw [lt_div_iff₀ positive, one_mul] at exceeds
  have more := hP.lt_of_round_lt exceeds
  -- what the roundings take away is below the least fall
  have fallRound := hP.sub_le_round 24 (by decide) (x := a * v) (by linarith) (by linarith)
  have riseRound := hP.round_le_add 23 (by decide) (x := a * w) (by nlinarith) (by linarith)
  have ratioRound : w + 1 - 1 / 10 ^ 25 ≤ P.round (target / high) := by
    rw [ratio]
    exact hP.sub_le_round 25 (by decide) (by linarith) (by linarith)
  have shareRound : w - 2 / 10 ^ 25 ≤ P.round (P.round (target / high) - 1) := by
    have least := hP.sub_le_round 25 (by decide) (x := w - 1 / 10 ^ 25) (by linarith) (by linarith)
    have mono := hP.mono (show w - 1 / 10 ^ 25 ≤ P.round (target / high) - 1 by linarith)
    linarith
  have gainRound : a * w - 5 / 10 ^ 23 ≤ P.round (a * P.round (P.round (target / high) - 1)) := by
    have share : a * (w - 2 / 10 ^ 25) ≤ a * P.round (P.round (target / high) - 1) :=
      mul_le_mul_of_nonneg_left shareRound (by linarith)
    have least := hP.sub_le_round 23 (by decide) (x := a * (w - 2 / 10 ^ 25)) (mul_nonneg (by linarith) (by linarith))
      (by linarith)
    have mono := hP.mono share
    linarith
  have least := hP.mono (show (1 : Int) / 10 ^ 21 ≤ P.round (a * P.round (P.round (target / high) - 1)) - costs by
    push_cast
    linarith)
  rw [hP.exact_ 1 21 (by decide) (by decide)] at least
  simpa [upside] using least

theorem search_found {try_ : Int → Except Err Allocation} {limit : Rat} (fuel : Nat) :
    ∀ (left right : Int) (best : Option Allocation) (a : Allocation), search try_ limit fuel left right best = .ok (some a) →
      best = some a ∨ ∃ n, left ≤ n ∧ n ≤ right ∧ try_ n = .ok a := by
  induction fuel with
  | zero =>
    intro left right best a found
    exact .inl (pure_eq_ok.mp found)
  | succ fuel ih =>
    intro left right best a found
    rw [search] at found
    split at found
    · exact .inl (pure_eq_ok.mp found)
    next nonempty =>
      obtain ⟨b, tried, found⟩ := bind_eq_ok.mp found
      split at found
      · rcases ih _ _ _ _ found with same | ⟨n, low, high, tried'⟩
        · cases same
          exact .inr ⟨_, by omega, by omega, tried⟩
        · exact .inr ⟨n, by omega, high, tried'⟩
      · rcases ih _ _ _ _ found with same | ⟨n, low, high, tried'⟩
        · exact .inl same
        · exact .inr ⟨n, low, by omega, tried'⟩

/-- The allocation of a draft is a number of pennies with its costs and its downside. -/
structure Pennies (P : Platform) (q : SignalRequest) (l : Levels) (a : Allocation) (n : Int) : Prop where
  range : 1 ≤ n ∧ n ≤ 20000
  allocation : a.allocation = n / 100
  costs : 0 ≤ a.costs.totalRoundTripGbp
  downside : a.downside =
    P.round (P.round (P.round (a.allocation * P.round (l.high - l.invalidation)) / l.high) + a.costs.totalRoundTripGbp)

section
variable (hP : P.Arithmetic)
include hP

theorem Drafted.pennies (bounded : q.policy.bounded) (covered : q.costApplicability.bounded)
    (h : q.Drafted P t l a) : ∃ n, Pennies P q l a n := by
  obtain ⟨spread, slippage, searched⟩ := h.allocated
  rcases search_found _ _ _ _ _ searched with none_ | ⟨n, low, high, tried⟩
  · cases none_
  · have most : n ≤ 20000 := high.trans (pennies_le hP bounded)
    obtain ⟨same, -, least⟩ := allocation_pennies hP low most
    simp only [allocate, same, ok_iff] at tried
    obtain ⟨costs, priced, rfl⟩ := tried
    exact ⟨n, ⟨low, most⟩, rfl, estimateCosts_nonneg hP least covered.2.1 covered.2.2 priced, rfl⟩

theorem pennies_exact {n m k : Int} (range : 1 ≤ n ∧ n ≤ 20000) (small : m.natAbs < 10 ^ 18)
    (small' : k.natAbs < 10 ^ 18) : P.round ((n / 100 : Rat) * P.round (m / 10 ^ 6 - k / 10 ^ 6)) =
      (n / 100 : Rat) * (m / 10 ^ 6 - k / 10 ^ 6) := by
  have difference : (m / 10 ^ 6 - k / 10 ^ 6 : Rat) = ((m - k : Int) : Rat) / 10 ^ 6 := by
    push_cast
    ring
  have product : (n / 100 : Rat) * (((m - k : Int) : Rat) / 10 ^ 6) = ((n * (m - k) : Int) : Rat) / 10 ^ 8 := by
    push_cast
    ring
  have digits : (n * (m - k)).natAbs < 10 ^ 28 := by
    rw [Int.natAbs_mul]
    calc n.natAbs * (m - k).natAbs ≤ 20000 * (2 * 10 ^ 18) := Nat.mul_le_mul (by omega) (by omega)
      _ < 10 ^ 28 := by norm_num
  rw [difference, hP.exact_ (m - k) 6 (by decide) (by omega), product, hP.exact_ _ 8 (by decide) digits]

theorem Drafted.spread_ (bounded : q.policy.bounded) (close : positiveMoney bar.close)
    (around : q.Around P t bar l) (limits : (signalOf P q l a).limits = .ok ()) {n : Int} (pennies : Pennies P q l a n) :
    Spread a.allocation l.high l.invalidation l.target a.costs.totalRoundTripGbp ∧
      P.round (a.allocation * P.round (l.target - l.high)) = a.allocation * (l.target - l.high) ∧
      P.round (a.allocation * P.round (l.high - l.invalidation)) = a.allocation * (l.high - l.invalidation) := by
  have price := target_lt_of_limits hP around limits
  have near := around.target_le hP bounded close
  have below := around.below.trans_le around.within
  have positive := around.positive
  have above := around.above
  obtain ⟨i, hi, -⟩ := level_millionths around.quantized.invalidation
  obtain ⟨e, he, -⟩ := level_millionths around.quantized.high
  obtain ⟨g, hg, -⟩ := level_millionths around.quantized.target
  rw [hi, he] at below
  rw [he, hg] at above
  rw [hi] at positive
  have low : (1 : Rat) ≤ n := by exact_mod_cast pennies.range.1
  have high : (n : Rat) ≤ 20000 := by exact_mod_cast pennies.range.2
  -- the numbers of millionths, in order and below the greatest price
  have least : 0 < i := by
    have : (0 : Rat) < i := by linarith
    exact_mod_cast this
  have ordered : i < e ∧ e < g := by
    have first : (i : Rat) < e := by linarith
    have second : (e : Rat) < g := by linarith
    exact_mod_cast And.intro first second
  have most : g < 10 ^ 18 := by
    have : (g : Rat) < 10 ^ 18 := by
      rw [hg] at price
      linarith
    exact_mod_cast this
  refine ⟨⟨?_, ?_, ?_, around.positive, ?_, ?_, price, near, pennies.costs⟩, ?_, ?_⟩
  · rw [pennies.allocation]
    linarith
  · rw [pennies.allocation]
    linarith
  · linarith [around.positive, around.below, around.within]
  · rw [hi, he]
    exact millionth_le below
  · rw [he, hg]
    exact millionth_le above
  · rw [pennies.allocation, he, hg]
    exact pennies_exact hP pennies.range (by omega) (by omega)
  · rw [pennies.allocation, hi, he]
    exact pennies_exact hP pennies.range (by omega) (by omega)

theorem percentage_bounds {allocation capital : Rat} (penny : 1 / 100 ≤ allocation)
    (within : allocation ≤ capital) (most : capital ≤ 200) :
    0 < P.round (P.round (allocation / capital) * 100) ∧ P.round (P.round (allocation / capital) * 100) ≤ 100 := by
  have positive : 0 < capital := by linarith
  have share : (5 : Int) / 10 ^ 5 ≤ allocation / capital := by
    rw [le_div_iff₀ positive]
    push_cast
    linarith
  have share' : allocation / capital ≤ (1 : Int) / 10 ^ 0 := by
    rw [div_le_iff₀ positive]
    push_cast
    linarith
  have low := hP.mono share
  have high := hP.mono share'
  rw [hP.exact_ 5 5 (by decide) (by decide)] at low
  rw [hP.exact_ 1 0 (by decide) (by decide)] at high
  push_cast at low high
  have low' := hP.mono (show (5 : Int) / 10 ^ 3 ≤ P.round (allocation / capital) * 100 by push_cast; linarith)
  have high' := hP.mono (show P.round (allocation / capital) * 100 ≤ (100 : Int) / 10 ^ 0 by push_cast; linarith)
  rw [hP.exact_ 5 3 (by decide) (by decide)] at low'
  rw [hP.exact_ 100 0 (by decide) (by decide)] at high'
  push_cast at low' high'
  constructor <;> linarith

theorem Drafted.upside (bounded : q.policy.bounded) (close : positiveMoney bar.close)
    (around : q.Around P t bar l) (h : q.Drafted P t l a) {n : Int} (pennies : Pennies P q l a n) :
    0 < Money.upside P a.allocation l.target l.high a.costs.totalRoundTripGbp ∧
      ((∀ x, P.round x = x) → Money.upside P a.allocation l.target l.high a.costs.totalRoundTripGbp =
        riskReward P l a * a.downside) := by
  obtain ⟨spread, rise, fall⟩ := Drafted.spread_ hP bounded close around h.limits pennies
  have reward : 3 / 2 ≤ riskReward P l a := bounded.2.2.2.2.2.2.1.1.trans h.rewarding
  rw [riskReward, pennies.downside, rise, fall] at reward
  constructor
  · have least := spread.upside_pos hP reward
    linarith [show (0 : Rat) < 1 / 10 ^ 21 by norm_num]
  · intro exact_
    simp only [exact_] at reward
    have nonzero : a.allocation * (l.high - l.invalidation) / l.high + a.costs.totalRoundTripGbp ≠ 0 := by
      intro zero
      rw [zero, div_zero] at reward
      linarith
    rw [riskReward, pennies.downside, rise, fall]
    simp only [Money.upside, exact_]
    rw [div_mul_cancel₀ _ nonzero]
    have entry := spread.entry.ne'
    field_simp

end

end SignalRequest

/-! ### Assessments -/

section
open SignalRequest
variable {Doc : Type} {E : Env Doc}

/-- The numbers of an assessment are those of its scenario, and within their bounds. -/
structure OpportunityAssessment.Faithful (P : Platform) (x : OpportunityAssessment) : Prop where
  upside : (∀ y, P.round y = y) → x.potentialUpsideGbp = x.riskReward * x.modelledDownsideGbp
  positive : 0 < x.potentialUpsideGbp
  allocation : 0 ≤ x.illustrativeAllocationGbp ∧ x.illustrativeAllocationGbp ≤ x.assumedCapitalGbp
  percentage : 0 ≤ x.percentageOfAssumedCapital ∧ x.percentageOfAssumedCapital ≤ 100

theorem appraise_drafted (hP : E.toPlatform.Arithmetic) {q : SignalRequest} {t : TechnicalFeatures} {l : Levels}
    {a : Allocation} (bounded : q.policy.bounded) (covered : q.costApplicability.bounded)
    (prices : ∀ r ∈ priceRecords q.snapshot, positiveMoney r.2.close) (h : q.Drafted E.toPlatform t l a) (o : Repeats)
    (p : DecisionPacket) {c : Comparison} (signal : c.signal = signalOf E.toPlatform q l a)
    (quality : c.quality = q.marketQuality) (independence : EvidenceIndependenceReport) :
    ∃ x, appraise E o p (designOf E.toPlatform q l a) c independence = .ok (some x) ∧ x.Faithful E.toPlatform := by
  obtain ⟨bar, last⟩ := latestBar_of_levels h.levels
  have close := latestBar_close prices last
  have around := (levels_eq_ok close.1 last).mp h.levels
  obtain ⟨n, pennies⟩ := h.pennies hP bounded covered
  obtain ⟨positive, relation⟩ := h.upside hP bounded close around pennies
  obtain ⟨spread, -, -⟩ := Drafted.spread_ hP bounded close around h.limits pennies
  have reward : 3 / 2 ≤ riskReward E.toPlatform l a := bounded.2.2.2.2.2.2.1.1.trans h.rewarding
  have limits := h.limits
  simp only [ResearchSignal.limits, ok_iff] at limits
  obtain ⟨⟨-, -, capital, allocated, downside, horizon, -⟩, -, within, -, -⟩ := limits
  have percentage := percentage_bounds hP spread.penny within capital.2
  obtain ⟨quoted, hquoted⟩ := Option.ne_none_iff_exists'.mp h.spread
  have nonzero : l.high ≠ 0 ∧ a.allocation ≠ 0 ∧ q.mandate.maximumCapitalGbp ≠ 0 :=
    ⟨spread.entry.ne', allocated.1.ne', capital.1.ne'⟩
  simp only [appraise, designOf, signal, quality, hquoted]
  refine ⟨_, (bind_of_ok (require_of nonzero) _).trans (bind_of_ok (require_of ?_) _), ?_⟩
  · exact ⟨capital, allocated, percentage, downside, positive, by linarith, pennies.costs, horizon, le_max_left _ _⟩
  · exact ⟨relation, positive, ⟨allocated.1.le, within⟩, percentage.1.le, percentage.2⟩

/-- The sealed inputs of a packet generate its signal again. -/
structure Designed (E : Env Doc) (p : DecisionPacket) (design : SignalDesign) (signal : ResearchSignal)
    (s : ResearchSnapshot) (designedAt : Int) (quality : MarketQuality) (costs : CostApplicability)
    (policy : SignalPolicy) : Prop where
  valid : E.validatePacket p = .ok ()
  consistent : design.consistent = .ok ()
  carries : p.signal = some signal
  same : design.signal = some signal
  inputs : design.policy = some policy ∧ design.marketQuality = some quality ∧ design.costApplicability = some costs ∧
    design.designedAt = some designedAt
  before : designedAt ≤ p.issuedAt
  generated : generateSignal E.toPlatform
    (p.request p.researchId s signal.state.toState designedAt quality costs policy) = .ok design
  derived : evidenceIndependence s p.reports = .ok p.independence
  prices : ∀ r ∈ priceRecords s, positiveMoney r.2.close
  frozen : ∀ t ∈ p.frozenSnapshot, t = s

section
variable {p : DecisionPacket} {design : SignalDesign} {signal : ResearchSignal} {s : ResearchSnapshot} {designedAt : Int}
  {quality : MarketQuality} {costs : CostApplicability} {policy : SignalPolicy}

/-- A live candidate that is issued, not invalidated and not expired, and that the consensus still confirms. -/
structure Confirmed (E : Env Doc) (p : DecisionPacket) (signal : ResearchSignal) (s : ResearchSnapshot) (now : Int)
    (invalidated : Bool) : Prop where
  live : p.runtime = .live
  candidate : p.finalState = .researchCandidate
  upheld : invalidated = false
  issued : p.issuedAt ≤ now
  unexpired : now < signal.validUntil
  consented : ∃ reasons, consensus E.toPlatform p.mandate s p.reports p.lean p.audit p.redTeam p.independence now
    p.crossExaminationRounds false = .ok (.researchCandidate, reasons)

theorem Designed.state (h : Designed E p design signal s designedAt quality costs policy) :
    p.finalState = signal.state.toState := by
  have consistent := (validatePacket_eq_ok.mp h.valid).2
  simp only [DecisionPacket.consistentPacket, h.carries, DecisionPacket.consistentSignal, ok_iff] at consistent
  obtain ⟨-, -, -, -, -, -, -, -, -, _, -, ⟨-, state⟩, -⟩ := consistent
  exact state

theorem Designed.comparison (h : Designed E p design signal s designedAt quality costs policy)
    (frozen : p.frozenSnapshot = some s) (now : Int) (invalidated : Bool) : Money.comparison p design now invalidated =
      if p.runtime = .live ∧ p.finalState = .researchCandidate ∧ invalidated = false ∧ p.issuedAt ≤ now ∧
        now < signal.validUntil then some { signal, snapshot := s, designedAt, policy, quality, costs } else none := by
  obtain ⟨hpolicy, hquality, hcosts, hdesigned⟩ := h.inputs
  have issued := issued_of_signal h.generated h.same
  have started : signal.issuedAt = designedAt := issued.issuedAt_eq
  have state := h.state
  have never : signal.invalidatedAt = none := by
    obtain ⟨l, a, described⟩ := issued.described
    exact congrArg ResearchSignal.invalidatedAt described
  have before := h.before
  simp only [Money.comparison, h.carries, frozen, hpolicy, hquality, hcosts, hdesigned, Option.bind_eq_bind,
    Option.bind_some]
  refine if_congr ?_ rfl rfl
  simp only [ResearchSignal.effectiveState, never, h.same, started, state, true_and, Option.mem_def, reduceCtorEq,
    false_and, exists_false, or_false]
  constructor
  · rintro ⟨upheld, live, candidate, issuedAt, -, effective, -⟩
    refine ⟨live, candidate, upheld, issuedAt, ?_⟩
    by_contra ended
    rw [if_pos (not_lt.mp ended)] at effective
    cases effective
  · rintro ⟨live, candidate, upheld, issuedAt, unexpired⟩
    exact ⟨upheld, live, candidate, issuedAt, before.trans issuedAt, by rw [if_neg (not_le.mpr unexpired), candidate],
      before⟩

section
variable (hP : E.toPlatform.Arithmetic) (h : Designed E p design signal s designedAt quality costs policy)
include hP h

theorem Designed.reassess
    (candidate : signal.state.toState = .researchCandidate) (o : Repeats) {now : Int} (issued : p.issuedAt ≤ now) :
    ∃ outcome, Money.reassess E o p design { signal, snapshot := s, designedAt, policy, quality, costs } now = .ok outcome ∧
      (outcome ≠ none ↔ ∃ reasons, consensus E.toPlatform p.mandate s p.reports p.lean p.audit p.redTeam p.independence
        now p.crossExaminationRounds false = .ok (.researchCandidate, reasons)) ∧ ∀ x ∈ outcome, x.Faithful E.toPlatform := by
  have origin := issued_of_signal h.generated h.same
  obtain ⟨_, _, -, consented⟩ := origin.consented
  obtain ⟨rounds, clear, -⟩ := consensus_clear consented origin.ne_reject
  have dated : Dated now := clear.window.dated.later (h.before.trans issued)
  obtain ⟨⟨state, reasons⟩, result⟩ : ∃ result, consensus E.toPlatform p.mandate s p.reports p.lean p.audit p.redTeam
    p.independence now p.crossExaminationRounds false = .ok result := clear.listed.consensus rounds dated
  rw [Money.reassess, bind_of_ok h.derived, bind_of_ok result]
  by_cases stands : state = .researchCandidate
  · subst stands
    have generated := h.generated
    rw [candidate] at generated
    obtain ⟨t, l, a, drafted, rfl, described⟩ := generated_signal h.generated h.same
    obtain ⟨_, -, shaped⟩ := bind_eq_ok.mp h.consistent
    obtain ⟨x, assessed, faithful⟩ := appraise_drafted hP (scenario_of_signal h.generated h.same).1
      ((require_eq_ok.mp shaped).2 costs h.inputs.2.2.1) h.prices drafted o p
      (c := { signal, snapshot := s, designedAt, policy, quality, costs }) described rfl p.independence
    refine ⟨some x, ?_, by simp [result], by simpa using faithful⟩
    rw [if_neg (by simp), bind_of_ok generated, if_neg (by simp)]
    exact assessed
  · refine ⟨none, if_pos (.inl stands), ?_, by simp⟩
    simp [result, stands]

/-- A designed packet has an assessment exactly if it carries its snapshot and is confirmed. -/
theorem Designed.assess
    (o : Repeats) (now : Int) (invalidated : Bool) : ∃ outcome, Money.assess E o p design now invalidated = .ok outcome ∧
      (outcome ≠ none ↔ p.frozenSnapshot ≠ none ∧ Confirmed E p signal s now invalidated) ∧
      ∀ x ∈ outcome, x.Faithful E.toPlatform := by
  rw [Money.assess, bind_of_ok h.valid, bind_of_ok h.consistent]
  cases frozen : p.frozenSnapshot with
  | none =>
    have nothing : Money.comparison p design now invalidated = none := by
      simp [Money.comparison, h.carries, frozen]
    rw [nothing]
    exact ⟨none, rfl, by simp, by simp⟩
  | some t =>
    obtain rfl := h.frozen t frozen
    by_cases standing : p.runtime = .live ∧ p.finalState = .researchCandidate ∧ invalidated = false ∧ p.issuedAt ≤ now ∧
        now < signal.validUntil
    · rw [h.comparison frozen, if_pos standing]
      obtain ⟨live, candidate, upheld, issuedAt, unexpired⟩ := standing
      obtain ⟨outcome, assessed, exactly, faithful⟩ := h.reassess hP (h.state ▸ candidate) o issuedAt
      refine ⟨outcome, assessed, exactly.trans ?_, faithful⟩
      exact ⟨fun consented => ⟨by simp, live, candidate, upheld, issuedAt, unexpired, consented⟩,
        fun confirmed => confirmed.2.consented⟩
    · rw [h.comparison frozen, if_neg standing]
      refine ⟨none, rfl, ?_, by simp⟩
      simp only [ne_eq, not_true_eq_false, false_iff]
      rintro ⟨-, live, candidate, upheld, issuedAt, unexpired, -⟩
      exact standing ⟨live, candidate, upheld, issuedAt, unexpired⟩

end

end

/-! ### Publications -/

def SnapshotRow.research? {P : Platform} (row : SnapshotRow P) : Option ResearchSnapshot :=
  match row.payload with
  | .research f => some f.snapshot
  | .study _ => none

def PacketRow.snapshot? (row : PacketRow Doc) : Option ResearchSnapshot :=
  match row.payload with
  | .decision p => p.frozenSnapshot
  | _ => none

/-- The hashed snapshots of a database: those of its snapshot rows, and those that its packets carry. -/
def Database.hashedContents (db : Database E) : List ResearchSnapshot :=
  (db.snapshots.filterMap (·.research?) ++ db.packets.filterMap (·.snapshot?)).map fun s => { s with hash := "" }

theorem Platform.hash_of_valid {P : Platform} {s : ResearchSnapshot} (h : P.validateSnapshot s = .ok s) :
    s.hash = P.snapshotHash { s with hash := "" } := by
  simp only [Platform.validateSnapshot, Platform.freezeFacts, ok_iff] at h
  obtain ⟨evidence, -, _, -, -, -, -, -, -, -, -, _, -, -, same⟩ := h
  have kept : evidence = s.evidence := congrArg ResearchSnapshot.evidence same
  subst kept
  exact (congrArg ResearchSnapshot.hash same).symm

theorem objectivePublications_row {db : Database E} {h : Handle} {events : List (String × Int)} {read limit offset : Int}
    {rows : List (ObjectiveRow Doc)} (hok : objectivePublications db h events read limit offset = .ok rows)
    {row : ObjectiveRow Doc} (hrow : row ∈ rows) : db.packet? row.jobId = some row.packet ∧
      (∃ signal, db.signal? row.jobId = some signal) ∧ db.artifact? row.jobId .signalDesign = some row.design := by
  rw [objectivePublications, require_bind_eq_ok, pure_eq_ok] at hok
  obtain ⟨-, rfl⟩ := hok
  obtain ⟨job, -, found⟩ := mem_filterMap.mp (mem_of_mem_drop (mem_of_mem_take hrow))
  simp only [objectiveRow, Option.bind_eq_bind, Option.bind_eq_some_iff, Option.some.injEq] at found
  obtain ⟨packet, hpacket, signal, hsignal, design, hdesign, rfl⟩ := found
  exact ⟨hpacket, ⟨signal, hsignal⟩, hdesign⟩

end

section
open SignalRequest
variable {Doc : Type} [DecidableEq Doc] {E : Env Doc}

theorem Origin.designed {ops pre : List (Op Doc)} {row : SignalRow} {p : DecisionPacket} {now : CompletionReads}
    {job : Job} {f : Frozen E.toPlatform} {disagreement : Bool} {calculated : ResearchState × List String}
    (h : Origin ops pre row p now job f disagreement calculated)
    (hashes : Set.InjOn E.snapshotHash { c | c ∈ (after E ops).db.hashedContents }) :
    ∃ doc design designedAt quality costs policy, (after E ops).db.artifact? row.jobId .signalDesign = some doc ∧
      E.validateDesign doc = .ok design ∧ Designed E p design row.signal f.snapshot designedAt quality costs policy := by
  obtain ⟨doc, design, policy, quality, costs, designedAt, hdoc, hvalid, hsame, hinputs, hbefore, hgenerated⟩ :=
    checkDesign_signal h.decided.designed h.signal
  obtain ⟨hstate, -⟩ := h.decided.signal h.signal
  rw [hstate, ← h.decided.research] at hgenerated
  have hconsistent : design.consistent = .ok () := by
    simp only [Env.validateDesign, ok_iff] at hvalid
    obtain ⟨_, -, ⟨⟩, hconsistent, rfl⟩ := hvalid
    exact hconsistent
  refine ⟨doc, design, designedAt, quality, costs, policy, h.keeps.artifact? hdoc, hvalid, h.valid, hconsistent, h.signal,
    hsame, hinputs, hbefore, hgenerated, h.decided.derived, f.prices, fun t ht => ?_⟩
  -- the frozen snapshot of the packet has the hash of the stored one
  obtain ⟨hfrozen, hpacket⟩ := validatePacket_eq_ok.mp h.valid
  simp only [DecisionPacket.consistentPacket, ok_iff] at hpacket
  obtain ⟨-, hcarried, -⟩ := hpacket
  have hhash : t.hash = f.snapshot.hash := (hcarried t ht).1.trans h.decided.snapshot.2.1
  obtain ⟨stored, hstored, -, hpayload, -⟩ := h.backed
  obtain ⟨id, -, hget⟩ := Option.bind_eq_some_iff.mp hstored
  have hcontent : ({ t with hash := "" } : ResearchSnapshot) = { f.snapshot with hash := "" } := by
    have hcarries : t ∈ (after E ops).db.packets.filterMap (·.snapshot?) :=
      mem_filterMap.mpr ⟨_, h.packet, ht⟩
    have hstores : f.snapshot ∈ (after E ops).db.snapshots.filterMap (·.research?) :=
      mem_filterMap.mpr ⟨stored, (Rows.get?_eq_some hget).1, by rw [SnapshotRow.research?, hpayload]⟩
    refine hashes (mem_map.mpr ⟨t, mem_append_right _ hcarries, rfl⟩)
      (mem_map.mpr ⟨f.snapshot, mem_append_left _ hstores, rfl⟩) ?_
    rw [← Platform.hash_of_valid (hfrozen t ht), ← Platform.hash_of_valid f.valid, hhash]
  calc t = { ({ t with hash := "" } : ResearchSnapshot) with hash := t.hash } := rfl
    _ = { ({ f.snapshot with hash := "" } : ResearchSnapshot) with hash := f.snapshot.hash } := by rw [hcontent, hhash]
    _ = f.snapshot := rfl

/-- A publication is assessed without an exception, exactly if its packet carries the frozen snapshot and is confirmed
    on the sealed inputs; the numbers are those of its scenario. -/
theorem objective_assessment_faithful (hP : E.toPlatform.Arithmetic) (o : Repeats) (ops : List (Op Doc))
    (hashes : Set.InjOn E.snapshotHash { c | c ∈ (after E ops).db.hashedContents }) (h : Handle)
    (events : List (String × Int)) (read limit offset : Int) (rows : List (ObjectiveRow Doc))
    (page : objectivePublications (after E ops).db h events read limit offset = .ok rows) (row : ObjectiveRow Doc)
    (hrow : row ∈ rows) (now : Int) :
    ∃ p signal job f at_ outcome, row.packet = .decision p ∧ (after E ops).db.job? row.jobId = some job ∧
      Backed (after E ops).db job f ∧
      Published (after E ops).db { jobId := row.jobId, signal } p f.snapshot at_ ∧ row.assess E o now = .ok outcome ∧
      (outcome ≠ none ↔ p.frozenSnapshot ≠ none ∧ Confirmed E p signal f.snapshot now row.invalidatedAt.isSome) ∧
      ∀ x ∈ outcome, x.Faithful E.toPlatform := by
  obtain ⟨hpacket, ⟨signal, hsignal⟩, hdesign⟩ := objectivePublications_row page hrow
  have hmem : ({ jobId := row.jobId, signal } : SignalRow) ∈ (after E ops).db.signals := by
    obtain ⟨found, hfound, rfl⟩ := Option.map_eq_some_iff.mp hsignal
    have howner : found.jobId = row.jobId := by simpa using List.find?_some hfound
    rw [← howner]
    exact mem_of_find?_eq_some hfound
  obtain ⟨pre, p, reads, job, f, disagreement, calculated, origin⟩ := signal_origin ops _ hmem
  obtain ⟨doc, design, designedAt, quality, costs, policy, hdoc, hvalid, designed⟩ := origin.designed hashes
  obtain ⟨outcome, assessed, exactly, faithful⟩ := designed.assess hP o now row.invalidatedAt.isSome
  have hsame : row.packet = .decision p := Option.some.inj (hpacket.symm.trans origin.published.packet)
  have hread : E.validateDesign row.design = .ok design := by
    rw [Option.some.inj (hdesign.symm.trans hdoc)]
    exact hvalid
  refine ⟨p, signal, _, f, _, outcome, hsame, origin.ended, origin.backed, origin.published, ?_, exactly, faithful⟩
  simp only [ObjectiveRow.assess, hsame]
  rw [bind_of_ok designed.valid, bind_of_ok hread]
  exact assessed

end
/-! ### A candidate -/

def separateBars : List EvidenceRecord := dailyBars.map fun e => { e with canonicalSourceId := e.evidenceId }

def separateReport (firm : Firm) : FirmReport := { sampleReport firm with
  claims := [match firm with
    | .tradingagents => { claimId := firm.name, family := .technical, evidenceIds := ["bar-0"] }
    | .aiHedgeFund => { claimId := firm.name, family := .fundamental, evidenceIds := ["bar-1"] }
    | .qlib => { claimId := firm.name, family := .quantitative, evidenceIds := ["bar-2"] }] }

def candidateRequest : SignalRequest := { clearedRequest with
  snapshot := { clearedRequest.snapshot with evidence := separateBars, qlibEnabled := true }
  reports := allFirms.map separateReport
  audit := { clearedRequest.audit with
    findings := (allFirms.map separateReport).flatMap fun report => report.claims.map fun claim => {
      auditor := "auditor", claimId := some claim.claimId, state := .verified, explanation := ""
      evidenceIds := claim.evidenceIds } }
  state := .researchCandidate }

def candidateIndependence : EvidenceIndependenceReport :=
  (evidenceIndependence candidateRequest.snapshot candidateRequest.reports).toOption.getD clearedIndependence

def candidateDesign : SignalDesign :=
  (generateSignal plainPlatform candidateRequest).toOption.getD { policyVersion := "" }

variable (frozen : Option ResearchSnapshot)

def candidatePacket : DecisionPacket := { clearedPacket with
  reports := candidateRequest.reports
  audit := candidateRequest.audit
  independence := candidateIndependence
  finalState := .researchCandidate
  reasons := ["REQUIRED_EVIDENCE_GATES_PASSED"]
  sources := separateBars
  signal := candidateDesign.signal
  qlibEnabled := true
  frozenSnapshot := frozen }

def candidateJob : List (StoreOp Document) :=
  firstPass.take 3 ++ [.saveSnapshot holder "research" atIssue candidateRequest.snapshot clearedRequest.issuedAt,
    toStage .firstPassResearch] ++
  allFirms.map (fun firm => .saveReport holder "research" atIssue firm (separateReport firm)) ++ [
    .lockFirstPass holder "research" atIssue clearedRequest.issuedAt clearedRequest.issuedAt,
    toStage .leanValidation,
    saved .lean (.lean candidateRequest.lean),
    toStage .crewaiAudit,
    .saveCioArtifacts holder "research" atIssue candidateRequest.audit candidateRequest.redTeam none,
    toStage .consensus,
    saved .independence (.independence candidateIndependence),
    saved .signalDesign (.design candidateDesign),
    .completeJob holder "research" atIssue (.decision (candidatePacket frozen)) {
      universe_ := clearedRequest.issuedAt, consensus := clearedRequest.issuedAt, design := clearedRequest.issuedAt
      completed := clearedRequest.issuedAt, updated := clearedRequest.issuedAt }]

def candidateState : System plainEnv :=
  after plainEnv (storeOps (candidateJob frozen))

def plainRepeats : Repeats := ⟨fun _ => "", fun _ => "", fun _ => none, fun _ => none⟩

def candidateRow : ObjectiveRow Document where
  jobId := "research"
  packet := .decision (candidatePacket frozen)
  design := .design candidateDesign
  invalidatedAt := none

/-- A packet without its frozen snapshot is not assessed, although it is a confirmed candidate of the sealed snapshot. -/
theorem unfrozen_candidate_unassessed : ∃ signal,
    objectivePublications (candidateState none).db {} [] clearedRequest.issuedAt 20 0 = .ok [candidateRow none] ∧
    (candidatePacket none).signal = some signal ∧
    (∃ f, (candidateState none).db.frozen? "research" = some f ∧ f.snapshot = candidateRequest.snapshot) ∧
    Confirmed plainEnv (candidatePacket none) signal candidateRequest.snapshot clearedRequest.issuedAt false ∧
    (candidateRow none).assess plainEnv plainRepeats clearedRequest.issuedAt = .ok none := by
  have computed : objectivePublications (candidateState none).db {} [] clearedRequest.issuedAt 20 0 = .ok [candidateRow none] ∧
      ((candidateState none).db.frozen? "research").map (·.snapshot) = some candidateRequest.snapshot ∧
      (candidateRow none).assess plainEnv plainRepeats clearedRequest.issuedAt = .ok none ∧
      (candidatePacket none).signal.isSome = true ∧
      (∀ signal ∈ (candidatePacket none).signal, clearedRequest.issuedAt < signal.validUntil) ∧
      consensus plainPlatform (candidatePacket none).mandate candidateRequest.snapshot (candidatePacket none).reports
        (candidatePacket none).lean (candidatePacket none).audit (candidatePacket none).redTeam
        (candidatePacket none).independence clearedRequest.issuedAt 0 false =
          .ok (.researchCandidate, ["REQUIRED_EVIDENCE_GATES_PASSED"]) := by
    decide +kernel
  obtain ⟨page, stored, assessed, carries, unexpired, consented⟩ := computed
  obtain ⟨signal, hsignal⟩ := Option.isSome_iff_exists.mp carries
  exact ⟨signal, page, hsignal, Option.map_eq_some_iff.mp stored,
    ⟨rfl, rfl, rfl, le_refl _, unexpired signal hsignal, _, consented⟩, assessed⟩

/-- The candidate with its frozen snapshot is assessed. -/
theorem objective_assessment_faithful_candidate : ∃ x : OpportunityAssessment,
    (candidateRow (some candidateRequest.snapshot)).assess plainEnv plainRepeats clearedRequest.issuedAt = .ok (some x) ∧
    x.potentialUpsideGbp = x.riskReward * x.modelledDownsideGbp ∧ 0 < x.potentialUpsideGbp := by
  have computed : objectivePublications (candidateState (some candidateRequest.snapshot)).db {} []
        clearedRequest.issuedAt 20 0 = .ok [candidateRow (some candidateRequest.snapshot)] ∧
      (candidateState (some candidateRequest.snapshot)).db.hashedContents =
        [{ candidateRequest.snapshot with hash := "" }, { candidateRequest.snapshot with hash := "" }] ∧
      (((candidateRow (some candidateRequest.snapshot)).assess plainEnv plainRepeats
        clearedRequest.issuedAt).toOption.bind id).isSome = true := by
    decide +kernel
  obtain ⟨page, contents, assessed⟩ := computed
  have hashes : Set.InjOn plainEnv.snapshotHash
      { c | c ∈ (after plainEnv (storeOps (candidateJob (some candidateRequest.snapshot)))).db.hashedContents } := by
    intro c hc d hd _
    have all : ∀ e ∈ (candidateState (some candidateRequest.snapshot)).db.hashedContents,
        e = { candidateRequest.snapshot with hash := "" } := by
      simp [contents]
    exact (all c hc).trans (all d hd).symm
  obtain ⟨_, _, _, _, _, outcome, -, -, -, -, result, -, faithful⟩ := objective_assessment_faithful
    (Platform.arithmetic_of_exact fun _ => rfl) plainRepeats _ hashes {} [] _ 20 0 _ page _ (mem_singleton_self _)
    clearedRequest.issuedAt
  rw [result] at assessed
  obtain ⟨x, rfl⟩ := Option.isSome_iff_exists.mp assessed
  exact ⟨x, result, (faithful x rfl).upside fun _ => rfl, (faithful x rfl).positive⟩

end Money
