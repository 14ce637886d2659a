import Money.Theorems.Allocation
import Money.Theorems.SignalValidity

/-! What a scenario went through: the gates in front of the levels, the levels around the latest close in pounds and in
    the quote currency, and allocations of whole pennies. -/

namespace Money
open Checked Decimals List

theorem require_of {ε : Type} {c : Prop} [Decidable c] {e : ε} (h : c) : require c e = .ok () := if_pos h

theorem mem_byObservation {records : List (EvidenceRecord × PriceBar)} {r : EvidenceRecord × PriceBar} :
    r ∈ byObservation records ↔ r ∈ records := (perm_insertionSort _ _).mem_iff

namespace SignalRequest

def pounds (P : Platform) (value : Rat) : Currency → Rat
  | .gbp => value
  | .gbx => P.round (value / 100)

variable {P : Platform} {q : SignalRequest} {t : TechnicalFeatures} {spread slippage : Rat} {bar : PriceBar} {l : Levels}

theorem priceGbp_eq {value : Rat} (positive : 0 < value) (currency : Currency) :
    priceGbp P value currency = .ok (pounds P value currency) := by
  cases currency <;> rw [priceGbp, bind_of_ok (require_of positive)] <;> rfl

/-! ### Gates -/

/-- The gates in front of the levels are passed, with these features and rates. -/
structure Qualified (P : Platform) (q : SignalRequest) (t : TechnicalFeatures) (spread slippage : Rat) : Prop where
  validated : q.lean.scenarioPolicyHash = some (P.policyHash q.policy) ∧
    q.mandate.minimumHorizonDays ≤ q.policy.horizonDays ∧ q.policy.horizonDays ≤ q.mandate.maximumHorizonDays
  market : q.qualifyMarket P = .ok ()
  spreads : q.lean.spreadBps = some spread
  slips : q.lean.slippageBps = some slippage
  agreed : some spread = q.marketQuality.spreadBps
  technical : q.technical P = .ok t
  available : t.available = true

theorem gates_eq_ok : q.gates P = .ok (t, spread, slippage) ↔ q.Qualified P t spread slippage := by
  simp only [gates, ok_iff, Prod.mk.injEq]
  constructor
  · rintro ⟨validated, _, market, _, spreads, _, slips, agreed, _, technical, available, rfl, rfl, rfl⟩
    exact ⟨validated, market, spreads, slips, agreed, technical, available⟩
  · rintro ⟨validated, market, spreads, slips, agreed, technical, available⟩
    exact ⟨validated, (), market, _, spreads, _, slips, agreed, _, technical, available, rfl, rfl, rfl⟩

/-! ### Levels -/

def latestBar (q : SignalRequest) : Option PriceBar := (byObservation (priceRecords q.snapshot)).getLast?.map (·.2)

theorem latestBar_close (prices : ∀ r ∈ priceRecords q.snapshot, positiveMoney r.2.close)
    (last : q.latestBar = some bar) : positiveMoney bar.close := by
  simp only [latestBar, Option.map_eq_some_iff] at last
  obtain ⟨r, hr, rfl⟩ := last
  exact prices r (mem_byObservation.mp (mem_of_getLast? hr))

/-- The range and the four levels around a price, with at most 28 digits at six places. -/
structure Quantized (P : Platform) (q : SignalRequest) (t : TechnicalFeatures) (price atr low high invalidation target : Rat) :
    Prop where
  range : quantize 6 .halfEven t.atr14Gbp = some atr
  low : quantize 6 .floor (P.round (price - P.round (q.policy.entryHalfWidthAtr * atr))) = some low
  high : quantize 6 .ceiling (P.round (price + P.round (q.policy.entryHalfWidthAtr * atr))) = some high
  invalidation : quantize 6 .floor (P.round (price - P.round (q.policy.invalidationAtr * atr))) = some invalidation
  target : quantize 6 .floor (P.round (price + P.round (q.policy.targetAtr * atr))) = some target

/-- Levels in order around the close of a bar. -/
structure Around (P : Platform) (q : SignalRequest) (t : TechnicalFeatures) (bar : PriceBar) (l : Levels) : Prop where
  latest : l.latest = bar
  price : l.price = pounds P bar.close bar.currency
  quantized : q.Quantized P t (pounds P bar.close bar.currency) l.atr l.low l.high l.invalidation l.target
  ranges : 0 < l.atr
  positive : 0 < l.invalidation
  below : l.invalidation < l.low
  within : l.low ≤ l.high
  above : l.high < l.target

theorem levels_eq_ok (positive : 0 < bar.close)
    (last : q.latestBar = some bar) : levels P q t = .ok l ↔ q.Around P t bar l := by
  have priced := priceGbp_eq (P := P) positive bar.currency
  simp only [latestBar, Option.map_eq_some_iff] at last
  obtain ⟨r, found, rfl⟩ := last
  simp only [levels, ok_iff, raising_eq_ok, found, priced, Option.some.injEq, Except.ok.injEq, exists_eq_left']
  constructor
  · rintro ⟨atr, range, low, hlow, high, hhigh, invalidation, hinvalidation, target, htarget,
      ⟨ranges, positive, below, within, above⟩, rfl⟩
    exact ⟨rfl, rfl, ⟨range, hlow, hhigh, hinvalidation, htarget⟩, ranges, positive, below, within, above⟩
  · rintro ⟨latest, price, ⟨range, hlow, hhigh, hinvalidation, htarget⟩, ranges, positive, below, within, above⟩
    refine ⟨l.atr, range, l.low, hlow, l.high, hhigh, l.invalidation, hinvalidation, l.target, htarget,
      ⟨ranges, positive, below, within, above⟩, ?_⟩
    rw [← price, ← latest]

def divisor (currency : Currency) : Rat := if currency = .gbx then 100 else 1

theorem divisor_pos (currency : Currency) : 0 < divisor currency := by cases currency <;> decide +kernel

theorem quoted (hP : P.Arithmetic) {mode : Rounding} {x y : Rat} (level : quantize 6 mode y = some x) (currency : Currency) :
    P.round (x * divisor currency) = x * divisor currency ∧ (x * divisor currency * 1000000).den = 1 := by
  obtain ⟨small, rfl⟩ := quantize_eq_some.mp level
  generalize mode.apply (y * 10 ^ 6) = n at small ⊢
  cases currency with
  | gbp =>
    have : (n : Rat) / 10 ^ 6 * divisor .gbp = n / 10 ^ 6 := by simp [divisor]
    rw [this, hP.exact_ n 6 (by decide) small]
    refine ⟨rfl, ?_⟩
    have : (n : Rat) / 10 ^ 6 * 1000000 = n := by norm_num
    rw [this]
    exact Rat.den_intCast n
  | gbx =>
    have : (n : Rat) / 10 ^ 6 * divisor .gbx = n / 10 ^ 4 := by
      simp only [divisor, if_true]
      linarith
    rw [this, hP.exact_ n 4 (by decide) small]
    refine ⟨rfl, ?_⟩
    have : (n : Rat) / 10 ^ 4 * 1000000 = ((n * 100 : Int) : Rat) := by
      push_cast
      linarith
    rw [this]
    exact Rat.den_intCast _

/-! ### Allocations -/

section
variable (hP : P.Arithmetic)
include hP

theorem pennies_le (bounded : q.policy.bounded) : q.pennies P ≤ 20000 := by
  have most : min q.mandate.maximumCapitalGbp q.policy.maximumAllocationGbp * 100 ≤ (20000 : Int) / 10 ^ 0 := by
    have := (min_le_right q.mandate.maximumCapitalGbp q.policy.maximumAllocationGbp).trans bounded.1.2
    norm_num
    linarith
  have rounded := hP.mono most
  rw [hP.exact_ 20000 0 (by decide) (by decide)] at rounded
  have below := (Rat.floor_le (P.round (min q.mandate.maximumCapitalGbp q.policy.maximumAllocationGbp * 100))).trans rounded
  simp only [pow_zero, div_one, Int.cast_le] at below
  exact below

theorem allocation_pennies {n : Int} (low : 1 ≤ n) (high : n ≤ 20000) :
    P.round (n / 100) = n / 100 ∧ 0 < (n / 100 : Rat) ∧ (n / 100 : Rat) ≤ 200 := by
  have low' : (1 : Rat) ≤ n := by exact_mod_cast low
  have high' : (n : Rat) ≤ 20000 := by exact_mod_cast high
  refine ⟨?_, by linarith, by linarith⟩
  have := hP.exact_ n 2 (by decide) (by omega)
  norm_num at this
  exact this

variable {notional : Rat}

theorem stampDuty_isOk (positive : 0 < notional) (most : notional ≤ 200)
    (costs : CostApplicability) : ∃ tax, stampDuty P notional costs = .ok tax ∧ 0 ≤ tax ∧ tax ≤ 2 := by
  unfold stampDuty
  split
  · have rate : sdrtRule.rate = 1 / 200 := rfl
    have nonneg : 0 ≤ P.round (notional * sdrtRule.rate) := hP.nonneg (by rw [rate]; linarith)
    have one : P.round (notional * sdrtRule.rate) ≤ 1 := by
      have small := hP.mono (show notional * sdrtRule.rate ≤ (1 : Int) / 10 ^ 0 by rw [rate]; norm_num; linarith)
      rw [hP.exact_ 1 0 (by decide) (by decide)] at small
      simpa using small
    obtain ⟨tax, quantized, least, near⟩ := quantize_halfUp_isSome 2 nonneg (by linarith)
    exact ⟨tax, demand_eq_ok.mpr quantized, least, by linarith⟩
  · exact ⟨0, rfl, le_refl _, by decide +kernel⟩

theorem estimateCosts_nonneg {date : Int} {costs : CostApplicability}
    {estimate : ResearchCostEstimate} (most : notional ≤ 200)
    (fees : ∀ fee ∈ costs.brokerRoundTripFeeGbp, 0 ≤ fee) (charges : ∀ charge ∈ costs.otherRoundTripChargesGbp, 0 ≤ charge)
    (priced : estimateCosts P notional date costs spread slippage = .ok estimate) : 0 ≤ estimate.totalRoundTripGbp := by
  obtain ⟨notional', spread', slippage', fee, other, tax, hfee, hother, htax, total⟩ := estimateCosts_eq_ok priced
  have duty : 0 ≤ tax := by
    obtain ⟨tax', htax', nonneg, -⟩ := stampDuty_isOk hP notional' most costs
    rwa [Except.ok.inj (htax.symm.trans htax')]
  have market := marketOf_nonneg hP spread' slippage' notional'.le
  rw [total]
  exact hP.nonneg (add_nonneg (hP.nonneg (add_nonneg (hP.nonneg (add_nonneg (hP.nonneg
    (add_nonneg duty (levyOf_nonneg hP _))) market)) (fees fee hfee))) (charges other hother))

end

end SignalRequest
end Money
