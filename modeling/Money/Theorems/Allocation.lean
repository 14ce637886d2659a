import Money.Generation

/-! The penny search is exact: the modelled downside grows with the allocation, so halving the interval finds the
    largest allocation within the limit. -/

namespace Money
open Checked Decimals

/-- The documented decimal context: it keeps order and leaves numbers of at most 28 digits alone. -/
structure Platform.Arithmetic (P : Platform) : Prop where
  mono : ∀ {x y : Rat}, x ≤ y → P.round x ≤ P.round y
  exact_ : ∀ (n : Int) (k : Nat), k ≤ 100 → n.natAbs < 10 ^ 28 → P.round (n / 10 ^ k) = n / 10 ^ k

variable {P : Platform}

theorem Platform.Arithmetic.zero (h : P.Arithmetic) : P.round 0 = 0 := by
  simpa using h.exact_ 0 0 (by omega) (by decide)

theorem Platform.Arithmetic.nonneg (h : P.Arithmetic) {x : Rat} (hx : 0 ≤ x) : 0 ≤ P.round x := by
  rw [← h.zero]
  exact h.mono hx

theorem Platform.arithmetic_of_exact (exact_ : ∀ x, P.round x = x) : P.Arithmetic where
  mono le := by simpa only [exact_] using le
  exact_ n k _ _ := exact_ _

/-- The documented context rounds to 28 digits, here to no more than the double, far beyond the range of a float. -/
structure Platform.Wide (P : Platform) : Prop where
  near : ∀ x, |P.round x| ≤ 2 * |x|
  holds : ((10 ^ 400 : Nat) : Rat) ≤ P.overflow

theorem Platform.decimal_eq_ok {x y : Rat} : P.decimal x = .ok y ↔ |P.round x| < P.overflow ∧ P.round x = y := by
  simp only [decimal, ok_iff]

/-! ### Bounds of results -/

/-- Not negative, and at most the bound. -/
def UpTo (bound x : Rat) : Prop := 0 ≤ x ∧ x ≤ bound
  deriving Decidable

namespace UpTo
variable {a b c x y : Rat}

theorem add (h : UpTo a x) (k : UpTo b y) : UpTo (a + b) (x + y) := ⟨add_nonneg h.1 k.1, add_le_add h.2 k.2⟩

theorem mul (h : UpTo a x) (k : UpTo b y) : UpTo (a * b) (x * y) :=
  ⟨mul_nonneg h.1 k.1, mul_le_mul h.2 k.2 k.1 (h.1.trans h.2)⟩

theorem div (h : UpTo a x) (positive : 0 < c) (le : c ≤ y) : UpTo (a / c) (x / y) :=
  ⟨div_nonneg h.1 (positive.le.trans le), div_le_div₀ (h.1.trans h.2) h.2 positive le⟩

variable (hP : P.Arithmetic) (wide : P.Wide) (h : UpTo a x)
include hP wide h

theorem round : UpTo (2 * a) (P.round x) := by
  have nonneg := hP.nonneg h.1
  have near := wide.near x
  rw [abs_of_nonneg nonneg, abs_of_nonneg h.1] at near
  exact ⟨nonneg, by linarith [h.2]⟩

theorem decimal (small : 2 * a < (10 ^ 400 : Nat)) : P.decimal x = .ok (P.round x) := by
  obtain ⟨nonneg, most⟩ := h.round hP wide
  rw [Platform.decimal_eq_ok, abs_of_nonneg nonneg]
  exact ⟨(most.trans_lt small).trans_le wide.holds, rfl⟩

end UpTo

namespace SignalRequest

variable {try_ : Int → Except Err Allocation} {limit : Rat} {fuel : Nat} {left right : Int} {best : Option Allocation}

theorem search_pass {a : Allocation} (nonempty : ¬ right < left) (tried : try_ ((left + right) / 2) = .ok a) :
    search try_ limit (fuel + 1) left right best =
      if a.downside ≤ limit then search try_ limit fuel ((left + right) / 2 + 1) right (some a)
      else search try_ limit fuel left ((left + right) / 2 - 1) best := by
  rw [search, if_neg nonempty]
  simp only [tried]
  rfl

/-- The search keeps what it came with if all of the interval exceeds the limit, and otherwise finds the last allocation
    within it. -/
theorem search_spec (mono : ∀ m n a b, m ≤ n → try_ m = .ok a → try_ n = .ok b → a.downside ≤ b.downside) (fuel : Nat) :
    ∀ (left right : Int) (best : Option Allocation), right - left < fuel →
      (∀ m, left ≤ m → m ≤ right → ∃ a, try_ m = .ok a) → (search try_ limit fuel left right best = .ok best ∧
        ∀ m a, left ≤ m → m ≤ right → try_ m = .ok a → limit < a.downside) ∨
      ∃ k a, left ≤ k ∧ k ≤ right ∧ try_ k = .ok a ∧ a.downside ≤ limit ∧
        search try_ limit fuel left right best = .ok (some a) ∧
        ∀ m b, k < m → m ≤ right → try_ m = .ok b → limit < b.downside := by
  induction fuel with
  | zero =>
    intro left right best long _
    refine .inl ⟨rfl, fun m a low high => ?_⟩
    omega
  | succ fuel ih =>
    intro left right best long tries
    by_cases empty : right < left
    · refine .inl ⟨by rw [search, if_pos empty]; rfl, fun m a low high => ?_⟩
      omega
    · obtain ⟨a, tried⟩ := tries ((left + right) / 2) (by omega) (by omega)
      rw [search_pass empty tried]
      by_cases within : a.downside ≤ limit
      · -- the lower half keeps within the limit with the middle
        simp only [if_pos within]
        rcases ih ((left + right) / 2 + 1) right (some a) (by omega) (fun m low high => tries m (by omega) high) with
          ⟨found, above⟩ | ⟨k, b, low, high, tried', within', found, above⟩
        · exact .inr ⟨(left + right) / 2, a, by omega, by omega, tried, within, found, fun m b low => above m b low⟩
        · exact .inr ⟨k, b, by omega, high, tried', within', found, above⟩
      · -- the upper half exceeds the limit with the middle
        simp only [if_neg within]
        have beyond : ∀ m b, (left + right) / 2 ≤ m → try_ m = .ok b → limit < b.downside := fun m b low tried' =>
          lt_of_lt_of_le (not_le.mp within) (mono _ m a b low tried tried')
        rcases ih left ((left + right) / 2 - 1) best (by omega) (fun m low high => tries m low (by omega)) with
          ⟨found, above⟩ | ⟨k, b, low, high, tried', within', found, above⟩
        · refine .inl ⟨found, fun m b low high tried' => ?_⟩
          by_cases upper : (left + right) / 2 ≤ m
          · exact beyond m b upper tried'
          · exact above m b low (by omega) tried'
        · refine .inr ⟨k, b, low, by omega, tried', within', found, fun m c after high tried'' => ?_⟩
          by_cases upper : (left + right) / 2 ≤ m
          · exact beyond m c upper tried''
          · exact above m c after (by omega) tried''

theorem search_of_le {more : Nat} (long : right - left < fuel) (le : fuel ≤ more) :
    search try_ limit more left right best = search try_ limit fuel left right best := by
  induction more, le using Nat.le_induction with
  | base => rfl
  | succ more le ih => rw [search_enough _ _ _ _ _ _ (by omega), ih]

/-! ### The downside grows with the allocation -/

section
variable {P : Platform} {m n : Rat} {a : Allocation}

theorem stampDuty_mono (hP : P.Arithmetic) {a b : Rat} {costs : CostApplicability} (nonneg : 0 ≤ m)
    (le : m ≤ n) (hm : stampDuty P m costs = .ok a) (hn : stampDuty P n costs = .ok b) : a ≤ b := by
  simp only [stampDuty] at hm hn
  have rate : (0 : Rat) ≤ sdrtRule.rate := by norm_num [sdrtRule]
  split at hm
  next applies =>
    rw [if_pos applies] at hn
    exact quantize_halfUp_mono (hP.nonneg (mul_nonneg nonneg rate)) (hP.mono (mul_le_mul_of_nonneg_right le rate))
      (demand_eq_ok.mp hm) (demand_eq_ok.mp hn)
  next exempt =>
    rw [if_neg exempt] at hn
    rw [← pure_eq_ok.mp hm, ← pure_eq_ok.mp hn]

variable (P) in
def levyOf (notional : Rat) : Rat := if ptmRule.thresholdGbp < notional then P.round (2 * ptmRule.fixedGbp) else 0

variable (P) in
def marketOf (notional spread slippage : Rat) : Rat :=
  P.round (P.round (notional * P.round (spread + P.round (2 * slippage))) / 10000)

theorem levyOf_nonneg (hP : P.Arithmetic) (n : Rat) : 0 ≤ levyOf P n := by
  unfold levyOf
  split
  · exact hP.nonneg (by norm_num [ptmRule])
  · exact le_refl _

theorem levyOf_mono (hP : P.Arithmetic) (le : m ≤ n) : levyOf P m ≤ levyOf P n := by
  by_cases large : ptmRule.thresholdGbp < m
  · rw [levyOf, levyOf, if_pos large, if_pos (lt_of_lt_of_le large le)]
  · rw [levyOf, if_neg large]
    exact levyOf_nonneg hP n

section
variable {spread slippage : Rat}

section
variable (hP : P.Arithmetic) (spread' : 0 ≤ spread) (slippage' : 0 ≤ slippage)
include hP spread' slippage'

theorem marketRate_nonneg :
    0 ≤ P.round (spread + P.round (2 * slippage)) :=
  hP.nonneg (add_nonneg spread' (hP.nonneg (mul_nonneg (by norm_num) slippage')))

variable {m n : Rat} {date : Int} {costs : CostApplicability}

theorem marketOf_nonneg (hn : 0 ≤ n) :
    0 ≤ marketOf P n spread slippage :=
  hP.nonneg (div_nonneg (hP.nonneg (mul_nonneg hn (marketRate_nonneg hP spread' slippage'))) (by norm_num))

theorem marketOf_mono (le : m ≤ n) :
    marketOf P m spread slippage ≤ marketOf P n spread slippage :=
  hP.mono (div_le_div_of_nonneg_right
    (hP.mono (mul_le_mul_of_nonneg_right le (marketRate_nonneg hP spread' slippage'))) (by norm_num))

end

theorem estimateCosts_eq_ok {notional : Rat} {estimate : ResearchCostEstimate}
    (h : estimateCosts P notional date costs spread slippage = .ok estimate) :
    0 < notional ∧ 0 ≤ spread ∧ 0 ≤ slippage ∧ ∃ fee other tax, costs.brokerRoundTripFeeGbp = some fee ∧
      costs.otherRoundTripChargesGbp = some other ∧ stampDuty P notional costs = .ok tax ∧
      estimate.totalRoundTripGbp = P.round (P.round (P.round (P.round (tax + levyOf P notional) +
        marketOf P notional spread slippage) + fee) + other) := by
  simp only [estimateCosts, ok_iff, le_min_iff, Platform.decimal_eq_ok] at h
  obtain ⟨⟨⟨positive, -⟩, spread', slippage'⟩, -, -, -, fee, hfee, other, hother, tax, htax, _, ⟨-, rfl⟩, _, -, rfl⟩ := h
  exact ⟨positive, spread', slippage', fee, other, tax, hfee, hother, htax, rfl⟩

/-- Costs within the range of a float stay within the one of the decimal context. -/
theorem roundTrip_isOk (hP : P.Arithmetic) (wide : P.Wide) {notional tax fee other : Rat} (least : 1 / 100 ≤ notional)
    (most : notional ≤ 200) (tax' : UpTo floatLimit tax) (spread' : UpTo floatLimit spread)
    (slippage' : UpTo floatLimit slippage) (fee' : UpTo floatLimit fee) (other' : UpTo floatLimit other) :
    ∃ total, P.decimal (P.round (P.round (P.round (tax + levyOf P notional) + marketOf P notional spread slippage) + fee) +
      other) = .ok total ∧ ∃ points, P.decimal (P.round (total / notional) * 10000) = .ok points := by
  have levy : UpTo 0 (levyOf P notional) := by
    rw [levyOf, if_neg (by norm_num [ptmRule]; linarith)]
    exact ⟨le_refl _, le_refl _⟩
  have two : UpTo 2 2 := by norm_num [UpTo]
  have rate := (spread'.add ((two.mul slippage').round hP wide)).round hP wide
  have paid := (UpTo.mul ⟨by linarith, most⟩ rate).round hP wide
  have market := (paid.div (y := 10000) (by norm_num) (le_refl _)).round hP wide
  have traded := (((tax'.add levy).round hP wide).add market).round hP wide
  have total := ((traded.add fee').round hP wide).add other'
  have ratio := ((total.round hP wide).div (by norm_num) least).round hP wide
  have points := ratio.mul (b := 10000) (y := 10000) (by norm_num [UpTo])
  exact ⟨_, total.decimal hP wide (by decide +kernel), _, points.decimal hP wide (by decide +kernel)⟩

theorem estimateCosts_mono (hP : P.Arithmetic)
    {a b : ResearchCostEstimate} (le : m ≤ n) (hm : estimateCosts P m date costs spread slippage = .ok a)
    (hn : estimateCosts P n date costs spread slippage = .ok b) : a.totalRoundTripGbp ≤ b.totalRoundTripGbp := by
  obtain ⟨positive, spread', slippage', fee, other, tax, hfee, hother, htax, total⟩ := estimateCosts_eq_ok hm
  obtain ⟨-, -, -, fee', other', tax', hfee', hother', htax', total'⟩ := estimateCosts_eq_ok hn
  obtain rfl : fee = fee' := Option.some.inj (hfee.symm.trans hfee')
  obtain rfl : other = other' := Option.some.inj (hother.symm.trans hother')
  have duty := hP.mono (add_le_add (stampDuty_mono hP positive.le le htax htax') (levyOf_mono hP le))
  have market := hP.mono (add_le_add duty (marketOf_mono hP spread' slippage' le))
  have charged := hP.mono (add_le_add_left (hP.mono (add_le_add_left market fee)) other)
  rw [total, total']
  exact charged

end

variable (P) (q : SignalRequest) (l : Levels) (spread slippage : Rat)

def pennyCosts (pennies : Int) : Except Err ResearchCostEstimate :=
  estimateCosts P (pennies / 100) (dateOf q.issuedAt) q.costApplicability spread slippage

/-- The downside of whole pennies of capital: the fall from the top of the entry range to the invalidation, and costs. -/
def pennyDownside (pennies : Int) (costs : ResearchCostEstimate) : Rat :=
  (pennies / 100 : Rat) * (l.high - l.invalidation) / l.high + costs.totalRoundTripGbp

variable {P q l spread slippage}

theorem allocate_eq_ok (exact_ : ∀ x, P.round x = x) {pennies : Int} :
    allocate P q l spread slippage pennies = .ok a ↔ ∃ costs, pennyCosts P q spread slippage pennies = .ok costs ∧
      a = { allocation := pennies / 100, downside := pennyDownside l pennies costs, costs } := by
  simp only [allocate, exact_, ok_iff, pennyCosts, pennyDownside]
  exact exists_congr fun costs => and_congr_right fun _ => eq_comm

theorem allocate_mono (hP : P.Arithmetic) (positive : 0 < l.invalidation) (ordered : l.invalidation < l.high)
    {m n : Int} {b : Allocation} (le : m ≤ n) (hm : allocate P q l spread slippage m = .ok a)
    (hn : allocate P q l spread slippage n = .ok b) : a.downside ≤ b.downside := by
  simp only [allocate, ok_iff] at hm hn
  obtain ⟨costs, priced, rfl⟩ := hm
  obtain ⟨costs', priced', rfl⟩ := hn
  have pennies : P.round (m / 100) ≤ P.round (n / 100) := by
    refine hP.mono ?_
    have : (m : Rat) ≤ n := by exact_mod_cast le
    linarith
  have width : 0 ≤ P.round (l.high - l.invalidation) := hP.nonneg (by linarith)
  have fall := hP.mono (div_le_div_of_nonneg_right (hP.mono (mul_le_mul_of_nonneg_right pennies width))
    (positive.trans ordered).le)
  exact hP.mono (add_le_add fall (estimateCosts_mono hP pennies priced priced'))

end
end SignalRequest

open SignalRequest in
/-- The search ends, whatever the fuel beyond, with the largest allocation within the limit, and with none exactly if no
    allocation is. -/
theorem allocation_search_exact (P : Platform) (exact_ : ∀ x, P.round x = x) (q : SignalRequest) (l : Levels)
    (spread slippage maximum limit : Rat) (positive : 0 < l.invalidation) (ordered : l.invalidation < l.high)
    (priced : ∀ pennies : Int, 1 ≤ pennies → pennies ≤ (maximum * 100).floor →
      ∃ costs, pennyCosts P q spread slippage pennies = .ok costs) : ∃ found, (∀ fuel, (maximum * 100).floor.toNat ≤ fuel →
        search (allocate P q l spread slippage) limit fuel 1 (maximum * 100).floor none = .ok found) ∧
      (maximum = min q.mandate.maximumCapitalGbp q.policy.maximumAllocationGbp →
        limit = min q.policy.maximumDownsideGbp (q.mandate.maximumCapitalGbp * q.policy.maximumDownsideFraction) →
        bestAllocation P q l spread slippage = .ok found) ∧
      (found = none ↔ ∀ pennies costs, 1 ≤ pennies → pennies ≤ (maximum * 100).floor →
        pennyCosts P q spread slippage pennies = .ok costs → limit < pennyDownside l pennies costs) ∧
      ∀ a ∈ found, ∃ pennies : Int, 1 ≤ pennies ∧ pennies ≤ (maximum * 100).floor ∧ a.allocation = pennies / 100 ∧
        pennyCosts P q spread slippage pennies = .ok a.costs ∧ a.downside = pennyDownside l pennies a.costs ∧
        a.downside ≤ limit ∧ ∀ m costs, pennies < m → m ≤ (maximum * 100).floor →
          pennyCosts P q spread slippage m = .ok costs → limit < pennyDownside l m costs := by
  have tries : ∀ m, 1 ≤ m → m ≤ (maximum * 100).floor → ∃ a, allocate P q l spread slippage m = .ok a := by
    intro m low high
    obtain ⟨costs, known⟩ := priced m low high
    exact ⟨_, (allocate_eq_ok exact_).mpr ⟨costs, known, rfl⟩⟩
  have mono : ∀ m n a b, m ≤ n → allocate P q l spread slippage m = .ok a → allocate P q l spread slippage n = .ok b →
      a.downside ≤ b.downside := fun _ _ _ _ le hm hn =>
    allocate_mono (Platform.arithmetic_of_exact exact_) positive ordered le hm hn
  have long : (maximum * 100).floor - 1 < (maximum * 100).floor.toNat := by omega
  have beyond : ∀ k, (∀ m a, k < m → m ≤ (maximum * 100).floor → allocate P q l spread slippage m = .ok a →
      limit < a.downside) → ∀ m costs, k < m → m ≤ (maximum * 100).floor →
      pennyCosts P q spread slippage m = .ok costs → limit < pennyDownside l m costs :=
    fun k above m costs low high known => above m _ low high ((allocate_eq_ok exact_).mpr ⟨costs, known, rfl⟩)
  have best : ∀ found, search (allocate P q l spread slippage) limit (maximum * 100).floor.toNat 1 (maximum * 100).floor
      none = .ok found → maximum = min q.mandate.maximumCapitalGbp q.policy.maximumAllocationGbp →
      limit = min q.policy.maximumDownsideGbp (q.mandate.maximumCapitalGbp * q.policy.maximumDownsideFraction) →
      bestAllocation P q l spread slippage = .ok found := by
    rintro found searched rfl rfl
    simp only [bestAllocation, pennies, downsideLimit, exact_]
    exact searched
  rcases search_spec mono (maximum * 100).floor.toNat 1 (maximum * 100).floor none long tries with
    ⟨searched, above⟩ | ⟨k, a, low, high, tried, within, searched, above⟩
  · refine ⟨none, fun fuel le => (search_of_le long le).trans searched, best none searched, ?_,
      fun a none_ => absurd none_ (by simp)⟩
    simp only [true_iff]
    exact fun m costs low high known =>
      beyond 0 (fun m a low => above m a (by omega)) m costs (by omega) high known
  · obtain ⟨costs, known, rfl⟩ := (allocate_eq_ok exact_).mp tried
    refine ⟨some _, fun fuel le => (search_of_le long le).trans searched, best _ searched, ?_, ?_⟩
    · simp only [reduceCtorEq, false_iff]
      intro all
      exact absurd within (not_le.mpr (all k costs low high known))
    · intro b same
      obtain rfl := Option.mem_some_iff.mp same
      exact ⟨k, low, high, rfl, known, rfl, within, beyond k above⟩

theorem plainPlatform_wide : plainPlatform.Wide where
  near x := by
    change |x| ≤ 2 * |x|
    linarith [abs_nonneg x]
  holds := by decide +kernel

def tenPounds : SignalRequest.Levels where
  latest := { opening := 1000, high := 1010, low := 990, close := 1000, volume := 100000, currency := .gbx }
  price := 10
  atr := 1 / 10
  low := 9975 / 1000
  high := 10025 / 1000
  invalidation := 98 / 10
  target := 106 / 10

open SignalRequest in
/-- The allowance of the cleared request is found. -/
theorem allocation_search_exact_cleared : ∃ found, bestAllocation plainPlatform clearedRequest tenPounds 10 5 = .ok found ∧
      ∀ a ∈ found, ∃ pennies : Int, a.allocation = pennies / 100 ∧ a.downside ≤ 4 ∧
        ∀ m costs, pennies < m → m ≤ 20000 → pennyCosts plainPlatform clearedRequest 10 5 m = .ok costs →
          4 < pennyDownside tenPounds m costs := by
  have floor : ((200 : Rat) * 100).floor = 20000 := by decide +kernel
  have priced : ∀ pennies : Int, 1 ≤ pennies → pennies ≤ ((200 : Rat) * 100).floor →
      ∃ costs, pennyCosts plainPlatform clearedRequest 10 5 pennies = .ok costs := by
    intro pennies low high
    rw [floor] at high
    have low' : (1 : Rat) ≤ pennies := by exact_mod_cast low
    have high' : (pennies : Rat) ≤ 20000 := by exact_mod_cast high
    have free : UpTo floatLimit 0 := ⟨le_refl 0, Nat.cast_nonneg floatLimit⟩
    have least : 1 / 100 ≤ (pennies / 100 : Rat) := by linarith
    obtain ⟨total, hTotal, points, hPoints⟩ := roundTrip_isOk (Platform.arithmetic_of_exact fun _ => rfl) plainPlatform_wide
      least (by linarith) free (show UpTo floatLimit 10 by decide +kernel) (show UpTo floatLimit 5 by decide +kernel) free free
    simp only [pennyCosts, estimateCosts, ok_iff]
    exact ⟨_, ⟨⟨by linarith, by linarith⟩, by decide +kernel⟩, by decide +kernel, by decide +kernel, by decide +kernel,
      0, rfl, 0, rfl, 0, rfl, total, hTotal, points, hPoints, rfl⟩
  obtain ⟨found, -, policy, -, largest⟩ := allocation_search_exact plainPlatform (fun _ => rfl) clearedRequest tenPounds 10 5
    200 4 (by decide +kernel) (by decide +kernel) priced
  refine ⟨found, policy (by decide +kernel) (by decide +kernel), fun a ha => ?_⟩
  obtain ⟨pennies, -, -, allocation, -, -, within, above⟩ := largest a ha
  rw [floor] at above
  exact ⟨pennies, allocation, within, above⟩

end Money
