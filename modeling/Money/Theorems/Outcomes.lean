import Money.Outcomes
import Money.Theorems.Levels

/-! Which published signals have an outcome. The levels of a signal fit the contract of an outcome in pounds; a close in
    pence loses two places when it becomes the reference price. -/

namespace Money
open Checked Decimals List

variable {t : TechnicalFeatures}

namespace SignalRequest
variable {P : Platform} {q : SignalRequest} {design : SignalDesign} {signal : ResearchSignal}

/-- The levels and the allocation that a signal was made of. -/
structure Drafted (P : Platform) (q : SignalRequest) (t : TechnicalFeatures) (l : Levels) (a : Allocation) : Prop where
  levels : q.levels P t = .ok l
  spread : q.marketQuality.spreadBps ≠ none
  allocated : ∃ spread slippage, bestAllocation P q l spread slippage = .ok (some a)
  rewarding : q.policy.minimumRiskReward ≤ riskReward P l a
  limits : (signalOf P q l a).limits = .ok ()

theorem generated_signal (generated : generateSignal P q = .ok design) (published : design.signal = some signal) :
    ∃ t l a, q.Drafted P t l a ∧ design = designOf P q l a ∧ signal = signalOf P q l a := by
  have outcome := (scenario_of_signal generated published).2
  rw [scenario] at outcome
  simp only [conclude, issue, ok_iff, raising_eq_ok, codedErrors_eq_ok] at outcome
  obtain ⟨-, -, -, -, -, -, ⟨t, spread, slippage⟩, passed, l, found, _, searched, a, rfl, rewarding, -, _, limits, rfl⟩ :=
    outcome
  have quoted : q.marketQuality.spreadBps ≠ none := by simp [← (gates_eq_ok.mp passed).agreed]
  exact ⟨t, l, a, ⟨found, quoted, ⟨spread, slippage, searched⟩, rewarding, limits⟩, rfl, (Option.some.inj published).symm⟩

variable {l : Levels} {x y : Rat} {bar : PriceBar} {mode : Rounding}

theorem latestBar_of_levels (found : levels P q t = .ok l) : ∃ bar, q.latestBar = some bar := by
  simp only [levels, ok_iff] at found
  obtain ⟨-, -, last, some_, -⟩ := found
  exact ⟨last.2, by rw [latestBar, some_]; rfl⟩

/-! ### Prices in pounds -/

theorem positiveMoney_millionths (h : positiveMoney x) : ∃ n : Int, x = n / 10 ^ 6 ∧ n.natAbs < 10 ^ 28 := by
  obtain ⟨positive, places, most⟩ := h
  have whole : ((x * 1000000).num : Rat) = x * 1000000 := Rat.coe_int_num_of_den_eq_one places
  refine ⟨(x * 1000000).num, by rw [whole]; norm_num, ?_⟩
  have least : 0 ≤ (x * 1000000).num := Rat.num_nonneg.mpr (by linarith)
  have bound : ((x * 1000000).num : Rat) < 10 ^ 28 := by
    rw [whole]
    linarith
  have bound' : (x * 1000000).num < 10 ^ 28 := by exact_mod_cast bound
  omega

theorem pounds_exact (hP : P.Arithmetic) (h : positiveMoney x) (currency : Currency) :
    pounds P x currency = x / divisor currency ∧ P.round (x / divisor currency) = x / divisor currency := by
  obtain ⟨n, rfl, small⟩ := positiveMoney_millionths h
  cases currency with
  | gbp =>
    have : (n : Rat) / 10 ^ 6 / divisor .gbp = n / 10 ^ 6 := by simp [divisor]
    rw [this]
    exact ⟨rfl, hP.exact_ n 6 (by decide) small⟩
  | gbx =>
    have : (n : Rat) / 10 ^ 6 / divisor .gbx = n / 10 ^ 8 := by
      simp only [divisor, if_true]
      linarith
    rw [this]
    have same := hP.exact_ n 8 (by decide) small
    refine ⟨?_, same⟩
    simp only [pounds]
    rw [← same]
    congr 1

theorem positiveMoney_pounds (h : positiveMoney x) (currency : Currency) :
    positiveMoney (x / divisor currency) ↔ (currency = .gbx → (x * 10000).den = 1) := by
  obtain ⟨positive, places, most⟩ := h
  cases currency with
  | gbp =>
    have : x / divisor .gbp = x := by simp [divisor]
    rw [this]
    exact iff_of_true ⟨positive, places, most⟩ (by simp)
  | gbx =>
    have : x / divisor .gbx * 1000000 = x * 10000 := by
      simp only [divisor, if_true]
      linarith
    simp only [positiveMoney, this, true_implies]
    have small : x / divisor .gbx < 1000000000000 := by
      simp only [divisor, if_true]
      linarith
    exact ⟨fun k => k.2.1, fun k => ⟨div_pos positive (divisor_pos _), k, small⟩⟩

theorem Around.price_between (hP : P.Arithmetic) (bounded : q.policy.bounded)
    (around : q.Around P t bar l) (exact_ : P.round l.price = l.price) : l.low ≤ l.price ∧ l.price ≤ l.high := by
  obtain ⟨-, -, -, ⟨width, -⟩, -⟩ := bounded
  have step : 0 ≤ P.round (q.policy.entryHalfWidthAtr * l.atr) := hP.nonneg (mul_nonneg width.le around.ranges.le)
  have low := around.quantized.low
  have high := around.quantized.high
  rw [← around.price] at low high
  constructor
  · calc l.low ≤ P.round (l.price - P.round (q.policy.entryHalfWidthAtr * l.atr)) := quantize_floor_le low
      _ ≤ P.round l.price := hP.mono (by linarith)
      _ = l.price := exact_
  · calc l.price = P.round l.price := exact_.symm
      _ ≤ P.round (l.price + P.round (q.policy.entryHalfWidthAtr * l.atr)) := hP.mono (by linarith)
      _ ≤ l.high := le_quantize_ceiling high

theorem priceGbp_quoted (hP : P.Arithmetic) (level : quantize 6 mode y = some x)
    (positive : 0 < x) (currency : Currency) : priceGbp P (x * divisor currency) currency = .ok x := by
  rw [priceGbp_eq (mul_pos positive (divisor_pos currency))]
  obtain ⟨small, rfl⟩ := quantize_eq_some.mp level
  cases currency with
  | gbp => simp [pounds, divisor]
  | gbx =>
    simp only [pounds, divisor, if_true, mul_div_cancel_right₀ _ (show (100 : Rat) ≠ 0 by decide +kernel)]
    rw [hP.exact_ _ 6 (by decide) small]

theorem positiveMoney_level (level : quantize 6 mode y = some x) (positive : 0 < x)
    (most : x < 1000000000000) : positiveMoney x := by
  refine ⟨positive, ?_, most⟩
  obtain ⟨-, rfl⟩ := quantize_eq_some.mp level
  have : (mode.apply (y * 10 ^ 6) : Rat) / 10 ^ 6 * 1000000 = mode.apply (y * 10 ^ 6) := by norm_num
  rw [this]
  exact Rat.den_intCast _

theorem target_lt_of_limits (hP : P.Arithmetic) {a : Allocation}
    (around : q.Around P t bar l) (limits : (signalOf P q l a).limits = .ok ()) : l.target < 1000000000000 := by
  have quotes := (quoted hP around.quantized.target l.latest.currency).1
  have positive : 0 < l.target := around.positive.trans (around.below.trans (around.within.trans_lt around.above))
  simp only [ResearchSignal.limits, ok_iff] at limits
  have most : P.round (l.target * divisor l.latest.currency) < 1000000000000 :=
    (limits.1.1.2.2 _ (mem_singleton_self _)).2.2
  rw [quotes] at most
  have scale : 1 ≤ divisor l.latest.currency := by cases l.latest.currency <;> decide +kernel
  calc l.target = l.target * 1 := (mul_one _).symm
    _ ≤ l.target * divisor l.latest.currency := mul_le_mul_of_nonneg_left scale positive.le
    _ < 1000000000000 := most

end SignalRequest

/-! ### Outcomes -/

section
open SignalRequest
variable {Doc : Type} {E : Env Doc}

/-- A signal that the store shows, with its frozen snapshot and its design. -/
structure PublishedSignal (db : Database E) (h : Handle) (jobId datasetVersion : String) (s : ResearchSnapshot)
    (signal : ResearchSignal) (design : SignalDesign) : Prop where
  named : jobId ≠ ""
  job : ∃ job ∈ db.job? jobId, h.sees job
  dataset : datasetVersion ≠ "" ∧ datasetVersion.length ≤ 200
  signal : db.signal? jobId = some signal
  frozen : ∃ f, db.frozen? jobId = some f ∧ f.snapshot = s
  design : db.design? jobId = .ok (some design)

/-- The reference price, the invalidation level and the targets of the signal are amounts of money, in this order. -/
structure Evaluable (db : Database E) (h : Handle) (jobId datasetVersion : String) (signal : ResearchSignal)
    (o : OutcomeSpecification) (invalidation target : Rat) : Prop where
  specified : evaluateSignalOutcome db h jobId .unadjustedNoActions datasetVersion = .ok o
  reference : positiveMoney o.referencePriceGbp
  invalidates : o.invalidationGbp = some invalidation ∧ positiveMoney invalidation ∧ invalidation < o.referencePriceGbp
  targets : o.targetGbp = some target ∧ ∀ value ∈ signal.potentialTargets,
    ∃ x, priceGbp E.toPlatform value signal.quoteCurrency = .ok x ∧ positiveMoney x ∧ o.referencePriceGbp < x

theorem Frozen.prices {P : Platform} (f : Frozen P) : ∀ r ∈ priceRecords f.snapshot, positiveMoney r.2.close := by
  have valid := f.valid
  simp only [Platform.validateSnapshot, bind_eq_ok] at valid
  obtain ⟨evidence, recorded, -⟩ := valid
  intro r hr
  simp only [priceRecords, mem_filterMap, Option.map_eq_some_iff] at hr
  obtain ⟨e, he, bar, hbar, rfl⟩ := hr
  obtain ⟨e', sealed⟩ := isOk_of_mapM recorded e he
  simp only [Platform.provenance, ok_iff] at sealed
  exact (sealed.1 bar hbar).1 bar.close (by simp)

def specificationOf (jobId : String) (signal : ResearchSignal) (l : Levels) : OutcomeSpecification where
  researchId := jobId
  ticker := signal.ticker
  issuedAt := signal.issuedAt
  referencePriceGbp := l.price
  targetGbp := some l.target
  invalidationGbp := some l.invalidation

variable {jobId : String} {l : Levels}

theorem specificationOf_levelOrder {signal : ResearchSignal} (named : jobId ≠ "")
    (target : positiveMoney l.target) (invalidation : positiveMoney l.invalidation) (below : l.invalidation < l.price)
    (above : l.price < l.target) :
    (specificationOf jobId signal l).levelOrder = .ok () ↔ positiveMoney l.price := by
  simp only [OutcomeSpecification.levelOrder, OutcomeSpecification.bounded, specificationOf, ok_iff, Option.mem_def,
    Option.some.injEq, forall_eq', below, above, target, invalidation]
  simp [named]

theorem evaluateSignalOutcome_eq (hP : E.toPlatform.Arithmetic) {db : Database E} {h : Handle}
    {datasetVersion : String} {q : SignalRequest} {bar : PriceBar}
    {a : Allocation} (last : q.latestBar = some bar) (close : 0 < bar.close) (around : q.Around E.toPlatform t bar l)
    (limits : (signalOf E.toPlatform q l a).limits = .ok ()) (above : l.price < l.target)
    (published : PublishedSignal db h jobId datasetVersion q.snapshot (signalOf E.toPlatform q l a)
      (designOf E.toPlatform q l a)) : evaluateSignalOutcome db h jobId .unadjustedNoActions datasetVersion =
      (specificationOf jobId (signalOf E.toPlatform q l a) l).levelOrder >>= fun _ =>
        pure (specificationOf jobId (signalOf E.toPlatform q l a) l) := by
  obtain ⟨f, frozen, same⟩ := published.frozen
  simp only [latestBar, Option.map_eq_some_iff, ← same] at last
  obtain ⟨r, found, rfl⟩ := last
  have positive : 0 < l.target :=
    around.positive.trans (around.below.trans (around.within.trans_lt around.above))
  have quotes := (quoted hP around.quantized.target l.latest.currency).1
  have target : (signalOf E.toPlatform q l a).potentialTargets.mapM
      (fun value => priceGbp E.toPlatform value (signalOf E.toPlatform q l a).quoteCurrency) = .ok [l.target] := by
    have targets : (signalOf E.toPlatform q l a).potentialTargets = [l.target * divisor l.latest.currency] := by
      rw [← quotes]
      rfl
    have normalized := priceGbp_quoted hP around.quantized.target positive l.latest.currency
    rw [targets, mapM_cons, mapM_nil]
    simp only [signalOf, normalized]
    rfl
  rw [evaluateSignalOutcome, bind_of_ok (require_of rfl), bind_of_ok (require_of ⟨published.job, published.dataset⟩),
    bind_of_ok (demand_eq_ok.mpr published.signal), bind_of_ok (demand_eq_ok.mpr frozen), bind_of_ok limits,
    bind_of_ok (demand_eq_ok.mpr found), bind_of_ok (priceGbp_eq close _), bind_of_ok target,
    bind_of_ok published.design, bind_of_ok (require_of (by simp [designOf]))]
  have reference : pounds E.toPlatform r.2.close r.2.currency = l.price := around.price.symm
  simp only [reference, filter_cons, above, decide_true, if_true, filter_nil, List.min?_singleton]
  rfl

/-- An outcome can be specified exactly if the latest close, where it is in pence, has at most four places. -/
theorem published_signal_evaluable_iff (hP : E.toPlatform.Arithmetic) (q : SignalRequest) (design : SignalDesign)
    (signal : ResearchSignal) (generated : generateSignal E.toPlatform q = .ok design)
    (issued : design.signal = some signal) (db : Database E) (h : Handle) (jobId datasetVersion : String)
    (published : PublishedSignal db h jobId datasetVersion q.snapshot signal design) :
    (∃ o invalidation target, Evaluable db h jobId datasetVersion signal o invalidation target) ↔
      ∀ bar ∈ q.latestBar, bar.currency = .gbx → (bar.close * 10000).den = 1 := by
  obtain ⟨t, l, a, ⟨found, -, -, -, limits⟩, rfl, rfl⟩ := generated_signal generated issued
  have prices : ∀ r ∈ priceRecords q.snapshot, positiveMoney r.2.close := by
    obtain ⟨f, -, same⟩ := published.frozen
    rw [← same]
    exact f.prices
  obtain ⟨bar, last⟩ := latestBar_of_levels found
  have close := latestBar_close prices last
  have around := (levels_eq_ok close.1 last).mp found
  -- the reference price is the close in pounds, and the levels lie around it
  obtain ⟨same, rounds⟩ := pounds_exact hP close bar.currency
  have price : l.price = bar.close / divisor bar.currency := around.price.trans same
  obtain ⟨low, high⟩ := around.price_between hP (scenario_of_signal generated issued).1 (by rw [price, rounds])
  have below : l.invalidation < l.price := around.below.trans_le low
  have above : l.price < l.target := high.trans_lt around.above
  -- what the contract of the signal accepted fits the contract of the outcome
  have most : l.target < 1000000000000 := target_lt_of_limits hP around limits
  have invalidation : positiveMoney l.invalidation :=
    positiveMoney_level around.quantized.invalidation around.positive (by linarith)
  have target : positiveMoney l.target := positiveMoney_level around.quantized.target (by linarith [around.positive]) most
  have evaluated := evaluateSignalOutcome_eq hP last close.1 around limits above published
  have order : (specificationOf jobId (signalOf E.toPlatform q l a) l).levelOrder = .ok () ↔ positiveMoney l.price :=
    specificationOf_levelOrder published.named target invalidation below above
  have places : (∀ bar ∈ q.latestBar, bar.currency = .gbx → (bar.close * 10000).den = 1) ↔ positiveMoney l.price := by
    rw [price, positiveMoney_pounds close]
    simp only [last, Option.mem_def, Option.some.injEq, forall_eq']
  rw [places]
  constructor
  · rintro ⟨o, i, x, evaluable⟩
    have specified := evaluable.specified
    rw [evaluated, bind_eq_ok] at specified
    obtain ⟨u, ordered, -⟩ := specified
    exact order.mp ordered
  · intro money
    refine ⟨specificationOf jobId (signalOf E.toPlatform q l a) l, l.invalidation, l.target, ?_, money,
      ⟨rfl, invalidation, below⟩, rfl, ?_⟩
    · rw [evaluated, bind_of_ok (order.mpr money)]
      rfl
    · intro value member
      obtain rfl := mem_singleton.mp member
      refine ⟨l.target, ?_, target, above⟩
      have quotes := (quoted hP around.quantized.target l.latest.currency).1
      have normalized := priceGbp_quoted hP around.quantized.target target.1 l.latest.currency
      rw [← quotes] at normalized
      exact normalized

end
def outcomeDatabase (f : Frozen plainPlatform) (signal : ResearchSignal) (design : SignalDesign) : Database plainEnv where
  jobs := [({ jobId := "research", ticker := "ABC", mandate := {}, stamp := clearedRequest.issuedAt } : NewJob).row plainEnv {}]
  snapshots := [⟨"snapshot", "research", .research f⟩]
  signals := [⟨"research", signal⟩]
  artifacts := [⟨"research", .signalDesign, .design design⟩]

open SignalRequest in
theorem outcomeDatabase_published {q : SignalRequest} {design : SignalDesign} {signal : ResearchSignal}
    (generated : generateSignal plainPlatform q = .ok design) (issued : design.signal = some signal)
    (costs : q.costApplicability.bounded) (f : Frozen plainPlatform) (same : f.snapshot = q.snapshot) :
    PublishedSignal (outcomeDatabase f signal design) {} "research" "bars-1" q.snapshot signal design := by
  have bounded := (scenario_of_signal generated issued).1
  obtain ⟨t, l, a, ⟨-, -, -, -, limits⟩, rfl, rfl⟩ := generated_signal generated issued
  refine ⟨by decide, ⟨_, rfl, by decide⟩, by decide, rfl, ⟨f, rfl, same⟩, ?_⟩
  have validated : plainEnv.validateDesign (.design (designOf plainPlatform q l a)) = .ok (designOf plainPlatform q l a) := by
    have read : plainEnv.design.validate (.design (designOf plainPlatform q l a)) = some (designOf plainPlatform q l a) :=
      rfl
    have consistent : (designOf plainPlatform q l a).consistent = .ok () := by
      refine (bind_of_ok limits _).trans (require_of ?_)
      simpa [designOf] using ⟨bounded, costs⟩
    rw [Env.validateDesign, bind_of_ok (demand_eq_ok.mpr read), bind_of_ok consistent]
    rfl
  simp only [Database.design?, outcomeDatabase, Database.artifact?]
  simp [validated]

def clearedFrozen : Frozen plainPlatform := ⟨clearedRequest.snapshot, by decide +kernel⟩

/-- The outcome of the cleared request can be specified. -/
theorem published_signal_evaluable_iff_cleared : ∃ design signal, generateSignal plainPlatform clearedRequest = .ok design ∧
    design.signal = some signal ∧
    ((∃ o invalidation target, Evaluable (outcomeDatabase clearedFrozen signal design) {} "research" "bars-1" signal o
        invalidation target) ↔
      ∀ bar ∈ clearedRequest.latestBar, bar.currency = .gbx → (bar.close * 10000).den = 1) := by
  obtain ⟨design, signal, generated, issued⟩ := clearedRequest_signal
  have published := outcomeDatabase_published generated issued (by decide +kernel) clearedFrozen rfl
  exact ⟨design, signal, generated, issued, published_signal_evaluable_iff (E := plainEnv)
    (Platform.arithmetic_of_exact fun _ => rfl) clearedRequest design signal generated issued _ {} "research" "bars-1"
    published⟩

def fineBars : List EvidenceRecord := dailyBars.map fun e => { e with
  payload := .ohlcv {
    opening := 1000, high := 1010, low := 990, close := 100000001 / 100000, volume := 100000, currency := .gbx } }

def fineRequest : SignalRequest := { clearedRequest with
  snapshot := { clearedRequest.snapshot with evidence := fineBars }
  marketQuality := { clearedRequest.marketQuality with averageDailyValueGbp := some (100000001 / 100) } }

def fineFrozen : Frozen plainPlatform := ⟨fineRequest.snapshot, by decide +kernel⟩

/-- A signal is generated and published, and its reference price of 10.0000001 pounds is no amount of money. -/
theorem fine_outcome_raises : ∃ design signal,
    generateSignal plainPlatform fineRequest = .ok design ∧ design.signal = some signal ∧
    PublishedSignal (outcomeDatabase fineFrozen signal design) {} "research" "bars-1" fineRequest.snapshot signal design ∧
    evaluateSignalOutcome (outcomeDatabase fineFrozen signal design) {} "research" .unadjustedNoActions "bars-1" =
      .error (.value "outcome field out of bounds") := by
  have computed : ((generateSignal plainPlatform fineRequest).toOption.bind fun design => design.signal.map fun signal =>
      decide (evaluateSignalOutcome (outcomeDatabase fineFrozen signal design) {} "research" .unadjustedNoActions
        "bars-1" = .error (.value "outcome field out of bounds"))) = some true := by
    decide +kernel
  simp only [Option.bind_eq_some_iff, Option.map_eq_some_iff, decide_eq_true_eq] at computed
  obtain ⟨design, generated, signal, issued, refused⟩ := computed
  have generated' : generateSignal plainPlatform fineRequest = .ok design := by
    cases outcome : generateSignal plainPlatform fineRequest <;> simp_all [Except.toOption]
  exact ⟨design, signal, generated', issued,
    outcomeDatabase_published generated' issued (by decide +kernel) fineFrozen rfl, refused⟩

end Money
