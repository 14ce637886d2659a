import Money.Library.Consecutive
import Money.Outcomes

/-! What an outcome is a function of. There is one way to put the accepted bars in order, and every part of the outcome
    is read off the usable bars in that order. -/

namespace Money
open Checked List OutcomeSpecification

variable {P : Platform} {spec : OutcomeSpecification} {asOf : Int} {bars checked : List OutcomeBar} {b : OutcomeBar}

/-! ### Bars in order -/

def OutcomeBar.Precedes (a b : OutcomeBar) : Prop := a.endAt ≤ b.startAt

theorem OutcomeBar.validBar_eq_ok : b.validBar = .ok () ↔ b.bounded ∧ (b.startAt < b.endAt ∧ b.endAt ≤ b.availableAt) ∧
    b.lowGbp ≤ min b.openGbp b.closeGbp ∧ max b.openGbp b.closeGbp ≤ b.highGbp := by
  simp only [validBar, ok_iff]

/-- The bars are valid and distinct, and the checked ones are their chronological order. -/
structure Chronological (bars checked : List OutcomeBar) : Prop where
  perm : checked.Perm bars
  valid : ∀ b ∈ bars, b.validBar = .ok ()
  distinct : (bars.map (·.evidenceId)).Nodup
  ordered : checked.Pairwise OutcomeBar.Precedes

variable {l : List OutcomeBar}

theorem pairwise_precedes (complete : ∀ b ∈ l, b.startAt < b.endAt)
    (apart : ∀ pair ∈ l.zip l.tail, pair.1.endAt ≤ pair.2.startAt) : l.Pairwise OutcomeBar.Precedes := by
  refine Consecutive.pairwise (fun a b c length before after => ?_) complete apart
  exact (before.trans length.le).trans after

theorem checkedBars_eq_ok (h : checkedBars bars = .ok checked) : Chronological bars checked ∧
    checked = bars.insertionSort fun a b => a.startAt ≤ b.startAt := by
  simp only [checkedBars, ok_iff] at h
  obtain ⟨⟨⟩, valid, distinct, apart, rfl⟩ := h
  have valid := forM_eq_ok.mp valid
  have perm := perm_insertionSort (fun a b : OutcomeBar => a.startAt ≤ b.startAt) bars
  refine ⟨⟨perm, valid, (perm.map _).nodup_iff.mp distinct, pairwise_precedes (fun b hb => ?_) apart⟩, rfl⟩
  exact (OutcomeBar.validBar_eq_ok.mp (valid b (perm.mem_iff.mp hb))).2.1.1

namespace Chronological
variable (h : Chronological bars checked)
include h

theorem complete (hb : b ∈ bars) : b.startAt < b.endAt := (OutcomeBar.validBar_eq_ok.mp (h.valid b hb)).2.1.1

theorem apart {a b : OutcomeBar} (ha : a ∈ bars) (hb : b ∈ bars) : a = b ∨ a.Precedes b ∨ b.Precedes a := by
  have symmetric : Std.Symm fun a b : OutcomeBar => a = b ∨ a.Precedes b ∨ b.Precedes a :=
    ⟨fun a b => Or.imp Eq.symm Or.symm⟩
  have pairwise : checked.Pairwise fun a b => a = b ∨ a.Precedes b ∨ b.Precedes a :=
    h.ordered.imp fun before => .inr (.inl before)
  exact pairwise.forall_of_forall (fun _ _ => .inl rfl) (h.perm.mem_iff.mpr ha) (h.perm.mem_iff.mpr hb)

theorem eq_of_start {a b : OutcomeBar} (ha : a ∈ bars) (hb : b ∈ bars) (hab : a.startAt ≤ b.startAt)
    (hba : b.startAt ≤ a.startAt) : a = b := by
  have := h.complete ha
  have := h.complete hb
  rcases h.apart ha hb with same | before | after
  · exact same
  · have : a.endAt ≤ b.startAt := before
    omega
  · have : b.endAt ≤ a.startAt := after
    omega

theorem nodup : checked.Nodup := h.perm.nodup_iff.mpr (List.Nodup.of_map _ h.distinct)

theorem filter_eq {bars' checked' : List OutcomeBar} (h' : Chronological bars' checked') {p : OutcomeBar → Bool}
    (same : ∀ b, p b = true → (b ∈ bars' ↔ b ∈ bars)) : checked'.filter p = checked.filter p := by
  have members : ∀ b, b ∈ checked'.filter p ↔ b ∈ checked.filter p := fun b => by
    simp only [mem_filter, h.perm.mem_iff, h'.perm.mem_iff]
    exact ⟨fun hb => ⟨(same b hb.2).mp hb.1, hb.2⟩, fun hb => ⟨(same b hb.2).mpr hb.1, hb.2⟩⟩
  refine List.Perm.eq_of_pairwise (fun a b ha hb before after => ?_) (h'.ordered.filter p) (h.ordered.filter p)
    ((perm_ext_iff_of_nodup (h'.nodup.filter p) (h.nodup.filter p)).mpr members)
  have ha := h.perm.mem_iff.mp (mem_of_mem_filter ((members a).mp ha))
  have hb := h.perm.mem_iff.mp (mem_of_mem_filter hb)
  have : a.endAt ≤ b.startAt := before
  have : b.endAt ≤ a.startAt := after
  have := h.complete ha
  have := h.complete hb
  omega

end Chronological

theorem checkedBars_perm {bars' : List OutcomeBar} (h : checkedBars bars = .ok checked) (perm : bars'.Perm bars) :
    checkedBars bars' = .ok checked := by
  obtain ⟨chronological, rfl⟩ := checkedBars_eq_ok h
  have trans : IsTrans OutcomeBar fun a b => a.startAt ≤ b.startAt := ⟨fun a b c => Int.le_trans⟩
  have sorted : (bars'.insertionSort fun a b => a.startAt ≤ b.startAt) =
      bars.insertionSort fun a b => a.startAt ≤ b.startAt := by
    refine List.Perm.eq_of_pairwise (fun a b ha hb => ?_) (pairwise_insertionSort _ _)
      (pairwise_insertionSort _ _) ?_
    · have ha := perm.mem_iff.mp ((mem_insertionSort _).mp ha)
      exact chronological.eq_of_start ha ((mem_insertionSort _).mp hb)
    · exact (perm_insertionSort _ _).trans (perm.trans (perm_insertionSort _ _).symm)
  simp only [checkedBars, ok_iff] at h ⊢
  obtain ⟨-, -, distinct, apart, -⟩ := h
  rw [sorted]
  exact ⟨(), forM_eq_ok.mpr fun b hb => chronological.valid b (perm.mem_iff.mp hb), distinct, apart, rfl⟩

theorem calculateOutcome_eq_ok {r : ResearchOutcome} : calculateOutcome P spec bars asOf = .ok r ↔
    spec.levelOrder = .ok () ∧ spec.issuedAt ≤ asOf ∧
      ∃ checked, checkedBars bars = .ok checked ∧ spec.outcome P asOf (checked.filter fun b => spec.Usable asOf b) = r := by
  simp only [calculateOutcome, ok_iff]
  exact ⟨fun h => h.choose_spec, fun h => ⟨(), h⟩⟩

namespace OutcomeSpecification
variable {usable : List OutcomeBar} {d : Int}

@[simp] theorem horizon_deadline : (spec.horizon P asOf usable d).deadline = spec.issuedAt + days d := by
  simp only [horizon]
  split
  · rfl
  · split <;> rfl

@[simp] theorem horizon_calendarDays : (spec.horizon P asOf usable d).calendarDays = d := by
  simp only [horizon]
  split
  · rfl
  · split <;> rfl

theorem horizon_congr {usable' : List OutcomeBar} (same : (usable'.filter fun b => b.endAt ≤ spec.issuedAt + days d) =
      usable.filter fun b => b.endAt ≤ spec.issuedAt + days d) :
    spec.horizon P asOf usable' d = spec.horizon P asOf usable d := by
  have split : ∀ l : List OutcomeBar, (l.filter fun b => b.endAt ≤ spec.issuedAt + days d ∧
      spec.issuedAt + days d - b.endAt ≤ hours spec.maximumEndpointAgeHours) =
      (l.filter fun b => b.endAt ≤ spec.issuedAt + days d).filter fun b =>
        spec.issuedAt + days d - b.endAt ≤ hours spec.maximumEndpointAgeHours := fun l => by
    rw [filter_filter]
    exact filter_congr fun b _ => by rw [Bool.decide_and, Bool.and_comm]
  simp only [horizon, split, same]

theorem horizon_return {x : Rat} (h : (spec.horizon P asOf usable d).returnFraction = some x) :
    ∃ b ∈ usable, b.endAt ≤ spec.issuedAt + days d ∧ x = spec.change P b.closeGbp ∧
      (spec.horizon P asOf usable d).priceObservedAt = some b.endAt ∧
      (spec.horizon P asOf usable d).evidenceId = some b.evidenceId := by
  simp only [horizon] at h ⊢
  split at h
  · cases h
  next matured =>
    rw [if_neg matured]
    split at h
    · cases h
    next endpoint found =>
      obtain ⟨member, inTime⟩ := mem_filter.mp (mem_of_getLast? found)
      exact ⟨endpoint, member, (of_decide_eq_true inTime).1, (Option.some.inj h).symm, rfl, rfl⟩

end OutcomeSpecification

theorem OutcomeSpecification.change_mono (monotone : Monotone P.round) (positive : 0 < spec.referencePriceGbp) :
    Monotone (spec.change P) := fun _ _ le =>
  monotone (sub_le_sub_right (monotone (div_le_div_of_nonneg_right le positive.le)) 1)

theorem outcome_extremes {usable : List OutcomeBar} (monotone : Monotone P.round) (positive : 0 < spec.referencePriceGbp)
    (hb : b ∈ usable) {price : Rat} (low : b.lowGbp ≤ price) (high : price ≤ b.highGbp) :
    ∃ mae ∈ (spec.outcome P asOf usable).maeFraction, ∃ mfe ∈ (spec.outcome P asOf usable).mfeFraction,
      mae ≤ spec.change P price ∧ spec.change P price ≤ mfe := by
  have change_mono := spec.change_mono monotone positive
  obtain ⟨lowest, hlowest⟩ : ∃ m, (usable.map (·.lowGbp)).min? = some m :=
    Option.isSome_iff_exists.mp (isSome_min?_of_mem (mem_map_of_mem hb))
  obtain ⟨highest, hhighest⟩ : ∃ m, (usable.map (·.highGbp)).max? = some m :=
    Option.isSome_iff_exists.mp (isSome_max?_of_mem (mem_map_of_mem hb))
  have below : lowest ≤ b.lowGbp := (List.min?_eq_some_iff.mp hlowest).2 _ (mem_map_of_mem hb)
  have above : b.highGbp ≤ highest := (List.max?_eq_some_iff.mp hhighest).2 _ (mem_map_of_mem hb)
  refine ⟨_, Option.mem_map_of_mem _ hlowest, _, Option.mem_map_of_mem _ hhighest, ?_, ?_⟩
  · exact (min_le_right _ _).trans (change_mono (below.trans low))
  · exact (change_mono (high.trans above)).trans (le_max_right _ _)

/-! ### First touches -/

/-- The first of the bars with a property: every other one begins after its end. -/
def OutcomeBar.First (touches : OutcomeBar → Prop) (b : OutcomeBar) : Prop :=
  touches b ∧ ∀ c, touches c → c = b ∨ b.Precedes c

/-- What each order of events says about the bars that touch the target and those that touch the invalidation. -/
def EventOrder.Means (target failure : OutcomeBar → Prop) : EventOrder → Prop
  | .targetFirst => ∃ t f : OutcomeBar, t.First target ∧ f.First failure ∧ t.Precedes f
  | .invalidationFirst => ∃ t f : OutcomeBar, t.First target ∧ f.First failure ∧ f.Precedes t
  | .sameBarAmbiguous => ∃ b : OutcomeBar, b.First target ∧ b.First failure
  | .targetOnly => (∃ t, target t) ∧ ¬ ∃ f, failure f
  | .invalidationOnly => (¬ ∃ t, target t) ∧ ∃ f, failure f
  | .noneObserved => (¬ ∃ t, target t) ∧ ¬ ∃ f, failure f

theorem first_of_find (ordered : l.Pairwise OutcomeBar.Precedes) (touches : OutcomeBar → Prop)
    [DecidablePred touches] (found : (l.find? fun b => touches b) = some b) : b.First fun c => c ∈ l ∧ touches c := by
  obtain ⟨touched, before, after, rfl, earlier⟩ := List.find?_eq_some_iff_append.mp found
  refine ⟨⟨by simp, of_decide_eq_true touched⟩, fun c ⟨hc, hct⟩ => ?_⟩
  rcases mem_append.mp hc with hc | hc
  · exact absurd hct (by simpa using earlier c hc)
  · rcases mem_cons.mp hc with rfl | hc
    · exact .inl rfl
    · exact .inr ((pairwise_cons.mp (pairwise_append.mp ordered).2.1).1 c hc)

theorem none_of_find (touches : OutcomeBar → Prop) [DecidablePred touches]
    (found : (l.find? fun b => touches b) = none) : ¬ ∃ c, c ∈ l ∧ touches c := by
  rintro ⟨c, hc, touched⟩
  simpa [touched] using List.find?_eq_none.mp found c hc

theorem OutcomeBar.First.unique {touches : OutcomeBar → Prop} {t t' : OutcomeBar}
    (complete : ∀ c, touches c → c.startAt < c.endAt) (h : t.First touches) (h' : t'.First touches) : t = t' := by
  have := complete t h.1
  have := complete t' h'.1
  rcases h.2 t' h'.1 with same | before
  · exact same.symm
  · rcases h'.2 t h.1 with same | after
    · exact same
    · have : t.endAt ≤ t'.startAt := before
      have : t'.endAt ≤ t.startAt := after
      omega

theorem eventOrder_means (ordered : l.Pairwise OutcomeBar.Precedes)
    (complete : ∀ b ∈ l, b.startAt < b.endAt) (apart : ∀ a ∈ l, ∀ b ∈ l, a = b ∨ a.Precedes b ∨ b.Precedes a)
    (distinct : ∀ a ∈ l, ∀ b ∈ l, a.evidenceId = b.evidenceId → a = b) (target failure : OutcomeBar → Prop)
    [DecidablePred target] [DecidablePred failure] :
    let order := eventOrder (l.find? fun b => target b) (l.find? fun b => failure b)
    order.Means (fun b => b ∈ l ∧ target b) (fun b => b ∈ l ∧ failure b) ∧
      ((∃ b : OutcomeBar, (b.First fun b => b ∈ l ∧ target b) ∧ b.First fun b => b ∈ l ∧ failure b) →
        order = .sameBarAmbiguous) := by
  intro order
  have noTarget := none_of_find (l := l) target
  have noFailure := none_of_find (l := l) failure
  cases ht : l.find? fun b => target b with
  | none =>
    refine ⟨?_, fun ⟨b, touched, _⟩ => absurd ⟨b, touched.1⟩ (noTarget ht)⟩
    cases hf : l.find? fun b => failure b with
    | none => simpa only [order, ht, hf] using ⟨noTarget ht, noFailure hf⟩
    | some f => simpa only [order, ht, hf] using ⟨noTarget ht, f, (first_of_find ordered failure hf).1⟩
  | some t =>
    have first := first_of_find ordered target ht
    cases hf : l.find? fun b => failure b with
    | none =>
      refine ⟨?_, fun ⟨b, _, touched⟩ => absurd ⟨b, touched.1⟩ (noFailure hf)⟩
      simpa only [order, ht, hf] using ⟨⟨t, first.1⟩, noFailure hf⟩
    | some f =>
      have first' := first_of_find ordered failure hf
      have horder : order = if t.evidenceId = f.evidenceId then .sameBarAmbiguous
          else if t.endAt < f.endAt then .targetFirst else .invalidationFirst := by
        simp only [order, ht, hf, eventOrder]
      refine ⟨?_, fun ⟨b, touched, touched'⟩ => ?_⟩
      · rw [horder]
        have := complete t first.1.1
        have := complete f first'.1.1
        split_ifs with same earlier
        · cases distinct t first.1.1 f first'.1.1 same
          exact ⟨t, first, first'⟩
        · refine ⟨t, f, first, first', ?_⟩
          rcases apart t first.1.1 f first'.1.1 with rfl | before | after
          · exact absurd rfl same
          · exact before
          · have : f.endAt ≤ t.startAt := after
            omega
        · refine ⟨t, f, first, first', ?_⟩
          rcases apart t first.1.1 f first'.1.1 with rfl | before | after
          · exact absurd rfl same
          · have : t.endAt ≤ f.startAt := before
            omega
          · exact after
      · cases touched.unique (fun c hc => complete c hc.1) first
        cases touched'.unique (fun c hc => complete c hc.1) first'
        rw [horder, if_pos rfl]

def OutcomeSpecification.Observed (spec : OutcomeSpecification) (bars : List OutcomeBar) (asOf : Int) (b : OutcomeBar) :
    Prop :=
  b ∈ bars ∧ spec.Usable asOf b

/-- An accepted evaluation is a function of the usable bars; its extremes enclose its returns, and a return is read off
    a close that was observed by its deadline. -/
theorem outcome_of_usable_bars (monotone : Monotone P.round) (spec : OutcomeSpecification) (bars : List OutcomeBar)
    (asOf : Int) (r : ResearchOutcome) (accepted : calculateOutcome P spec bars asOf = .ok r) :
    (∀ bars' : List OutcomeBar, bars'.Perm bars → calculateOutcome P spec bars' asOf = .ok r) ∧
    (∀ bars' r', calculateOutcome P spec bars' asOf = .ok r' →
      (∀ b : OutcomeBar, b.availableAt ≤ asOf → spec.issuedAt ≤ b.startAt → b.endAt ≤ spec.issuedAt + days 30 →
        (b ∈ bars' ↔ b ∈ bars)) → r' = r) ∧
    (∀ h ∈ r.horizons, ∀ x ∈ h.returnFraction, ∃ mae ∈ r.maeFraction, ∃ mfe ∈ r.mfeFraction, mae ≤ x ∧ x ≤ mfe) ∧
    (r.eventOrder.Means (fun b => spec.Observed bars asOf b ∧ spec.TouchesTarget b)
        (fun b => spec.Observed bars asOf b ∧ spec.TouchesInvalidation b) ∧ (r.eventOrder = .sameBarAmbiguous ↔
        ∃ b : OutcomeBar, (b.First fun b => spec.Observed bars asOf b ∧ spec.TouchesTarget b) ∧
          b.First fun b => spec.Observed bars asOf b ∧ spec.TouchesInvalidation b)) ∧
    (∀ h ∈ r.horizons, h.deadline = spec.issuedAt + days h.calendarDays ∧
      (∀ x ∈ h.returnFraction, ∃ b ∈ bars, b.endAt ≤ h.deadline ∧ h.priceObservedAt = some b.endAt ∧
        h.evidenceId = some b.evidenceId ∧ x = spec.change P b.closeGbp) ∧
      ∀ bars' r', calculateOutcome P spec bars' asOf = .ok r' →
        (∀ b : OutcomeBar, b.endAt ≤ h.deadline → (b ∈ bars' ↔ b ∈ bars)) → h ∈ r'.horizons) := by
  obtain ⟨levels, issued, checked, hchecked, rfl⟩ := calculateOutcome_eq_ok.mp accepted
  have chronological := (checkedBars_eq_ok hchecked).1
  have observed : ∀ b, b ∈ (checked.filter fun b => spec.Usable asOf b) ↔ spec.Observed bars asOf b := fun b => by
    rw [mem_filter, chronological.perm.mem_iff, decide_eq_true_eq]
    rfl
  have positive : 0 < spec.referencePriceGbp := by
    simp only [levelOrder, ok_iff] at levels
    exact levels.1.2.1.1
  refine ⟨fun bars' perm => ?_, fun bars' r' accepted' same => ?_, fun h hh x hx => ?_, ?_, fun h hh => ?_⟩
  · exact calculateOutcome_eq_ok.mpr ⟨levels, issued, checked, checkedBars_perm hchecked perm, rfl⟩
  · obtain ⟨-, -, checked', hchecked', rfl⟩ := calculateOutcome_eq_ok.mp accepted'
    rw [chronological.filter_eq (checkedBars_eq_ok hchecked').1 fun b usable => ?_]
    obtain ⟨after, within, available⟩ := of_decide_eq_true usable
    exact same b available after (within.trans (min_le_right _ _))
  · obtain ⟨d, -, rfl⟩ := mem_map.mp hh
    obtain ⟨b, hb, -, rfl, -⟩ := horizon_return hx
    have valid := OutcomeBar.validBar_eq_ok.mp (chronological.valid b ((observed b).mp hb).1)
    exact outcome_extremes monotone positive hb (valid.2.2.1.trans (min_le_right _ _))
      ((le_max_right _ _).trans valid.2.2.2)
  · have members : ∀ b ∈ (checked.filter fun b => spec.Usable asOf b), b ∈ bars := fun b hb => ((observed b).mp hb).1
    have order := eventOrder_means (chronological.ordered.filter _) (fun b hb => chronological.complete (members b hb))
      (fun a ha b hb => chronological.apart (members a ha) (members b hb))
      (fun a ha b hb => inj_on_of_nodup_map chronological.distinct (members a ha) (members b hb))
      spec.TouchesTarget spec.TouchesInvalidation
    simp only [observed] at order
    exact ⟨order.1, fun ambiguous => (ambiguous ▸ order.1 : EventOrder.Means _ _ .sameBarAmbiguous), order.2⟩
  · obtain ⟨d, hd, rfl⟩ := mem_map.mp hh
    refine ⟨?_, fun x hx => ?_, fun bars' r' accepted' same => ?_⟩
    · rw [horizon_deadline, horizon_calendarDays]
    · obtain ⟨b, hb, inTime, price, seen, evidence⟩ := horizon_return hx
      rw [horizon_deadline]
      exact ⟨b, ((observed b).mp hb).1, inTime, seen, evidence, price⟩
    · obtain ⟨-, -, checked', hchecked', rfl⟩ := calculateOutcome_eq_ok.mp accepted'
      rw [horizon_deadline] at same
      refine mem_map.mpr ⟨d, hd, horizon_congr ?_⟩
      simp only [filter_filter]
      refine chronological.filter_eq (checkedBars_eq_ok hchecked').1 fun b hb => same b ?_
      exact of_decide_eq_true (Bool.and_eq_true_iff.mp hb).1

def outcomeBarOn (day : Int) (evidenceId : String) (high : Rat) : OutcomeBar where
  evidenceId := evidenceId
  evidenceHash := String.ofList (List.replicate 64 'a')
  startAt := days day
  endAt := days (day + 1)
  availableAt := days (day + 1)
  openGbp := 10
  highGbp := high
  lowGbp := 9
  closeGbp := 10

def sampleOutcome : OutcomeSpecification where
  researchId := "research"
  ticker := "ABC"
  issuedAt := days 20714
  referencePriceGbp := 10
  targetGbp := some 12
  invalidationGbp := some 8

theorem outcome_of_usable_bars_sample : ∃ r,
    calculateOutcome plainPlatform sampleOutcome [outcomeBarOn 20715 "b" 12, outcomeBarOn 20714 "a" 11] (days 20717) =
      .ok r ∧ r.eventOrder = .targetOnly ∧ r.mfeFraction = some (1 / 5) ∧
    calculateOutcome plainPlatform sampleOutcome [outcomeBarOn 20714 "a" 11, outcomeBarOn 20715 "b" 12] (days 20717) =
      .ok r := by
  obtain ⟨r, accepted, order, mfe⟩ := exists_of_toOption
    (show ∃ r ∈ (calculateOutcome plainPlatform sampleOutcome [outcomeBarOn 20715 "b" 12, outcomeBarOn 20714 "a" 11]
      (days 20717)).toOption, r.eventOrder = .targetOnly ∧ r.mfeFraction = some (1 / 5) by decide +kernel)
  exact ⟨r, accepted, order, mfe,
    (outcome_of_usable_bars monotone_id sampleOutcome _ _ r accepted).1 _ (List.Perm.swap _ _ _)⟩

end Money
