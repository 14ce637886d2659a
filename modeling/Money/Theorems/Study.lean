import Mathlib.Data.List.ReduceOption
import Money.Library.Consecutive
import Money.Study

/-! A decision of the study reads the bars before it and the open of its own bar; a measurement reads the bars of its
    window, and with exact arithmetic its figures enclose each other. -/

namespace Money
open Checked List Study

variable {visited : List (Option StudyCase)}

namespace Study
variable {A : StudyArithmetic} {p : StudyParameters} {bars bars' : List StudyBar} {i j : Nat}

/-! ### What a decision reads -/

theorem trueRanges_take : ∀ (bars : List StudyBar) (i : Nat), trueRanges A (bars.take (i + 1)) = (trueRanges A bars).take i
  | [], i => by simp [trueRanges]
  | [_], i => by simp [trueRanges]
  | _ :: _ :: _, 0 => by simp [trueRanges]
  | a :: b :: l, i + 1 => by
    have later := trueRanges_take (b :: l) i
    simp only [trueRanges, take_succ_cons, tail_cons, zipWith_cons_cons] at later ⊢
    rw [later]

theorem atr14_take (inside : i ≤ bars.length) : atr14 A (bars.take i) = (atr14 A bars).take i := by
  have length : (bars.take i).length = i := by simpa using inside
  by_cases warm : 14 < i
  · obtain ⟨n, rfl⟩ : ∃ n, i = 14 + (n + 1) := ⟨i - 15, by omega⟩
    have ranges : trueRanges A (bars.take (14 + (n + 1))) = (trueRanges A bars).take (14 + n) := trueRanges_take bars _
    simp only [atr14, length, if_pos warm, if_pos (warm.trans_le inside), ranges]
    have seed : ((trueRanges A bars).take (14 + n)).take 14 = (trueRanges A bars).take 14 := by
      rw [take_take, Nat.min_eq_left (Nat.le_add_right 14 n)]
    have warmUp : (List.replicate 14 (none : Option Rat)).take (14 + (n + 1)) = List.replicate 14 none :=
      take_of_length_le (by simp)
    rw [take_append, warmUp, length_replicate, Nat.add_sub_cancel_left, ← map_take, take_scanl,
      drop_take, Nat.add_sub_cancel_left, seed]
  · simp only [atr14, length, if_neg warm]
    split
    · rw [take_append_of_le_length (by simp; omega), take_replicate, Nat.min_eq_left (by omega)]
    · rw [take_replicate, Nat.min_eq_left inside]

theorem atr_before (inside : i ≤ bars.length) (positive : 0 < i) :
    (atr14 A bars)[i - 1]? = (atr14 A (bars.take i))[i - 1]? := by
  rw [atr14_take inside, List.getElem?_take_of_lt (by omega)]

theorem slice_slice (h : 60 ≤ i) : slice bars (i - 20) i = (slice bars (i - 60) i).drop 40 := by
  rw [slice, slice, drop_drop, show i - 60 + 40 = i - 20 by omega]

variable {b : StudyBar} {cost : Rat} {d : Decision}

theorem decision_congr {b' last last' : StudyBar} (warm : 60 ≤ i) (found : bars[i]? = some b)
    (found' : bars'[i]? = some b') (time : b'.time = b.time) (opening : b'.opening = b.opening)
    (final : bars.getLast? = some last) (final' : bars'.getLast? = some last') (end_ : last'.time = last.time)
    (recent : slice bars' (i - 60) i = slice bars (i - 60) i)
    (all : p.scenarioPolicy.isSome → bars'.take i = bars.take i) : decision A p bars' i = decision A p bars i := by
  have inside : i ≤ bars.length := (List.getElem?_eq_some_iff.mp found).1.le
  have inside' : i ≤ bars'.length := (List.getElem?_eq_some_iff.mp found').1.le
  cases policy : p.scenarioPolicy with
  | none =>
    simp only [decision, found, found', final, final', levels, policy, slice_slice warm, recent, time, opening, end_,
      demand_some_bind, Option.isSome_none, Bool.false_eq_true, if_false]
  | some scenario =>
    have before : bars'.take i = bars.take i := all (by simp [policy])
    simp only [decision, found, found', final, final', levels, policy, time, opening, end_, demand_some_bind,
      Option.isSome_some, if_true, slice, atr_before inside (by omega), atr_before inside' (by omega), before]

/-! ### Which decisions are made -/

theorem bounds_of_mem_indices (h : i ∈ indices p bars) : 61 ≤ i ∧ i + horizon p < bars.length := by
  obtain ⟨k, hk, rfl⟩ := mem_range'.mp h
  have step := Nat.mul_le_of_le_div _ _ _ (Nat.succ_le_of_lt hk)
  rw [Nat.succ_mul, Nat.mul_comm k] at step
  have positive : horizon p ≠ 0 := by
    intro none
    simp [none] at hk
  omega

theorem indices_congr (length : bars'.length = bars.length) : indices p bars' = indices p bars := by
  rw [indices, indices, length]

/-- What the study decides at an index: the entry, the thresholds and the regime of the case, if it selects one. -/
def decided (A : StudyArithmetic) (p : StudyParameters) (bars : List StudyBar) (i : Nat) : Option Decision :=
  if i ∈ indices p bars then (decision A p bars i).toOption.join else none

/-- A study that returns, with what it found at each index. -/
structure Completes (A : StudyArithmetic) (p : StudyParameters) (bars : List StudyBar) (visited : List (Option StudyCase)) :
    Prop where
  parameters : (1 ≤ p.horizonDays ∧ p.horizonDays ≤ 30) ∧ (0 < p.targetFraction ∧ p.targetFraction ≤ 1) ∧
    0 < p.invalidationFraction ∧ p.invalidationFraction < 1
  chronological : ∀ pair ∈ bars.zip bars.tail, pair.1.time < pair.2.time
  visits : (indices p bars).mapM (visit A p bars (A.float (p.roundTripCostBps / 10000))) = .ok visited

theorem evaluate_eq_ok {r : StudyResult} (h : evaluate A p bars = .ok r) : ∃ visited, Completes A p bars visited ∧
    r = summarize A bars (A.float (p.roundTripCostBps / 10000)) visited.reduceOption := by
  simp only [evaluate, ok_iff] at h
  obtain ⟨parameters, -, chronological, visited, visits, rfl⟩ := h
  exact ⟨visited, ⟨parameters, chronological, visits⟩, rfl⟩

theorem measure_eq_ok {c : StudyCase} (h : measure A p bars cost i d = .ok c) :
    ∃ b final, bars[i]? = some b ∧ (future p bars i b.time).getLast? = some final ∧
      ((future p bars i b.time).map fun row => change A d.entry row.low).min? = some c.mae ∧
      ((future p bars i b.time).map fun row => change A d.entry row.high).max? = some c.mfe ∧
      c.time = b.time ∧ c.regime = d.regime ∧
      c.measuredReturn = A.float ((follow A d b.time (change A d.entry final.close) (future p bars i b.time)).outcome - cost) ∧
      c.targetDay = (follow A d b.time (change A d.entry final.close) (future p bars i b.time)).targetDay ∧
      c.invalidationDay = (follow A d b.time (change A d.entry final.close) (future p bars i b.time)).invalidationDay := by
  simp only [measure, ok_iff] at h
  obtain ⟨b, found, mae, hmae, mfe, hmfe, final, hfinal, rfl⟩ := h
  exact ⟨b, final, found, hfinal, hmae, hmfe, rfl, rfl, rfl, rfl, rfl⟩

theorem visit_eq_ok {c : Option StudyCase} (h : visit A p bars cost i = .ok c) :
    (decision A p bars i = .ok none ∧ c = none) ∨
      ∃ d case, decision A p bars i = .ok (some d) ∧ measure A p bars cost i d = .ok case ∧ c = some case := by
  simp only [visit, bind_eq_ok] at h
  obtain ⟨found, hfound, h⟩ := h
  cases found with
  | none => exact .inl ⟨hfound, (pure_eq_ok.mp h).symm⟩
  | some d =>
    obtain ⟨case, measured, rfl⟩ := map_eq_ok.mp h
    exact .inr ⟨d, case, hfound, measured, rfl⟩

theorem cases_decided (h : Completes A p bars visited) :
    visited.reduceOption.map (fun c => (c.time, c.regime)) = (indices p bars).filterMap fun i =>
      (decided A p bars i).bind fun d => bars[i]?.map fun b => (b.time, d.regime) := by
  have visits := forall₂_of_mapM h.visits
  clear h
  have decides : ∀ i ∈ indices p bars, decided A p bars i = (decision A p bars i).toOption.join :=
    fun i hi => if_pos hi
  generalize indices p bars = l at visits decides
  induction visits with
  | nil => rfl
  | @cons i c l cs visited _ ih =>
    have later := ih fun i hi => decides i (mem_cons_of_mem _ hi)
    rw [filterMap_cons, decides i mem_cons_self]
    rcases visit_eq_ok visited with ⟨none, rfl⟩ | ⟨d, case, selected, measured, rfl⟩
    · simpa [none, List.reduceOption, Except.toOption] using later
    · obtain ⟨b, -, found, -, -, -, time, regime, -⟩ := measure_eq_ok measured
      simpa [selected, found, List.reduceOption, Except.toOption, time, regime] using later

theorem decision_of_completes (h : Completes A p bars visited) (hi : i ∈ indices p bars) :
    ∃ d, decision A p bars i = .ok d ∧ decided A p bars i = d := by
  obtain ⟨c, visited⟩ := isOk_of_mapM h.visits i hi
  rcases visit_eq_ok visited with ⟨none, -⟩ | ⟨d, -, selected, -⟩
  · exact ⟨_, none, by simp [decided, hi, none, Except.toOption]⟩
  · exact ⟨_, selected, by simp [decided, hi, selected, Except.toOption]⟩

theorem slice_of_published {start : Nat} {instant : Int}
    (published : ∀ (j : Nat) (row : StudyBar), bars[j]? = some row → row.availableAt ≤ instant → bars'[j]? = some row)
    (length : bars'.length = bars.length) (inTime : ∀ row ∈ slice bars start i, row.availableAt ≤ instant) :
    slice bars' start i = slice bars start i := by
  refine ext_getElem? fun k => ?_
  rw [slice, slice, List.getElem?_drop, List.getElem?_drop]
  by_cases inside : start + k < i
  · rw [List.getElem?_take_of_lt inside, List.getElem?_take_of_lt inside]
    cases found : bars[start + k]? with
    | none => exact List.getElem?_eq_none_iff.mpr (length ▸ List.getElem?_eq_none_iff.mp found)
    | some row =>
      have member : (slice bars start i)[k]? = some row := by
        rw [slice, List.getElem?_drop, List.getElem?_take_of_lt inside, found]
      exact published _ row found (inTime row (mem_of_getElem? member))
  · rw [List.getElem?_eq_none (by simp only [length_take]; omega),
      List.getElem?_eq_none (by simp only [length_take]; omega)]

/-- The decision at an index, with the bars that it rests on. -/
structure Selects (A : StudyArithmetic) (p : StudyParameters) (bars : List StudyBar) (i : Nat) (b : StudyBar) (d : Decision) :
    Prop where
  published : ∀ row ∈ (if p.scenarioPolicy.isSome then slice bars 0 i else slice bars (i - 60) i), row.availableAt ≤ b.time
  entry : d.entry = b.opening
  positive : 0 < b.opening
  levels : ∃ close, levels A p close ((atr14 A bars)[i - 1]?.join) b.opening = .ok (some (d.target, d.invalidation))

theorem decision_selects (h : decision A p bars i = .ok (some d)) (found : bars[i]? = some b) : Selects A p bars i b d := by
  simp only [decision, found, demand_some_bind, ok_iff] at h
  obtain ⟨last, -, h⟩ := h
  by_cases late : ∃ row ∈ (if p.scenarioPolicy.isSome then slice bars 0 i else slice bars (i - 60) i), b.time < row.availableAt
  · rw [if_pos late] at h
    cases h
  · rw [if_neg late] at h
    simp only [ok_iff] at h
    obtain ⟨first, -, latest, -, -, h⟩ := h
    split at h
    · cases h
    · simp only [ok_iff] at h
      obtain ⟨positive, found', hfound, h⟩ := h
      cases found' with
      | none => cases h
      | some pair =>
        obtain ⟨target, invalidation⟩ := pair
        simp only at h
        split at h
        · cases h
        · simp only [ok_iff] at h
          obtain ⟨_, -, _, -, h⟩ := h
          cases h
          refine ⟨fun row hrow => ?_, rfl, positive, latest.close, hfound⟩
          by_contra after
          exact late ⟨row, hrow, by omega⟩

end Study

/-- On two lists that agree before a bar and on its open the study makes the same decision at that bar, and it rests on
    what was published by then and the open of its own bar. -/
theorem study_decides_without_look_ahead (A : StudyArithmetic) (p : StudyParameters) (bars bars' : List StudyBar)
    (times : bars'.map (·.time) = bars.map (·.time)) (publications : bars'.map (·.availableAt) = bars.map (·.availableAt))
    (r r' : StudyResult) (studied : evaluate A p bars = .ok r) (studied' : evaluate A p bars' = .ok r')
    (i : Nat) (opens : bars'[i]?.map (·.opening) = bars[i]?.map (·.opening)) :
    r.cases.map (fun c => (c.time, c.regime)) = (indices p bars).filterMap (fun i =>
      (decided A p bars i).bind fun d => bars[i]?.map fun b => (b.time, d.regime)) ∧
    (bars'.take i = bars.take i → decided A p bars' i = decided A p bars i) ∧
    (∀ d b, decided A p bars i = some d → bars[i]? = some b →
      (∀ (j : Nat) (row : StudyBar), bars[j]? = some row → row.availableAt ≤ b.time → bars'[j]? = some row) →
      Study.decided A p bars' i = some d) := by
  obtain ⟨visited, completes, rfl⟩ := Study.evaluate_eq_ok studied
  obtain ⟨visited', completes', -⟩ := Study.evaluate_eq_ok studied'
  have length : bars'.length = bars.length := by simpa using congrArg List.length times
  have indices := indices_congr (p := p) length
  -- the decision at an index that is visited depends on the rows before it that it needs
  have same : i ∈ Study.indices p bars →
      Study.slice bars' (i - 60) i = Study.slice bars (i - 60) i →
      (p.scenarioPolicy.isSome → bars'.take i = bars.take i) → Study.decision A p bars' i = Study.decision A p bars i := by
    intro hi recent all
    obtain ⟨warm, inside⟩ := bounds_of_mem_indices hi
    have hlt : i < bars.length := by omega
    have hlt' : i < bars'.length := by omega
    have time : ∀ j : Nat, bars'[j]?.map (·.time) = bars[j]?.map (·.time) := fun j => by
      rw [← List.getElem?_map, times, List.getElem?_map]
    obtain ⟨last, final⟩ := Option.ne_none_iff_exists'.mp (show bars.getLast? ≠ none by simp; rintro rfl; simp at hlt)
    obtain ⟨last', final'⟩ := Option.ne_none_iff_exists'.mp (show bars'.getLast? ≠ none by simp; rintro rfl; simp at hlt')
    have end_ : last'.time = last.time := by
      have final_time := time (bars.length - 1)
      rw [List.getLast?_eq_getElem?] at final final'
      rw [length] at final'
      simpa [final, final'] using final_time
    have found := List.getElem?_eq_getElem hlt
    have found' := List.getElem?_eq_getElem hlt'
    refine decision_congr (by omega) found found' ?_ ?_ final final' end_ recent all
    · simpa [found, found'] using time i
    · simpa [found, found'] using opens
  refine ⟨Study.cases_decided completes, fun before => ?_, fun d b selected found published => ?_⟩
  · by_cases hi : i ∈ Study.indices p bars
    · have hi' : i ∈ Study.indices p bars' := indices ▸ hi
      rw [Study.decided, Study.decided, if_pos hi, if_pos hi', same hi (by rw [Study.slice, Study.slice, before]) fun _ => before]
    · have hi' : i ∉ Study.indices p bars' := indices ▸ hi
      rw [Study.decided, Study.decided, if_neg hi, if_neg hi']
  · have hi : i ∈ Study.indices p bars := by
      by_contra hi
      simp [Study.decided, hi] at selected
    have hi' : i ∈ Study.indices p bars' := indices ▸ hi
    obtain ⟨d', decision, rfl⟩ := Study.decision_of_completes completes hi
    rw [selected] at decision
    have inTime := (decision_selects decision found).published
    have recent : ∀ row ∈ slice bars (i - 60) i, row.availableAt ≤ b.time := by
      intro row hrow
      split at inTime
      · refine inTime row ?_
        rw [slice] at hrow ⊢
        exact mem_of_mem_drop hrow
      · exact inTime row hrow
    rw [decided, if_pos hi', same hi (slice_of_published published length recent) fun policy => ?_, decision]
    · rfl
    · rw [if_pos policy] at inTime
      simpa [slice] using slice_of_published published length inTime

/-- Seventy days that rise slowly; one case is selected, with the given open. From then on the bars are shifted. -/
def risingBars (opening shift : Rat) : List StudyBar :=
  (List.range 70).map fun k => {
    time := days (20000 + k)
    availableAt := days (20000 + k) + hours 18
    opening := if k = 61 then opening else 100 + k / 10
    high := 110 + if 61 ≤ k then shift else 0
    low := 95
    close := 100 + k / 10 }

def dailyStudy : StudyParameters where
  roundTripCostBps := 10

theorem study_decides_without_look_ahead_rising :
    decided .exact dailyStudy (risingBars 106 5) 61 = decided .exact dailyStudy (risingBars 106 0) 61 ∧
      decided .exact dailyStudy (risingBars 106 0) 61 ≠ none := by
  obtain ⟨r, studied, selected, times, publications, opens, before⟩ := exists_of_toOption
    (show ∃ r ∈ (evaluate .exact dailyStudy (risingBars 106 0)).toOption,
      decided .exact dailyStudy (risingBars 106 0) 61 ≠ none ∧
      (risingBars 106 5).map (·.time) = (risingBars 106 0).map (·.time) ∧
      (risingBars 106 5).map (·.availableAt) = (risingBars 106 0).map (·.availableAt) ∧
      (risingBars 106 5)[61]?.map (·.opening) = (risingBars 106 0)[61]?.map (·.opening) ∧
      (risingBars 106 5).take 61 = (risingBars 106 0).take 61 by decide +kernel)
  obtain ⟨r', studied', -⟩ := exists_of_toOption
    (show ∃ r ∈ (evaluate .exact dailyStudy (risingBars 106 5)).toOption, True by decide +kernel)
  exact ⟨(study_decides_without_look_ahead .exact dailyStudy _ _ times publications r r' studied studied' 61 opens).2.1 before,
    selected⟩

/-- The open of the bar of a decision is published after the decision and moves its thresholds. -/
theorem open_moves_thresholds : (∃ r ∈ (evaluate .exact dailyStudy (risingBars 106 0)).toOption, r.observations = 1) ∧
    (∃ r ∈ (evaluate .exact dailyStudy (risingBars 107 0)).toOption, r.observations = 1) ∧
    (risingBars 107 0).map (·.time) = (risingBars 106 0).map (·.time) ∧
    (risingBars 107 0).map (·.availableAt) = (risingBars 106 0).map (·.availableAt) ∧
    (∀ pair ∈ (risingBars 106 0).zip (risingBars 107 0), pair.1.availableAt ≤ days 20061 → pair.2 = pair.1) ∧
    (∃ b ∈ (risingBars 106 0)[61]?, b.time = days 20061 ∧ b.time < b.availableAt) ∧
    (decided .exact dailyStudy (risingBars 106 0) 61).map (·.target) = some (583 / 5) ∧
    (decided .exact dailyStudy (risingBars 107 0) 61).map (·.target) = some (1177 / 10) := by
  decide +kernel

namespace Study
variable {A : StudyArithmetic} {p : StudyParameters} {bars : List StudyBar} {i : Nat} {b row : StudyBar}

theorem mem_slice {start stop : Nat} : row ∈ slice bars start stop ↔ ∃ j, start ≤ j ∧ j < stop ∧ bars[j]? = some row := by
  rw [slice, mem_iff_getElem?]
  constructor
  · rintro ⟨k, found⟩
    rw [List.getElem?_drop, List.getElem?_take] at found
    split at found
    next inside => exact ⟨start + k, Nat.le_add_right _ _, inside, found⟩
    next => cases found
  · rintro ⟨j, hstart, hstop, found⟩
    exact ⟨j - start, by rw [List.getElem?_drop, Nat.add_sub_cancel' hstart, List.getElem?_take_of_lt hstop, found]⟩

variable {h start : Int} {j : Nat} {entry : Rat} {d : Decision} {c : StudyCase}

section
variable (chronological : bars.Pairwise fun a b => a.time < b.time)
include chronological

theorem time_lt_iff {i : Nat} {a b : StudyBar}
    (ha : bars[i]? = some a) (hb : bars[j]? = some b) : a.time < b.time ↔ i < j := by
  obtain ⟨hi, rfl⟩ := List.getElem?_eq_some_iff.mp ha
  obtain ⟨hj, rfl⟩ := List.getElem?_eq_some_iff.mp hb
  have ordered := pairwise_iff_getElem.mp chronological
  refine ⟨fun earlier => ?_, ordered i j hi hj⟩
  by_contra h
  rcases Nat.lt_or_ge j i with later | same
  · exact absurd (ordered j i hj hi later) (by omega)
  · obtain rfl : i = j := by omega
    omega

theorem lt_bisectLeft_iff {instant : Int}
    (found : bars[j]? = some row) : j < bisectLeft bars instant ↔ row.time < instant := by
  obtain ⟨inside, rfl⟩ := List.getElem?_eq_some_iff.mp found
  constructor
  · intro before
    unfold bisectLeft at before
    simpa using not_of_lt_findIdx before
  · intro early
    refine lt_findIdx_of_not inside fun k hk => ?_
    have upTo : bars[k].time ≤ bars[j].time := by
      rcases Nat.lt_or_ge k j with before | same
      · exact ((time_lt_iff chronological (List.getElem?_eq_getElem (by omega)) found).mpr before).le
      · obtain rfl : k = j := by omega
        exact le_rfl
    simp only [decide_eq_true_eq, not_le]
    omega

theorem mem_future (found : bars[i]? = some b) :
    row ∈ future p bars i b.time ↔ row ∈ bars ∧ b.time ≤ row.time ∧ row.time < b.time + days (horizon p) := by
  rw [future, mem_slice]
  constructor
  · rintro ⟨j, after, before, hrow⟩
    refine ⟨mem_of_getElem? hrow, ?_, (lt_bisectLeft_iff chronological hrow).mp before⟩
    by_contra earlier
    have := (time_lt_iff chronological hrow found).mp (by omega)
    omega
  · rintro ⟨member, after, before⟩
    obtain ⟨j, hrow⟩ := mem_iff_getElem?.mp member
    refine ⟨j, ?_, (lt_bisectLeft_iff chronological hrow).mpr before, hrow⟩
    by_contra earlier
    have := (time_lt_iff chronological hrow found).mpr (by omega)
    omega

end

/-! ### One case, with exact arithmetic -/

theorem change_exact (entry price : Rat) : change .exact entry price = price / entry - 1 := rfl

theorem change_le {x y : Rat} (positive : 0 < entry) (le : x ≤ y) : change .exact entry x ≤ change .exact entry y :=
  sub_le_sub_right (div_le_div_of_nonneg_right le positive.le) 1

theorem change_self (positive : 0 < entry) : change .exact entry entry = 0 := by
  rw [change_exact, div_self positive.ne', sub_self]

theorem scenarioLevels_ordered {policy : SignalPolicy} {close target invalidation : Rat} {atr : Option Rat}
    (h : scenarioLevels A policy close atr entry = .ok (some (target, invalidation))) : entry < target := by
  unfold scenarioLevels at h
  cases atr with
  | none => cases h
  | some atr =>
    simp only at h
    split at h
    · cases h
    · simp only [ok_iff] at h
      obtain ⟨_, -, _, -, _, -, h⟩ := h
      split at h
      · simp only [ok_iff] at h
        obtain ⟨_, -, _, -, h⟩ := h
        split at h
        next ordered =>
          cases h
          exact ordered.2.2
        next => cases h
      · cases h

theorem decision_entry (fraction : 0 < p.targetFraction) (found : bars[i]? = some b)
    (h : decision .exact p bars i = .ok (some d)) : d.entry = b.opening ∧ 0 < d.entry ∧ d.entry < d.target := by
  obtain ⟨-, entry, positive, close, found⟩ := decision_selects h found
  refine ⟨entry, entry ▸ positive, ?_⟩
  rw [entry]
  unfold levels at found
  split at found
  · have target := congrArg Prod.fst (Option.some.inj (Except.ok.inj found))
    have : 0 < b.opening * p.targetFraction := mul_pos positive fraction
    simp only [StudyArithmetic.exact, id] at target
    linarith
  · exact scenarioLevels_ordered found

/-- What following the bars of a window leaves: an outcome within the extremes, and at most one day. -/
structure Follows (horizon : Int) (lo hi : Rat) (m : Measurement) : Prop where
  low : lo ≤ m.outcome
  high : m.outcome ≤ hi
  one : m.targetDay = none ∨ m.invalidationDay = none
  targetDay : ∀ day ∈ m.targetDay, 1 ≤ day ∧ day ≤ horizon
  invalidationDay : ∀ day ∈ m.invalidationDay, 1 ≤ day ∧ day ≤ horizon

def StudyBarValid (b : StudyBar) : Prop := b.low ≤ min b.opening b.close ∧ max b.opening b.close ≤ b.high

theorem day_bounds {time : Int} (after : start ≤ time) (before : time < start + days h) :
    1 ≤ (time - start) / days 1 + 1 ∧ (time - start) / days 1 + 1 ≤ h := by
  simp only [days, hours, minutes, seconds] at before ⊢
  omega

theorem follow_spec {lo hi outcome : Rat} (positive : 0 < d.entry)
    (above : d.entry < d.target) (below : lo ≤ 0) (hlo : lo ≤ outcome) (hhi : outcome ≤ hi) : ∀ {rows : List StudyBar},
    (∀ row ∈ rows, StudyBarValid row ∧ start ≤ row.time ∧ row.time < start + days h ∧
      lo ≤ change .exact d.entry row.low ∧ change .exact d.entry row.high ≤ hi) →
    Follows h lo hi (follow .exact d start outcome rows)
  | [], _ => ⟨hlo, hhi, .inl rfl, by simp [follow], by simp [follow]⟩
  | row :: rest, within => by
    obtain ⟨valid, after, before, low, high⟩ := within row mem_cons_self
    have day := day_bounds after before
    have opening : row.low ≤ row.opening ∧ row.opening ≤ row.high :=
      ⟨valid.1.trans (min_le_left _ _), (le_max_left _ _).trans valid.2⟩
    rw [follow]
    split
    next touched =>
      refine ⟨le_min ?_ ?_, ?_, .inl rfl, by simp, by simpa using day⟩
      · exact low.trans (change_le positive opening.1)
      · exact low.trans (change_le positive touched)
      · exact (min_le_left _ _).trans ((change_le positive opening.2).trans high)
    next =>
      split
      next touched =>
        refine ⟨?_, (change_le positive touched).trans high, .inr rfl, by simpa using day, by simp⟩
        -- the bar may open above the target, but the window began at the entry
        exact below.trans ((change_self positive).symm.le.trans (change_le positive above.le))
      next => exact follow_spec positive above below hlo hhi fun row hrow => within row (mem_cons_of_mem _ hrow)

/-- The extremes enclose the gross return, and at most one threshold is touched, within the horizon. -/
def Accounted (p : StudyParameters) (cost : Rat) (c : StudyCase) : Prop :=
  c.mae ≤ c.measuredReturn + cost ∧ c.measuredReturn + cost ≤ c.mfe ∧ (c.targetDay = none ∨ c.invalidationDay = none) ∧
    (∀ day ∈ c.targetDay, 1 ≤ day ∧ day ≤ p.horizonDays) ∧ ∀ day ∈ c.invalidationDay, 1 ≤ day ∧ day ≤ p.horizonDays

theorem case_accounting {cost : Rat} (valid : ∀ b ∈ bars, StudyBarValid b)
    (chronological : bars.Pairwise fun a b => a.time < b.time) (horizon_pos : 1 ≤ p.horizonDays)
    (fraction : 0 < p.targetFraction) (h : decision .exact p bars i = .ok (some d))
    (measured : measure .exact p bars cost i d = .ok c) :
    Accounted p cost c := by
  obtain ⟨b, final, found, hfinal, hmae, hmfe, -, -, hreturn, htarget, hinvalidation⟩ := measure_eq_ok measured
  obtain ⟨entry, positive, above⟩ := decision_entry fraction found h
  have days_horizon : ((horizon p : Nat) : Int) = p.horizonDays := by simp [horizon]; omega
  have window : ∀ row ∈ future p bars i b.time, row ∈ bars ∧ b.time ≤ row.time ∧ row.time < b.time + days p.horizonDays :=
    fun row hrow => days_horizon ▸ (mem_future chronological found).mp hrow
  have low : ∀ row ∈ future p bars i b.time, c.mae ≤ change .exact d.entry row.low := fun row hrow =>
    (List.min?_eq_some_iff.mp hmae).2 _ (mem_map_of_mem hrow)
  have high : ∀ row ∈ future p bars i b.time, change .exact d.entry row.high ≤ c.mfe := fun row hrow =>
    (List.max?_eq_some_iff.mp hmfe).2 _ (mem_map_of_mem hrow)
  -- the window begins with the bar of the decision, whose low is no higher than the entry
  have first : b ∈ future p bars i b.time := by
    refine (mem_future chronological found).mpr ⟨mem_of_getElem? found, le_rfl, ?_⟩
    have : 0 < days (horizon p) := by
      simp only [days, hours, minutes, seconds]
      omega
    omega
  have below : c.mae ≤ 0 := by
    have opening := (valid b (mem_of_getElem? found)).1.trans (min_le_left _ _)
    exact (low b first).trans ((change_le positive (entry ▸ opening)).trans (change_self positive).le)
  have last := mem_of_getLast? hfinal
  have lastValid := valid final (window final last).1
  obtain ⟨hlow, hhigh, one, target, invalidation⟩ := follow_spec positive above below
    ((low final last).trans (change_le positive (lastValid.1.trans (min_le_right _ _))))
    ((change_le positive ((le_max_right _ _).trans lastValid.2)).trans (high final last))
    fun row hrow => ⟨valid row (window row hrow).1, (window row hrow).2.1, (window row hrow).2.2, low row hrow, high row hrow⟩
  rw [Accounted, hreturn, htarget, hinvalidation]
  simp only [StudyArithmetic.exact, id, sub_add_cancel]
  exact ⟨hlow, hhigh, one, target, invalidation⟩

theorem cases_accounting (valid : ∀ b ∈ bars, StudyBarValid b)
    (h : Completes .exact p bars visited) (hc : c ∈ visited.reduceOption) : Accounted p (p.roundTripCostBps / 10000) c := by
  have chronological : bars.Pairwise fun a b => a.time < b.time :=
    Consecutive.pairwise
      (fun _ _ _ _ before after => before.trans after) (fun _ _ => trivial) h.chronological
  obtain ⟨i, -, visited⟩ := exists_of_mem_mapM h.visits _ (reduceOption_mem_iff.mp hc)
  rcases visit_eq_ok visited with ⟨-, ⟨⟩⟩ | ⟨d, _, selected, measured, ⟨⟩⟩
  exact case_accounting valid chronological h.parameters.1.1 h.parameters.2.1.1 selected measured

/-! ### The summary -/

/-- The value never falls below zero and never rises above its peak, so that the drawdown is a fraction. -/
structure Drawdown.Bounded (s : Drawdown) : Prop where
  value : 0 ≤ s.value
  peak : 1 ≤ s.peak
  nonneg : 0 ≤ s.maximum
  le_one : s.maximum ≤ 1

theorem Drawdown.bounded_start : ({} : Drawdown).Bounded := ⟨by decide, by decide, by decide, by decide⟩

theorem Drawdown.Bounded.next {s : Drawdown} (h : s.Bounded) (change : Rat) : (s.next .exact change).Bounded := by
  have value : 0 ≤ s.value * max 0 (1 + change) := mul_nonneg h.value (le_max_left _ _)
  have peak : 1 ≤ max s.peak (s.value * max 0 (1 + change)) := h.peak.trans (le_max_left _ _)
  refine ⟨value, peak, h.nonneg.trans (le_max_left _ _), max_le h.le_one ?_⟩
  simp only [StudyArithmetic.exact, id]
  rw [div_le_one (by linarith)]
  linarith

theorem drawdown_bounded (returns : List Rat) : ∀ {s : Drawdown}, s.Bounded →
    (returns.foldl (Drawdown.next .exact) s).Bounded := by
  induction returns with
  | nil => exact id
  | cons change returns ih =>
    intro s h
    exact ih (h.next change)

theorem foldSection_map {α β : Type} (f : α → β) (values : List α) (k : Nat) :
    foldSection (values.map f) k = (foldSection values k).map f := by
  simp [foldSection, map_take, map_drop]

theorem foldSection_partition {α : Type} (values : List α) :
    foldSection values 0 ++ (foldSection values 1 ++ foldSection values 2) = values := by
  have join : ∀ {a b : Nat}, a ≤ b → values.take a ++ (values.take b).drop a = values.take b := fun {a b} le => by
    rw [← Nat.min_eq_left le, ← take_take, Nat.min_eq_left le, take_append_drop]
  have first : foldSection values 0 = values.take (values.length * 1 / 3) := by simp [foldSection]
  rw [← append_assoc, first]
  simp only [foldSection]
  rw [join (by omega), join (by omega), take_of_length_le (by omega)]

theorem folds_eq (cases : List StudyCase) : (List.range 3).map (fold A (cases.map (·.measuredReturn))) =
    [foldSection cases 0, foldSection cases 1, foldSection cases 2].map fun s =>
      { observations := s.length, meanReturn := mean A (s.map (·.measuredReturn)) } := by
  simp [fold, foldSection_map, range_succ]

theorem days_apart (daily : ∀ pair ∈ bars.zip bars.tail, pair.1.time + hours 24 ≤ pair.2.time) {b : StudyBar}
    (hb : bars[i]? = some b) (k : Nat) : ∀ {c : StudyBar}, bars[i + k]? = some c → b.time + days k ≤ c.time := by
  induction k with
  | zero =>
    intro c hc
    cases hb.symm.trans hc
    simp [days, hours, minutes, seconds]
  | succ k ih =>
    intro c hc
    have inside := (List.getElem?_eq_some_iff.mp hc).1
    have before := List.getElem?_eq_getElem (show i + k < bars.length by omega)
    have apart := Consecutive.getElem (R := fun b c : StudyBar => b.time + hours 24 ≤ c.time) daily before hc
    have earlier := ih before
    simp only [days, hours, minutes, seconds] at earlier apart ⊢
    omega

theorem indices_apart : (indices p bars).Pairwise fun i j => i + horizon p ≤ j := by
  by_cases none : horizon p = 0
  · simp [indices, none]
  refine List.Pairwise.imp_of_mem (fun hi hj before => ?_) (pairwise_lt_range' (horizon p) (by omega))
  obtain ⟨k, -, rfl⟩ := mem_range'.mp hi
  obtain ⟨l, -, rfl⟩ := mem_range'.mp hj
  have : k < l := by
    by_contra le
    have := Nat.mul_le_mul_left (horizon p) (Nat.le_of_not_lt le)
    omega
  have := Nat.mul_le_mul_left (horizon p) this
  rw [Nat.mul_succ] at this
  omega

theorem cases_apart (h : Completes A p bars visited)
    (daily : ∀ pair ∈ bars.zip bars.tail, pair.1.time + hours 24 ≤ pair.2.time) :
    visited.reduceOption.Pairwise fun c c' => c.time + days p.horizonDays ≤ c'.time := by
  have times : visited.reduceOption.map (·.time) = (indices p bars).filterMap fun i =>
      ((decided A p bars i).bind fun d => bars[i]?.map fun b => (b.time, d.regime)).map Prod.fst := by
    rw [← map_filterMap, ← cases_decided h, map_map]
    rfl
  have time : ∀ {i : Nat} {t : Int}, ((decided A p bars i).bind fun d => bars[i]?.map fun b => (b.time, d.regime)).map
      Prod.fst = some t → ∃ b, bars[i]? = some b ∧ t = b.time := by
    intro i t ht
    simp only [Option.map_eq_some_iff, Option.bind_eq_some_iff] at ht
    obtain ⟨_, ⟨d, -, b, hb, rfl⟩, rfl⟩ := ht
    exact ⟨b, hb, rfl⟩
  suffices apart : (visited.reduceOption.map (·.time)).Pairwise fun t t' => t + days p.horizonDays ≤ t' from
    pairwise_map.mp apart
  rw [times, pairwise_filterMap]
  refine indices_apart.imp fun {i j} apart t ht t' ht' => ?_
  obtain ⟨b, hb, rfl⟩ := time ht
  obtain ⟨b', hb', rfl⟩ := time ht'
  obtain ⟨k, rfl⟩ := Nat.exists_eq_add_of_le apart
  have far := days_apart daily hb (horizon p + k) (by rw [← Nat.add_assoc]; exact hb')
  simp only [days, hours, minutes, seconds, horizon] at far ⊢
  omega

theorem evaluate_consistent {r : StudyResult} (valid : ∀ b ∈ bars, StudyBarValid b) (h : evaluate .exact p bars = .ok r) :
    r.consistent = .ok () := by
  obtain ⟨visited, completes, rfl⟩ := evaluate_eq_ok h
  have drawdown := drawdown_bounded (visited.reduceOption.map (·.measuredReturn)) Drawdown.bounded_start
  have within := completes.parameters.1.2
  simp only [StudyResult.consistent, ok_iff]
  refine ⟨⟨⟨drawdown.nonneg, drawdown.le_one⟩, fun c hc => ?_⟩, rfl, ?_, fun some_ => ?_⟩
  · obtain ⟨-, -, -, target, invalidation⟩ := cases_accounting valid completes hc
    exact ⟨fun day hday => ⟨(target day hday).1, (target day hday).2.trans within⟩,
      fun day hday => ⟨(invalidation day hday).1, (invalidation day hday).2.trans within⟩⟩
  · have lengths := congrArg List.length (foldSection_partition visited.reduceOption)
    simp only [length_append] at lengths
    simpa [summarize, folds_eq] using lengths
  · have returns : visited.reduceOption.map (·.measuredReturn) ≠ [] := by
      simpa [summarize, length_eq_zero_iff] using some_
    simp [summarize, mean, returns]

end Study

def StudyCase.window (c : StudyCase) (p : StudyParameters) (bars : List StudyBar) : List StudyBar :=
  bars.filter fun b => c.time ≤ b.time ∧ b.time < c.time + days p.horizonDays

/-- In exact arithmetic the extremes of a case enclose its gross return, at most one threshold is touched, the drawdown
    is a fraction, and no two cases share a bar. -/
theorem study_accounting (p : StudyParameters) (bars : List StudyBar)
    (valid : ∀ b ∈ bars, b.low ≤ min b.opening b.close ∧ max b.opening b.close ≤ b.high) (r : StudyResult)
    (studied : evaluate .exact p bars = .ok r) :
    (∀ c ∈ r.cases, c.mae ≤ c.measuredReturn + p.roundTripCostBps / 10000 ∧
      c.measuredReturn + p.roundTripCostBps / 10000 ≤ c.mfe ∧ (c.targetDay = none ∨ c.invalidationDay = none) ∧
      (∀ day ∈ c.targetDay, 1 ≤ day ∧ day ≤ p.horizonDays) ∧ ∀ day ∈ c.invalidationDay, 1 ≤ day ∧ day ≤ p.horizonDays) ∧
    (0 ≤ r.maximumDrawdown ∧ r.maximumDrawdown ≤ 1) ∧
    (∃ s₁ s₂ s₃ : List StudyCase, s₁ ++ (s₂ ++ s₃) = r.cases ∧ r.walkForwardFolds = [s₁, s₂, s₃].map fun s =>
      { observations := s.length, meanReturn := mean .exact (s.map (·.measuredReturn)) }) ∧
    ((∀ pair ∈ bars.zip bars.tail, pair.1.time + hours 24 ≤ pair.2.time) →
      r.cases.Pairwise fun c c' => (c.window p bars).Disjoint (c'.window p bars)) := by
  obtain ⟨visited, completes, rfl⟩ := evaluate_eq_ok studied
  refine ⟨fun c hc => ?_, ?_, ?_, fun daily => ?_⟩
  · exact cases_accounting valid completes hc
  · have bounded := drawdown_bounded (visited.reduceOption.map (·.measuredReturn)) Study.Drawdown.bounded_start
    exact ⟨bounded.nonneg, bounded.le_one⟩
  · refine ⟨_, _, _, foldSection_partition visited.reduceOption, ?_⟩
    exact folds_eq _
  · refine (cases_apart completes daily).imp fun {c c'} apart b hb hb' => ?_
    simp only [StudyCase.window, mem_filter, decide_eq_true_eq] at hb hb'
    omega

def shortStudy : StudyParameters := { dailyStudy with horizonDays := 3 }

theorem study_accounting_rising : ∃ r, evaluate .exact shortStudy (risingBars 106 0) = .ok r ∧ r.observations = 2 ∧
    r.cases.Pairwise fun c c' => (c.window shortStudy (risingBars 106 0)).Disjoint (c'.window shortStudy (risingBars 106 0)) := by
  obtain ⟨r, studied, two, valid, daily⟩ := exists_of_toOption
    (show ∃ r ∈ (evaluate .exact shortStudy (risingBars 106 0)).toOption, r.observations = 2 ∧
      (∀ b ∈ risingBars 106 0, b.low ≤ min b.opening b.close ∧ max b.opening b.close ≤ b.high) ∧
      ∀ pair ∈ (risingBars 106 0).zip (risingBars 106 0).tail, pair.1.time + hours 24 ≤ pair.2.time by decide +kernel)
  exact ⟨r, studied, two, (study_accounting shortStudy _ valid r studied).2.2.2 daily⟩

end Money
