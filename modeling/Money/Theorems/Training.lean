import Money.Training

/-! The cutoffs of the folds form a chain that ends in the training cutoff; a fit sees only outcomes before its own
    cutoff, and its evaluation only outcomes before the next one. -/

namespace Money.Training
open Checked List

/-! ### Rows that are evaluated -/

theorem sublist_nonOverlapping : ∀ (last : String → Int) (rows : List TrainingObservation),
    (nonOverlapping last rows).Sublist rows
  | _, [] => .slnil
  | last, row :: rows => by
    rw [nonOverlapping]
    split
    · exact (sublist_nonOverlapping _ rows).cons_cons row
    · exact (sublist_nonOverlapping last rows).cons row

theorem lt_predictionTime_of_mem_nonOverlapping {row : TrainingObservation} :
    ∀ {last : String → Int} {rows : List TrainingObservation}, row ∈ nonOverlapping last rows →
      last row.ticker < row.predictionTime
  | last, first :: rows, h => by
    have hwindow := first.chronological
    rw [nonOverlapping] at h
    split at h
    case isTrue hfirst =>
      rcases mem_cons.mp h with rfl | hlater
      · exact hfirst
      · have hafter := lt_predictionTime_of_mem_nonOverlapping hlater
        by_cases hsame : row.ticker = first.ticker
        · rw [hsame] at hafter ⊢
          rw [Function.update_self] at hafter
          omega
        · rwa [Function.update_of_ne hsame] at hafter
    case isFalse => exact lt_predictionTime_of_mem_nonOverlapping h

def Apart (a b : TrainingObservation) : Prop :=
  a.ticker = b.ticker → a.labelEnd < b.predictionTime ∨ b.labelEnd < a.predictionTime

theorem pairwise_nonOverlapping : ∀ (last : String → Int) (rows : List TrainingObservation),
    (nonOverlapping last rows).Pairwise Apart
  | _, [] => .nil
  | last, row :: rows => by
    rw [nonOverlapping]
    split
    · refine pairwise_cons.mpr ⟨fun later hlater hsame => .inl ?_, pairwise_nonOverlapping _ rows⟩
      have hafter := lt_predictionTime_of_mem_nonOverlapping hlater
      rwa [← hsame, Function.update_self] at hafter
    · exact pairwise_nonOverlapping last rows

namespace FitPlan
variable {p : FitPlan} {row : TrainingObservation}

theorem mem_train : row ∈ p.train ↔ row ∈ p.candidates ∧
    row.predictionTime < p.fitCutoff ∧ row.labelEnd < p.fitCutoff ∧ row.labelAvailableAt < p.fitCutoff := by
  simp [train]

theorem mem_available : row ∈ p.available ↔ row ∈ p.validationRows ∧ row.labelAvailableAt ≤ p.evaluationCutoff := by
  simp [available]

theorem mem_available_of_mem_test (h : row ∈ p.test) : row ∈ p.available := (sublist_nonOverlapping _ _).subset h

theorem length_train_le : p.train.length ≤ p.candidates.length := length_filter_le ..

theorem length_test_le : p.test.length ≤ p.available.length := (sublist_nonOverlapping _ _).length_le

theorem length_available_le : p.available.length ≤ p.validationRows.length := length_filter_le ..

end FitPlan

/-! ### The cutoffs of the folds -/

section
variable (c : TrainingConfiguration) (d : TrainingDataset)

theorem embargo_pos : 0 < c.embargo := by
  have hdays := c.bounded.1.1
  simp only [TrainingConfiguration.embargo, days, hours, minutes, seconds]
  omega

variable {row : TrainingObservation} {t : Int} {i index j : Nat}

theorem mem_preOos : row ∈ preOos c d ↔ row ∈ d.observations ∧ row.predictionTime < c.trainingCutoff := by
  simp [preOos]

theorem pairwise_times : (times c d).Pairwise (· < ·) := by
  have hsorted : (times c d).Pairwise (· ≤ ·) := pairwise_insertionSort ..
  have hnodup : (times c d).Nodup := (perm_insertionSort ..).nodup_iff.mpr (nodup_dedup _)
  exact hsorted.imp₂ (fun _ _ hle hne => lt_of_le_of_ne hle hne) hnodup

theorem lt_trainingCutoff_of_mem_times (h : t ∈ times c d) : t < c.trainingCutoff := by
  rw [times, mem_insertionSort, mem_dedup, mem_map] at h
  obtain ⟨row, hrow, rfl⟩ := h
  exact ((mem_preOos c d).mp hrow).2

theorem pairwise_validationTimes : (validationTimes c d).Pairwise (· < ·) :=
  (pairwise_times c d).sublist (drop_sublist ..)

theorem lt_trainingCutoff_of_mem_validationTimes (h : t ∈ validationTimes c d) : t < c.trainingCutoff :=
  lt_trainingCutoff_of_mem_times c d (mem_of_mem_drop h)

/-- The fit cutoff of fold `index`; after the last fold it is the training cutoff. -/
def cutoff (index : Nat) : Int :=
  match (validationTimes c d)[foldStart c d index]? with
  | some first => first - c.embargo
  | none => c.trainingCutoff

theorem cutoff_le_trainingCutoff (index : Nat) : cutoff c d index ≤ c.trainingCutoff := by
  unfold cutoff
  split
  case h_1 first hfirst =>
    have hlt := lt_trainingCutoff_of_mem_validationTimes c d (mem_of_getElem? hfirst)
    have hpos := embargo_pos c
    omega
  case h_2 => exact le_rfl

theorem foldStart_mono (h : i ≤ j) : foldStart c d i ≤ foldStart c d j :=
  Nat.div_le_div_right (Nat.mul_le_mul_right _ h)

theorem cutoff_mono (h : i ≤ j) : cutoff c d i ≤ cutoff c d j := by
  have hstart := foldStart_mono c d h
  have hlast := cutoff_le_trainingCutoff c d i
  rw [cutoff.eq_def c d j]
  split
  case h_2 => exact hlast
  case h_1 later hlater =>
    obtain ⟨hbound, rfl⟩ := List.getElem?_eq_some_iff.mp hlater
    have hbound' : foldStart c d i < (validationTimes c d).length := by omega
    have hsome := List.getElem?_eq_getElem hbound'
    simp only [cutoff, hsome]
    have hle : (validationTimes c d)[foldStart c d i] ≤ (validationTimes c d)[foldStart c d j] :=
      (pairwise_validationTimes c d).sortedLT.sortedLE.getElem_le_getElem_of_le hstart
    omega

theorem min_selected {first : Int} (h : (selected c d index).min? = some first) :
    (validationTimes c d)[foldStart c d index]? = some first := by
  obtain ⟨hmem, hle⟩ := List.min?_eq_some_iff.mp h
  unfold selected at hmem hle
  cases hdrop : (validationTimes c d).drop (foldStart c d index) with
  | nil => simp [hdrop] at hmem
  | cons start rest =>
    have hstart : (validationTimes c d)[foldStart c d index]? = some start := by
      rw [← List.head?_drop, hdrop, List.head?_cons]
    cases htake : foldStart c d (index + 1) - foldStart c d index with
    | zero => simp [htake] at hmem
    | succ n =>
      rw [hdrop, htake, take_succ_cons] at hmem hle
      have hsorted : (start :: rest).Pairwise (· < ·) := hdrop ▸ (pairwise_validationTimes c d).drop
      have hfirst := hle start mem_cons_self
      rcases mem_cons.mp hmem with rfl | hlater
      · exact hstart
      · have hlt := (pairwise_cons.mp hsorted).1 first (mem_of_mem_take hlater)
        omega

theorem foldPlan_eq_ok {p : FitPlan} (h : foldPlan c d index = .ok p) :
    p.fitCutoff = cutoff c d index ∧ p.evaluationCutoff = cutoff c d (index + 1) ∧
      ∀ row ∈ p.validationRows, p.fitCutoff + c.embargo ≤ row.predictionTime := by
  simp only [foldPlan, ok_iff] at h
  obtain ⟨first, hfirst, rfl⟩ := h
  refine ⟨?_, rfl, fun row hrow => ?_⟩
  · simp only [cutoff, min_selected c d hfirst, planFrom]
  · have hselected := of_decide_eq_true (mem_filter.mp hrow).2
    have hle := (List.min?_eq_some_iff.mp hfirst).2 row.predictionTime hselected
    simp only [planFrom]
    omega

theorem le_predictionTime_of_mem_heldOut (h : row ∈ (heldOutPlan c d).validationRows) :
    c.trainingCutoff + c.embargo ≤ row.predictionTime := (of_decide_eq_true (mem_filter.mp h).2).1

end

/-! ### What an evaluation says about its plan -/

/-- Every candidate is trained on or purged, every validation row evaluated or excluded for one reason. -/
structure Counted (p : FitPlan) (e : FitEvaluation) : Prop where
  trained : e.trainingObservations = p.train.length
  candidates : e.trainingObservations + e.purgedTrainingObservations = p.candidates.length
  tested : e.metrics.observations = p.test.length
  validated : e.metrics.observations + e.excludedOverlappingLabels + e.excludedUnavailableLabels = p.validationRows.length

section
variable {s : Solver} {c : TrainingConfiguration} {p : FitPlan} {e : FitEvaluation}

theorem metrics_eq_ok {rows : List TrainingObservation} {fitted : Fit} {m : RegressionMetrics}
    (h : metrics s rows fitted = .ok m) : m.observations = rows.length := by
  simp only [metrics, ok_iff] at h
  obtain ⟨_, _, rfl⟩ := h
  rfl

section
variable (h : evaluate s c p = .ok e)
include h

theorem evaluate_counted : Counted p e := by
  simp only [evaluate, ok_iff] at h
  obtain ⟨-, -, -, _, -, _, -, _, -, _, -, _, -, measured, hmeasured, rfl⟩ := h
  have hobservations := metrics_eq_ok hmeasured
  have htrain := p.length_train_le
  have htest := p.length_test_le
  have havailable := p.length_available_le
  constructor <;> simp only [hobservations] <;> omega

theorem evaluate_populated : p.validationRows ≠ [] ∧ p.minimumValidation ≤ p.test.length := by
  simp only [evaluate, ok_iff] at h
  exact ⟨h.1, h.2.2.1⟩

theorem evaluate_fit :
    ∃ fitted, s.fit p.train c.ridgeAlpha = .ok fitted ∧ e.coefficients = fitted.weights ∧ e.intercept = fitted.intercept := by
  simp only [evaluate, ok_iff] at h
  obtain ⟨-, -, -, fitted, hfit, _, -, _, -, _, -, _, -, _, -, rfl⟩ := h
  exact ⟨fitted, hfit, rfl, rfl⟩

theorem evaluate_dates : (∃ row ∈ p.train, row.predictionTime = e.trainingStart) ∧
      ∃ row ∈ p.test, row.predictionTime = e.validationStart ∧ row.labelAvailableAt ≤ e.validationEnd := by
  simp only [evaluate, ok_iff] at h
  obtain ⟨-, -, -, _, -, start, hstart, _, -, first, hfirst, last, hlast, _, -, rfl⟩ := h
  have hmem := mem_of_head? hfirst
  refine ⟨mem_map.mp (List.min?_eq_some_iff.mp hstart).1, first, hmem, rfl, ?_⟩
  exact (List.max?_eq_some_iff.mp hlast).2 _ (mem_map_of_mem hmem)

end

end

/-! ### Separation of the fits -/

/-- Folds are fitted before their embargo, on labels that were known, and their tests do not overlap. -/
structure Separated (c : TrainingConfiguration) (plans : List FitPlan) : Prop where
  fitted : ∀ p ∈ plans, ∀ row ∈ p.train, row.labelEnd < p.fitCutoff ∧ row.labelAvailableAt < p.fitCutoff
  embargoed : ∀ p ∈ plans, ∃ first ∈ p.validationRows.head?, p.fitCutoff + c.embargo ≤ first.predictionTime
  windows : (plans.flatMap (·.test)).Pairwise Apart
  folds : plans.Pairwise fun p q => p.test.Disjoint q.test
  known : plans.IsChain fun p q => ∀ row ∈ p.test, row.labelAvailableAt ≤ q.fitCutoff

/-- What a plan of the experiment meets: it has rows to validate, and they stand behind its embargo. -/
structure Placed (c : TrainingConfiguration) (p : FitPlan) : Prop where
  populated : p.validationRows ≠ []
  embargoed : ∀ row ∈ p.validationRows, p.fitCutoff + c.embargo ≤ row.predictionTime

variable {c : TrainingConfiguration}

theorem Separated.of_placed {plans : List FitPlan} (placed : ∀ p ∈ plans, Placed c p)
    (ordered : plans.Pairwise fun p q => p.evaluationCutoff ≤ q.fitCutoff) : Separated c plans := by
  have hpos := embargo_pos c
  -- A row that one fit evaluates is known before every later fit begins.
  have hbefore : plans.Pairwise fun p q => ∀ a ∈ p.test, ∀ b ∈ q.test, a.labelEnd < b.predictionTime := by
    refine ordered.imp_of_mem fun {p q} hp hq hle a ha b hb => ?_
    have hknown := (FitPlan.mem_available.mp (FitPlan.mem_available_of_mem_test ha)).2
    have hstart := (placed q hq).embargoed b (FitPlan.mem_available.mp (FitPlan.mem_available_of_mem_test hb)).1
    have hwindow := a.chronological
    omega
  refine ⟨fun p _ row hrow => (FitPlan.mem_train.mp hrow).2.2, fun p hp => ?_, ?_, ?_, ?_⟩
  · obtain ⟨first, rest, hrows⟩ := exists_cons_of_ne_nil (placed p hp).populated
    exact ⟨first, by simp [hrows], (placed p hp).embargoed first (by simp [hrows])⟩
  · rw [pairwise_flatMap]
    exact ⟨fun p _ => pairwise_nonOverlapping _ _, hbefore.imp fun hpq a ha b hb _ => .inl (hpq a ha b hb)⟩
  · refine hbefore.imp fun hpq row hp hq => ?_
    have hself := hpq row hp row hq
    have hwindow := row.chronological
    omega
  · refine ordered.isChain.imp fun p q hle row hrow => ?_
    exact (FitPlan.mem_available.mp (FitPlan.mem_available_of_mem_test hrow)).2.trans hle

section
variable {s : Solver} {c : TrainingConfiguration} {d : TrainingDataset}

theorem walkForward_eq_ok {folds : List FitEvaluation} (h : walkForward c d s = .ok folds) :
    ∃ plans, (List.range c.walkForwardFolds).mapM (foldPlan c d) = .ok plans ∧ plans.mapM (evaluate s c) = .ok folds :=
  mapM_bind_eq_ok.mp h

variable {plans : List FitPlan}

theorem foldPlan_getElem (h : (List.range c.walkForwardFolds).mapM (foldPlan c d) = .ok plans)
    {i : Nat} (hi : i < plans.length) : foldPlan c d i = .ok plans[i] := by
  obtain ⟨hlength, hplan⟩ := forall₂_iff_get.mp (forall₂_of_mapM h)
  simpa using hplan i (hlength ▸ hi) hi

theorem pairwise_plans (h : (List.range c.walkForwardFolds).mapM (foldPlan c d) = .ok plans) :
    (plans ++ [heldOutPlan c d]).Pairwise fun p q => p.evaluationCutoff ≤ q.fitCutoff := by
  rw [pairwise_append]
  refine ⟨pairwise_iff_getElem.mpr fun i j hi hj hij => ?_, pairwise_singleton .., fun p hp q hq => ?_⟩
  · rw [(foldPlan_eq_ok c d (foldPlan_getElem h hi)).2.1, (foldPlan_eq_ok c d (foldPlan_getElem h hj)).1]
    exact cutoff_mono c d hij
  · obtain ⟨i, hi, rfl⟩ := mem_iff_getElem.mp hp
    rw [mem_singleton.mp hq, (foldPlan_eq_ok c d (foldPlan_getElem h hi)).2.1]
    exact cutoff_le_trainingCutoff c d (i + 1)

theorem train_eq_ok {r : TrainingResult} (h : train c d s = .ok r) : walkForward c d s = .ok r.validation.walkForward ∧
      evaluate s c (heldOutPlan c d) = .ok r.validation.heldOut ∧
      r.artifact = proposedArtifact c d r.validation.walkForward.length r.validation.heldOut := by
  simp only [train, LinearModelArtifact.validateArtifact, ok_iff] at h
  obtain ⟨-, folds, hfolds, evaluation, hevaluation, artifact, ⟨-, -, -, rfl⟩, rfl⟩ := h
  exact ⟨hfolds, hevaluation, rfl⟩

end

/-! ### A reference experiment -/

/-- A day of a dataset with one prediction a day, whose outcome is known three hours later; `risen` is the outcome. -/
def dailyRow (risen : Bool) (day : Nat) : TrainingObservation where
  ticker := "BARC"
  featureTime := days day
  featureAvailableAt := days day
  predictionTime := days day
  features := List.replicate 5 0
  featureEvidenceHashes := (List.range 21).map toString
  labelStart := days day + hours 1
  labelEnd := days day + hours 2
  labelAvailableAt := days day + hours 3
  labelReturn := if risen then 1 else 0
  labelEvidenceHashes := ["close"]
  bounded := by cases risen <;> decide +kernel
  chronological := by
    simp only [hours, minutes, seconds]
    omega
  distinct := by decide +kernel

/-- A hundred and six days; `risen` is the outcome of day 71 and of all later days. -/
def dailyDataset (risen : Bool) : TrainingDataset where
  version := "daily"
  origin := .syntheticTest
  maximumHorizonDays := 1
  observations := (List.range 106).map fun day => dailyRow (risen && decide (71 ≤ day)) day
  hash := "daily"
  bounded := by simp
  ordered := by
    refine pairwise_map.mpr (pairwise_lt_range.imp fun {i j} hij => .inl ?_)
    simp only [dailyRow, days, hours, minutes, seconds]
    omega
  distinct := by
    rw [map_map]
    refine nodup_range.map_on fun i _ j _ hij => ?_
    simp only [Function.comp, dailyRow, days, hours, minutes, seconds, Prod.mk.injEq, true_and] at hij
    omega
  horizon := by
    intro row hrow
    obtain ⟨day, -, rfl⟩ := mem_map.mp hrow
    simp only [dailyRow, days, hours, minutes, seconds]
    omega

def dailyConfiguration : TrainingConfiguration where
  modelId := "ridge"
  modelVersion := "1"
  trainingCutoff := days 71 + hours 1
  evaluationCutoff := days 106
  embargoDays := 1
  minimumTrainingObservations := 30
  bounded := by decide
  chronology := by decide

def summingSolver : Solver where
  fit rows _ := .ok { weights := List.replicate 5 0, intercept := (rows.map (·.labelReturn)).sum, trainingMean := 0 }
  scores _ _ := .ok { rmse := 0, mae := 0, trainingMeanBaselineRmse := 0, improvesTrainingMeanBaseline := false,
                      directionalAccuracy := 0, rSquared := none }
  rowHash row := toString row.predictionTime
  rowsHash := String.join
  configHash _ := "configuration"
  artifactHash _ := "artifact"

theorem train_dailyDataset (risen : Bool) : ∃ r, train dailyConfiguration (dailyDataset risen) summingSolver = .ok r := by
  have hsome : (train dailyConfiguration (dailyDataset risen) summingSolver).toOption.isSome = true := by
    cases risen <;> decide +kernel
  cases h : train dailyConfiguration (dailyDataset risen) summingSolver with
  | ok r => exact ⟨r, rfl⟩
  | error e => simp [h, Except.toOption] at hsome

/-- The fits of an experiment are separated in time and account for every row; and the windows of the artifact are
    accepted. -/
theorem train_separated (s : Solver) (c : TrainingConfiguration) (d : TrainingDataset) : (∀ r, train c d s = .ok r →
      ∃ plans, (List.range c.walkForwardFolds).mapM (foldPlan c d) = .ok plans ∧ Separated c (plans ++ [heldOutPlan c d]) ∧
        List.Forall₂ Counted (plans ++ [heldOutPlan c d]) (r.validation.walkForward ++ [r.validation.heldOut])) ∧
      ∀ folds e, evaluate s c (heldOutPlan c d) = .ok e → (proposedArtifact c d folds e).Windows := by
  constructor
  · intro r h
    obtain ⟨hfolds, hheld, -⟩ := train_eq_ok h
    obtain ⟨plans, hplans, hevaluated⟩ := walkForward_eq_ok hfolds
    refine ⟨plans, hplans, .of_placed ?_ (pairwise_plans hplans), ?_⟩
    · intro p hp
      rcases mem_append.mp hp with hfold | hlast
      · obtain ⟨e, he⟩ := isOk_of_mapM hevaluated p hfold
        obtain ⟨i, hi, rfl⟩ := mem_iff_getElem.mp hfold
        exact ⟨(evaluate_populated he).1, (foldPlan_eq_ok c d (foldPlan_getElem hplans hi)).2.2⟩
      · cases mem_singleton.mp hlast
        exact ⟨(evaluate_populated hheld).1, fun row => le_predictionTime_of_mem_heldOut c d⟩
    · exact rel_append ((forall₂_of_mapM hevaluated).imp fun p e => evaluate_counted)
        (.cons (evaluate_counted hheld) .nil)
  · intro folds e h
    obtain ⟨⟨row, hrow, hstart⟩, first, hfirst, hvalidation, hend⟩ := evaluate_dates h
    have htrained := (FitPlan.mem_train.mp hrow).2.1
    have hpos := embargo_pos c
    have hembargo := le_predictionTime_of_mem_heldOut c d
      (FitPlan.mem_available.mp (FitPlan.mem_available_of_mem_test hfirst)).1
    have hwindow := first.chronological
    simp only [heldOutPlan] at htrained
    refine ⟨?_, ?_, ?_⟩ <;> simp only [proposedArtifact] <;> omega

theorem train_separated_daily : ∃ r, train dailyConfiguration (dailyDataset false) summingSolver = .ok r ∧
      (∃ plans, (List.range 3).mapM (foldPlan dailyConfiguration (dailyDataset false)) = .ok plans ∧
        Separated dailyConfiguration (plans ++ [heldOutPlan dailyConfiguration (dailyDataset false)]) ∧
        List.Forall₂ Counted (plans ++ [heldOutPlan dailyConfiguration (dailyDataset false)])
          (r.validation.walkForward ++ [r.validation.heldOut])) ∧
      (proposedArtifact dailyConfiguration (dailyDataset false) 3 r.validation.heldOut).Windows := by
  obtain ⟨r, h⟩ := train_dailyDataset false
  obtain ⟨hseparated, hwindows⟩ := train_separated summingSolver dailyConfiguration (dailyDataset false)
  exact ⟨r, h, hseparated r h, hwindows 3 _ (train_eq_ok h).2.1⟩

/-! ### Outcomes after the training cutoff -/

/-- Two rows agree in everything but an outcome that becomes available after the cutoff. -/
structure Alike (cutoff : Int) (a b : TrainingObservation) : Prop where
  ticker : a.ticker = b.ticker
  featureTime : a.featureTime = b.featureTime
  featureAvailableAt : a.featureAvailableAt = b.featureAvailableAt
  predictionTime : a.predictionTime = b.predictionTime
  features : a.features = b.features
  featureEvidenceHashes : a.featureEvidenceHashes = b.featureEvidenceHashes
  labelStart : a.labelStart = b.labelStart
  labelEnd : a.labelEnd = b.labelEnd
  labelAvailableAt : a.labelAvailableAt = b.labelAvailableAt
  labelEvidenceHashes : a.labelEvidenceHashes = b.labelEvidenceHashes
  labelReturn : cutoff < a.labelAvailableAt ∨ a.labelReturn = b.labelReturn

namespace Alike
variable {cutoff : Int} {a b : TrainingObservation} {l m : List TrainingObservation}

theorem eq_of_known (h : Alike cutoff a b) (known : a.labelAvailableAt ≤ cutoff) : a = b := by
  obtain ⟨h₁, h₂, h₃, h₄, h₅, h₆, h₇, h₈, h₉, h₁₀, hreturn⟩ := h
  have hlabel := hreturn.resolve_left (by omega)
  cases a
  cases b
  simp_all

theorem map_eq {β : Type} {f : TrainingObservation → β} (hf : ∀ a b, Alike cutoff a b → f a = f b)
    (h : List.Forall₂ (Alike cutoff) l m) : l.map f = m.map f := by
  induction h with
  | nil => rfl
  | cons hab _ ih => rw [map_cons, map_cons, hf _ _ hab, ih]

theorem filter {keep : TrainingObservation → Bool} (hkeep : ∀ a b, Alike cutoff a b → keep a = keep b)
    (h : List.Forall₂ (Alike cutoff) l m) : List.Forall₂ (Alike cutoff) (l.filter keep) (m.filter keep) := by
  induction h with
  | nil => exact .nil
  | cons hab _ ih =>
    rw [filter_cons, filter_cons, hkeep _ _ hab]
    split
    · exact .cons hab ih
    · exact ih

theorem eq_of_forall_known (h : List.Forall₂ (Alike cutoff) l m) (known : ∀ a ∈ l, a.labelAvailableAt ≤ cutoff) : l = m := by
  induction h with
  | nil => rfl
  | cons hab _ ih =>
    rw [hab.eq_of_known (known _ mem_cons_self), ih fun a ha => known a (mem_cons_of_mem _ ha)]

theorem head? (h : List.Forall₂ (Alike cutoff) l m) : l.head?.map (·.predictionTime) = m.head?.map (·.predictionTime) := by
  cases h with
  | nil => rfl
  | cons hab _ => simp [hab.predictionTime]

end Alike

/-- Two plans with the same cutoffs, whose rows differ only in what is not known at `cutoff`. -/
structure FitPlan.Alike (cutoff : Int) (p q : FitPlan) : Prop where
  name : p.name = q.name
  fitCutoff : p.fitCutoff = q.fitCutoff
  evaluationCutoff : p.evaluationCutoff = q.evaluationCutoff
  minimumValidation : p.minimumValidation = q.minimumValidation
  allRows : List.Forall₂ (Training.Alike cutoff) p.allRows q.allRows
  validationRows : List.Forall₂ (Training.Alike cutoff) p.validationRows q.validationRows

namespace FitPlan.Alike
variable {cutoff : Int} {p q : FitPlan}

section
variable (h : FitPlan.Alike cutoff p q)
include h

theorem candidates : List.Forall₂ (Training.Alike cutoff) p.candidates q.candidates := by
  have hhead := Training.Alike.head? h.validationRows
  have hsame : ∀ a : TrainingObservation,
      (p.validationRows.head?.any fun first => a.predictionTime < first.predictionTime) =
        q.validationRows.head?.any fun first => a.predictionTime < first.predictionTime := by
    intro a
    cases hp : p.validationRows.head? <;> cases hq : q.validationRows.head? <;> simp_all
  unfold FitPlan.candidates
  rw [funext hsame]
  exact Training.Alike.filter (fun a b hab => by simp only [hab.predictionTime]) h.allRows

theorem train_eq (hfit : p.fitCutoff ≤ cutoff) : p.train = q.train := by
  have hrows : List.Forall₂ (Training.Alike cutoff) p.train q.train := by
    unfold FitPlan.train
    rw [← h.fitCutoff]
    refine Training.Alike.filter (fun a b hab => ?_) h.candidates
    simp only [hab.predictionTime, hab.labelEnd, hab.labelAvailableAt]
  refine Training.Alike.eq_of_forall_known hrows fun row hrow => ?_
  have hknown := (mem_train.mp hrow).2.2.2
  omega

theorem available_eq (hevaluation : p.evaluationCutoff ≤ cutoff) :
    p.available = q.available := by
  have hrows : List.Forall₂ (Training.Alike cutoff) p.available q.available := by
    unfold FitPlan.available
    rw [← h.evaluationCutoff]
    exact Training.Alike.filter (fun a b hab => by simp only [hab.labelAvailableAt]) h.validationRows
  exact Training.Alike.eq_of_forall_known hrows fun row hrow => (mem_available.mp hrow).2.trans hevaluation

theorem evaluate_eq (hfit : p.fitCutoff ≤ cutoff)
    (hevaluation : p.evaluationCutoff ≤ cutoff) (s : Solver) (c : TrainingConfiguration) :
    evaluate s c p = evaluate s c q := by
  have htrain := h.train_eq hfit
  have havailable := h.available_eq hevaluation
  have htest : p.test = q.test := by rw [FitPlan.test, havailable, FitPlan.test]
  have hempty : p.validationRows = [] ↔ q.validationRows = [] := by
    rw [← length_eq_zero_iff, ← length_eq_zero_iff, h.validationRows.length_eq]
  unfold evaluate
  simp only [ne_eq, hempty, htrain, havailable, htest, h.name, h.fitCutoff, h.minimumValidation,
    h.candidates.length_eq, h.validationRows.length_eq]

end

end FitPlan.Alike

section
variable {s : Solver} {c : TrainingConfiguration} {d e : TrainingDataset}
  (agree : List.Forall₂ (Alike c.trainingCutoff) (preOos c d) (preOos c e))
include agree

theorem validationTimes_eq : validationTimes c d = validationTimes c e := by
  have htimes : times c d = times c e := by
    rw [times, Alike.map_eq (fun a b hab => hab.predictionTime) agree, times]
  rw [validationTimes, htimes, validationTimes]

theorem walkForward_eq : walkForward c d s = walkForward c e s := by
  have htimes := validationTimes_eq agree
  have hselected : ∀ index, selected c d index = selected c e index := by
    intro index
    simp only [selected, foldStart, htimes]
  have hcutoff : ∀ index, outcomeCutoff c d index = outcomeCutoff c e index := by
    intro index
    simp only [outcomeCutoff, foldStart, htimes]
  unfold walkForward
  congr 1
  funext index
  simp only [foldPlan, ← hselected]
  cases hfirst : (selected c d index).min? with
  | none => rfl
  | some first =>
    have hlt := lt_trainingCutoff_of_mem_validationTimes c d (mem_of_getElem? (min_selected c d hfirst))
    have hpos := embargo_pos c
    have hfit : (planFrom c d index first).fitCutoff ≤ c.trainingCutoff := by
      simp only [planFrom]
      omega
    have hplan : FitPlan.Alike c.trainingCutoff (planFrom c d index first) (planFrom c e index first) := by
      refine ⟨rfl, rfl, hcutoff index, rfl, agree, ?_⟩
      simp only [planFrom, ← hselected]
      exact Alike.filter (fun a b hab => by simp only [hab.predictionTime]) agree
    exact hplan.evaluate_eq hfit (cutoff_le_trainingCutoff c d (index + 1)) s c

end

theorem train_heldOut {d : TrainingDataset} (h : (heldOutPlan c d).validationRows ≠ []) : (heldOutPlan c d).train =
      (preOos c d).filter fun row => row.labelEnd < c.trainingCutoff ∧ row.labelAvailableAt < c.trainingCutoff := by
  obtain ⟨first, rest, hrows⟩ := exists_cons_of_ne_nil h
  have hfirst := le_predictionTime_of_mem_heldOut c d (show first ∈ _ by rw [hrows]; exact mem_cons_self)
  have hpos := embargo_pos c
  simp only [FitPlan.train, FitPlan.candidates, preOos, hrows, List.head?_cons, Option.any_some, filter_filter]
  refine filter_congr fun row _ => ?_
  rw [← Bool.decide_and, ← Bool.decide_and, decide_eq_decide]
  simp only [heldOutPlan]
  omega

/-- Rows at or after the training cutoff, and outcomes available after it, reach neither the coefficients nor any
    evaluation. -/
theorem train_no_look_ahead (s : Solver) (c : TrainingConfiguration) (d e : TrainingDataset)
    (agree : List.Forall₂ (Alike c.trainingCutoff) (preOos c d) (preOos c e))
    {r r' : TrainingResult} (h : train c d s = .ok r) (h' : train c e s = .ok r') :
    r.artifact.coefficients = r'.artifact.coefficients ∧ r.artifact.intercept = r'.artifact.intercept ∧
      r.validation.walkForward = r'.validation.walkForward := by
  obtain ⟨hfolds, hheld, hartifact⟩ := train_eq_ok h
  obtain ⟨hfolds', hheld', hartifact'⟩ := train_eq_ok h'
  rw [walkForward_eq agree, hfolds'] at hfolds
  obtain ⟨fitted, hfit, hweights, hintercept⟩ := evaluate_fit hheld
  obtain ⟨fitted', hfit', hweights', hintercept'⟩ := evaluate_fit hheld'
  have hrows : (heldOutPlan c d).train = (heldOutPlan c e).train := by
    rw [train_heldOut (evaluate_populated hheld).1, train_heldOut (evaluate_populated hheld').1]
    refine Alike.eq_of_forall_known (Alike.filter (fun a b hab => ?_) agree) fun row hrow => ?_
    · simp only [hab.labelEnd, hab.labelAvailableAt]
    · exact (of_decide_eq_true (mem_filter.mp hrow).2).2.le
  rw [hrows, hfit'] at hfit
  cases hfit
  simp only [hartifact, hartifact', proposedArtifact, hweights, hweights', hintercept, hintercept', true_and]
  exact (Except.ok.inj hfolds).symm

theorem dailyDataset_alike : List.Forall₂ (Alike dailyConfiguration.trainingCutoff)
    (preOos dailyConfiguration (dailyDataset false)) (preOos dailyConfiguration (dailyDataset true)) := by
  have hrows : ∀ days : List Nat, List.Forall₂ (Alike dailyConfiguration.trainingCutoff)
      (days.map fun day => dailyRow (false && decide (71 ≤ day)) day)
      (days.map fun day => dailyRow (true && decide (71 ≤ day)) day) := by
    intro days
    rw [forall₂_map_left_iff, forall₂_map_right_iff, forall₂_same]
    intro day _
    refine ⟨rfl, rfl, rfl, rfl, rfl, rfl, rfl, rfl, rfl, rfl, ?_⟩
    by_cases hday : 71 ≤ day
    · left
      simp only [dailyConfiguration, dailyRow, Money.days, hours, minutes, seconds]
      omega
    · right
      simp [dailyRow, hday]
  exact Alike.filter (fun a b hab => by simp only [hab.predictionTime]) (hrows _)

theorem train_no_look_ahead_daily : ∃ r r', train dailyConfiguration (dailyDataset false) summingSolver = .ok r ∧
      train dailyConfiguration (dailyDataset true) summingSolver = .ok r' ∧
      r.artifact.coefficients = r'.artifact.coefficients ∧ r.artifact.intercept = r'.artifact.intercept ∧
      r.validation.walkForward = r'.validation.walkForward := by
  obtain ⟨r, h⟩ := train_dailyDataset false
  obtain ⟨r', h'⟩ := train_dailyDataset true
  exact ⟨r, r', h, h', train_no_look_ahead summingSolver dailyConfiguration _ _ dailyDataset_alike h h'⟩

end Money.Training
