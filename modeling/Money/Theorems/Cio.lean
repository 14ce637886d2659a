import Money.Cio
import Money.Theorems.Consensus

/-! The deterministic audit against what it measures. The cash verdict is read off the last two rows in the order of
    their texts; and every deterministic finding turns a passing Red Team into a warning. -/

namespace Money.Cio
open Checked Grouping List

/-! ### The cash verdict -/

section
variable (s : ResearchSnapshot)

abbrev cash : List (EvidenceRecord × FinancialFact) := fundamental s "cash"

def Functional : Prop :=
  ∀ a ∈ cash s, ∀ b ∈ cash s, a.2.periodEnd = b.2.periodEnd → a.2.value = b.2.value ∧ a.2.unit = b.2.unit
  deriving Decidable

/-- Two cash facts of the last two periods. -/
structure Successive (prior current : EvidenceRecord × FinancialFact) : Prop where
  prior_mem : prior ∈ cash s
  current_mem : current ∈ cash s
  ordered : prior.2.periodEnd < current.2.periodEnd
  others : ∀ r ∈ cash s, r.2.periodEnd ≤ prior.2.periodEnd ∨ r.2.periodEnd = current.2.periodEnd

/-- The verdict is the one that the facts of the last two periods call for. -/
structure Follows : Prop where
  verified : (cashComparison s).1 = .verified ↔
    ∃ prior current, Successive s prior current ∧ current.2.unit = prior.2.unit ∧ prior.2.value < current.2.value
  contradicted : (cashComparison s).1 = .contradicted ↔
    ∃ prior current, Successive s prior current ∧ current.2.unit = prior.2.unit ∧ ¬ prior.2.value < current.2.value
  unsupported : (cashComparison s).1 = .unsupported ↔
    ¬ ∃ prior current, Successive s prior current ∧ current.2.unit = prior.2.unit

/-- The last two texts are those of the last two periods, or all cash facts are of one period with the same last texts.
    -/
def Aligned : Prop :=
  ∀ prior current, lastTwo periodKey (cash s) = some (prior, current) →
    Successive s prior current ∧ periodText current ≠ periodText prior ∨
      periodText current = periodText prior ∧ ∀ r ∈ cash s, r.2.periodEnd = current.2.periodEnd

variable {prior current : EvidenceRecord × FinancialFact}

theorem Successive.same {prior' current' : EvidenceRecord × FinancialFact}
    (h : Successive s prior current) (h' : Successive s prior' current') :
    prior.2.periodEnd = prior'.2.periodEnd ∧ current.2.periodEnd = current'.2.periodEnd := by
  have h₁ := h.others prior' h'.prior_mem
  have h₂ := h.others current' h'.current_mem
  have h₃ := h'.others prior h.prior_mem
  have h₄ := h'.others current h.current_mem
  have h₅ := h.ordered
  have h₆ := h'.ordered
  omega

variable {s}

theorem not_successive_of_one {t : Int} (h : ∀ r ∈ cash s, r.2.periodEnd = t) : ¬ Successive s prior current := by
  intro hsuccessive
  have hordered := hsuccessive.ordered
  rw [h prior hsuccessive.prior_mem, h current hsuccessive.current_mem] at hordered
  exact lt_irrefl _ hordered

theorem follows_of_successive (functional : Functional s) (h : Successive s prior current)
    (state : (cashComparison s).1 = if current.2.unit = prior.2.unit then
      if prior.2.value < current.2.value then .verified else .contradicted else .unsupported) : Follows s := by
  -- All successive facts agree with these two, because a period has one value and unit.
  have hsame : ∀ p c, Successive s p c →
      (c.2.unit = p.2.unit ↔ current.2.unit = prior.2.unit) ∧ (p.2.value < c.2.value ↔ prior.2.value < current.2.value) := by
    intro p c hpc
    obtain ⟨hp, hc⟩ := Successive.same s hpc h
    obtain ⟨hpv, hpu⟩ := functional p hpc.prior_mem prior h.prior_mem hp
    obtain ⟨hcv, hcu⟩ := functional c hpc.current_mem current h.current_mem hc
    rw [hpv, hpu, hcv, hcu]
    exact ⟨Iff.rfl, Iff.rfl⟩
  have hexists : ∀ Q : Prop → Prop → Prop,
      (∃ p c, Successive s p c ∧ Q (c.2.unit = p.2.unit) (p.2.value < c.2.value)) ↔
        Q (current.2.unit = prior.2.unit) (prior.2.value < current.2.value) := by
    intro Q
    constructor
    · rintro ⟨p, c, hpc, hQ⟩
      rwa [propext (hsame p c hpc).1, propext (hsame p c hpc).2] at hQ
    · exact fun hQ => ⟨prior, current, h, hQ⟩
  have hverified := hexists fun unit larger => unit ∧ larger
  have hcontradicted := hexists fun unit larger => unit ∧ ¬ larger
  have hunsupported := hexists fun unit _ => unit
  refine ⟨?_, ?_, ?_⟩
  · rw [hverified, state]
    split_ifs <;> simp_all
  · rw [hcontradicted, state]
    split_ifs <;> simp_all
  · rw [hunsupported, state]
    split_ifs <;> simp_all

theorem follows_of_unsupported (state : (cashComparison s).1 = .unsupported)
    (none : ∀ prior current, ¬ Successive s prior current) : Follows s := by
  refine ⟨?_, ?_, ?_⟩ <;> simp [state, none]

theorem cashComparison_of_some (h : lastTwo periodKey (cash s) = some (prior, current)) :
    (cashComparison s).1 = if Comparable prior current then
      if prior.2.value < current.2.value then .verified else .contradicted else .unsupported := by
  rw [cashComparison, h]
  dsimp only
  split <;> rfl

theorem follows_of_aligned (functional : Functional s) (aligned : Aligned s) : Follows s := by
  cases hlast : lastTwo periodKey (cash s) with
  | none =>
    refine follows_of_unsupported (by rw [cashComparison, hlast]) fun prior current h => ?_
    have hordered := h.ordered
    rw [eq_of_lastTwo_eq_none _ hlast h.prior_mem h.current_mem] at hordered
    exact lt_irrefl _ hordered
  | some pair =>
    obtain ⟨prior, current⟩ := pair
    have hstate := cashComparison_of_some hlast
    rcases aligned prior current hlast with ⟨hsuccessive, hdiffer⟩ | ⟨hsame, hone⟩
    · refine follows_of_successive functional hsuccessive ?_
      rw [hstate]
      simp only [Comparable, hdiffer, ne_eq, not_false_eq_true, and_true]
    · refine follows_of_unsupported ?_ fun _ _ => not_successive_of_one hone
      rw [hstate, if_neg fun h => h.2 hsame]

/-! ### Other values for the same periods -/

def revalueRecord (value : Int → Rat) (unit : Int → String) (e : EvidenceRecord) : EvidenceRecord :=
  match e.payload with
  | .financial fact =>
    if fact.metric = "cash" then
      { e with payload := .financial { fact with value := value fact.periodEnd, unit := unit fact.periodEnd } }
    else e
  | _ => e

def revalue (s : ResearchSnapshot) (value : Int → Rat) (unit : Int → String) : ResearchSnapshot :=
  { s with evidence := s.evidence.map (revalueRecord value unit) }

def revalueRow (value : Int → Rat) (unit : Int → String) (r : EvidenceRecord × FinancialFact) :
    EvidenceRecord × FinancialFact :=
  (revalueRecord value unit r.1, { r.2 with value := value r.2.periodEnd, unit := unit r.2.periodEnd })

theorem cash_revalue (s : ResearchSnapshot) (value : Int → Rat) (unit : Int → String) :
    cash (revalue s value unit) = (cash s).map (revalueRow value unit) := by
  simp only [cash, fundamental, revalue, filterMap_map, map_filterMap]
  refine filterMap_congr fun e _ => ?_
  simp only [Function.comp, revalueRecord]
  cases hpayload : e.payload with
  | financial fact =>
    by_cases hmetric : fact.metric = "cash"
    · simp [hmetric, revalueRow, revalueRecord, hpayload]
    · simp [hmetric, hpayload]
  | ohlcv bar => simp [hpayload]
  | document fact => simp [hpayload]

variable {value : Int → Rat} {unit : Int → String}

theorem lastTwo_revalue (h : lastTwo periodKey (cash s) = some (prior, current)) :
    lastTwo periodKey (cash (revalue s value unit)) = some (revalueRow value unit prior, revalueRow value unit current) := by
  rw [cash_revalue, lastTwo_map (f := revalueRow value unit) periodKey (fun _ => rfl), h]
  rfl

theorem Successive.revalue (h : Successive s prior current) :
    Successive (revalue s value unit) (revalueRow value unit prior) (revalueRow value unit current) := by
  refine ⟨?_, ?_, h.ordered, ?_⟩
  · rw [cash_revalue]
    exact mem_map_of_mem h.prior_mem
  · rw [cash_revalue]
    exact mem_map_of_mem h.current_mem
  · rw [cash_revalue, forall_mem_map]
    exact h.others

theorem Functional.revalue : Functional (revalue s value unit) := by
  intro a ha b hb hperiod
  rw [cash_revalue] at ha hb
  obtain ⟨a, -, rfl⟩ := mem_map.mp ha
  obtain ⟨b, -, rfl⟩ := mem_map.mp hb
  have hperiod' : a.2.periodEnd = b.2.periodEnd := hperiod
  simp only [revalueRow, hperiod', and_self]

theorem Aligned.revalue (h : Aligned s) : Aligned (revalue s value unit) := by
  intro p c hlast
  cases hbefore : lastTwo periodKey (cash s) with
  | none =>
    rw [cash_revalue, lastTwo_map (f := revalueRow value unit) periodKey (fun _ => rfl), hbefore] at hlast
    cases hlast
  | some pair =>
    obtain ⟨prior, current⟩ := pair
    rw [lastTwo_revalue hbefore] at hlast
    cases hlast
    refine (h prior current hbefore).imp (fun ⟨hsuccessive, hdiffer⟩ => ⟨hsuccessive.revalue, hdiffer⟩) ?_
    rintro ⟨hsame, hone⟩
    refine ⟨hsame, ?_⟩
    rw [cash_revalue, forall_mem_map]
    exact hone

theorem exists_successive (h : ∃ a ∈ cash s, ∃ b ∈ cash s, a.2.periodEnd ≠ b.2.periodEnd) :
    ∃ prior current, Successive s prior current := by
  obtain ⟨a, ha, b, hb, hne⟩ := h
  obtain ⟨current, hcurrent, hlatest⟩ := exists_latest (fun r => r.2.periodEnd) (ne_nil_of_mem ha)
  have hearlier : ∃ r ∈ cash s, r.2.periodEnd < current.2.periodEnd := by
    have hla := hlatest a ha
    have hlb := hlatest b hb
    by_cases hsame : a.2.periodEnd = current.2.periodEnd
    · exact ⟨b, hb, by omega⟩
    · exact ⟨a, ha, by omega⟩
  obtain ⟨r, hr, hlt⟩ := hearlier
  have hmem : r ∈ (cash s).filter fun x => x.2.periodEnd < current.2.periodEnd := by simp [hr, hlt]
  obtain ⟨prior, hprior, hbefore⟩ := exists_latest (fun r => r.2.periodEnd) (ne_nil_of_mem hmem)
  simp only [mem_filter, decide_eq_true_eq] at hprior hbefore
  refine ⟨prior, current, hprior.1, hcurrent, hprior.2, fun x hx => ?_⟩
  rcases (hlatest x hx).lt_or_eq with hx' | hx'
  · exact .inl (hbefore x ⟨hx, hx'⟩)
  · exact .inr hx'

theorem aligned_of_follows (follows : ∀ value unit, Follows (revalue s value unit)) : Aligned s := by
  intro prior current hlast
  have hstate : ∀ value unit, (cashComparison (revalue s value unit)).1 =
      if Comparable (revalueRow value unit prior) (revalueRow value unit current) then
        if value prior.2.periodEnd < value current.2.periodEnd then .verified else .contradicted else .unsupported :=
    fun value unit => cashComparison_of_some (lastTwo_revalue hlast)
  by_cases htwo : ∃ a ∈ cash s, ∃ b ∈ cash s, a.2.periodEnd ≠ b.2.periodEnd
  · left
    obtain ⟨p, c, hpc⟩ := exists_successive htwo
    -- With equal values the comparison must have been made, so that the texts differ.
    have hdiffer : periodText current ≠ periodText prior := by
      intro hsame
      have hunsupported := (follows (fun _ => 0) (fun _ => "")).unsupported.mp (by
        rw [hstate, if_neg fun h => h.2 hsame])
      exact hunsupported ⟨_, _, hpc.revalue, rfl⟩
    refine ⟨?_, hdiffer⟩
    by_cases hposition : current.2.periodEnd = c.2.periodEnd ∧ prior.2.periodEnd = p.2.periodEnd
    · obtain ⟨rest, hperm, -⟩ := lastTwo_eq_some _ hlast
      refine ⟨hperm.mem_iff.mpr (by simp), hperm.mem_iff.mpr (by simp), ?_, ?_⟩
      · rw [hposition.1, hposition.2]
        exact hpc.ordered
      · rw [hposition.1, hposition.2]
        exact hpc.others
    · -- The latest value is larger than the one before it, but not larger than the one it was compared with.
      exfalso
      let v : Int → Rat := fun t =>
        if t = c.2.periodEnd then 1 else if current.2.periodEnd = c.2.periodEnd ∧ t = prior.2.periodEnd then 2 else 0
      have hp : v p.2.periodEnd = 0 := by
        have hne : p.2.periodEnd ≠ c.2.periodEnd := hpc.ordered.ne
        simp only [v, hne, if_false]
        exact if_neg fun h => hposition ⟨h.1, h.2.symm⟩
      have hc : v c.2.periodEnd = 1 := if_pos rfl
      have hverified := (follows v fun _ => "").verified.mpr ⟨_, _, hpc.revalue, rfl, by
        show v p.2.periodEnd < v c.2.periodEnd
        rw [hp, hc]
        decide⟩
      rw [hstate] at hverified
      have hlarger : v prior.2.periodEnd < v current.2.periodEnd := by
        by_contra hnot
        rw [if_neg hnot] at hverified
        split at hverified <;> cases hverified
      by_cases hlatest : current.2.periodEnd = c.2.periodEnd
      · have hprior : 1 ≤ v prior.2.periodEnd := by
          simp only [v, hlatest, true_and]
          split <;> norm_num
        rw [hlatest, hc] at hlarger
        exact absurd hlarger (not_lt.mpr hprior)
      · have hprior : 0 ≤ v prior.2.periodEnd := by
          simp only [v, hlatest, false_and, if_false]
          split <;> norm_num
        have hcurrent : v current.2.periodEnd = 0 := by simp [v, hlatest]
        rw [hcurrent] at hlarger
        exact absurd hlarger (not_lt.mpr hprior)
  · right
    push Not at htwo
    obtain ⟨rest, hperm, -⟩ := lastTwo_eq_some _ hlast
    have hcurrent : current ∈ cash s := hperm.mem_iff.mpr (by simp)
    have hone : ∀ r ∈ cash s, r.2.periodEnd = current.2.periodEnd := fun r hr => htwo r hr current hcurrent
    refine ⟨?_, hone⟩
    by_contra hdiffer
    have hone' : ∀ r ∈ cash (revalue s (fun _ => 0) fun _ => ""), r.2.periodEnd = current.2.periodEnd := by
      rw [cash_revalue, forall_mem_map]
      exact hone
    have hunsupported := (follows (fun _ => 0) (fun _ => "")).unsupported.mpr
      (by rintro ⟨_, _, h, -⟩; exact not_successive_of_one hone' h)
    rw [hstate, if_pos ⟨rfl, hdiffer⟩] at hunsupported
    split at hunsupported <;> cases hunsupported

/-! ### The findings about cash -/

variable {t : ResearchSnapshot} {A : Auditor} {findings : List AuditFinding}

theorem auditor_quantFindings {report : FirmReport}
    (h : quantFindings A s report = .ok findings) : ∀ f ∈ findings, f.auditor = "Qlib Quant Auditor" := by
  unfold quantFindings at h
  split at h
  · cases h
    simp
  · simp only [ok_iff] at h
    obtain ⟨⟨state, explanation⟩, -, rfl⟩ := h
    intro f hf
    rcases mem_append.mp hf with hprediction | hrank
    · obtain ⟨c, -, hc⟩ := mem_filterMap.mp hprediction
      split at hc
      · cases hc
        rfl
      · cases hc
    · unfold rankFindings at hrank
      split at hrank
      · cases hrank
      · rw [mem_singleton.mp hrank]

theorem mem_claimFindings {claim : ReportClaim} {f : AuditFinding} : f ∈ claimFindings A s claim ↔
      (∃ stated, A.statedRelativeVolume claim = some stated ∧ f = volumeFinding s claim stated) ∨
        A.statesCashIncrease claim = true ∧ f = cashFinding s claim := by
  unfold claimFindings
  rw [mem_append]
  refine or_congr ?_ ?_
  · simp [eq_comm]
  · split <;> simp_all

theorem mem_findings_fundamental {reports : List FirmReport} {lean : LeanValidationReport}
    (h : deterministicAudit A s reports lean = .ok findings) (f : AuditFinding) :
    f ∈ findings ∧ f.auditor = "Fundamental Auditor" ↔
      ∃ claim ∈ reports.flatMap (·.claims), A.statesCashIncrease claim = true ∧ f = cashFinding s claim := by
  simp only [deterministicAudit, ok_iff] at h
  obtain ⟨-, -, -, -, quantitative, hquantitative, rfl⟩ := h
  simp only [mem_append]
  constructor
  · rintro ⟨((havailability | hlean) | hquant) | hclaim, hauditor⟩
    · obtain ⟨e, -, he⟩ := mem_filterMap.mp havailability
      split at he
      · cases he
        simp at hauditor
      · cases he
    · unfold leanFindings at hlean
      split at hlean
      · cases hlean
      · rw [mem_singleton.mp hlean] at hauditor
        simp at hauditor
    · obtain ⟨fs, hfs, hf⟩ := mem_flatten.mp hquant
      obtain ⟨report, -, hreport⟩ := exists_of_mem_mapM hquantitative fs hfs
      rw [auditor_quantFindings hreport f hf] at hauditor
      simp at hauditor
    · obtain ⟨claim, hmem, hf⟩ := mem_flatMap.mp hclaim
      rcases mem_claimFindings.mp hf with ⟨stated, -, rfl⟩ | ⟨hstates, rfl⟩
      · simp [volumeFinding] at hauditor
      · exact ⟨claim, hmem, hstates, rfl⟩
  · rintro ⟨claim, hclaim, hstates, rfl⟩
    exact ⟨.inr (mem_flatMap.mpr ⟨claim, hclaim, mem_claimFindings.mpr (.inr ⟨hstates, rfl⟩)⟩), rfl⟩

/-- The cash facts of two snapshots are the same, as values of a unit at a period end. -/
def SameCash (s t : ResearchSnapshot) : Prop :=
  ∀ value unit periodEnd, (∃ r ∈ cash s, r.2.value = value ∧ r.2.unit = unit ∧ r.2.periodEnd = periodEnd) ↔
    ∃ r ∈ cash t, r.2.value = value ∧ r.2.unit = unit ∧ r.2.periodEnd = periodEnd

theorem Successive.transfer (same : SameCash s t)
    (h : Successive s prior current) : ∃ prior' current', Successive t prior' current' ∧
      prior'.2.value = prior.2.value ∧ prior'.2.unit = prior.2.unit ∧
      current'.2.value = current.2.value ∧ current'.2.unit = current.2.unit := by
  obtain ⟨p, hp, hpv, hpu, hpe⟩ := (same _ _ _).mp ⟨prior, h.prior_mem, rfl, rfl, rfl⟩
  obtain ⟨c, hc, hcv, hcu, hce⟩ := (same _ _ _).mp ⟨current, h.current_mem, rfl, rfl, rfl⟩
  refine ⟨p, c, ⟨hp, hc, by rw [hpe, hce]; exact h.ordered, fun r hr => ?_⟩, hpv, hpu, hcv, hcu⟩
  obtain ⟨r', hr', -, -, hre⟩ := (same _ _ _).mpr ⟨r, hr, rfl, rfl, rfl⟩
  rw [hpe, hce, ← hre]
  exact h.others r' hr'

theorem Follows.eq_of_same (same : SameCash s t) (hs : Follows s) (ht : Follows t) :
    (cashComparison s).1 = (cashComparison t).1 := by
  have hverified : (cashComparison s).1 = .verified → (cashComparison t).1 = .verified := by
    rw [hs.verified, ht.verified]
    rintro ⟨prior, current, h, hunit, hvalue⟩
    obtain ⟨p, c, hpc, hpv, hpu, hcv, hcu⟩ := h.transfer same
    exact ⟨p, c, hpc, by rw [hcu, hpu, hunit], by rw [hpv, hcv]; exact hvalue⟩
  have hcontradicted : (cashComparison s).1 = .contradicted → (cashComparison t).1 = .contradicted := by
    rw [hs.contradicted, ht.contradicted]
    rintro ⟨prior, current, h, hunit, hvalue⟩
    obtain ⟨p, c, hpc, hpv, hpu, hcv, hcu⟩ := h.transfer same
    exact ⟨p, c, hpc, by rw [hcu, hpu, hunit], by rw [hpv, hcv]; exact hvalue⟩
  have hunsupported : (cashComparison s).1 = .unsupported → (cashComparison t).1 = .unsupported := by
    rw [hs.unsupported, ht.unsupported]
    rintro hnone ⟨prior, current, h, hunit⟩
    obtain ⟨p, c, hpc, -, hpu, -, hcu⟩ := h.transfer fun v u e => (same v u e).symm
    exact hnone ⟨p, c, hpc, by rw [hcu, hpu, hunit]⟩
  have hstate : (cashComparison s).1 ≠ .warn := by
    unfold cashComparison
    split
    · simp
    · split_ifs <;> simp
  cases h : (cashComparison s).1 with
  | verified => exact (hverified h).symm
  | contradicted => exact (hcontradicted h).symm
  | unsupported => exact (hunsupported h).symm
  | warn => exact absurd h hstate

end

/-- The cash verdict follows the facts exactly if the last two period ends in the order of their texts are those of the
    last two periods. -/
theorem cash_verdict_iff (s : ResearchSnapshot) :
    (∀ A reports lean findings, deterministicAudit A s reports lean = .ok findings → ∀ f,
      f ∈ findings ∧ f.auditor = "Fundamental Auditor" ↔
        ∃ claim ∈ reports.flatMap (·.claims), A.statesCashIncrease claim = true ∧ f = cashFinding s claim) ∧
    (Functional s → Aligned s → Follows s ∧
      ∀ t, SameCash s t → Functional t → Aligned t → (cashComparison t).1 = (cashComparison s).1) ∧
    ((∀ value unit, Follows (revalue s value unit)) ↔ Aligned s) := by
  refine ⟨fun A reports lean findings h f => mem_findings_fundamental h f, fun functional aligned => ?_, ?_⟩
  · have hfollows := follows_of_aligned functional aligned
    refine ⟨hfollows, fun t same functional' aligned' => ?_⟩
    exact (hfollows.eq_of_same same (follows_of_aligned functional' aligned')).symm
  · exact ⟨aligned_of_follows, fun aligned value unit => follows_of_aligned .revalue aligned.revalue⟩

/-! ### Two period ends in different offsets -/

def cashRecord (id : String) (value : Rat) (periodEnd offset : Int) : EvidenceRecord where
  evidenceId := id
  snapshotId := "snapshot"
  source := "accounts"
  provider := "register"
  sourceId := id
  canonicalSourceId := id
  observationTime := periodEnd
  publicationTime := some periodEnd
  retrievalTime := days 20714
  freshUntil := days 20720
  pitSafe := true
  payload := .financial { metric := "cash", value, unit := "GBP", periodEnd, periodOffset := offset }

/-- Cash halves within two hours. The first instant is written with an offset, so that its text is the later one. -/
def offsetAccounts : ResearchSnapshot :=
  { clearedRequest.snapshot with
    evidence := [cashRecord "first" 200 (days 20000) (hours 12), cashRecord "second" 100 (days 20000 + hours 2) 0] }

def repeatedAccounts : ResearchSnapshot :=
  { clearedRequest.snapshot with
    evidence := [cashRecord "first" 100 (days 20000) 0, cashRecord "second" 200 (days 20365) 0,
      cashRecord "again" 200 (days 20365) 0] }

theorem cash_verdict_misses_facts :
    (Functional offsetAccounts ∧
      (cash offsetAccounts).map (fun r => (r.2.periodEnd, r.2.value, r.2.unit)) =
        [(days 20000, 200, "GBP"), (days 20000 + hours 2, 100, "GBP")] ∧
      (cashComparison offsetAccounts).1 = .verified) ∧
    Functional repeatedAccounts ∧
      (cash repeatedAccounts).map (fun r => (r.2.periodEnd, r.2.value, r.2.unit)) =
        [(days 20000, 100, "GBP"), (days 20365, 200, "GBP"), (days 20365, 200, "GBP")] ∧
      (cashComparison repeatedAccounts).1 = .unsupported := by
  decide +kernel

def yearlyCash : ResearchSnapshot :=
  { clearedRequest.snapshot with evidence := [cashRecord "first" 100 (days 20000) 0, cashRecord "second" 200 (days 20365) 0] }

theorem cash_verdict_iff_yearly : Functional yearlyCash ∧ Aligned yearlyCash ∧ Follows yearlyCash := by
  have hfunctional : Functional yearlyCash := by decide +kernel
  have haligned : Aligned yearlyCash := by
    intro prior current h
    have hlast : lastTwo periodKey (cash yearlyCash) = some
        ((cashRecord "first" 100 (days 20000) 0, ⟨"cash", 100, "GBP", days 20000, 0⟩),
          (cashRecord "second" 200 (days 20365) 0, ⟨"cash", 200, "GBP", days 20365, 0⟩)) := by decide +kernel
    rw [hlast] at h
    cases h
    exact .inl ⟨⟨by decide +kernel, by decide +kernel, by decide +kernel, by decide +kernel⟩, by decide +kernel⟩
  exact ⟨hfunctional, haligned, ((cash_verdict_iff yearlyCash).2.1 hfunctional haligned).1⟩

/-! ### Verified findings and the consensus -/

abbrev reached (base : Dossier) (result : CIOAuditReport × RedTeamReport) : Dossier :=
  { base with audit := result.1, redTeam := result.2 }

/-- The audit with fixed findings before its own, and the Red Team's answer after them. -/
abbrev outcome (audit : CIOAuditReport) (answer : RedTeamReport) (fixed : List AuditFinding) :
    CIOAuditReport × RedTeamReport :=
  ({ audit with findings := fixed ++ audit.findings }, redTeam fixed answer)

variable {fixed : List AuditFinding} {answer : RedTeamReport}

theorem flow_eq_ok {s : ResearchSnapshot} {reports : List FirmReport}
    {answers : Family → Except Err SpecialistResult} {answer : Except Err RedTeamReport}
    {result : CIOAuditReport × RedTeamReport} (h : flow s reports fixed answers answer = .ok result) :
    ∃ audit given, answer = .ok given ∧ result = outcome audit given fixed ∧
      ∀ findings, flow s reports findings answers answer = .ok (outcome audit given findings) := by
  simp only [flow, verify, ok_iff] at h ⊢
  obtain ⟨allowed, hallowed, _, ⟨results, hresults, rfl⟩, given, hanswer, rfl⟩ := h
  refine ⟨{
    snapshotId := s.snapshotId, completed := !(reports.flatMap (·.claims)).isEmpty
    findings := results.flatMap (·.findings)
    activeSpecialists := ["Evidence Auditor", "LEAN Auditor"] ++
      (sortedFamilies ((reports.flatMap (·.claims)).map (·.family))).map specialist
    materialDisagreement := results.any (·.materialDisagreement) }, given, hanswer, rfl, fun findings => ?_⟩
  exact ⟨allowed, hallowed, _, ⟨results, hresults, rfl⟩, given, hanswer, rfl⟩

theorem redTeam_veto_iff : (redTeam fixed answer).state = .veto ↔ answer.state = .veto := by
  unfold redTeam
  split
  case isTrue h => simp [h.2]
  case isFalse => rfl

theorem redTeam_warn_iff :
    (redTeam fixed answer).state = .warn ↔ answer.state = .warn ∨ fixed ≠ [] ∧ answer.state = .pass := by
  unfold redTeam
  split
  case isTrue h => simp [h]
  case isFalse h =>
    constructor
    · exact .inl
    · rintro (hwarn | hpass)
      · exact hwarn
      · exact absurd hpass h

section
variable {base : Dossier} {audit : CIOAuditReport} {answer : RedTeamReport} {fixed : List AuditFinding}

theorem sufficient_of_linked (verified : ∀ f ∈ fixed, f.state = .verified) (linked : ∀ f ∈ fixed, base.link f ≠ none)
    (h : (reached base (outcome audit answer [])).Sufficient) : (reached base (outcome audit answer fixed)).Sufficient := by
  refine ⟨h.spoken, h.live, h.passed, h.validated, h.completed, h.agreed, h.settled, fun f hf => ?_, h.distinct,
    fun f hf hstate => ?_, h.claimed, fun c hc => ?_⟩
  · rcases mem_append.mp hf with hfixed | hown
    · simp [verified f hfixed]
    · exact h.supported f hown
  · rcases mem_append.mp hf with hfixed | hown
    · exact linked f hfixed
    · exact h.linked f hown hstate
  · obtain ⟨f, hf, hverified⟩ := h.verified c hc
    exact ⟨f, mem_append_right fixed hf, hverified⟩

theorem comparable_outcome :
    (reached base (outcome audit answer fixed)).Comparable ↔ (reached base (outcome audit answer [])).Comparable :=
  Dossier.comparable_of_same rfl rfl rfl rfl

theorem vetoed_outcome :
    (reached base (outcome audit answer fixed)).Vetoed ↔ (reached base (outcome audit answer [])).Vetoed := by
  simp only [Dossier.Vetoed, redTeam_veto_iff]

/-- A dossier with a positive state. -/
structure Promising (P : Platform) (d : Dossier) : Prop where
  bounded : d.rounds ≤ 2
  clear : Clear P d.mandate d.snapshot d.now
  comparable : d.Comparable
  approved : ¬ d.Vetoed
  sufficient : d.Sufficient

theorem limited_of_findings (h : fixed ≠ []) (approved : ¬ (reached base (outcome audit answer fixed)).Vetoed) :
    (reached base (outcome audit answer fixed)).Limited := by
  right
  rw [redTeam_warn_iff]
  cases hstate : answer.state with
  | pass => exact .inr ⟨h, rfl⟩
  | warn => exact .inl rfl
  | veto => exact absurd (.inl (redTeam_veto_iff.mpr hstate)) approved

/-- What the fixed findings may cost, where the answers alone lead to a positive state. -/
def Spared (base : Dossier) (audit : CIOAuditReport) (answer : RedTeamReport) (fixed : List AuditFinding) : Prop :=
  (∀ f ∈ fixed, base.link f ≠ none) ∧ (fixed ≠ [] → (reached base (outcome audit answer [])).Limited)

theorem weaker_of_spared (verified : ∀ f ∈ fixed, f.state = .verified) (h : Spared base audit answer fixed) :
    Dossier.Weaker (reached base (outcome audit answer fixed)) (reached base (outcome audit answer [])) where
  mandate := rfl
  snapshot := rfl
  now := rfl
  comparable := comparable_outcome.symm
  vetoed := vetoed_outcome.mp
  sufficient := fun _ => sufficient_of_linked verified h.1
  limited := by
    intro hlimited
    by_cases hfixed : fixed = []
    · subst hfixed
      exact .inl hlimited
    · exact .inl (h.2 hfixed)

variable {P : Platform}

theorem spared_of_grade (verified : ∀ f ∈ fixed, f.state = .verified)
    (promising : Promising P (reached base (outcome audit answer [])))
    (h : (reached base (outcome audit answer [])).decision.1.grade ≤
      (reached base (outcome audit answer fixed)).decision.1.grade) : Spared base audit answer fixed := by
  have hwith := Dossier.decision_verdict (reached base (outcome audit answer fixed))
  have hwithout := Dossier.decision_verdict (reached base (outcome audit answer []))
  generalize (reached base (outcome audit answer fixed)).decision.1 = state at hwith h
  generalize (reached base (outcome audit answer [])).decision.1 = state' at hwithout h
  have hlinked : (reached base (outcome audit answer fixed)).Sufficient → ∀ f ∈ fixed, base.link f ≠ none :=
    fun hsufficient f hf => hsufficient.linked f (mem_append_left _ hf) (verified f hf)
  cases hwithout with
  | incomparable hother => exact absurd promising.comparable hother
  | vetoed _ hveto => exact absurd hveto promising.approved
  | insufficient _ _ hmissing => exact absurd promising.sufficient hmissing
  | limited _ _ _ hlimited =>
    cases hwith with
    | incomparable | vetoed | insufficient => simp [ResearchState.grade] at h
    | limited _ _ hsufficient | passed _ _ hsufficient => exact ⟨hlinked hsufficient, fun _ => hlimited⟩
  | passed =>
    cases hwith with
    | incomparable | vetoed | insufficient | limited => simp [ResearchState.grade] at h
    | passed _ happroved hsufficient hfree =>
      exact ⟨hlinked hsufficient, fun hfixed => absurd (limited_of_findings hfixed happroved) hfree⟩

theorem grade_le_of_not_promising (bounded : base.rounds ≤ 2)
    (clear : Clear P base.mandate base.snapshot base.now) (h : ¬ Promising P (reached base (outcome audit answer []))) :
    (reached base (outcome audit answer [])).decision.1.grade ≤
      (reached base (outcome audit answer fixed)).decision.1.grade := by
  have hwith := Dossier.decision_verdict (reached base (outcome audit answer fixed))
  have hwithout := Dossier.decision_verdict (reached base (outcome audit answer []))
  generalize (reached base (outcome audit answer fixed)).decision.1 = state at hwith
  generalize (reached base (outcome audit answer [])).decision.1 = state' at hwithout
  cases hwithout with
  | vetoed => exact Nat.zero_le _
  | limited hcomparable happroved hsufficient | passed hcomparable happroved hsufficient =>
    exact absurd ⟨bounded, clear, hcomparable, happroved, hsufficient⟩ h
  | incomparable hother =>
    cases hwith with
    | vetoed hcomparable => exact absurd (comparable_outcome.mp hcomparable) hother
    | incomparable | insufficient | limited | passed => decide
  | insufficient _ happroved =>
    cases hwith with
    | vetoed _ hveto => exact absurd (vetoed_outcome.mp hveto) happroved
    | incomparable | insufficient | limited | passed => decide

theorem noBetter_outcome_iff (P : Platform) (verified : ∀ f ∈ fixed, f.state = .verified) :
    Dossier.NoBetter P (reached base (outcome audit answer fixed)) (reached base (outcome audit answer [])) ↔
      (Promising P (reached base (outcome audit answer [])) → Spared base audit answer fixed) := by
  constructor
  · intro h promising
    have hconsensus : ∀ result, (reached base result).consensus P = .ok (reached base result).decision :=
      fun _ => consensus_of_clear promising.bounded promising.clear
    exact spared_of_grade verified promising (h _ _ (hconsensus _) (hconsensus _))
  · intro h
    by_cases promising : Promising P (reached base (outcome audit answer []))
    · exact (weaker_of_spared verified (h promising)).noBetter
    · intro before after hbefore hafter
      obtain ⟨hbounded, _, -, ⟨hclear, rfl⟩ | ⟨-, rfl⟩⟩ := consensus_eq_ok.mp hafter
      · obtain ⟨-, _, -, ⟨-, rfl⟩ | ⟨hblocked, -⟩⟩ := consensus_eq_ok.mp hbefore
        · exact grade_le_of_not_promising hbounded hclear promising
        · exact absurd hclear hblocked
      · exact Nat.zero_le _

theorem not_candidate_of_findings (P : Platform) (h : fixed ≠ []) {result : ResearchState × List String}
    (hconsensus : (reached base (outcome audit answer fixed)).consensus P = .ok result) : result.1 ≠ .researchCandidate := by
  intro hcandidate
  obtain ⟨-, -, rfl⟩ := consensus_clear hconsensus (by simp [hcandidate])
  have hverdict := Dossier.decision_verdict (reached base (outcome audit answer fixed))
  have hstate : (reached base (outcome audit answer fixed)).decision.1 = .researchCandidate := hcandidate
  rw [hstate] at hverdict
  cases hverdict with
  | passed _ happroved _ hfree => exact hfree (limited_of_findings h happroved)

end

/-- A passed check leaves the consensus as good as it was exactly if it says nothing against the candidate's link and
    the candidate was limited before. -/
theorem verified_findings_spare_iff (P : Platform) (A : Auditor) (base : Dossier) {fixed : List AuditFinding}
    (audited : deterministicAudit A base.snapshot base.reports base.lean = .ok fixed)
    (verified : ∀ f ∈ fixed, f.state = .verified) {answers : Family → Except Err SpecialistResult}
    {answer : Except Err RedTeamReport} {result : CIOAuditReport × RedTeamReport}
    (h : run A base.snapshot base.reports base.lean answers answer = .ok result) :
    ∃ audit given, answer = .ok given ∧ result = outcome audit given fixed ∧
      flow base.snapshot base.reports [] answers answer = .ok (outcome audit given []) ∧
      (Dossier.NoBetter P (reached base result) (reached base (outcome audit given [])) ↔
        (Promising P (reached base (outcome audit given [])) → Spared base audit given fixed)) ∧
      (fixed ≠ [] → ∀ state, (reached base result).consensus P = .ok state → state.1 ≠ .researchCandidate) := by
  simp only [run, bind_eq_ok, audited] at h
  obtain ⟨_, -, _, hfixed, hflow⟩ := h
  cases hfixed
  obtain ⟨audit, given, hanswer, rfl, hflow'⟩ := flow_eq_ok hflow
  exact ⟨audit, given, hanswer, rfl, hflow' [], noBetter_outcome_iff P verified,
    fun hne state => not_candidate_of_findings P hne⟩

/-! ### A reproduced prediction -/

def quantSnapshot : ResearchSnapshot :=
  { clearedRequest.snapshot with
    qlibEnabled := true
    evidence := dailyBars.take 1 ++ [cashRecord "first" 100 (days 20000) 0, cashRecord "second" 200 (days 20365) 0] }

def quantReport (firm : Firm) (claimId : String) (family : Family) (evidenceId : String) : FirmReport :=
  { sampleReport firm with claims := [{ claimId, family, evidenceIds := [evidenceId] }] }

def quantReports : List FirmReport :=
  [quantReport .tradingagents "debt" .risk "first", quantReport .aiHedgeFund "value" .fundamental "second",
    quantReport .qlib "qlib:prediction" .quantitative "bar-0"]

def quantAuditor : Auditor where
  quant r := if r.firm = .qlib then some { predictionScore := some (1 / 100), rank := none, modelVersion := "1" } else none
  qualifiedModel := some fun _ => .ok (1 / 100, "1")
  statedRelativeVolume _ := none
  statesCashIncrease _ := false

def quantDossier : Dossier where
  mandate := {}
  snapshot := quantSnapshot
  reports := quantReports
  lean := clearedRequest.lean
  audit := clearedRequest.audit
  redTeam := clearedRequest.redTeam
  independence := (evidenceIndependence quantSnapshot quantReports).toOption.getD clearedIndependence
  now := clearedRequest.issuedAt

def quantAnswers (family : Family) : Except Err SpecialistResult :=
  match (quantReports.flatMap (·.claims)).find? (·.family = family) with
  | some c => .ok {
      findings := [{ auditor := specialist family, claimId := some c.claimId, state := .verified, explanation := ""
                     evidenceIds := c.evidenceIds }]
      nonempty := by simp }
  | none => .error .noResult

def quantState (result : Except Err (CIOAuditReport × RedTeamReport)) : Except Err ResearchState := do
  let state ← (reached quantDossier (← result)).consensus plainPlatform
  pure state.1

theorem reproduced_prediction_costs_candidate :
    (deterministicAudit quantAuditor quantSnapshot quantReports clearedRequest.lean).map (·.map (·.state)) =
        .ok [.verified] ∧ evidenceIndependence quantSnapshot quantReports = .ok quantDossier.independence ∧
      quantState (flow quantSnapshot quantReports [] quantAnswers (.ok clearedRequest.redTeam)) = .ok .researchCandidate ∧
      quantState (run quantAuditor quantSnapshot quantReports clearedRequest.lean quantAnswers
        (.ok clearedRequest.redTeam)) = .ok .watch := by
  decide +kernel

theorem verified_findings_spare_iff_quant :
    ∃ fixed result, deterministicAudit quantAuditor quantSnapshot quantReports clearedRequest.lean = .ok fixed ∧
      (∀ f ∈ fixed, f.state = .verified) ∧
      run quantAuditor quantSnapshot quantReports clearedRequest.lean quantAnswers (.ok clearedRequest.redTeam) = .ok result ∧
      ∃ audit given, (Dossier.NoBetter plainPlatform (reached quantDossier result)
          (reached quantDossier (outcome audit given [])) ↔
        (Promising plainPlatform (reached quantDossier (outcome audit given [])) →
          Spared quantDossier audit given fixed)) := by
  let fixed : List AuditFinding := [{
    auditor := "Qlib Quant Auditor", claimId := some "qlib:prediction", state := .verified
    explanation := "Independently reconstructed PIT features and recomputed the qualified linear prediction."
    evidenceIds := ["bar-0"] }]
  have haudited : deterministicAudit quantAuditor quantSnapshot quantReports clearedRequest.lean = .ok fixed := by
    decide +kernel
  have hverified : ∀ f ∈ fixed, f.state = .verified := by decide
  have hrun : (run quantAuditor quantSnapshot quantReports clearedRequest.lean quantAnswers
      (.ok clearedRequest.redTeam)).toOption.isSome = true := by decide +kernel
  cases h : run quantAuditor quantSnapshot quantReports clearedRequest.lean quantAnswers (.ok clearedRequest.redTeam) with
  | error e => simp [h, Except.toOption] at hrun
  | ok result =>
    obtain ⟨audit, given, -, -, -, hiff, -⟩ :=
      verified_findings_spare_iff plainPlatform quantAuditor quantDossier haudited hverified h
    exact ⟨fixed, result, haudited, hverified, rfl, audit, given, hiff⟩

end Money.Cio
