import Money.Library.Rows
import Money.Theorems.Gates
import Money.Generation

/-! The consensus as a function of its gates. Worse evidence never leads to a better state, and a positive state rests
    on a verified finding for every claim, except the one with the empty identifier. -/

namespace Money
open Checked List

def ResearchState.grade : ResearchState → Nat
  | .reject => 0
  | .insufficientEvidence => 1
  | .watch => 2
  | .researchCandidate => 3
  | .strongResearchCandidate => 4
  | .expired => 0

structure Dossier where
  mandate : ResearchMandate
  snapshot : ResearchSnapshot
  reports : List FirmReport
  lean : LeanValidationReport
  audit : CIOAuditReport
  redTeam : RedTeamReport
  independence : EvidenceIndependenceReport
  now : Int
  rounds : Nat := 0
  disagreement : Bool := false

namespace Dossier

def consensus (P : Platform) (d : Dossier) : Except Err (ResearchState × List String) :=
  Money.consensus P d.mandate d.snapshot d.reports d.lean d.audit d.redTeam d.independence d.now d.rounds d.disagreement

def decision (d : Dossier) : ResearchState × List String :=
  Money.decision d.snapshot d.reports d.lean d.audit d.redTeam d.independence d.disagreement

def claims (d : Dossier) : List ReportClaim := d.reports.flatMap (·.claims)

def link (d : Dossier) (f : AuditFinding) : Option ReportClaim := verifiedClaim d.snapshot d.claims f

/-- The evidence checks behind a positive state. -/
structure Sufficient (d : Dossier) : Prop where
  spoken : ∀ r ∈ d.reports, r.claims ≠ []
  live : ∀ r ∈ d.reports, r.runtime = .live
  passed : d.lean.state = .pass
  validated : leanComplete d.lean
  completed : d.audit.completed = true
  agreed : d.audit.materialDisagreement = false
  settled : d.disagreement = false
  supported : ∀ f ∈ d.audit.findings, f.state ≠ .unsupported ∧ f.state ≠ .contradicted
  distinct : (d.claims.map (·.claimId)).Nodup
  linked : ∀ f ∈ d.audit.findings, f.state = .verified → d.link f ≠ none
  claimed : d.claims ≠ []
  verified : ∀ c ∈ d.claims, ∃ f ∈ d.audit.findings, f.state = .verified ∧ ∃ v, d.link f = some v ∧
    v.claimId = c.claimId

variable {d : Dossier}

theorem evidenceReasons_eq_nil : evidenceReasons d.snapshot d.reports d.lean d.audit d.disagreement = [] ↔ d.Sufficient := by
  have lean_iff : (if d.lean.state ≠ .pass then ["LEAN_INSUFFICIENT_EVIDENCE"]
      else flag (¬ leanComplete d.lean) "LEAN_VALIDATION_METADATA_INCOMPLETE") = [] ↔
      d.lean.state = .pass ∧ leanComplete d.lean := by
    by_cases pass : d.lean.state = .pass <;> simp [pass]
  have finding_iff : ∀ f, f ∈ d.audit.findings.filter (fun f => f.state = .verified) ↔
      f ∈ d.audit.findings ∧ f.state = .verified := by simp
  simp only [evidenceReasons, append_eq_nil_iff, flag_eq_nil, lean_iff]
  constructor
  · rintro ⟨⟨⟨⟨⟨⟨⟨⟨spoken, live⟩, passed, validated⟩, completed⟩, agreed⟩, supported⟩, distinct⟩, linked⟩, verified⟩
    simp only [not_or, Bool.not_eq_true] at agreed
    refine ⟨by simpa using spoken, by simpa using live, passed, validated, by simpa using completed, agreed.1, agreed.2,
      fun f hf => by simpa using fun state => supported ⟨f, hf, state⟩, not_not.mp distinct, fun f hf state => ?_,
      fun none => verified (.inl none), fun c hc => ?_⟩
    · exact flag_eq_nil.mp (flatMap_eq_nil_iff.mp linked f ((finding_iff f).mpr ⟨hf, state⟩))
    · by_contra missing
      refine verified (.inr ⟨c, hc, fun found => missing ?_⟩)
      obtain ⟨v, hv, same⟩ := mem_map.mp found
      obtain ⟨f, hf, link⟩ := mem_filterMap.mp hv
      exact ⟨f, ((finding_iff f).mp hf).1, ((finding_iff f).mp hf).2, v, link, same⟩
  · intro h
    refine ⟨⟨⟨⟨⟨⟨⟨⟨by simpa using h.spoken, by simpa using h.live⟩, h.passed, h.validated⟩, by simp [h.completed]⟩,
      by simp [h.agreed, h.settled]⟩, ?_⟩, not_not.mpr h.distinct⟩, ?_⟩, ?_⟩
    · rintro ⟨f, hf, unsupported | contradicted⟩
      · exact (h.supported f hf).1 unsupported
      · exact (h.supported f hf).2 contradicted
    · refine flatMap_eq_nil_iff.mpr fun f hf => flag_eq_nil.mpr ?_
      exact h.linked f ((finding_iff f).mp hf).1 ((finding_iff f).mp hf).2
    · rintro (none | ⟨c, hc, missing⟩)
      · exact h.claimed none
      · obtain ⟨f, hf, state, v, link, same⟩ := h.verified c hc
        exact missing (mem_map.mpr ⟨v, mem_filterMap.mpr ⟨f, (finding_iff f).mpr ⟨hf, state⟩, link⟩, same⟩)

variable {c v : ReportClaim} {P : Platform}

theorem link_eq_some {f : AuditFinding} :
    d.link f = some v ↔ claimOf d.claims (f.claimId.getD "") = some v ∧ f.evidenceIds ≠ [] ∧
      (∀ e ∈ f.evidenceIds, e ∈ d.snapshot.evidenceIds) ∧ ∃ e ∈ f.evidenceIds, e ∈ v.evidenceIds := by
  simp [link, verifiedClaim, Option.filter_eq_some_iff]

theorem claimOf_eq_some {claims : List ReportClaim} {id : String} (h : claimOf claims id = some v) :
    v ∈ claims ∧ v.claimId = id := by
  have found := List.find?_some h
  exact ⟨mem_reverse.mp (mem_of_find?_eq_some h), by simpa using found⟩

theorem Sufficient.finding (h : d.Sufficient) (hc : c ∈ d.claims) :
    ∃ f ∈ d.audit.findings, f.state = .verified ∧ f.claimId.getD "" = c.claimId ∧
      (∀ e ∈ f.evidenceIds, e ∈ d.snapshot.evidenceIds) ∧ ∃ e ∈ f.evidenceIds, e ∈ c.evidenceIds := by
  obtain ⟨f, hf, state, v, link, same⟩ := h.verified c hc
  obtain ⟨found, -, within, shared⟩ := link_eq_some.mp link
  obtain ⟨hv, named⟩ := claimOf_eq_some found
  obtain rfl : v = c := Rows.eq_of_key h.distinct hv hc same
  exact ⟨f, hf, state, named.symm, within, shared⟩

/-! ### The decision -/

/-- Reports, audit and validation are all about the one snapshot. -/
structure Comparable (d : Dossier) : Prop where
  firms : (d.reports.map (·.firm)).isPerm d.snapshot.requiredFirstPassFirms = true
  sealed : ∀ r ∈ d.reports, r.snapshotHash = d.snapshot.hash ∧ r.snapshotId = d.snapshot.snapshotId
  audited : d.audit.snapshotId = d.snapshot.snapshotId
  validated : d.lean.snapshotId = d.snapshot.snapshotId

def seals (d : Dossier) : List (Firm × Hash × String) := d.reports.map fun r => (r.firm, r.snapshotHash, r.snapshotId)

variable {e : Dossier}

theorem comparable_of_same (snapshot : e.snapshot = d.snapshot) (seals : e.seals = d.seals)
    (audited : e.audit.snapshotId = d.audit.snapshotId) (validated : e.lean.snapshotId = d.lean.snapshotId) :
    e.Comparable ↔ d.Comparable := by
  have comparable_iff : ∀ x : Dossier, x.Comparable ↔
      (x.seals.map (·.1)).isPerm x.snapshot.requiredFirstPassFirms = true ∧
        (∀ k ∈ x.seals, k.2.1 = x.snapshot.hash ∧ k.2.2 = x.snapshot.snapshotId) ∧
        x.audit.snapshotId = x.snapshot.snapshotId ∧ x.lean.snapshotId = x.snapshot.snapshotId := by
    intro x
    simp only [Dossier.seals, map_map, Function.comp_def, forall_mem_map]
    exact ⟨fun h => ⟨h.firms, h.sealed, h.audited, h.validated⟩, fun ⟨h1, h2, h3, h4⟩ => ⟨h1, h2, h3, h4⟩⟩
  rw [comparable_iff, comparable_iff, snapshot, seals, audited, validated]

def Vetoed (d : Dossier) : Prop := d.redTeam.state = .veto ∨ d.lean.state = .fail

def Limited (d : Dossier) : Prop := d.independence.strength = .low ∨ d.redTeam.state = .warn

/-- The state of the consensus, by the first of its checks that fails. -/
inductive Verdict (d : Dossier) : ResearchState → Prop
  | incomparable (h : ¬ d.Comparable) : Verdict d .insufficientEvidence
  | vetoed (comparable : d.Comparable) (veto : d.Vetoed) : Verdict d .reject
  | insufficient (comparable : d.Comparable) (veto : ¬ d.Vetoed) (h : ¬ d.Sufficient) : Verdict d .insufficientEvidence
  | limited (comparable : d.Comparable) (veto : ¬ d.Vetoed) (sufficient : d.Sufficient) (h : d.Limited) :
    Verdict d .watch
  | passed (comparable : d.Comparable) (veto : ¬ d.Vetoed) (sufficient : d.Sufficient) (h : ¬ d.Limited) :
    Verdict d .researchCandidate

theorem decision_verdict (d : Dossier) : d.Verdict d.decision.1 := by
  unfold decision Money.decision
  split
  next firms => exact .incomparable fun h => by simp [h.firms] at firms
  next firms =>
  split
  next foreign =>
    obtain ⟨r, hr, differs⟩ := foreign
    exact .incomparable fun h => by simp [h.sealed r hr] at differs
  next own =>
  split
  next foreign => exact .incomparable fun h => by simp [h.audited, h.validated] at foreign
  next audited =>
  have comparable : d.Comparable := by
    simp only [not_or, not_not] at audited
    refine ⟨by simpa using firms, fun r hr => ?_, audited.1, audited.2⟩
    by_contra differs
    exact own ⟨r, hr, not_and_or.mp differs⟩
  split
  next veto => exact .vetoed comparable veto
  next veto =>
  split
  next reasons => exact .insufficient comparable veto fun h => reasons (evidenceReasons_eq_nil.mpr h)
  next none =>
  have sufficient : d.Sufficient := evidenceReasons_eq_nil.mp (not_not.mp none)
  split
  next limited => exact .limited comparable veto sufficient limited
  next limits => exact .passed comparable veto sufficient limits

/-- `e` asks about the same snapshot at the same instant, and no gate is wider there. -/
structure Weaker (d e : Dossier) : Prop where
  mandate : e.mandate = d.mandate
  snapshot : e.snapshot = d.snapshot
  now : e.now = d.now
  comparable : e.Comparable ↔ d.Comparable
  vetoed : d.Vetoed → e.Vetoed
  sufficient : ¬ e.Vetoed → e.Sufficient → d.Sufficient
  limited : d.Limited → e.Limited ∨ e.Vetoed

theorem Weaker.decision (h : Weaker d e) : e.decision.1.grade ≤ d.decision.1.grade := by
  have before := d.decision_verdict
  have after := e.decision_verdict
  generalize d.decision.1 = x at before ⊢
  generalize e.decision.1 = y at after ⊢
  cases before with
  | incomparable differs =>
    cases after with
    | incomparable | vetoed | insufficient => decide
    | limited comparable | passed comparable => exact absurd (h.comparable.mp comparable) differs
  | vetoed comparable veto =>
    cases after with
    | incomparable differs => exact absurd (h.comparable.mpr comparable) differs
    | vetoed => decide
    | insufficient _ none | limited _ none | passed _ none => exact absurd (h.vetoed veto) none
  | insufficient _ _ missing =>
    cases after with
    | incomparable | vetoed | insufficient => decide
    | limited _ none sufficient | passed _ none sufficient => exact absurd (h.sufficient none sufficient) missing
  | limited _ _ _ limit =>
    cases after with
    | incomparable | vetoed | insufficient | limited => decide
    | passed _ none _ free =>
      rcases h.limited limit with limit | veto
      · exact absurd limit free
      · exact absurd veto none
  | passed => cases after <;> decide

def NoBetter (P : Platform) (d e : Dossier) : Prop :=
  ∀ before after, d.consensus P = .ok before → e.consensus P = .ok after → after.1.grade ≤ before.1.grade

theorem Weaker.noBetter (h : Weaker d e) : NoBetter P d e := by
  intro before after hd he
  obtain ⟨-, _, -, ⟨clear, rfl⟩ | ⟨blocked, rfl⟩⟩ := consensus_eq_ok.mp hd <;>
    obtain ⟨-, _, -, ⟨clear', rfl⟩ | ⟨blocked', rfl⟩⟩ := consensus_eq_ok.mp he
  · exact h.decision
  · exact Nat.zero_le _
  · rw [h.mandate, h.snapshot, h.now] at clear'
    exact absurd clear' blocked
  · exact Nat.zero_le _

/-! ### Worse gates -/

/-- No finding can be taken for one about the claim that it does not name: the claim has a name, or every verified
    finding names its own. -/
def Named (d : Dossier) (c : ReportClaim) : Prop :=
  c.claimId ≠ "" ∨ ∀ f ∈ d.audit.findings, f.state = .verified → f.claimId ≠ none

theorem Named.claimId {f : AuditFinding} (h : d.Named c) (hf : f ∈ d.audit.findings) (state : f.state = .verified)
    (same : f.claimId.getD "" = c.claimId) : f.claimId = some c.claimId := by
  cases name : f.claimId with
  | none => exact (h.elim (fun named => named (by simpa [name] using same.symm)) fun all => all f hf state name).elim
  | some id => rw [← same, name, Option.getD_some]

def Positive (P : Platform) (d : Dossier) : Prop :=
  ∃ result, d.consensus P = .ok result ∧ (result.1 = .watch ∨ result.1 = .researchCandidate)

theorem Positive.sufficient (h : d.Positive P) : d.Comparable ∧ d.Sufficient := by
  obtain ⟨result, ok, positive⟩ := h
  obtain ⟨-, -, rfl⟩ := consensus_clear ok (by rcases positive with same | same <;> simp [same])
  have verdict := d.decision_verdict
  change d.decision.1 = .watch ∨ d.decision.1 = .researchCandidate at positive
  generalize d.decision.1 = state at positive verdict
  cases verdict with
  | limited comparable _ sufficient | passed comparable _ sufficient => exact ⟨comparable, sufficient⟩
  | incomparable | vetoed | insufficient => simp at positive

theorem Comparable.spoken (h : d.Comparable) (sufficient : d.Sufficient) {firm : Firm}
    (required : firm ∈ d.snapshot.requiredFirstPassFirms) : ∃ r ∈ d.reports, r.firm = firm ∧ r.claims ≠ [] := by
  obtain ⟨r, hr, rfl⟩ := mem_map.mp ((isPerm_iff.mp h.firms).mem_iff.mpr required)
  exact ⟨r, hr, rfl, sufficient.spoken r hr⟩

end Dossier

end Money
