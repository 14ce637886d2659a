import Money.Contracts.Signal
import Money.Contracts.CrossExamination
import Money.Text

/-! What the modelled code takes from its platform. Content hashes, case folding, decimal rounding and text, and the
    indicator library are parameters, only assumed to be functions of their arguments. -/

namespace Money
open Checked

structure Platform where
  /-- `str.casefold`. -/
  casefold : String → String
  /-- `content_hash` of a value without its own hash field, for each contract that is hashed. -/
  recordHash : EvidenceRecord → Hash
  snapshotHash : ResearchSnapshot → Hash
  screeningHash : EthicalClearance → Hash
  exclusionsHash : List String → Hash
  reportHash : FirmReport → Hash
  leanHash : LeanValidationReport → Hash
  auditHash : CIOAuditReport → Hash
  crossHash : CrossExaminationPacket → Hash
  policyHash : SignalPolicy → Hash
  /-- The decimal context: the result of one arithmetic operation, rounded to its precision. -/
  round : Rat → Rat
  /-- The least magnitude beyond the decimal context: a result that reaches it raises `Overflow`. -/
  overflow : Rat
  /-- `str` of a decimal. -/
  text : Rat → String
  /-- The average true range that TA-Lib computes from the bars; none where it is unavailable. -/
  averageTrueRange : List PriceBar → Option Rat

namespace Platform
variable (P : Platform)

def isHash (h : Hash) : Bool :=
  h.toList.length = 64 && h.toList.all fun c => c.isDigit || ('a' ≤ c && c ≤ 'f')

/-- The pattern of an ISIN: two capitals, nine capitals or digits, one digit. -/
def isIsin (s : String) : Bool :=
  let cs := s.toList
  cs.length = 12 && (cs.take 2).all Char.isUpper && ((cs.drop 2).take 9).all (fun c => c.isUpper || c.isDigit) &&
    (cs.drop 11).all Char.isDigit

/-- `consistent_screening` with the field patterns of a clearance. -/
def consistentScreening (c : EthicalClearance) : Except Err Unit := do
  require (0 < c.issuerKey.length ∧ c.issuerKey.length ≤ 300 ∧ c.isins ≠ [] ∧ (∀ i ∈ c.isins, isIsin i = true) ∧
      isHash c.policyHash = true ∧ (∀ h ∈ c.evidenceHashes, isHash h = true) ∧ isHash c.screeningHash = true)
    (.value "ETHICAL_CLEARANCE_FIELD_INVALID")
  require (c.screenedAt < c.validUntil) (.value "ETHICAL_CLEARANCE_INTERVAL_INVALID")
  require c.isins.Nodup (.value "ETHICAL_CLEARANCE_DUPLICATE_IDENTITY")
  require (c.result = .pass → c.evidenceHashes ≠ [] ∧ c.businessActivities ≠ [] ∧
      ∀ a ∈ excludedActivities, a ∈ c.assessedExclusions)
    (.value "ETHICAL_CLEARANCE_EVIDENCE_INCOMPLETE")
  require (c.screeningHash = P.screeningHash { c with screeningHash := "" })
    (.value "ETHICAL_CLEARANCE_HASH_MISMATCH")

def policyExclusions (excluded : List String) : Except Err (List String) := do
  let exclusions := Text.sortedSet excluded
  require (∀ a ∈ excludedActivities, a ∈ exclusions) (.value "ETHICAL_EXCLUSIONS_CANNOT_BE_REMOVED")
  require (∀ e ∈ exclusions, e ≠ "" ∧ e = Text.strip e) (.value "ETHICAL_EXCLUSION_INVALID")
  pure exclusions

/-- Changing any configured exclusion invalidates the previous screening. -/
def ethicalPolicyHash (excluded : List String) : Except Err Hash := do
  pure (P.exclusionsHash (← policyExclusions excluded))

/-! ### Snapshots -/

/-- `provenance`: the validator of one evidence record, which seals its hash. -/
def provenance (e : EvidenceRecord) : Except Err EvidenceRecord := do
  require (∀ bar ∈ e.payload.bar?, bar.valid) (.value "invalid OHLC price range")
  require (e.pitSafe = true → e.publicationTime ≠ none) (.value "PIT-safe evidence requires publication availability")
  require (∀ p ∈ e.publicationTime, p ≤ e.retrievalTime) (.value "retrieval cannot precede publication")
  require (e.hash = "" ∨ e.hash = P.recordHash { e with hash := "" }) (.value "evidence hash mismatch")
  pure { e with hash := P.recordHash { e with hash := "" } }

/-- The checks of `freeze_facts` on one evidence record. -/
def freezeRecord (s : ResearchSnapshot) (e : EvidenceRecord) : Except Err Unit := do
  require (e.snapshotId = s.snapshotId) (.value "evidence belongs to another snapshot")
  let cutoff := s.cutoffFor e
  require (∀ p ∈ e.payload.periodEnd?, p ≤ cutoff)
    (.value "financial reporting period contains look-ahead information")
  require (e.observationTime ≤ cutoff) (.value "look-ahead observation")
  require (∀ p ∈ e.publicationTime, p ≤ cutoff) (.value "look-ahead publication")
  require (e.retrievalTime ≤ s.createdAt) (.value "evidence retrieved after snapshot was frozen")
  require (s.historical = true → e.availableAt cutoff = true)
    (.value "unsafe historical evidence: publication availability unknown")

/-- `freeze_facts`: the snapshot's own validator, which seals its hash. -/
def freezeFacts (s : ResearchSnapshot) : Except Err ResearchSnapshot := do
  require (s.purpose = .researchTesting →
      s.usageMode = .personalResearch ∧ s.qlibEnabled = false ∧ s.universeHash ≠ none)
    (.value "RESEARCH_TESTING_REQUIRES_PERSONAL_SCOPE_FROZEN_UNIVERSE_AND_QLIB_DISABLED")
  require (s.instrument.ticker = s.ticker) (.value "instrument and snapshot ticker mismatch")
  require (s.instrument.verifiedAt ≤ s.createdAt)
    (.value "instrument metadata was unavailable when snapshot was frozen")
  let cutoffs := [s.priceCutoff, s.newsCutoff, s.filingCutoff, s.fundamentalCutoff]
  require (s.historical = true → ∀ c ∈ cutoffs, s.instrument.verifiedAt ≤ c)
    (.value "historical instrument metadata contains look-ahead information")
  require s.evidenceIds.Nodup (.value "duplicate evidence identity")
  require (∀ item ∈ s.enrichment, ∀ e ∈ item.evidenceIds, e ∈ s.evidenceIds)
    (.value "enrichment references unknown evidence")
  require (∀ c ∈ cutoffs, c ≤ s.createdAt) (.value "snapshot cutoff cannot be in the future")
  s.evidence.forM (freezeRecord s)
  require (s.hash = "" ∨ s.hash = P.snapshotHash { s with hash := "" }) (.value "snapshot hash mismatch")
  pure { s with hash := P.snapshotHash { s with hash := "" } }

/-- `ResearchSnapshot.model_validate`: the nested contracts first, then the snapshot itself. -/
def validateSnapshot (s : ResearchSnapshot) : Except Err ResearchSnapshot := do
  let evidence ← s.evidence.mapM P.provenance
  s.instrument.ethicalClearance.forM P.consistentScreening
  P.freezeFacts { s with evidence }

variable {P}

theorem provenance_fixed {e e' : EvidenceRecord} (h : P.provenance e = .ok e') : P.provenance e' = .ok e' := by
  simp only [provenance, ok_iff] at h ⊢
  obtain ⟨bar, pit, published, -, rfl⟩ := h
  exact ⟨bar, pit, published, .inr rfl, rfl⟩

theorem freezeFacts_fixed {s t : ResearchSnapshot} (h : P.freezeFacts s = .ok t) :
    P.freezeFacts t = .ok t ∧ t.evidence = s.evidence ∧ t.instrument = s.instrument := by
  simp only [freezeFacts, ok_iff] at h ⊢
  obtain ⟨purpose, ticker, verified, historical, ids, enriched, cutoffs, u, records, -, rfl⟩ := h
  exact ⟨⟨purpose, ticker, verified, historical, ids, enriched, cutoffs, u, records, .inr rfl, rfl⟩, rfl, rfl⟩

/-- Validation keeps a snapshot that it returned, so that reading one back changes nothing. -/
theorem validateSnapshot_fixed {s t : ResearchSnapshot} (h : P.validateSnapshot s = .ok t) :
    P.validateSnapshot t = .ok t := by
  simp only [validateSnapshot, bind_eq_ok] at h ⊢
  obtain ⟨evidence, recorded, u, screened, frozen⟩ := h
  obtain ⟨again, sameEvidence, sameInstrument⟩ := freezeFacts_fixed frozen
  refine ⟨t.evidence, ?_, u, by rw [sameInstrument]; exact screened, again⟩
  rw [sameEvidence]
  exact mapM_fixed (fun _ _ => provenance_fixed) recorded

end Platform

/-- A snapshot that passed its validation. Reading its row back validates it again, which changes nothing. -/
structure Frozen (P : Platform) where
  snapshot : ResearchSnapshot
  valid : P.validateSnapshot snapshot = .ok snapshot

def Frozen.of (P : Platform) (s : ResearchSnapshot) : Except Err (Frozen P) :=
  match h : P.validateSnapshot s with
  | .ok t => .ok ⟨t, Platform.validateSnapshot_fixed h⟩
  | .error e => .error e

/-- A platform to run the model on: content hashes are constant, and decimals are exact. -/
def plainPlatform : Platform where
  casefold := id
  recordHash _ := ""
  snapshotHash _ := "hash"
  screeningHash _ := String.ofList (List.replicate 64 'a')
  exclusionsHash _ := String.ofList (List.replicate 64 'a')
  reportHash _ := ""
  leanHash _ := ""
  auditHash _ := ""
  crossHash _ := ""
  policyHash _ := "policy"
  round := id
  overflow := (10 ^ 1000000 : Nat)
  text _ := ""
  averageTrueRange _ := some (1 / 10)

end Money
