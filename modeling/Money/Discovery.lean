import Mathlib.Data.List.Infix
import Money.Library.Grouping
import Money.Platform

/-! The documentary channels of `scanner/discovery.py`: titles with a catalyst term give a reason, and the last two
    financial facts of each metric and unit are compared. -/

namespace Money
open Grouping

structure DiscoveryPolicy where
  version : String := "discovery-v2"
  catalystAgeDays : Nat := 7
  financialChangeFraction : Rat := 1 / 10
  /-- Attention triggers, not bullish sentiment or validated trading edges. -/
  catalystTerms : List String :=
    ["results", "trading update", "profit warning", "acquisition", "disposal", "dividend", "rights issue", "refinancing",
      "contract", "guidance"]
  bounded : (1 ≤ catalystAgeDays ∧ catalystAgeDays ≤ 30) ∧ 0 < financialChangeFraction ∧ financialChangeFraction ≤ 1 := by
    decide +kernel

namespace Discovery

def metrics : List String := ["cash", "revenue", "net_income", "debt", "operating_cash_flow"]

abbrev Reported := EvidenceRecord × FinancialFact

structure Collected where
  reasons : List DiscoveryReason := []
  financial : List ((String × String) × List Reported) := []
  seenDocuments : List String := []

section
variable (P : Platform) (percent : Rat → String) (policy : DiscoveryPolicy) (s : ResearchSnapshot)

/-- A record that conflicts, is stale or was not available at its cutoff is passed over. -/
def usable (record : EvidenceRecord) : Bool :=
  !record.conflicting && decide (s.createdAt < record.freshUntil) && record.availableAt (s.cutoffFor record)

def matchedTerms (title : String) : List String :=
  policy.catalystTerms.filter fun term => (P.casefold term).toList <:+: (P.casefold title).toList

def collectDocument (c : Collected) (record : EvidenceRecord) (fact : DocumentFact) : Collected :=
  -- A usable record has a publication time.
  if record.publicationTime.any (· < s.newsCutoff - days policy.catalystAgeDays) then c
  else if matchedTerms P policy fact.title ≠ [] ∧ record.canonicalSourceId ∉ c.seenDocuments then
    { c with
      seenDocuments := record.canonicalSourceId :: c.seenDocuments
      reasons := c.reasons ++ [{
        channel := "catalyst"
        reason := policy.version ++ ": recent title matched " ++ ", ".intercalate (matchedTerms P policy fact.title) ++
          "; relevance only, no sentiment conclusion."
        evidenceIds := [record.evidenceId] }] }
  else c

def collect (c : Collected) (record : EvidenceRecord) : Collected :=
  if usable s record then
    match record.payload with
    | .document fact =>
      if fact.kind = .announcement ∨ fact.kind = .news then collectDocument P policy s c record fact else c
    | .financial fact =>
      if fact.metric ∈ metrics then { c with financial := add (fact.metric, fact.unit) (record, fact) c.financial } else c
    | .ohlcv _ => c
  else c

def collected : Collected := s.evidence.foldl (collect P policy s) {}

/-- The change against the earlier value, as the decimal context computes it. -/
def relativeChange (prior current : Rat) : Rat := P.round (P.round (current - prior) / P.round |prior|)

def fundamentalReason (group : (String × String) × List Reported) : Option DiscoveryReason :=
  match lastTwo (fun r => r.2.periodEnd) group.2 with
  | none => none
  | some (prior, current) =>
    if prior.2.periodEnd = current.2.periodEnd ∨ prior.2.value = 0 then none
    else if policy.financialChangeFraction ≤ |relativeChange P prior.2.value current.2.value| then
      some {
        channel := "fundamental"
        reason := policy.version ++ ": " ++ group.1.1 ++ " changed " ++
          percent (relativeChange P prior.2.value current.2.value) ++ " between cited period-end facts (" ++ group.1.2 ++
          "); accounting-period comparability requires audit."
        evidenceIds := [prior.1.evidenceId, current.1.evidenceId] }
    else none

/-- The order of `sorted` on the pairs of metric and unit. -/
def keyBefore (a b : (String × String) × List Reported) : Prop :=
  a.1.1.toList.map Char.toNat < b.1.1.toList.map Char.toNat ∨
    a.1.1 = b.1.1 ∧ Text.before a.1.2 b.1.2 = true
  deriving Decidable

def documentaryDiscovery : List DiscoveryReason :=
  (collected P policy s).reasons ++
    ((collected P policy s).financial.insertionSort keyBefore).filterMap (fundamentalReason P percent policy)

end
end Discovery
end Money
