import Money.Contracts

/-! The contracts of `crews/cross_examination.py`: bounded challenges after the lock. -/

namespace Money
open Checked

inductive Respondent where
  | firm (f : Firm)
  | lean
  | cio
  deriving DecidableEq

structure Challenge where
  challengeId : String
  respondent : Respondent
  claimId : Option String
  originalReportHash : Hash
  question : String
  evidenceIds : List String
  originalClaim : Option ReportClaim := none
  deriving DecidableEq

inductive InvocationRuntime where
  | live | demo | deterministic
  deriving DecidableEq

structure ChallengeInvocation where
  component : String
  provider : String
  model : String
  promptVersion : String
  upstreamSha : String
  calls : Nat
  usage : Usage := {}
  runtime : InvocationRuntime
  deriving DecidableEq

inductive Position where
  | maintain | withdraw | insufficientEvidence
  deriving DecidableEq

structure ChallengeResponse where
  challengeId : String
  respondent : Respondent
  snapshotHash : Hash
  originalReportHash : Hash
  position : Position
  explanation : String
  evidenceIds : List String
  correctedClaim : Option ReportClaim := none
  invocation : Option ChallengeInvocation := none
  deriving DecidableEq

structure ChallengeSourceCheck where
  evidenceId : String
  recordHash : Hash
  quotedFact : String
  deriving DecidableEq

structure ChallengeVerification where
  finding : AuditFinding
  invocation : Option ChallengeInvocation := none
  evidenceChecks : List ChallengeSourceCheck := []
  deriving DecidableEq

structure ChallengeExchange where
  challenge : Challenge
  response : Option ChallengeResponse := none
  verification : Option AuditFinding := none
  verificationInvocation : Option ChallengeInvocation := none
  verificationEvidenceChecks : List ChallengeSourceCheck := []
  resolved : Bool := false
  reason : String
  deriving DecidableEq

structure CrossExaminationRound where
  number : Nat
  exchanges : List ChallengeExchange
  deriving DecidableEq

structure CrossExaminationPacket where
  snapshotId : String
  snapshotHash : Hash
  reportHashes : List (Firm × Hash)
  leanHash : Hash
  initialAuditHash : Hash
  challenges : List Challenge
  rounds : List CrossExaminationRound
  unresolvedChallengeIds : List String
  materialDisagreement : Bool
  issuedAt : Int
  qlibEnabled : Bool := true
  hash : Hash := ""
  deriving DecidableEq

namespace CrossExaminationPacket

/-- The hash sealed for a respondent: `dict(report_hashes)` with the LEAN report and the audit added. -/
def originalHash (p : CrossExaminationPacket) : Respondent → Option Hash
  | .firm f => (p.reportHashes.reverse.find? fun entry => entry.1 = f).map (·.2)
  | .lean => some p.leanHash
  | .cio => some p.initialAuditHash

def sameMembers (a b : List String) : Prop := (∀ x ∈ a, x ∈ b) ∧ ∀ x ∈ b, x ∈ a
  deriving Decidable

def isDemo : Option ChallengeInvocation → Bool
  | some i => i.runtime = .demo
  | none => false

/-- The checks on one exchange about the pending challenge it names. -/
def checkExchange (p : CrossExaminationPacket) (challenge : Challenge) (x : ChallengeExchange) : Except Err Unit := do
  require (x.challenge = challenge) (.value "cross-examination cannot revise an original challenge")
  require ((x.response.bind (·.invocation) |> isDemo) = false ∧ isDemo x.verificationInvocation = false)
    (.value "unqualified native correspondence cannot enter a sealed packet")
  require (∀ r ∈ x.response, r.challengeId = challenge.challengeId ∧ r.respondent = challenge.respondent ∧
      r.snapshotHash = p.snapshotHash ∧ r.originalReportHash = challenge.originalReportHash ∧
      (∀ e ∈ r.evidenceIds, e ∈ challenge.evidenceIds) ∧
      ∀ c ∈ r.correctedClaim, ∀ e ∈ c.evidenceIds, e ∈ challenge.evidenceIds)
    (.value "cross-examination response identity differs")
  require (∀ v ∈ x.verification, ∀ e ∈ v.evidenceIds, e ∈ challenge.evidenceIds)
    (.value "cross-examination verification exceeded permitted evidence")
  require (∀ c ∈ x.verificationEvidenceChecks, c.evidenceId ∈ challenge.evidenceIds)
    (.value "cross-examination source check exceeded permitted evidence")
  require (x.resolved = true → ∃ r ∈ x.response, r.position = .maintain ∧ ∃ v ∈ x.verification,
      v.state = .verified ∧ v.claimId = challenge.claimId ∧ ∃ e ∈ v.evidenceIds, e ∈ r.evidenceIds)
    (.value "cross-examination resolution needs independent cited verification")

/-- One round addresses exactly the pending challenges; a resolved one is no longer pending. -/
def checkRound (p : CrossExaminationPacket) (pending : List Challenge) (r : CrossExaminationRound) :
    Except Err (List Challenge) := do
  require (sameMembers (r.exchanges.map (·.challenge.challengeId)) (pending.map (·.challengeId)))
    (.value "each round must address exactly the pending challenges")
  require (r.exchanges.length = pending.length)
    (.value "cross-examination exchange identities must be unique")
  r.exchanges.foldlM (fun left x => do
    -- The lookup cannot fail: the identities of this round were just compared and are distinct.
    let challenge ← demand (left.find? fun c => c.challengeId = x.challenge.challengeId) .noResult
    p.checkExchange challenge x
    pure (if x.resolved then left.filter fun c => c.challengeId ≠ challenge.challengeId else left)) pending

def bounded (p : CrossExaminationPacket) : Prop :=
  p.challenges.length ≤ 24 ∧ p.rounds.length ≤ 2 ∧
    ∀ c ∈ p.challenges, ∀ original ∈ c.originalClaim, some original.claimId = c.claimId
  deriving Decidable

/-- `seal`: the packet's own validator; `digest` is the content hash of all fields but `hash`. -/
def sealed (digest : CrossExaminationPacket → Hash) (p : CrossExaminationPacket) : Except Err CrossExaminationPacket := do
  require p.bounded (.value "cross-examination packet exceeds its field bounds")
  require (p.rounds.map (·.number) = List.range' 1 p.rounds.length)
    (.value "cross-examination rounds must be consecutive and bounded")
  require (p.materialDisagreement = !p.unresolvedChallengeIds.isEmpty)
    (.value "unresolved cross-examination cannot be hidden")
  require (p.challenges.map (·.challengeId)).Nodup
    (.value "cross-examination challenge identities must be unique")
  let required := requiredFirstPassFirms p.qlibEnabled
  require (p.reportHashes.length = required.length ∧ (∀ f ∈ required, f ∈ p.reportHashes.map (·.1)) ∧
      ∀ entry ∈ p.reportHashes, entry.1 ∈ required)
    (.value "cross-examination requires exactly the configured original firm hashes")
  require (∀ c ∈ p.challenges, p.originalHash c.respondent = some c.originalReportHash)
    (.value "challenge original report hash differs from sealed provenance")
  let pending ← p.rounds.foldlM (checkRound p) p.challenges
  require (sameMembers p.unresolvedChallengeIds (pending.map (·.challengeId)) ∧
      p.unresolvedChallengeIds.length = pending.length)
    (.value "cross-examination unresolved set differs from actual exchanges")
  require (p.hash = "" ∨ p.hash = digest { p with hash := "" }) (.value "cross-examination artifact hash differs")
  pure { p with hash := digest { p with hash := "" } }

end CrossExaminationPacket
end Money
