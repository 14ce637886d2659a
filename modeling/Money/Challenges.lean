import Mathlib.Data.List.Sort
import Money.Platform

/-! `run_cross_examination`: the challenges after the lock, for at most two rounds. The responders and the verifier are
    any functions of what they are given and of all calls before. -/

namespace Money.Challenges
open Checked

variable {ε : Type}

/-- What a verifier returns: a finding, or one with its invocation and source checks. -/
inductive Verdict where
  | finding (f : AuditFinding)
  | verification (v : ChallengeVerification)
  deriving DecidableEq

def Verdict.toVerification : Verdict → ChallengeVerification
  | finding f => { finding := f }
  | verification v => v

inductive Event (ε : Type) where
  | responded (challenge : Challenge) (round : Nat) (result : Except ε ChallengeResponse)
  | verified (challenge : Challenge) (response : ChallengeResponse) (result : Except ε Verdict)

abbrev Responder (ε : Type) :=
  List (Event ε) → ResearchSnapshot → Option FirmReport → Challenge → Nat → Except ε ChallengeResponse

abbrev Verifier (ε : Type) :=
  List (Event ε) → ResearchSnapshot → Challenge → ChallengeResponse → Except ε Verdict

structure Capabilities (ε : Type) where
  responders : Respondent → Option (Responder ε)
  verifier : Option (Verifier ε)

/-- The exception that ends a run: one of the runner itself or one of a capability. -/
inductive Raised (ε : Type) where
  | own (e : Err)
  | capability (e : ε)

structure Failure (ε : Type) where
  calls : List (Event ε)
  raised : Raised ε

/-- `InvalidUpstreamReport` after these calls, unless the condition holds. -/
def expect (calls : List (Event ε)) (c : Prop) [Decidable c] (message : String) : Except (Failure ε) Unit :=
  require c { calls, raised := .own (.upstream message) }

def propagate {α : Type} (calls : List (Event ε)) (result : Except ε α) : Except (Failure ε) α :=
  result.mapError fun e => { calls, raised := .capability e }

/-! ### Challenges -/

variable (reports : List FirmReport)

def claimIds : List String := reports.flatMap fun r => r.claims.map (·.claimId)

def owner? (claimId : String) : Option FirmReport :=
  reports.find? fun r => claimId ∈ r.claims.map (·.claimId)

def unresolvedFinding (claimId : Option String) (explanation : String) : AuditFinding :=
  { auditor := "CIO Contradiction Analyst", claimId, state := .unsupported, explanation }

variable (audit : CIOAuditReport)

/-- The findings that are challenged. A disagreement without any is one about every claim. -/
def disputed : List AuditFinding :=
  let findings := audit.findings.filter fun f => f.state = .unsupported ∨ f.state = .contradicted
  if audit.materialDisagreement = true ∧ findings = [] then
    if claimIds reports = [] then
      [unresolvedFinding none "Initial CIO audit records unresolved material disagreement without supported claims."]
    else (claimIds reports).map fun id =>
      unresolvedFinding (some id) "Initial CIO audit records unresolved material disagreement."
  else findings

def respondentOf (owner : Option FirmReport) (finding : AuditFinding) : Respondent :=
  match owner with
  | some report => .firm report.firm
  | none => if finding.auditor = "LEAN Auditor" then .lean else .cio

variable (P : Platform) (lean : LeanValidationReport)

def hashOf (audit : CIOAuditReport) (owner : Option FirmReport) (target : Respondent) : Hash :=
  match owner with
  | some report => P.reportHash report
  | none => if target = .lean then P.leanHash lean else P.auditHash audit

variable (facts : ResearchSnapshot)

/-- The challenge of one finding; the contract of a challenge bounds its question. -/
def challengeOf (reports : List FirmReport) (lean : LeanValidationReport)
    (audit : CIOAuditReport) (finding : AuditFinding) (index : Nat) : Except Err Challenge := do
  let owner := owner? reports (finding.claimId.getD "")
  require (finding.claimId.getD "" ≠ "" → owner ≠ none) (.upstream "cross-examination audit references an unknown claim")
  let target := respondentOf owner finding
  let originalClaim := owner.bind fun r => r.claims.find? fun c => some c.claimId = finding.claimId
  let cited := match originalClaim with
    | some c => c.evidenceIds
    | none => []
  let challenge : Challenge := {
    challengeId := "challenge-" ++ toString (index + 1)
    respondent := target
    claimId := finding.claimId
    originalReportHash := hashOf P lean audit owner target
    question := finding.explanation
    evidenceIds := (finding.evidenceIds ++ cited).eraseDups
    originalClaim }
  require (1 ≤ challenge.question.length ∧ challenge.question.length ≤ 4000)
    (.value "challenge question is out of bounds")
  require (∀ c ∈ challenge.originalClaim, some c.claimId = challenge.claimId)
    (.value "challenge original claim identity differs")
  require (∀ e ∈ challenge.evidenceIds, e ∈ facts.evidenceIds)
    (.upstream "challenge cites evidence outside the locked snapshot")
  pure challenge

def prepare (reports : List FirmReport) (lean : LeanValidationReport)
    (audit : CIOAuditReport) (locked : Bool) (maximumRounds maximumChallenges : Int) : Except Err (List Challenge) := do
  require (locked = true ∧ audit.completed = true)
    (.upstream "cross-examination requires locked first pass and completed initial CIO audit")
  require (0 ≤ maximumRounds ∧ maximumRounds ≤ 2) (.value "cross-examination allows at most two rounds")
  require (1 ≤ maximumChallenges ∧ maximumChallenges ≤ 24) (.value "cross-examination allows at most 24 challenges")
  require (reports.length = facts.requiredFirstPassFirms.length ∧
      (∀ r ∈ reports, r.firm ∈ facts.requiredFirstPassFirms) ∧
      ∀ f ∈ facts.requiredFirstPassFirms, f ∈ reports.map (·.firm))
    (.upstream "cross-examination requires all configured sealed first-pass reports")
  require (lean.snapshotId = facts.snapshotId ∧ audit.snapshotId = facts.snapshotId ∧
      ∀ r ∈ reports, r.snapshotId = facts.snapshotId ∧ r.snapshotHash = facts.hash)
    (.upstream "cross-examination snapshot identity differs")
  require (claimIds reports).Nodup (.upstream "cross-examination found duplicate original claim identities")
  let findings := disputed reports audit
  require ((findings.length : Int) ≤ maximumChallenges) (.upstream "cross-examination challenge budget exceeded")
  (findings.zipIdx).mapM fun entry => challengeOf P facts reports lean audit entry.1 entry.2

/-! ### Exchanges -/

def ownReport : Respondent → Option FirmReport
  | .firm f => reports.find? fun r => r.firm = f
  | _ => none

/-- The frozen hash of a cited record; a later record of the same identity replaces an earlier one. -/
def recordHash? (evidenceId : String) : Option Hash :=
  (facts.evidence.reverse.find? fun e => e.evidenceId = evidenceId).map (·.hash)

def checkResponse (reports : List FirmReport) (challenge : Challenge)
    (calls : List (Event ε)) (response : ChallengeResponse) : Except (Failure ε) Unit := do
  expect calls (CrossExaminationPacket.isDemo response.invocation = false)
    "unqualified native challenge response cannot enter live cross-examination"
  expect calls (response.challengeId = challenge.challengeId ∧ response.respondent = challenge.respondent ∧
      response.snapshotHash = facts.hash ∧ response.originalReportHash = challenge.originalReportHash ∧
      ∀ e ∈ response.evidenceIds, e ∈ challenge.evidenceIds)
    "cross-examination response provenance differs"
  expect calls (∀ c ∈ response.correctedClaim, c.claimId ∉ claimIds reports ∧ c.evidenceIds ≠ [] ∧
      ∀ e ∈ c.evidenceIds, e ∈ challenge.evidenceIds)
    "correction cannot overwrite original claim or add external evidence"

/-- A finding that verifies the claim of a response with evidence that the response cites. -/
def resolves (finding : AuditFinding) (response : ChallengeResponse) : Bool :=
  finding.state = .verified && decide (∃ e ∈ finding.evidenceIds, e ∈ response.evidenceIds)

def checkVerification (challenge : Challenge) (calls : List (Event ε))
    (v : ChallengeVerification) : Except (Failure ε) Unit := do
  expect calls (∀ check ∈ v.evidenceChecks, recordHash? facts check.evidenceId = some check.recordHash ∧
      check.evidenceId ∈ challenge.evidenceIds)
    "challenge source check differs from frozen evidence hash"
  expect calls (CrossExaminationPacket.isDemo v.invocation = false)
    "unqualified native verification cannot resolve a live challenge"
  expect calls (v.finding.claimId = challenge.claimId ∧ ∀ e ∈ v.finding.evidenceIds, e ∈ challenge.evidenceIds)
    "challenge verification provenance differs"

/-- The verification of a maintained response, with the calls after it. -/
def verifyResponse (verifier : Verifier ε) (facts : ResearchSnapshot) (challenge : Challenge)
    (response : ChallengeResponse) (calls : List (Event ε)) : Except (Failure ε) (ChallengeExchange × List (Event ε)) := do
  let result := verifier calls facts challenge response
  let calls := calls ++ [.verified challenge response result]
  let verdict ← propagate calls result
  let v := verdict.toVerification
  checkVerification facts challenge calls v
  let resolved := resolves v.finding response
  pure ({
    challenge
    response := some response
    verification := some v.finding
    verificationInvocation := v.invocation
    verificationEvidenceChecks := v.evidenceChecks
    resolved
    reason := if resolved then "INDEPENDENTLY_VERIFIED" else "MATERIAL_DISAGREEMENT_UNRESOLVED" }, calls)

def conclude (verifier : Option (Verifier ε)) (facts : ResearchSnapshot) (challenge : Challenge)
    (response : ChallengeResponse) (calls : List (Event ε)) : Except (Failure ε) (ChallengeExchange × List (Event ε)) :=
  if response.position = .maintain then
    match verifier with
    | some verifier => verifyResponse verifier facts challenge response calls
    | none =>
      .ok ({ challenge, response := some response, reason := "INDEPENDENT_VERIFICATION_UNAVAILABLE" }, calls)
  else
    .ok ({ challenge, response := some response, reason := "ORIGINAL_MATERIAL_CLAIM_WITHDRAWN_OR_UNSUPPORTED" }, calls)

variable (caps : Capabilities ε)

def exchange (facts : ResearchSnapshot) (reports : List FirmReport) (number : Nat)
    (challenge : Challenge) (calls : List (Event ε)) : Except (Failure ε) (ChallengeExchange × List (Event ε)) :=
  match caps.responders challenge.respondent with
  | none => .ok ({ challenge, reason := "RESPONDER_UNAVAILABLE" }, calls)
  | some responder => do
    let result := responder calls facts (ownReport reports challenge.respondent) challenge number
    let calls := calls ++ [.responded challenge number result]
    let response ← propagate calls result
    checkResponse facts reports challenge calls response
    conclude caps.verifier facts challenge response calls

/-! ### Rounds -/

structure RoundState (ε : Type) where
  exchanges : List ChallengeExchange := []
  unresolved : List Challenge
  calls : List (Event ε)

/-- The loop over the challenges that were pending when the round began. -/
def address (facts : ResearchSnapshot) (reports : List FirmReport) (number : Nat)
    (s : RoundState ε) (challenge : Challenge) : Except (Failure ε) (RoundState ε) := do
  let (x, calls) ← exchange caps facts reports number challenge s.calls
  let unresolved := if x.resolved then s.unresolved.filter fun c => c.challengeId ≠ challenge.challengeId else s.unresolved
  pure { exchanges := s.exchanges ++ [x], unresolved, calls }

structure RunState (ε : Type) where
  rounds : List CrossExaminationRound := []
  unresolved : List Challenge
  calls : List (Event ε) := []

def playRound (facts : ResearchSnapshot) (reports : List FirmReport) (number : Nat)
    (s : RunState ε) : Except (Failure ε) (RunState ε) := do
  let played ← s.unresolved.foldlM (address caps facts reports number) { unresolved := s.unresolved, calls := s.calls }
  pure {
    rounds := s.rounds ++ [{ number, exchanges := played.exchanges }]
    unresolved := played.unresolved
    calls := played.calls }

def answered (s : RunState ε) : Bool :=
  match s.rounds.getLast? with
  | some round => round.exchanges.any fun x => x.response.isSome
  | none => false

/-- The rounds with these numbers; there is no second round when every respondent is unavailable. -/
def play (caps : Capabilities ε) (facts : ResearchSnapshot) (reports : List FirmReport) :
    List Nat → RunState ε → Except (Failure ε) (RunState ε)
  | [], s => .ok s
  | number :: numbers, s =>
    if s.unresolved = [] then .ok s else do
      let s ← playRound caps facts reports number s
      if answered s then play caps facts reports numbers s else pure s

/-- The original hash of each report, in the order of the names of the firms. -/
def reportHashes (reports : List FirmReport) : List (Firm × Hash) :=
  (reports.map fun r => (r.firm, P.reportHash r)).insertionSort fun a b => a.1.name ≤ b.1.name

def packetOf (reports : List FirmReport) (lean : LeanValidationReport)
    (audit : CIOAuditReport) (challenges : List Challenge) (s : RunState ε) (issuedAt : Int) : CrossExaminationPacket where
  snapshotId := facts.snapshotId
  snapshotHash := facts.hash
  qlibEnabled := facts.qlibEnabled
  reportHashes := reportHashes P reports
  leanHash := P.leanHash lean
  initialAuditHash := P.auditHash audit
  challenges
  rounds := s.rounds
  unresolvedChallengeIds := s.unresolved.map (·.challengeId)
  materialDisagreement := !s.unresolved.isEmpty
  issuedAt

/-- `run_cross_examination`, with the calls that it made. -/
def run (snapshot : Frozen P) (reports : List FirmReport)
    (lean : LeanValidationReport) (audit : CIOAuditReport) (locked : Bool) (maximumRounds maximumChallenges issuedAt : Int) :
    Except (Failure ε) (CrossExaminationPacket × List (Event ε)) := do
  let facts := snapshot.snapshot
  let challenges ← (prepare P facts reports lean audit locked maximumRounds maximumChallenges).mapError
    fun e => { calls := [], raised := .own e }
  let s ← play caps facts reports (List.range' 1 maximumRounds.toNat) { unresolved := challenges }
  let packet ← ((packetOf P facts reports lean audit challenges s issuedAt).sealed P.crossHash).mapError
    fun e => { calls := s.calls, raised := .own e }
  pure (packet, s.calls)

end Money.Challenges
