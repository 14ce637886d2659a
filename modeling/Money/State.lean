import Money.Library.Rows
import Money.Env

/-! The tables of the store, without random row identities and the columns that no modelled operation reads. -/

namespace Money
open Checked

/-! ### Jobs -/

inductive Status where
  | queued | eligibilityCheck | discovery | snapshotBuild | firstPassResearch | firstPassLocked | leanValidation
  | crewaiAudit | crossExamination | consensus | complete | rejected | failed
  deriving DecidableEq

namespace Status

/-- The position in `STAGES`; the two statuses that are no stage come last. -/
def index : Status → Nat
  | queued => 0
  | eligibilityCheck => 1
  | discovery => 2
  | snapshotBuild => 3
  | firstPassResearch => 4
  | firstPassLocked => 5
  | leanValidation => 6
  | crewaiAudit => 7
  | crossExamination => 8
  | consensus => 9
  | complete => 10
  | rejected => 11
  | failed => 12

def terminal : Status → Bool
  | complete | rejected | failed => true
  | _ => false

def name : Status → String
  | queued => "QUEUED"
  | eligibilityCheck => "ELIGIBILITY_CHECK"
  | discovery => "DISCOVERY"
  | snapshotBuild => "SNAPSHOT_BUILD"
  | firstPassResearch => "FIRST_PASS_RESEARCH"
  | firstPassLocked => "FIRST_PASS_LOCKED"
  | leanValidation => "LEAN_VALIDATION"
  | crewaiAudit => "CREWAI_AUDIT"
  | crossExamination => "CROSS_EXAMINATION"
  | consensus => "CONSENSUS"
  | complete => "COMPLETE"
  | rejected => "REJECTED"
  | failed => "FAILED"

end Status

inductive ResearchKind where
  | standard | liveRnd
  deriving DecidableEq

structure Claim where
  jobId : String
  token : String
  workerId : String
  deriving DecidableEq

structure Handle where
  claim : Option Claim := none
  workspaceId : Option String := none
  deriving DecidableEq

structure Job where
  id : String
  ticker : String
  kind : ResearchKind
  mandate : ResearchMandate
  workspaceId : String
  idempotencyKey : Option String
  requestHash : Hash
  attemptCount : Int := 0
  maxAttempts : Int
  availableAt : Option Int := none
  deadlineAt : Option Int := none
  resumeStage : Option Status := none
  candidateId : Option String := none
  snapshotId : Option String := none
  status : Status := .queued
  currentStage : Status := .queued
  createdAt : Int
  updatedAt : Int
  startedAt : Option Int := none
  completedAt : Option Int := none
  lockedAt : Option Int := none
  workerId : Option String := none
  leaseToken : Option String := none
  leaseUntil : Option Int := none
  errorCode : Option String := none
  errorMessage : Option String := none
  deriving DecidableEq

/-- `_workspace_filter`: an unset or empty workspace sees every job. -/
def Handle.sees (h : Handle) (job : Job) : Prop :=
  ∀ workspace ∈ h.workspaceId, workspace ≠ "" → job.workspaceId = workspace
  deriving Decidable

/-! ### Sealed rows -/

inductive SnapshotPayload (P : Platform) where
  | research (s : Frozen P)
  | study (s : RndSnapshot)

structure SnapshotRow (P : Platform) where
  id : String
  jobId : String
  payload : SnapshotPayload P

structure ReportRow where
  jobId : String
  firm : Firm
  report : FirmReport
  deriving DecidableEq

inductive ArtifactKind where
  | eligibility | discovery | lean | audit | redTeam | independence | crossExamination | consensus | tokenUsage
  | marketQuality | computeBudget | sourceManifest | universeContext | cioRuntime | signalDesign
  | crossCall (identity : String)
  deriving DecidableEq

namespace ArtifactKind

def beforeLock : ArtifactKind → Bool
  | eligibility | discovery | tokenUsage | marketQuality | computeBudget | sourceManifest | universeContext => true
  | _ => false

def isIdentity (identity : String) : Bool :=
  identity.toList.length = 24 && identity.toList.all fun c => c.isDigit || ('a' ≤ c && c ≤ 'f')

def known : ArtifactKind → Bool
  | crossCall identity => isIdentity identity
  | _ => true

def isCrossCall : ArtifactKind → Bool
  | crossCall _ => true
  | _ => false

end ArtifactKind

structure ArtifactRow (Doc : Type) where
  jobId : String
  kind : ArtifactKind
  payload : Doc
  deriving DecidableEq

/-- A decision, a rejection (a document that is no contract) or a study. -/
inductive PacketPayload (Doc : Type) where
  | decision (packet : DecisionPacket)
  | rejection (data : Doc)
  | study (result : RndResult)
  deriving DecidableEq

structure PacketRow (Doc : Type) where
  jobId : String
  payload : PacketPayload Doc
  deriving DecidableEq

structure SignalRow where
  jobId : String
  signal : ResearchSignal
  deriving DecidableEq

/-! ### Accounting rows -/

structure UsageRecord where
  jobId : String
  workspaceId : String
  userId : String
  periodStart : Int
  periodEnd : Int
  plan : String
  maxTokens : Nat
  maxSeconds : Int
  createdAt : Int
  deriving DecidableEq

inductive CostStatus where
  | unknown | estimated
  deriving DecidableEq

structure Reservation where
  id : String
  jobId : String
  workspaceId : String
  candidate : String
  stage : String
  agent : String
  provider : String
  model : String
  reservedTokens : Nat
  actualTokens : Option Nat := none
  promptVersion : String
  usage : Option Usage := none
  costStatus : CostStatus := .unknown
  overrun : Option Bool := none
  createdAt : Int
  deriving DecidableEq

inductive CallKind where
  | nativeInvocation | providerOperation | inferenceCall | reportedUsage
  deriving DecidableEq

inductive CallStatus where
  | started | succeeded | failed
  deriving DecidableEq

structure CallRow where
  invocationId : Hash
  sequence : Nat
  jobId : String
  workspaceId : String
  userId : Option String
  reservationId : Option String
  leaseToken : Option String
  attempt : Int
  stage : String
  kind : CallKind
  component : String
  provider : String
  model : Option String
  status : CallStatus
  inputTokens : Option Nat := none
  outputTokens : Option Nat := none
  estimatedCost : Option Amount := none
  durationMs : Option Nat := none
  retry : Bool
  errorCode : Option String := none
  deriving DecidableEq

/-! ### Database -/

variable {Doc : Type}

structure Database (E : Env Doc) where
  jobs : List Job := []
  snapshots : List (SnapshotRow E.toPlatform) := []
  reports : List ReportRow := []
  artifacts : List (ArtifactRow Doc) := []
  packets : List (PacketRow Doc) := []
  signals : List SignalRow := []
  usageRecords : List UsageRecord := []
  reservations : List Reservation := []
  calls : List CallRow := []

namespace Database
variable {E : Env Doc} (db : Database E)

def job? (jobId : String) : Option Job := Rows.get? Job.id db.jobs jobId

def snapshot? (id : Option String) : Option (SnapshotRow E.toPlatform) :=
  id.bind fun id => Rows.get? SnapshotRow.id db.snapshots id

def reportsOf (jobId : String) : List ReportRow := db.reports.filter fun r => r.jobId = jobId

def artifactsOf (jobId : String) : List (ArtifactRow Doc) := db.artifacts.filter fun a => a.jobId = jobId

def report? (jobId : String) (firm : Firm) : Option FirmReport :=
  (db.reports.find? fun r => r.jobId = jobId ∧ r.firm = firm).map (·.report)

def artifact? (jobId : String) (kind : ArtifactKind) : Option Doc :=
  (db.artifacts.find? fun a => a.jobId = jobId ∧ a.kind = kind).map (·.payload)

def packet? (jobId : String) : Option (PacketPayload Doc) :=
  (db.packets.find? fun p => p.jobId = jobId).map (·.payload)

def admission? (jobId : String) : Option UsageRecord := Rows.get? UsageRecord.jobId db.usageRecords jobId

def reservation? (id : String) : Option Reservation := Rows.get? Reservation.id db.reservations id

end Database
end Money
