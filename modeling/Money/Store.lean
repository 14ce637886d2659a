import Mathlib.Data.List.Sort
import Money.State

/-! The job queue, the report seals and the worker fencing of `storage/store.py`. Each operation is one transaction. The
    clock reads, the random identities and the rows that `SKIP LOCKED` passes over are arguments. -/

namespace Money
open Checked

variable {Doc : Type} {E : Env Doc}

/-! ### Transactions under a claim -/

structure Reads where
  lease : Int
  deadline : Int
  deriving DecidableEq

variable (h : Handle)

/-- The claim of the handle is the one that holds the job, and both its limits are in the future. -/
def Holds (row : Job) (r : Reads) : Prop :=
  (∃ c ∈ h.claim, c.jobId = row.id ∧ row.leaseToken = some c.token ∧ row.workerId = some c.workerId) ∧
    (∃ until_ ∈ row.leaseUntil, r.lease < until_) ∧ (∀ deadline ∈ row.deadlineAt, r.deadline < deadline) ∧
    row.status.terminal = false
  deriving Decidable

variable (db : Database E) (jobId : String) (r : Reads)

def owned (h : Handle) (jobId : String) (r : Reads) : Except Err Job := do
  let row ← demand (db.job? jobId) (.store "Research job does not exist")
  require (Holds h row r) (.leaseLost "Worker lease is no longer valid")
  pure row

/-- What one transaction does to a job: the new columns of its row, and the rows it inserts. -/
structure Change (E : Env Doc) where
  job : Job → Job := id
  snapshots : List (SnapshotRow E.toPlatform) := []
  reports : List ReportRow := []
  artifacts : List (ArtifactRow Doc) := []
  packets : List (PacketRow Doc) := []
  signals : List SignalRow := []

namespace Database

def apply (c : Change E) : Database E :=
  { db with
    jobs := Rows.update Job.id db.jobs jobId c.job
    snapshots := db.snapshots ++ c.snapshots
    reports := db.reports ++ c.reports
    artifacts := db.artifacts ++ c.artifacts
    packets := db.packets ++ c.packets
    signals := db.signals ++ c.signals }

/-- The primary keys and the unique constraints of the sealed tables. -/
structure Keyed (db : Database E) : Prop where
  snapshots : (db.snapshots.map (·.id)).Nodup
  reports : (db.reports.map fun r => (r.jobId, r.firm)).Nodup
  artifacts : (db.artifacts.map fun a => (a.jobId, a.kind)).Nodup
  packets : (db.packets.map (·.jobId)).Nodup
  signals : (db.signals.map (·.jobId)).Nodup

instance (db : Database E) : Decidable (Keyed db) :=
  decidable_of_iff ((db.snapshots.map (·.id)).Nodup ∧ (db.reports.map fun r => (r.jobId, r.firm)).Nodup ∧
      (db.artifacts.map fun a => (a.jobId, a.kind)).Nodup ∧ (db.packets.map (·.jobId)).Nodup ∧
      (db.signals.map (·.jobId)).Nodup)
    ⟨fun ⟨a, b, c, d, e⟩ => ⟨a, b, c, d, e⟩, fun ⟨a, b, c, d, e⟩ => ⟨a, b, c, d, e⟩⟩

def commit (c : Change E) (conflict : Err := .integrity) : Except Err (Database E) := do
  require (Keyed (db.apply jobId c)) conflict
  pure (db.apply jobId c)

end Database

def claimed (h : Handle) (jobId : String) (r : Reads) (body : Job → Except Err (Change E))
    (conflict : Err := .integrity) : Except Err (Database E) := do
  let row ← owned db h jobId r
  let change ← body row
  db.commit jobId change conflict

/-! ### Queue -/

/-- The arguments of `create_job`, with the identity it draws and the admission record it inserts. -/
structure NewJob where
  jobId : String
  ticker : String
  mandate : ResearchMandate
  capacity : Int := 100
  ratePerMinute : Int := 20
  idempotencyKey : Option String := none
  maxAttempts : Int := 3
  kind : ResearchKind := .standard
  stamp : Int
  admission : Option UsageRecord := none

/-- The workspace of a new job: unset and empty both stand for the private one. -/
def Handle.workspace (h : Handle) : String :=
  match h.workspaceId with
  | some workspace => if workspace = "" then "private" else workspace
  | none => "private"

def NewJob.row (E : Env Doc) (h : Handle) (n : NewJob) : Job where
  id := n.jobId
  ticker := n.ticker
  kind := n.kind
  mandate := n.mandate
  workspaceId := h.workspace
  idempotencyKey := n.idempotencyKey
  requestHash := E.requestHash n.ticker n.mandate (n.kind = .liveRnd)
  maxAttempts := n.maxAttempts
  createdAt := n.stamp
  updatedAt := n.stamp

def NewJob.existing (h : Handle) (n : NewJob) : Option Job :=
  n.idempotencyKey.bind fun key =>
    db.jobs.find? fun j => j.workspaceId = h.workspace ∧ j.idempotencyKey = some key

/-- The insert of a new job with its admission, under the capacity and the rate. -/
def enqueue (h : Handle) (n : NewJob) : Except Err (Database E) := do
  require (((db.jobs.filter fun j => !j.status.terminal).length : Int) < n.capacity)
    (.queueCapacityExceeded "Research queue is at capacity")
  require (((db.jobs.filter fun j => n.stamp - minutes 1 ≤ j.createdAt ∧ j.workspaceId = h.workspace).length : Int)
      < n.ratePerMinute)
    (.enqueueRateExceeded "Research submission rate exceeded")
  require (db.job? n.jobId = none) .integrity
  require (n.admission = none ∨ db.admission? n.jobId = none) .integrity
  pure { db with
    jobs := db.jobs ++ [n.row E h]
    usageRecords := db.usageRecords ++ (n.admission.map fun record => { record with jobId := n.jobId }).toList }

/-- `create_job`; a replayed key returns the job that it stands for and writes nothing. -/
def createJob (h : Handle) (n : NewJob) : Except Err (Database E) := do
  n.mandate.enforceMandate
  match n.existing db h with
  | some job =>
    require (job.requestHash = E.requestHash n.ticker n.mandate (n.kind = .liveRnd))
      (.idempotencyConflict "Idempotency key was used with different input")
    pure db
  | none => enqueue db h n

/-- The row of an attempt that ended: queued again, or failed for good. -/
def interrupt (retry : Bool) (stamp delay : Int) (code message : String) (j : Job) : Job :=
  { j with
    status := if retry then .queued else .failed
    currentStage := if retry then .queued else .failed
    resumeStage := some j.status
    completedAt := if retry then none else some stamp
    updatedAt := stamp
    leaseToken := none
    leaseUntil := none
    deadlineAt := none
    availableAt := some (stamp + delay)
    errorCode := some code
    errorMessage := some message }

def timedOut (stamp : Int) (j : Job) : Prop := ∃ deadline ∈ j.deadlineAt, deadline ≤ stamp
  deriving Decidable

def expired (stamp : Int) (j : Job) : Prop :=
  j.status.terminal = false ∧ ((∃ until_ ∈ j.leaseUntil, until_ ≤ stamp) ∨ timedOut stamp j)
  deriving Decidable

def retries (stamp : Int) (j : Job) : Bool := decide (j.attemptCount < j.maxAttempts ∧ ¬ timedOut stamp j)

def expireJob (stamp delay : Int) (j : Job) : Job :=
  interrupt (retries stamp j) stamp delay
    (if timedOut stamp j then "JOB_TIMEOUT" else if retries stamp j then "WORKER_LEASE_EXPIRED" else "JOB_RETRY_EXHAUSTED")
    (if retries stamp j then "Research compute was interrupted; retry is pending."
      else "Research compute failed; no research signal was issued.") j

/-- The arguments of `_expire_leases`: its job, the rows locked elsewhere, its clock read and the random delays. -/
structure Expiry where
  jobId : Option String := none
  skipped : List String := []
  stamp : Int
  delay : String → Int

def Expiry.selects (x : Expiry) (h : Handle) (j : Job) : Prop :=
  expired x.stamp j ∧ h.sees j ∧ (∀ id ∈ x.jobId, j.id = id) ∧ j.id ∉ x.skipped
  deriving Decidable

/-- `_expire_leases`, which `get_job` and `list_jobs` run before they read. -/
def expireLeases (h : Handle) (x : Expiry) : Database E :=
  { db with jobs := db.jobs.map fun j => if x.selects h j then expireJob x.stamp (x.delay j.id) j else j }

/-- The arguments of `claim_job`, with the token it draws and its clock reads. -/
structure ClaimRequest where
  workerId : String
  leaseSeconds : Int := 120
  jobTimeoutSeconds : Int := 1800
  kind : ResearchKind := .standard
  jobId : Option String := none
  token : String
  stamp : Int
  expiry : Expiry

variable (q : ClaimRequest)

def ClaimRequest.takes (h : Handle) (j : Job) : Prop :=
  j.status = .queued ∧ j.kind = q.kind ∧ h.sees j ∧ (∀ id ∈ q.jobId, j.id = id) ∧
    (∀ available ∈ j.availableAt, available ≤ q.stamp) ∧ j.id ∉ q.expiry.skipped
  deriving Decidable

def ClaimRequest.next (db : Database E) (h : Handle) : Option Job :=
  ((db.jobs.filter fun j => q.takes h j).insertionSort fun a b => a.createdAt ≤ b.createdAt).head?

def Job.entryStage (j : Job) : Status :=
  match j.resumeStage with
  | some stage => stage
  | none => if j.kind = .liveRnd then .snapshotBuild else .eligibilityCheck

def ClaimRequest.start (admission : Option UsageRecord) (j : Job) : Job :=
  { j with
    status := j.entryStage
    currentStage := j.entryStage
    startedAt := some (j.startedAt.getD q.stamp)
    updatedAt := q.stamp
    attemptCount := j.attemptCount + 1
    errorCode := none
    errorMessage := none
    deadlineAt := some (q.stamp + seconds (match admission with
      | some record => min q.jobTimeoutSeconds record.maxSeconds
      | none => q.jobTimeoutSeconds))
    workerId := some q.workerId
    leaseToken := some q.token
    leaseUntil := some (q.stamp + seconds q.leaseSeconds) }

/-- `claim_job`: expire what was lost, then hand out the oldest job, if there is one. -/
def claimJob (h : Handle) (q : ClaimRequest) : Except Err (Database E × Option Claim) := do
  require (10 ≤ q.leaseSeconds) (.value "Worker leases must last at least ten seconds")
  let db := expireLeases db h { q.expiry with jobId := none }
  match q.next db h with
  | none => pure (db, none)
  | some row =>
    pure ({ db with jobs := Rows.update Job.id db.jobs row.id (q.start (db.admission? row.id)) },
      some { jobId := row.id, token := q.token, workerId := q.workerId })

def renewLease (h : Handle) (jobId : String) (r : Reads) (leaseSeconds now : Int) : Except Err (Database E) :=
  claimed db h jobId r fun _ => pure { job := fun j => { j with leaseUntil := some (now + seconds leaseSeconds) } }

/-- `retry_job`: an explicitly classified transient failure. -/
def retryJob (h : Handle) (jobId : String) (r : Reads) (code : String) (stamp delay : Int) : Except Err (Database E) :=
  claimed db h jobId r fun row =>
    let retry := decide (row.attemptCount < row.maxAttempts)
    let message := if retry then "A transient service failure delayed research."
      else "Research retry limit reached; no signal was issued."
    pure { job := interrupt retry stamp delay (if retry then code else "JOB_RETRY_EXHAUSTED") message }

/-- `update_stage`; the candidate is written where it is given. -/
def updateStage (h : Handle) (jobId : String) (r : Reads) (stage : Status)
    (candidateId : Option (Option String)) (now : Int) : Except Err (Database E) := do
  require (stage ∉ [Status.queued, .firstPassLocked, .complete, .rejected, .failed])
    (.store "Use the dedicated operation for this stage")
  claimed db h jobId r fun row => do
    require (row.status.index ≤ stage.index) (.store "Research stages cannot move backwards")
    require (Status.firstPassLocked.index < stage.index → row.lockedAt ≠ none)
      (.barrierNotLocked "Final validation and audit require locked reports")
    require (stage = .firstPassResearch → row.snapshotId ≠ none)
      (.store "First-pass research requires a frozen snapshot")
    pure { job := fun j =>
      { j with status := stage, currentStage := stage, updatedAt := now, candidateId := candidateId.getD j.candidateId } }

def clip (length : Nat) (text : String) : String := String.ofList (text.toList.take length)

def failJob (h : Handle) (jobId : String) (r : Reads) (code message : String) (completed updated : Int) :
    Except Err (Database E) :=
  claimed db h jobId r fun _ => pure { job := fun j =>
    { j with
      status := .failed
      currentStage := .failed
      errorCode := some (clip 80 code)
      errorMessage := some (clip 512 message)
      completedAt := some completed
      updatedAt := updated
      leaseToken := none
      leaseUntil := none } }

/-- `save_snapshot`: frozen once, during snapshot building. -/
def saveSnapshot (h : Handle) (jobId : String) (r : Reads) (snapshot : ResearchSnapshot) (now : Int) :
    Except Err (Database E) := do
  let frozen ← Frozen.of E.toPlatform snapshot
  claimed db h jobId r fun row => do
    require (row.kind = .standard) (.store "Personal R&D requires its own snapshot contract")
    require (row.status = .snapshotBuild ∧ row.snapshotId = none)
      (.store "A snapshot can only be frozen once during snapshot building")
    require (frozen.snapshot.ticker = row.ticker) (.store "Snapshot ticker differs from the research job")
    E.verifyUniverseContext frozen.snapshot (db.artifact? jobId .universeContext) now
    pure {
      job := fun j => { j with snapshotId := some frozen.snapshot.snapshotId }
      snapshots := [{ id := frozen.snapshot.snapshotId, jobId, payload := .research frozen }] }

/-- The research snapshot that a job refers to; a study is refused by its contract. -/
def frozenSnapshot (row : Job) (missing : Err) : Except Err ResearchSnapshot := do
  let stored ← demand (db.snapshot? row.snapshotId) missing
  match stored.payload with
  | .research s => pure s.snapshot
  | .study _ => .error (.value "ResearchSnapshot")

/-- `save_report`: a report is sealed once, during first-pass research. -/
def saveReport (h : Handle) (jobId : String) (r : Reads) (firm : Firm) (report : FirmReport) : Except Err (Database E) := do
  require (report.firm = firm) (.value "FirmReport")
  claimed db h jobId r (fun row => do
    require (row.status = .firstPassResearch ∧ row.lockedAt = none)
      (.store "Reports can only be sealed during first-pass research")
    require (some report.snapshotId = row.snapshotId)
      (.store "A firm report must reference the job's frozen snapshot")
    let s ← frozenSnapshot db row (.store "A firm report must match the frozen snapshot hash")
    require (report.snapshotHash = s.hash) (.store "A firm report must match the frozen snapshot hash")
    require (firm ∈ s.requiredFirstPassFirms) (.store "Firm is disabled by the frozen research policy")
    require (∀ c ∈ report.claims, ∀ e ∈ c.evidenceIds, e ∈ s.evidenceIds)
      (.store "A firm report references evidence outside the frozen snapshot")
    pure { reports := [{ jobId, firm, report }] })
    (.store "A sealed report cannot be replaced")

/-- `lock_first_pass`: every configured firm, and no other, has a sealed report. -/
def lockFirstPass (h : Handle) (jobId : String) (r : Reads) (locked updated : Int) : Except Err (Database E) :=
  claimed db h jobId r fun row => do
    let incomplete := Err.barrierNotLocked "All configured independent reports must be persisted before locking"
    let s ← frozenSnapshot db row incomplete
    let firms := (db.reportsOf jobId).map (·.firm)
    require (row.status = .firstPassResearch ∧ (∀ f ∈ firms, f ∈ s.requiredFirstPassFirms) ∧
      ∀ f ∈ s.requiredFirstPassFirms, f ∈ firms) incomplete
    pure { job := fun j =>
      { j with status := .firstPassLocked, currentStage := .firstPassLocked, lockedAt := some locked, updatedAt := updated } }

/-- The checks of `save_artifact` on a cross-examination or one of its calls. -/
def checkCross (row : Job) (kind : ArtifactKind) (value : Doc) : Except Err Unit := do
  let refusal := Err.store "Cross-examination requires completed validation and initial CIO audit"
  let packet ← if kind = .crossExamination then (E.validateCross value).map some else pure none
  require (row.status = .crossExamination ∧ db.artifact? jobId .lean ≠ none) refusal
  require (∃ audit ∈ db.artifact? jobId .audit, E.completed audit = true) refusal
  require (∀ p ∈ packet, some p.snapshotId = row.snapshotId) refusal

def saveArtifact (h : Handle) (jobId : String) (r : Reads) (kind : ArtifactKind) (value : Doc) : Except Err (Database E) := do
  require (kind.known = true) (.store "Unknown research artifact")
  claimed db h jobId r fun row => do
    require (kind = .universeContext → row.lockedAt = none ∧ row.status = .snapshotBuild)
      (.store "Universe context must be frozen before first-pass research")
    require (kind.beforeLock = true ∨ row.lockedAt ≠ none)
      (.barrierNotLocked "Downstream artifacts require locked first-pass reports")
    if kind = .crossExamination ∨ kind.isCrossCall = true then checkCross db jobId row kind value
    pure { artifacts := [{ jobId, kind, payload := value }] }

/-- `save_cio_artifacts`: one coupled run, sealed at once. -/
def saveCioArtifacts (h : Handle) (jobId : String) (r : Reads) (audit : CIOAuditReport)
    (redTeam : RedTeamReport) (runtime : Option Doc) : Except Err (Database E) :=
  claimed db h jobId r fun row => do
    require (row.lockedAt ≠ none ∧ row.status = .crewaiAudit)
      (.barrierNotLocked "CIO artifacts require the audit stage after first-pass lock")
    require (some audit.snapshotId = row.snapshotId) (.store "CIO audit differs from the frozen snapshot")
    pure { artifacts := [{ jobId, kind := .audit, payload := E.audit.dump audit },
        { jobId, kind := .redTeam, payload := E.redTeam.dump redTeam }] ++
      (runtime.map fun value => { jobId, kind := .cioRuntime, payload := value }).toList }

/-! ### Reads -/

/-- `get_reports`: nothing is read before the persistent barrier. -/
def getReports (h : Handle) (jobId : String) : Except Err (List (Firm × FirmReport)) := do
  let row ← demand (db.job? jobId) (.store "Research job does not exist")
  require (h.sees row) (.store "Research job does not exist")
  require (row.lockedAt ≠ none) (.barrierNotLocked "First-pass reports remain sealed")
  pure ((db.reportsOf jobId).map fun r => (r.firm, r.report))

inductive PublicReport where
  | sealed
  | pending
  | report (r : FirmReport)
  deriving DecidableEq

structure PublicView (Doc : Type) where
  locked : Bool
  reports : List (Firm × PublicReport)
  artifacts : List (ArtifactKind × Doc)

def expectedFirms : Except Err (List Firm) :=
  match db.snapshots.find? fun s => s.jobId = jobId with
  | none => .ok [.aiHedgeFund, .qlib, .tradingagents]
  | some row => match row.payload with
    | .study _ => .error (.value "ResearchSnapshot")
    | .research s =>
      if s.snapshot.usageMode = .personalResearch then
        .error (.store "Personal research cannot export reports through the public API")
      else .ok s.snapshot.requiredFirstPassFirms

/-- The reports that `public_reports` shows: their texts behind the barrier, their progress before it. -/
def publicReportsOf (later : Database E) (h : Handle) (jobId : String) (locked : Bool) (required : List Firm) :
    Except Err (List (Firm × PublicReport)) :=
  if locked then (getReports later h jobId).map fun reports => reports.map fun entry => (entry.1, .report entry.2)
  else .ok (([.aiHedgeFund, .qlib, .tradingagents].filter (· ∈ required)).map fun firm =>
    (firm, if firm ∈ (db.reportsOf jobId).map (·.firm) then .sealed else .pending))

/-- `public_reports`; the reports are read by a second query, for which the database may have moved on. -/
def publicReports (later : Database E) (h : Handle) (jobId : String) : Except Err (PublicView Doc) := do
  let row ← demand (db.job? jobId) (.store "Research job does not exist")
  require (h.sees row) (.store "Research job does not exist")
  let required ← expectedFirms db jobId
  let locked := row.lockedAt.isSome
  let reports ← publicReportsOf db later h jobId locked required
  pure { locked, reports, artifacts := (db.artifactsOf jobId).map fun a => (a.kind, a.payload) }

end Money
