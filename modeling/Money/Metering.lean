import Money.Store

/-! `product/metering.py`: fenced, append-only call accounting. The content hash of a record stands for its values. -/

namespace Money
open Checked

variable {Doc : Type} {E : Env Doc}

/-- `_ownership`: the user that a job is accounted to; an admission of another workspace is refused. -/
def ownership (db : Database E) (job : Job) : Except Err (Option String) :=
  match db.admission? job.id with
  | none => .ok none
  | some record => do
    require (record.workspaceId = job.workspaceId) (.store "CALL_ADMISSION_OWNERSHIP_MISMATCH")
    pure (some record.userId)

/-- `_insert`: a record is written once; the same record again is accepted, another one is not. -/
def insertCall (db : Database E) (row : CallRow) : Except Err (Database E) :=
  match db.calls.find? fun c => c.invocationId = row.invocationId ∧ c.sequence = row.sequence with
  | some previous => do
    require (previous = row) (.value "CALL_METERING_IDEMPOTENCY_CONFLICT")
    pure db
  | none => pure { db with calls := db.calls ++ [row] }

/-- What an invocation is for: its component and the reservation that pays for it. -/
structure Invocation where
  jobId : String
  component : String
  provider : String
  model : Option String
  reservationId : Option String
  /-- The identity drawn for a call without a reservation. -/
  fresh : Hash
  kind : CallKind := .nativeInvocation
  deriving DecidableEq

/-- The identity of an invocation: a reservation stands for one invocation. -/
def Invocation.id (E : Env Doc) (i : Invocation) : Hash :=
  match i.reservationId with
  | some reservation => E.reservationHash reservation
  | none => i.fresh

def Invocation.record (E : Env Doc) (i : Invocation) (job : Job) (userId : Option String) (sequence : Nat)
    (kind : CallKind) (status : CallStatus) : CallRow where
  invocationId := i.id E
  sequence
  jobId := i.jobId
  workspaceId := job.workspaceId
  userId
  reservationId := i.reservationId
  leaseToken := job.leaseToken
  attempt := job.attemptCount
  stage := job.currentStage.name
  kind
  component := i.component
  provider := i.provider
  model := i.model
  status
  retry := decide (1 < job.attemptCount)

/-- The reservation of an invocation is for this component and not settled yet. -/
def checkReservation (db : Database E) (i : Invocation) : Except Err Unit :=
  match i.reservationId with
  | none => .ok ()
  | some id => do
    let row ← demand (db.reservations.find? fun r => r.id = id ∧ r.jobId = i.jobId) (.value "CALL_BUDGET_IDENTITY_MISMATCH")
    require (row.provider = i.provider ∧ some row.model = i.model ∧ row.agent = i.component)
      (.value "CALL_BUDGET_IDENTITY_MISMATCH")
    require (row.usage = none) (.value "CALL_BUDGET_ALREADY_SETTLED")

/-- The first transaction of `CallMeter.invoke`: a start is persisted before any work. -/
def startCall (db : Database E) (h : Handle) (r : Reads) (i : Invocation) : Except Err (Database E) := do
  let job ← owned db h i.jobId r
  require (∀ workspace ∈ h.workspaceId, workspace = job.workspaceId) (.store "RESOURCE_NOT_FOUND")
  checkReservation db i
  require (∀ c ∈ db.calls, c.invocationId ≠ i.id E) (.value "CALL_INVOCATION_ALREADY_STARTED")
  let user ← ownership db job
  insertCall db (i.record E job user 0 i.kind .started)

structure Receipt where
  provider : String
  model : Option String
  status : CallStatus
  inputTokens : Option Nat
  outputTokens : Option Nat
  estimatedCost : Option Amount
  durationMs : Nat
  retry : Bool
  errorCode : Option String
  deriving DecidableEq

def Receipt.record (E : Env Doc) (receipt : Receipt) (i : Invocation) (job : Job) (user : Option String)
    (sequence : Nat) : CallRow :=
  { i.record E job user sequence .inferenceCall receipt.status with
    inputTokens := receipt.inputTokens
    outputTokens := receipt.outputTokens
    estimatedCost := receipt.estimatedCost
    durationMs := some receipt.durationMs
    retry := receipt.retry || decide (1 < job.attemptCount)
    errorCode := receipt.errorCode }

/-- The second transaction of `CallMeter.invoke`; `job` is the row that the first one read. -/
def finishCall (db : Database E) (h : Handle) (r : Reads) (i : Invocation) (job : Job) (user : Option String)
    (receipts : List Receipt) (success : Bool) (durationMs : Nat) : Except Err (Database E) := do
  let _ ← owned db h i.jobId r
  require (∀ receipt ∈ receipts, receipt.provider = i.provider ∧ receipt.model = i.model)
    (.value "CALL_PROVIDER_IDENTITY_MISMATCH")
  let db ← (receipts.zipIdx 1).foldlM (fun db entry => insertCall db (entry.1.record E i job user entry.2)) db
  insertCall db { i.record E job user 257 i.kind (if success then .succeeded else .failed) with
    durationMs := some durationMs
    errorCode := if success then none else some "COMPONENT_FAILED" }

def reportedUsage (E : Env Doc) (row : Reservation) (usage : Usage) (job : Job) (user : Option String) : CallRow where
  invocationId := E.aggregateHash row.id
  sequence := 0
  jobId := job.id
  workspaceId := job.workspaceId
  userId := user
  reservationId := some row.id
  leaseToken := job.leaseToken
  attempt := job.attemptCount
  stage := row.stage
  kind := .reportedUsage
  component := row.agent
  provider := row.provider
  model := some row.model
  status := .succeeded
  inputTokens := usage.inputTokens
  outputTokens := usage.outputTokens
  estimatedCost := usage.costGbp
  retry := decide (1 < job.attemptCount)

/-- `record_reported_usage`: aggregate usage is kept where no individual receipt survived. -/
def recordReportedUsage (db : Database E) (row : Reservation) (usage : Usage) (job : Job) : Except Err (Database E) :=
  if ∃ c ∈ db.calls, c.reservationId = some row.id ∧ c.kind = .inferenceCall then .ok db
  else do
    let user ← ownership db job
    insertCall db (reportedUsage E row usage job user)

end Money
