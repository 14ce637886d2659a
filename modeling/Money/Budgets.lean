import Mathlib.Algebra.GroupWithZero.Nat
import Money.Metering

/-! `research/budgets.py`: durable pessimistic token admission. Unknown usage never becomes zero. -/

namespace Money
open Checked

variable {Doc : Type} {E : Env Doc}

structure BudgetLimits where
  perJob : Nat := 100000
  perCandidate : Nat := 100000
  perStage : Nat := 60000
  perAgent : Nat := 30000
  daily : Nat := 200000
  perModel : List (String × Nat) := []
  deriving DecidableEq

def BudgetLimits.modelLimit (l : BudgetLimits) (provider model : String) : Option Nat :=
  (l.perModel.reverse.find? fun entry => entry.1 = provider ++ "/" ++ model).map (·.2)

structure BudgetReservation where
  reservationId : String
  jobId : String
  stage : String
  agent : String
  provider : String
  model : String
  maximumTokens : Nat
  promptVersion : String
  deriving DecidableEq

/-! ### Charges -/

/-- What a reservation is charged: its usage where that is known, what was reserved otherwise. -/
def Reservation.charged (r : Reservation) : Nat := r.actualTokens.getD r.reservedTokens

/-- `sum(charged)` over the rows that a predicate covers. -/
def charge (covers : Reservation → Bool) (rows : List Reservation) : Nat := ((rows.filter covers).map (·.charged)).sum

def dayStart (now : Int) : Int := dateOf now * days 1

structure Scope where
  covers : Reservation → Bool
  limit : Nat

/-- The scopes of a request that belong to the configured limits, in the order they are checked. -/
def BudgetLimits.scopes (l : BudgetLimits) (job : Job) (q : BudgetReservation) (now : Int) : List Scope :=
  [ { covers := fun r => r.jobId = q.jobId, limit := l.perJob },
    { covers := fun r => r.jobId = q.jobId ∧ r.candidate = job.ticker, limit := l.perCandidate },
    { covers := fun r => r.jobId = q.jobId ∧ r.stage = q.stage, limit := l.perStage },
    { covers := fun r => r.jobId = q.jobId ∧ r.agent = q.agent, limit := l.perAgent },
    { covers := fun r => r.workspaceId = job.workspaceId ∧ dayStart now ≤ r.createdAt, limit := l.daily } ] ++
  ((l.modelLimit q.provider q.model).map fun limit : Nat =>
    { covers := fun r => r.jobId = q.jobId ∧ r.provider = q.provider ∧ r.model = q.model, limit : Scope }).toList

/-- The scopes of a product admission: the tokens of the job, and those of its period. -/
def admissionScopes (E : Env Doc) (job : Job) (jobId : String) (a : UsageRecord) : Except Err (List Scope) := do
  let monthly ← demand (E.monthlyTokens a.plan) (.value "PLAN_UNKNOWN")
  pure [
    { covers := fun r => r.jobId = jobId, limit := a.maxTokens },
    { covers := fun r => r.workspaceId = job.workspaceId ∧ a.periodStart ≤ r.createdAt ∧ r.createdAt < a.periodEnd
      limit := monthly }]

/-! ### Reservation -/

variable (db : Database E)

/-- `_job`: a claimed store has to hold the job, and a workspace has to own it. -/
def budgetJob (h : Handle) (jobId : String) (r : Reads) : Except Err Job := do
  let job ← if h.claim.isSome then owned db h jobId r else demand (db.job? jobId) .noResult
  require (∀ workspace ∈ h.workspaceId, job.workspaceId = workspace) (.value "RESOURCE_NOT_FOUND")
  pure job

def BudgetReservation.row (q : BudgetReservation) (job : Job) (now : Int) : Reservation where
  id := q.reservationId
  jobId := q.jobId
  workspaceId := job.workspaceId
  candidate := job.ticker
  stage := q.stage
  agent := q.agent
  provider := q.provider
  model := q.model
  reservedTokens := q.maximumTokens
  promptVersion := q.promptVersion
  createdAt := now

def BudgetReservation.repeats (q : BudgetReservation) (job : Job) (row : Reservation) : Prop :=
  (row.jobId = q.jobId ∧ row.workspaceId = job.workspaceId ∧ row.candidate = job.ticker ∧ row.stage = q.stage) ∧
    (row.agent = q.agent ∧ row.provider = q.provider ∧ row.model = q.model ∧ row.reservedTokens = q.maximumTokens) ∧
    row.promptVersion = q.promptVersion
  deriving Decidable

def fits (rows : List Reservation) (q : BudgetReservation) (s : Scope) : Except Err Unit :=
  require (charge s.covers rows + q.maximumTokens ≤ s.limit) (.value "TOKEN_BUDGET_EXCEEDED")

def checkAdmission (job : Job) (q : BudgetReservation) (now : Int) : Except Err Unit :=
  match db.admission? q.jobId with
  | none => .ok ()
  | some a => do
    require (now < a.periodEnd) (.value "TOKEN_BUDGET_EXCEEDED")
    let scopes ← admissionScopes E job q.jobId a
    scopes.forM (fits db.reservations q)

/-- `_reserve`. Reusing an invocation identity never initiates a second paid call. -/
def reserve (l : BudgetLimits) (job : Job) (now : Int) (q : BudgetReservation) : Except Err (Database E) := do
  require (q.maximumTokens ≤ l.perJob) (.value "TOKEN_BUDGET_EXCEEDED")
  match db.reservation? q.reservationId with
  | some existing =>
    if q.repeats job existing then .error (.value "BUDGET_INVOCATION_ALREADY_RESERVED")
    else .error (.value "BUDGET_IDEMPOTENCY_CONFLICT")
  | none => do
    checkAdmission db job q now
    (l.scopes job q now).forM (fits db.reservations q)
    pure { db with reservations := db.reservations ++ [q.row job now] }

/-- `reserve_many`: admit one job's whole stage or commit nothing, before starting paid calls. -/
def reserveMany (h : Handle) (l : BudgetLimits) (r : Reads) (now : Int)
    (requests : List BudgetReservation) : Except Err (Database E) :=
  match requests with
  | [] => .ok db
  | q :: rest => do
    require (∀ q' ∈ rest, q'.jobId = q.jobId) (.value "BUDGET_BATCH_JOB_MISMATCH")
    let job ← budgetJob db h q.jobId r
    (q :: rest).foldlM (fun db q => reserve db l job now q) db

/-! ### Settlement -/

def Usage.tokens (u : Usage) : Option Nat := do
  let input ← u.inputTokens
  let output ← u.outputTokens
  pure (input + output)

/-- The row with its usage recorded. An overrun is recorded honestly. -/
def Reservation.settled (u : Usage) (r : Reservation) : Reservation :=
  { r with
    actualTokens := u.tokens
    usage := some u
    costStatus := if u.costGbp = none then .unknown else .estimated
    overrun := some (match u.tokens with
      | some actual => decide (r.reservedTokens < actual)
      | none => false) }

def settleRow (row : Reservation) (usage : Usage) : Except Err (Database E) :=
  match row.usage with
  | some recorded => do
    require (recorded = usage) (.value "TOKEN_USAGE_CONFLICT")
    pure db
  | none => do
    let db := { db with reservations := Rows.update Reservation.id db.reservations row.id (Reservation.settled usage) }
    let job ← demand (db.job? row.jobId) .noResult
    recordReportedUsage db row usage job

def settle (h : Handle) (r : Reads) (reservationId : String) (usage : Usage) : Except Err (Database E) := do
  let row ← demand (db.reservation? reservationId) .noResult
  let _ ← budgetJob db h row.jobId r
  settleRow db row usage

/-- `created_at desc, id desc`: the later row, of two of one instant that with the greater identity. -/
def later (a b : Reservation) : Prop := b.createdAt < a.createdAt ∨ a.createdAt = b.createdAt ∧ Text.before b.id a.id = true
  deriving Decidable

def agentStage (agent : String) : String := if agent = "crewai" then "CREWAI_AUDIT" else "FIRST_PASS_RESEARCH"

def latestOf (rows : List Reservation) (jobId agent : String) : Option Reservation :=
  ((rows.filter fun r => r.jobId = jobId ∧ r.agent = agent ∧ r.stage = agentStage agent).insertionSort later).head?

variable (jobId : String)

/-- The sealed calls of a job: the reservation and the usage that each one names. -/
def sealedCalls : Except Err (List (String × Usage)) :=
  ((db.artifactsOf jobId).filter fun a => a.kind.isCrossCall).mapM fun a => do
    let reservation ← demand (E.reservationId a.payload) .noResult
    let usage ← demand (E.usage a.payload) (.value "Usage")
    pure (reservation, usage)

/-- The sealed usage of each agent of a job: its firms, and the CIO where its runtime was kept. -/
def sealedUsage : Except Err (List (String × Usage)) := do
  let firms := (db.reportsOf jobId).map fun r => (r.firm.name, r.report.usage)
  match db.artifact? jobId .cioRuntime with
  | none => pure firms
  | some doc => do
    let usage ← demand (E.usage doc) (.value "Usage")
    pure (firms ++ [("crewai", usage)])

def settleCall (db : Database E) (call : String × Usage) : Except Err (Database E) := do
  let row ← demand (db.reservations.find? fun r => r.id = call.1 ∧ r.jobId = jobId) .noResult
  settleRow db row call.2

def settleAgent (db : Database E) (entry : String × Usage) : Except Err (Database E) :=
  match latestOf db.reservations jobId entry.1 with
  | some row => settleRow db row entry.2
  | none => .ok db

/-- `reconcile_job`: recover usage after a crash between sealing a result and settling its charge. -/
def reconcileJob (h : Handle) (r : Reads) (jobId : String) : Except Err (Database E) := do
  let _ ← budgetJob db h jobId r
  let agents ← sealedUsage db jobId
  let calls ← sealedCalls db jobId
  let db ← calls.foldlM (settleCall jobId) db
  agents.foldlM (settleAgent jobId) db

end Money
