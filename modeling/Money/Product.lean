import Money.Library.Calendar
import Money.Accounts.State
import Money.Submission
import Money.System

/-! The entitlements of `product/service.py`: the subscription of a workspace, made and renewed where it is read, and
    the admission of research under it. -/

namespace Money
open Checked Transactions

def firstOfMonth (t : Int) : Int := t - days (dateOf t - Calendar.firstDay (Calendar.monthOf (dateOf t)))

/-- `month_window`: the first instant of the month, and the first day of the month of 32 days later. -/
def monthWindow (now : Int) : Int × Int :=
  let start := days (Calendar.firstDay (Calendar.monthOf (dateOf now)))
  (start, firstOfMonth (start + days 32))

def freeSubscription (workspace : String) (now : Int) : Subscription where
  workspaceId := workspace
  plan := "FREE"
  status := .active
  periodStart := (monthWindow now).1
  periodEnd := (monthWindow now).2
  updatedAt := now

def Subscription.renewed (s : Subscription) (now : Int) : Subscription :=
  { s with periodStart := (monthWindow now).1, periodEnd := (monthWindow now).2, updatedAt := now }

def Customers.subscribed (c : Customers) (workspace : String) (now : Int) : Customers × Subscription :=
  match c.subscription? workspace with
  | some row => (c, row)
  | none =>
    ({ c with subscriptions := c.subscriptions ++ [freeSubscription workspace now] }, freeSubscription workspace now)

/-- `ProductService.subscription`: a free period that has passed is renewed. -/
def subscription (c : Customers) (workspace : String) (now : Int) : Customers × Subscription :=
  let (c, row) := c.subscribed workspace now
  if row.plan = "FREE" ∧ row.periodEnd ≤ now then
    ({ c with subscriptions := Rows.update Subscription.workspaceId c.subscriptions workspace (·.renewed now) },
      row.renewed now)
  else (c, row)

/-! ### Admission -/

structure Principal where
  userId : String
  workspaceId : String
  role : MemberRole
  deriving DecidableEq

def assertWorkspaceOpen (c : Customers) (workspace : String) : Except Err Unit :=
  require (c.closure? workspace = none) (.account "WORKSPACE_CLOSING" "This workspace is closing" 409)

/-- `require_current_role`: the role of the member row, not the one the request came with. -/
def requireCurrentRole (c : Customers) (actor : Principal) (roles : List MemberRole) : Except Err Unit :=
  require (c.organisation? actor.workspaceId ≠ none ∧
      ∃ m ∈ c.member? actor.workspaceId actor.userId, m.role ∈ roles ∧
        ∃ u ∈ c.user? actor.userId, u.deletionRequestedAt = none ∧ u.emailVerifiedAt ≠ none)
    (.entitlementDenied "ROLE_FORBIDDEN")

/-- The reads of the clock in `reserve_research`, in their order. -/
structure AdmissionReads where
  subscription : Int
  active : Int
  usage : Int
  created : Int
  deriving DecidableEq

def AdmissionReads.list (r : AdmissionReads) : List Int := [r.subscription, r.active, r.usage, r.created]

variable {Doc : Type} {E : Env Doc}

def Database.usageOf (db : Database E) (workspace : String) (periodStart : Int) : List UsageRecord :=
  db.usageRecords.filter fun r => r.workspaceId = workspace ∧ r.periodStart = periodStart

/-- `user_usage`: the records of a user in the month of `now`. -/
def Database.userUsage (db : Database E) (userId : String) (now : Int) : List UsageRecord :=
  db.usageRecords.filter fun r => r.userId = userId ∧ (monthWindow now).1 ≤ r.createdAt ∧ r.createdAt < (monthWindow now).2

def reservingRoles : List MemberRole := [.owner, .admin, .member]

/-- What `reserve_research` checks before it reads the subscription. -/
def reservable (db : Database E) (jobId : String) (actor : Principal) (personalRnd : Bool) : Except Err Unit := do
  require (personalRnd = true → ∃ j ∈ db.job? jobId, j.workspaceId = actor.workspaceId ∧ j.kind = .liveRnd)
    (.entitlementDenied "RND_JOB_REQUIRED")
  require (actor.role ∈ reservingRoles) (.entitlementDenied "ROLE_FORBIDDEN")

/-- What `reserve_research` checks under a subscription, with the plan that it finds. -/
def entitlement (P : Service) (db : Database E) (c : Customers) (sub : Subscription) (actor : Principal) (ticker : String)
    (personalRnd : Bool) (r : AdmissionReads) : Except Err Plan := do
  assertWorkspaceOpen c actor.workspaceId
  requireCurrentRole c actor reservingRoles
  require (∀ customer ∈ sub.customerId, ∀ e ∈ c.billingEvents, e.customerId = some customer → e.unresolved = false)
    (.entitlementDenied "BILLING_RECONCILIATION_REQUIRED")
  require (sub.status.entitles = true ∧ r.active < sub.periodEnd) (.entitlementDenied "SUBSCRIPTION_INACTIVE")
  let plan ← demand (P.plan sub.plan) (.referenceTable "UNKNOWN_PLAN")
  require (ticker = "DEMO.L" ∨ personalRnd = true ∨ plan.liveResearch = true)
    (.entitlementDenied "PLAN_LIVE_RESEARCH_UNAVAILABLE")
  require ((db.usageOf actor.workspaceId sub.periodStart).length < plan.researchJobsPerPeriod)
    (.entitlementDenied "RESEARCH_ALLOWANCE_EXHAUSTED")
  require ((db.userUsage actor.userId r.usage).length < P.userJobsPerMonth)
    (.entitlementDenied "ACCOUNT_RESEARCH_ALLOWANCE_EXHAUSTED")
  pure plan

/-- `reserve_research`, the admission step of `create_job`. -/
def reserveResearch (P : Service) (actor : Principal) (ticker : String) (personalRnd : Bool) (r : AdmissionReads) :
    AdmissionStep E Customers := fun jobId => do
  let (db, c) ← get
  Statements.ofExcept (reservable db jobId actor personalRnd)
  let (c, sub) := subscription c actor.workspaceId r.subscription
  modify fun s => (s.1, c)
  let plan ← Statements.ofExcept (entitlement P db c sub actor ticker personalRnd r)
  insertUsage {
    jobId
    workspaceId := actor.workspaceId
    userId := actor.userId
    periodStart := sub.periodStart
    periodEnd := sub.periodEnd
    plan := sub.plan
    maxTokens := if ticker = "DEMO.L" ∨ personalRnd = true then 0 else plan.maxJobTokens
    maxSeconds := plan.maxJobSeconds
    createdAt := r.created }

structure Commerce (E : Env Doc) where
  research : System E := {}
  customers : Customers := {}

/-- A submission, an operation of a worker or the control plane, or a change of other customer tables. -/
inductive CommerceOp (Doc : Type) where
  | submit (h : Handle) (n : NewJob) (actor : Principal) (personalRnd : Bool) (r : AdmissionReads)
  | research (op : Op Doc)
  | serve (customers : Customers)

def Op.submits : Op Doc → Bool
  | .store (.createJob ..) => true
  | _ => false

def CommerceOp.reads : CommerceOp Doc → List Int
  | .submit _ _ _ _ r => r.list
  | _ => []

variable [DecidableEq Doc]

def Commerce.step (P : Service) (s : Commerce E) : CommerceOp Doc → Except Err (Commerce E)
  | .submit h n actor personalRnd r => do
    let (_, db, customers) ← transaction (submitJob h n (reserveResearch P actor n.ticker personalRnd r))
      (s.research.db, s.customers)
    pure { research := { s.research with db }, customers }
  | .research op => do
    require (op.submits = false) .absent
    let research ← Money.step s.research op
    pure { s with research }
  | .serve customers => .ok { s with customers }

end Money
