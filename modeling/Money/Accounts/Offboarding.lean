import Money.Accounts.Workspaces
import Money.Billing

/-! Offboarding, as in `accounts/offboarding.py`: a deletion request closes the workspaces that nobody else can own,
    billing is closed outside of it, and after a review the local identity is erased. -/

namespace Money
open Checked

/-! ### Deletion requests -/

variable (c : Customers) (workspace userId : String)

def Customers.others : List Member :=
  (c.membersOf workspace).filter fun m =>
    m.userId ≠ userId ∧ ∃ u ∈ c.user? m.userId, u.deletionRequestedAt = none

def newClosure (sub : Subscription) (workspace userId key : String) (now : Int) : Closure where
  workspaceId := workspace
  requestedBy := userId
  requestedAt := now
  customerId := sub.customerId
  subscriptionId := sub.subscriptionId
  cancellationKey := "close-" ++ key
  availableAt := now

variable (now : Int)

/-- What `begin_deletion` does for one workspace: nothing where another owner stays, a closure where nobody else does.
    -/
def closeWorkspace (t : Nat → Int) (c : Customers) (workspace key : String) : Except Err Customers := do
  let (c, sub) := subscription c workspace (t 0)
  let _ ← demand (c.organisation? workspace) .noResult
  if ¬ ∃ m ∈ c.member? workspace userId, m.role = .owner then pure c
  else if ∃ m ∈ c.others workspace userId, m.role = .owner then pure c
  else do
    require (c.others workspace userId = [])
      (.account "OWNERSHIP_TRANSFER_REQUIRED" "Transfer workspace ownership before closing your account" 409)
    require (∀ until_ ∈ sub.checkoutUntil, until_ ≤ now)
      (.account "BILLING_CHECKOUT_PENDING" "Finish or expire the pending checkout before account closure" 409)
    require (∀ closure ∈ c.closures, closure.cancellationKey ≠ "close-" ++ key) .integrity
    let closures ← demand (Rows.insert? Closure.workspaceId c.closures (newClosure sub workspace userId key now)) .integrity
    pure ({ c with closures }.useInvitations (·.workspaceId = workspace) now)

/-- The workspaces of a user, one after the other, with a cancellation key drawn for each. -/
def closeWorkspaces (userId : String) (now : Int) (t : Nat → Int) (c : Customers) :
    List String → List String → Except Err Customers
  | [], _ => .ok c
  | _ :: _, [] => .error .integrity
  | workspace :: workspaces, key :: keys => do
    let c ← closeWorkspace userId now t c workspace key
    closeWorkspaces userId now (fun i => t (i + 1)) c workspaces keys

/-- What a closing account leaves of a queued mail that it sent or would receive. -/
def Mail.withdrawn (recipient : Hash) (m : Mail) : Mail :=
  if (m.userId = userId ∨ m.recipientHash = some recipient) ∧ m.state = .queued then
    { m with state := .cancelled, payload := none, failureCode := some "ACCOUNT_CLOSING" }
  else m

def Session.closed (s : Session) : Session :=
  if s.userId = userId then { s with revokedAt := some now } else s

/-- The token of a closing account is used up, again if it already is. -/
def ActionToken.closed (k : ActionToken) : ActionToken :=
  if k.userId = userId then { k with usedAt := some now } else k

variable (P : Service) (user : User)

def Customers.left (c : Customers) (user : User) (now : Int) : Customers :=
  { c with
    users := Rows.update User.id c.users user.id
      ({ · with deletionRequestedAt := some now, emailNotifications := false })
    sessions := c.sessions.map (·.closed user.id now)
    tokens := c.tokens.map (·.closed user.id now)
    outbox := c.outbox.map (·.withdrawn user.id (P.digest user.email))
    members := c.members.filter fun m => m.userId ≠ user.id }

def withdraw (c : Customers) (user : User) (now : Int) : Except Err Customers := do
  let deletionRequests ← demand (Rows.insert? DeletionRequest.userId c.deletionRequests {
    userId := user.id, requestedAt := now, recipientHash := P.digest user.email }) .integrity
  pure { (c.left P user now).useInvitations (fun i => i.invitedBy = user.id ∨ i.email = user.email) now with
    deletionRequests }

def beginDeletion (c : Customers) (user : User) (keys : List String) (t : Nat → Int) : Except Err Customers := do
  let workspaces := ((c.members.filter fun m => m.userId = user.id).map Member.workspaceId).insertionSort (· ≤ ·)
  require (workspaces.length ≤ 1000)
    (.account "OFFBOARDING_REVIEW_REQUIRED" "Contact support to close this account" 409)
  let c ← closeWorkspaces user.id (t 0) (fun i => t (i + 1)) c workspaces keys
  withdraw P c user (t 0)

/-- `request_deletion` by the account that the request was authenticated for. -/
def requestDeletion (c : Customers) (user : User) (password : String) (keys : List String)
    (t : Nat → Int) : Except Err Customers := do
  require (P.passwordValid password user.passwordHash = true) (.account "PASSWORD_INVALID" "Password is incorrect" 401)
  let current ← demand (c.user? user.id) .noResult
  require (current.passwordHash = user.passwordHash ∧ current.deletionRequestedAt = none) sessionExpired
  beginDeletion P c current keys t

/-! ### Closing billing -/

def checkStripeIdentity (closure : Closure) (s : ProviderSubscription) : Except Err Unit :=
  require (s.id = closure.subscriptionId ∧ s.customer = closure.customerId ∧ s.livemode = some P.live ∧
    s.workspaceId = some closure.workspaceId ∧ s.status ≠ none) (.billingUnavailable "BILLING_IDENTITY_MISMATCH")

/-- What the provider answers to the requests of a closure: a first read, the cancellation and a second read. -/
structure ClosureAnswers where
  first : Except Err ProviderSubscription
  cancelled : Except Err ProviderSubscription
  second : Except Err ProviderSubscription

/-- The state that the provider confirms for a closure, with the status of the subscription where it has one. -/
def confirmClosure (closure : Closure) (row : Option Subscription) (answers : ClosureAnswers) :
    Except Err (ClosureState × Option SubscriptionStatus) := do
  require (closure.customerId = none ∨ closure.subscriptionId ≠ none) (.billingUnavailable "BILLING_IDENTITY_UNRESOLVED")
  if closure.subscriptionId = none then pure (.closed, none)
  else do
    require (∃ sub ∈ row, sub.subscriptionId = closure.subscriptionId ∧ sub.customerId = closure.customerId)
      (.billingUnavailable "BILLING_IDENTITY_MISMATCH")
    let current ← answers.first
    checkStripeIdentity P closure current
    if ∃ status ∈ current.status, status.ended = true then pure (.closed, current.status)
    else do
      if current.cancelAtPeriodEnd ≠ some true then do
        let updated ← answers.cancelled
        checkStripeIdentity P closure updated
      let current ← answers.second
      checkStripeIdentity P closure current
      require (current.cancelAtPeriodEnd = some true ∨ current.status = some .canceled)
        (.billingUnavailable "BILLING_CLOSURE_UNCONFIRMED")
      pure (if current.status = some .canceled then .closed else .scheduled, current.status)

def Closure.confirmed (state : ClosureState) (now : Int) (closure : Closure) : Closure :=
  { closure with state, attempts := 0, failureCode := none, availableAt := now + seconds 3600 }

def Closure.postponed (code : String) (now : Int) (closure : Closure) : Closure :=
  { closure with
    state := if 5 ≤ closure.attempts + 1 then .failed else .pending
    attempts := closure.attempts + 1
    failureCode := some code
    availableAt := now + seconds (min 3600 (30 * 2 ^ (closure.attempts + 1))) }

/-- `close_billing_once`. Only failures of the provider are recorded; another one rolls the transaction back. -/
def closeBilling (c : Customers) (workspace : String) (answers : ClosureAnswers) (t : Nat → Int) : Except Err Customers := do
  let closure ← demand (c.closure? workspace) .absent
  require ((closure.state = .pending ∨ closure.state = .scheduled) ∧ closure.availableAt ≤ t 0) .absent
  let _ ← demand (c.user? closure.requestedBy) .absent
  match confirmClosure P closure (c.subscription? workspace) answers with
  | .ok (state, status) =>
    let c := { c with closures := Rows.update Closure.workspaceId c.closures workspace (·.confirmed state (t 1)) }
    match state, status with
    | .closed, some status =>
      let subscriptions := Rows.update Subscription.workspaceId c.subscriptions workspace
        ({ · with status, updatedAt := t 1 })
      pure { c with subscriptions }
    | _, _ => pure c
  | .error (.billingUnavailable code) =>
    pure { c with closures := Rows.update Closure.workspaceId c.closures workspace (·.postponed code (t 1)) }
  | .error e => .error e

/-- `review_billing_closure` with the retry of a failed closure. -/
def retryClosure : Except Err Customers := do
  let closure ← demand (c.closure? workspace) (.account "CLOSURE_NOT_FOUND" "Workspace closure not found" 404)
  let _ ← demand (c.user? closure.requestedBy) .noResult
  require (closure.state = .failed) (.account "CLOSURE_NOT_FAILED" "Only a failed closure may be retried" 409)
  let closures := Rows.update Closure.workspaceId c.closures workspace
    ({ · with state := .pending, attempts := 0, availableAt := now, failureCode := none })
  pure { c with closures }

def Customers.reconciled (customer : Option String) : Prop :=
  ∀ id ∈ customer, ∀ e ∈ c.billingEvents, e.customerId = some id → e.unresolved = false
  deriving Decidable

/-- `review_billing_closure` of a workspace that never had a subscription. -/
def resolveClosure (reviewer : String) (t : Nat → Int) : Except Err Customers := do
  let closure ← demand (c.closure? workspace) (.account "CLOSURE_NOT_FOUND" "Workspace closure not found" 404)
  let _ ← demand (c.user? closure.requestedBy) .noResult
  require (closure.subscriptionId = none ∧ ∀ sub ∈ c.subscription? workspace, sub.subscriptionId = none)
    (.account "BILLING_PROVIDER_CLOSURE_REQUIRED" "Known subscription must close through provider verification" 409)
  require (∀ sub ∈ c.subscription? workspace, ∀ until_ ∈ sub.checkoutUntil, until_ ≤ t 0)
    (.account "BILLING_CHECKOUT_PENDING" "Pending checkout must expire first" 409)
  require (c.reconciled closure.customerId)
    (.account "BILLING_RECONCILIATION_REQUIRED" "Resolve billing events before operator closure" 409)
  let closures := Rows.update Closure.workspaceId c.closures workspace
    ({ · with state := .closed, failureCode := none, billingReviewedAt := some (t 1), billingReviewedBy := some reviewer })
  pure { c with closures }

/-! ### Review and erasure -/

structure RetentionPolicy where
  version : String
  retentionDays : Nat
  digest : Hash
  deriving DecidableEq

def lockedRequest : Except Err (User × DeletionRequest × List Closure) := do
  let user ← demand (c.user? userId) (.account "DELETION_NOT_FOUND" "Deletion request not found" 404)
  let request ← demand (c.deletionRequest? userId) (.account "DELETION_NOT_FOUND" "Deletion request not found" 404)
  pure (user, request, c.closures.filter fun closure => closure.requestedBy = userId)

/-- What `_require_closed_billing` checks of one closure. -/
def requireClosed (closure : Closure) : Except Err Unit := do
  require (closure.state = .closed) (.account "BILLING_CLOSURE_PENDING" "Billing closure must be confirmed first" 409)
  require (∀ sub ∈ c.subscription? closure.workspaceId,
      sub.customerId = closure.customerId ∧ sub.subscriptionId = closure.subscriptionId)
    (.account "BILLING_IDENTITY_MISMATCH" "Reconcile changed billing identity first" 409)
  require (closure.subscriptionId = none ∨ ∃ sub ∈ c.subscription? closure.workspaceId, sub.status.ended = true)
    (.account "BILLING_CLOSURE_PENDING" "Reconcile provider closure first" 409)
  require (c.reconciled closure.customerId)
    (.account "BILLING_RECONCILIATION_REQUIRED" "Resolve outstanding billing events first" 409)

def reviewRequest (policy : RetentionPolicy) (reviewer : String) (t : Nat → Int) : Except Err Customers := do
  let (_, request, closures) ← lockedRequest c userId
  if request.state = .erased then pure c
  else do
    closures.forM (requireClosed c)
    pure { c with
      deletionRequests := Rows.update DeletionRequest.userId c.deletionRequests userId fun r =>
        { r with
          state := .reviewed, policyVersion := some policy.version, policyHash := some policy.digest
          reviewedBy := some reviewer, reviewedAt := some (t 0)
          erasureAfter := some (request.requestedAt + days policy.retentionDays) }
      closures := c.closures.map fun closure =>
        if closure.requestedBy = userId then
          { closure with billingReviewedAt := some (t 1), billingReviewedBy := some reviewer }
        else closure }

def placeholder : String := "erased+" ++ userId ++ "@deleted.invalid"

def User.erased (u : User) : User :=
  { u with
    email := placeholder u.id, displayName := "Deleted account", passwordHash := "disabled", emailNotifications := false
    emailVerifiedAt := none }

def Mail.concerns (recipient : Hash) (m : Mail) : Prop :=
  m.userId = userId ∨ m.recipientHash = some recipient
  deriving Decidable

/-- What `fulfil_request` checks of the other tables. `jobs` are the workspaces and statuses of the research jobs. -/
def erasable (c : Customers) (user : User) (closures : List Closure) (jobs : List (String × Status))
    (t : Nat → Int) : Except Err Unit := do
  closures.forM (requireClosed c)
  require (∀ job ∈ jobs, (∃ closure ∈ closures, closure.workspaceId = job.1) → job.2.terminal = true)
    (.account "RESEARCH_STILL_ACTIVE" "Wait for durable research to finish" 409)
  require (∀ m ∈ c.outbox, m.concerns user.id (P.digest user.email) → m.state = .sending →
      ∀ until_ ∈ m.leaseUntil, until_ ≤ t 1)
    (.account "EMAIL_STILL_ACTIVE" "Wait for the active email lease to end" 409)
  require (∀ m ∈ c.outbox, m.recipientHash = none → m.payload = none)
    (.account "LEGACY_EMAIL_REVIEW_REQUIRED" "Index legacy email recipients before erasure" 409)

def erase (c : Customers) (user : User) (closures : List Closure) (now : Int) : Customers :=
  { c with
    outbox := c.outbox.filter fun m => ¬ m.concerns user.id (P.digest user.email)
    tokens := c.tokens.filter fun k => k.userId ≠ user.id
    sessions := c.sessions.filter fun s => s.userId ≠ user.id
    invitations := c.invitations.filter fun i => ¬ (i.invitedBy = user.id ∨ i.email = user.email)
    members := c.members.filter fun m => m.userId ≠ user.id
    organisations := c.organisations.map fun o =>
      if ∃ closure ∈ closures, closure.workspaceId = o.id then { o with name := "Closed workspace" } else o
    users := Rows.update User.id c.users user.id User.erased
    deletionRequests := Rows.update DeletionRequest.userId c.deletionRequests user.id
      ({ · with state := .erased, erasedAt := some now }) }

def fulfilRequest (c : Customers) (userId : String) (policy : RetentionPolicy)
    (jobs : List (String × Status)) (t : Nat → Int) : Except Err (Bool × Customers) := do
  let (user, request, closures) ← lockedRequest c userId
  if request.state = .erased then pure (false, c)
  else do
    require (request.state = .reviewed ∧ request.policyHash = some policy.digest ∧ request.erasureAfter ≠ none)
      (.account "RETENTION_REVIEW_REQUIRED" "Current policy review required" 409)
    require (∀ after ∈ request.erasureAfter, after ≤ t 0)
      (.account "RETENTION_NOT_ELAPSED" "Retention period has not elapsed" 409)
    erasable P c user closures jobs t
    -- The addresses of the accounts are unique.
    require (∀ other ∈ c.users, other.email = placeholder user.id → other.id = user.id) .integrity
    pure (true, erase P c user closures (t 2))

end Money
