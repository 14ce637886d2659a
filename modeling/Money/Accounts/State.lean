import Money.State

/-! The tables of the accounts and of the product, without the columns that no modelled operation reads. An encrypted
    mail is the address that it was written to. -/

namespace Money

/-! ### Identities -/

/-- `str.strip().lower()` for the characters of an address. -/
def stripLower (text : String) : String :=
  String.ofList (((text.toList.dropWhile Char.isWhitespace).reverse.dropWhile Char.isWhitespace).reverse.map Char.toLower)

structure Address where
  text : String
  normal : stripLower text = text

structure User where
  id : String
  email : String
  displayName : String
  passwordHash : String
  emailVerifiedAt : Option Int := none
  deletionRequestedAt : Option Int := none
  emailNotifications : Bool := true
  createdAt : Int
  deriving DecidableEq

structure Session where
  tokenHash : Hash
  userId : String
  createdAt : Int
  expiresAt : Int
  revokedAt : Option Int := none
  deriving DecidableEq

inductive TokenPurpose where
  | verify | reset
  deriving DecidableEq

structure ActionToken where
  tokenHash : Hash
  userId : String
  purpose : TokenPurpose
  createdAt : Int
  expiresAt : Int
  usedAt : Option Int := none
  deriving DecidableEq

inductive MemberRole where
  | owner | admin | member | viewer
  deriving DecidableEq

structure Organisation where
  id : String
  name : String
  createdBy : String
  createdAt : Int
  deriving DecidableEq

structure Member where
  workspaceId : String
  userId : String
  role : MemberRole
  createdAt : Int
  deriving DecidableEq

def Member.key (m : Member) : String × String := (m.workspaceId, m.userId)

structure Invitation where
  tokenHash : Hash
  workspaceId : String
  invitedBy : String
  email : String
  role : MemberRole
  createdAt : Int
  expiresAt : Int
  usedAt : Option Int := none
  deriving DecidableEq

inductive MailKind where
  | verify | reset | invitation | subscription | researchStatus
  deriving DecidableEq

inductive MailState where
  | queued | sending | delivered | failed | cancelled
  deriving DecidableEq

/-- A row of the outbox. The payload is the address that is encrypted in it, and none where it was emptied. -/
structure Mail where
  id : String
  userId : String
  kind : MailKind
  payload : Option String
  recipientHash : Option Hash
  state : MailState := .queued
  attempts : Nat := 0
  availableAt : Int
  leaseToken : Option String := none
  leaseUntil : Option Int := none
  createdAt : Int
  deliveredAt : Option Int := none
  failureCode : Option String := none
  deriving DecidableEq

inductive DeletionState where
  | requested | reviewed | erased
  deriving DecidableEq

structure DeletionRequest where
  userId : String
  state : DeletionState := .requested
  requestedAt : Int
  recipientHash : Hash
  policyVersion : Option String := none
  policyHash : Option Hash := none
  reviewedBy : Option String := none
  reviewedAt : Option Int := none
  erasureAfter : Option Int := none
  erasedAt : Option Int := none
  deriving DecidableEq

inductive ClosureState where
  | pending | scheduled | closed | failed
  deriving DecidableEq

structure Closure where
  workspaceId : String
  requestedBy : String
  requestedAt : Int
  state : ClosureState := .pending
  customerId : Option String
  subscriptionId : Option String
  cancellationKey : String
  attempts : Nat := 0
  availableAt : Int
  failureCode : Option String := none
  billingReviewedAt : Option Int := none
  billingReviewedBy : Option String := none
  deriving DecidableEq

/-! ### Billing -/

inductive SubscriptionStatus where
  | active | trialing | pastDue | unpaid | paused | canceled | incomplete | incompleteExpired
  deriving DecidableEq

def SubscriptionStatus.ended : SubscriptionStatus → Bool
  | canceled | incompleteExpired => true
  | _ => false

def SubscriptionStatus.entitles : SubscriptionStatus → Bool
  | active | trialing => true
  | _ => false

structure Subscription where
  workspaceId : String
  plan : String
  status : SubscriptionStatus
  customerId : Option String := none
  subscriptionId : Option String := none
  checkoutUntil : Option Int := none
  periodStart : Int
  periodEnd : Int
  updatedAt : Int
  deriving DecidableEq

inductive EventState where
  | pending | processed | failed | ignored
  deriving DecidableEq

structure BillingEvent where
  id : String
  kind : String
  subscriptionId : Option String
  customerId : Option String
  contentHash : Hash
  state : EventState
  attempts : Nat := 0
  availableAt : Int
  createdAt : Int
  processedAt : Option Int := none
  deriving DecidableEq

def BillingEvent.unresolved (e : BillingEvent) : Bool := decide (e.state = .pending ∨ e.state = .failed)

/-! ### Tables -/

structure Customers where
  users : List User := []
  sessions : List Session := []
  tokens : List ActionToken := []
  organisations : List Organisation := []
  members : List Member := []
  invitations : List Invitation := []
  outbox : List Mail := []
  deletionRequests : List DeletionRequest := []
  closures : List Closure := []
  subscriptions : List Subscription := []
  billingEvents : List BillingEvent := []
  deriving DecidableEq

namespace Customers
variable (c : Customers)

def user? (id : String) : Option User := Rows.get? User.id c.users id

def userByEmail? (email : String) : Option User := Rows.get? User.email c.users email

def organisation? (id : String) : Option Organisation := Rows.get? Organisation.id c.organisations id

def member? (workspaceId userId : String) : Option Member := Rows.get? Member.key c.members (workspaceId, userId)

def closure? (workspaceId : String) : Option Closure := Rows.get? Closure.workspaceId c.closures workspaceId

def deletionRequest? (userId : String) : Option DeletionRequest :=
  Rows.get? DeletionRequest.userId c.deletionRequests userId

def subscription? (workspaceId : String) : Option Subscription :=
  Rows.get? Subscription.workspaceId c.subscriptions workspaceId

def subscriptionOf? (customerId : String) : Option Subscription :=
  c.subscriptions.find? fun s => s.customerId = some customerId

def membersOf (workspaceId : String) : List Member := c.members.filter fun m => m.workspaceId = workspaceId

end Customers

structure Plan where
  researchJobsPerPeriod : Nat
  seats : Nat
  liveResearch : Bool
  maxJobTokens : Nat
  maxJobSeconds : Int
  deriving DecidableEq

/-- The settings of the services and their libraries. A digest stands for SHA-256. -/
structure Service where
  digest : String → Hash
  passwordValid : String → String → Bool
  sessionHours : Int
  plan : String → Option Plan
  userJobsPerMonth : Nat
  prices : List (String × String)
  live : Bool

def referencePlan : String → Option Plan
  | "FREE" => some { researchJobsPerPeriod := 3, seats := 1, liveResearch := false, maxJobTokens := 0, maxJobSeconds := 300 }
  | "PRO" =>
    some { researchJobsPerPeriod := 30, seats := 1, liveResearch := true, maxJobTokens := 10000, maxJobSeconds := 1800 }
  | "TEAM" =>
    some { researchJobsPerPeriod := 100, seats := 5, liveResearch := true, maxJobTokens := 20000, maxJobSeconds := 2400 }
  | "ENTERPRISE" =>
    some { researchJobsPerPeriod := 300, seats := 25, liveResearch := true, maxJobTokens := 30000, maxJobSeconds := 3600 }
  | _ => none

/-- Services in which a digest is the text itself and a password its own hash. -/
def plainService : Service where
  digest := id
  passwordValid password hash := password = hash
  sessionHours := 24
  plan := referencePlan
  userJobsPerMonth := 2
  prices := [("PRO", "price_pro"), ("TEAM", "price_team")]
  live := false

end Money
