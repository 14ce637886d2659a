import Money.Accounts.Mail
import Money.Product

/-! Billing, as in `product/api.py` and `product/worker.py`: a webhook records that something happened to a
    subscription, and the worker reconciles the row with what the provider then reports. -/

namespace Money
open Checked

structure ProviderItem where
  quantity : Option Int
  price : Option String
  currentPeriodStart : Option Int := none
  currentPeriodEnd : Option Int := none
  deriving DecidableEq

/-- A subscription as the provider reports it. A field that is missing is none, and so is a status that is not known. -/
structure ProviderSubscription where
  id : Option String
  customer : Option String
  livemode : Option Bool
  workspaceId : Option String
  status : Option SubscriptionStatus
  cancelAtPeriodEnd : Option Bool := none
  items : List ProviderItem
  currentPeriodStart : Option Int := none
  currentPeriodEnd : Option Int := none
  deriving DecidableEq

abbrev Gateway := String → Except Err ProviderSubscription

/-! ### Webhooks -/

structure BillingObject where
  id : Option String := none
  subscription : Option String := none
  parentSubscription : Option String := none
  customer : Option String := none
  deriving DecidableEq

def acceptedKinds : List String :=
  ["customer.subscription.created", "customer.subscription.updated", "customer.subscription.deleted",
    "checkout.session.completed", "invoice.paid", "invoice.payment_failed"]

/-- An identifier of the provider: a tag and 1 to 120 letters, digits and underscores. -/
def providerId (tag text : String) : Prop :=
  ∃ rest ∈ (tag.toList.isPrefixOf? text.toList),
    1 ≤ rest.length ∧ rest.length ≤ 120 ∧ ∀ c ∈ rest, c.isAlphanum = true ∨ c = '_'

-- the characters of the rest are checked one by one, not by way of all characters
instance (tag text : String) : Decidable (providerId tag text) :=
  haveI (rest : List Char) : Decidable (∀ c ∈ rest, c.isAlphanum = true ∨ c = '_') := List.decidableBAll _ rest
  inferInstanceAs (Decidable (∃ rest ∈ _, _))

def BillingObject.subscriptionId (kind : String) (o : BillingObject) : Option String :=
  let named := if "customer.subscription.".isPrefixOf kind then o.id else o.subscription
  if "invoice.".isPrefixOf kind ∧ named = none then o.parentSubscription else named

def invalidEvent : Err := .value "Invalid billing event"

variable (c : Customers)

/-- The webhook, once the signature is checked. `content` is the digest of the body. -/
def webhook (id kind : String) (o : BillingObject) (content : Hash) (t : Nat → Int) : Except Err Customers := do
  let subscriptionId := o.subscriptionId kind
  require (∀ sub ∈ subscriptionId, providerId "sub_" sub) invalidEvent
  require (kind ∈ acceptedKinds → ∃ customer ∈ o.customer, providerId "cus_" customer) invalidEvent
  require (kind.length ≤ 100) invalidEvent
  match Rows.get? BillingEvent.id c.billingEvents id with
  | some existing => do
    require (existing.contentHash = content) (.value "Billing event identity conflict")
    pure c
  | none =>
    pure { c with billingEvents := c.billingEvents ++ [{
      id, kind, subscriptionId
      customerId := if kind ∈ acceptedKinds then o.customer else none
      contentHash := content
      state := if kind ∈ acceptedKinds ∧ subscriptionId ≠ none then .pending else .ignored
      availableAt := t 0
      createdAt := t 1 }] }

/-! ### Reconciliation -/

/-- `datetime.fromtimestamp`, from the year 1 to the year 9999. -/
def fromTimestamp (stamp : Option Int) : Except Err Int := do
  let s ← demand stamp (.value "TypeError")
  require (-62135596800 ≤ s ∧ s ≤ 253402300799) (.value "OverflowError")
  pure (seconds s)

variable (P : Service)

def Service.planOf (price : Option String) : Option String :=
  (P.prices.find? fun entry => some entry.2 = price).map (·.1)

/-- The row of a workspace after a read of one of its subscriptions. -/
def observed (row : Subscription) (customer subscriptionId : String) (s : ProviderSubscription) (now : Int) :
    Except Err Subscription := do
  require (s.id = some subscriptionId ∧ s.customer = some customer ∧ s.livemode = some P.live)
    (.value "BILLING_IDENTITY_MISMATCH")
  require (s.workspaceId = some row.workspaceId) (.value "BILLING_WORKSPACE_MISMATCH")
  require (∀ held ∈ row.subscriptionId, held = subscriptionId ∨ row.status.ended = true)
    (.value "BILLING_DUPLICATE_SUBSCRIPTION")
  let item ← demand s.items.head? (.value "BILLING_ITEMS_UNSUPPORTED")
  require (s.items.length = 1 ∧ item.quantity = some 1) (.value "BILLING_ITEMS_UNSUPPORTED")
  let plan ← demand (P.planOf item.price) (.value "BILLING_PRICE_UNKNOWN")
  let periodStart ← fromTimestamp (s.currentPeriodStart.or item.currentPeriodStart)
  let periodEnd ← fromTimestamp (s.currentPeriodEnd.or item.currentPeriodEnd)
  require (periodStart < periodEnd ∧ periodEnd - periodStart ≤ days 370) (.value "BILLING_PERIOD_INVALID")
  let status ← demand s.status (.value "BILLING_STATUS_UNKNOWN")
  pure { row with plan, status, subscriptionId := some subscriptionId, periodStart, periodEnd, updatedAt := now }

def subscribers (workspace : String) : List User :=
  c.users.filter fun u => u.emailNotifications = true ∧ u.deletionRequestedAt = none ∧ u.emailVerifiedAt ≠ none ∧
    ∃ m ∈ c.members, m.workspaceId = workspace ∧ m.userId = u.id ∧ m.role = .owner

def enqueueAll (P : Service) (kind : MailKind) (t : Nat → Int) (c : Customers) :
    List User → List String → Except Err Customers
  | [], _ => .ok c
  | _ :: _, [] => .error .integrity
  | u :: recipients, id :: ids => do
    let c ← enqueueMail P c id u.id u.email kind t
    enqueueAll P kind t c recipients ids

/-- `notify_subscription`, with an identifier drawn for each mail. -/
def notifySubscription (c : Customers) (workspace : String) (draws : List String) (t : Nat → Int) : Except Err Customers :=
  enqueueAll P .subscription t c (subscribers c workspace) draws

/-- The transaction of `reconcile_once` for one event. The accounts are notified where there are any. -/
def reconcile (gateway : Gateway) (notifies : Bool) (c : Customers) (event : BillingEvent)
    (draws : List String) (t : Nat → Int) : Except Err Customers := do
  let customer ← demand event.customerId (.value "BILLING_CUSTOMER_UNKNOWN")
  let row ← demand (c.subscriptionOf? customer) (.value "BILLING_CUSTOMER_UNKNOWN")
  let subscriptionId ← demand event.subscriptionId (.value "TypeError")
  let s ← gateway subscriptionId
  let row ← observed P row customer subscriptionId s (t 1)
  require (∀ other ∈ c.subscriptions, other.subscriptionId = row.subscriptionId → other.workspaceId = row.workspaceId)
    .integrity
  let c := { c with
    subscriptions := Rows.update Subscription.workspaceId c.subscriptions row.workspaceId fun _ => row
    billingEvents := Rows.update BillingEvent.id c.billingEvents event.id fun e =>
      { e with state := .processed, processedAt := some (t 2), attempts := event.attempts + 1 } }
  if notifies = true then notifySubscription P c row.workspaceId draws fun i => t (i + 3) else pure c

def BillingEvent.retried (now : Int) (e : BillingEvent) : BillingEvent :=
  if e.state = .pending then
    { e with
      attempts := e.attempts + 1
      state := if 5 ≤ e.attempts + 1 then .failed else .pending
      availableAt := now + seconds (min 3600 (30 * 2 ^ (e.attempts + 1))) }
  else e

/-- The event that `reconcile_once` takes: the oldest one that is due and not locked elsewhere. -/
def Customers.dueEvent? (skipped : List String) (now : Int) : Option BillingEvent :=
  ((c.billingEvents.filter fun e => e.state = .pending ∧ e.availableAt ≤ now ∧ e.id ∉ skipped).insertionSort
    fun a b => a.createdAt ≤ b.createdAt).head?

/-- `reconcile_once`. An attempt that fails is rolled back, and counted in a second transaction. -/
def reconcileOnce (gateway : Gateway) (notifies : Bool) (c : Customers) (skipped draws : List String)
    (t : Nat → Int) : Customers :=
  match c.dueEvent? skipped (t 0) with
  | none => c
  | some event =>
    match reconcile P gateway notifies c event draws t with
    | .ok c' => c'
    | .error _ => { c with billingEvents := Rows.update BillingEvent.id c.billingEvents event.id (·.retried (t 1)) }

/-- `notify_research_once` for a finished job of the user, where the workspace wants mail. -/
def notifyResearch (c : Customers) (userId mailId : String) (wanted : Bool) (t : Nat → Int) : Except Err Customers := do
  let user ← demand (c.user? userId) .absent
  if user.emailNotifications = true ∧ user.deletionRequestedAt = none ∧ wanted = true then
    enqueueMail P c mailId userId user.email .researchStatus t
  else pure c

/-- The transaction of `checkout` that links a customer of the provider with the workspace. -/
def linkCustomer (actor : Principal) (customer : String) (now : Int) : Except Err Customers := do
  let (c, sub) := subscription c actor.workspaceId now
  assertWorkspaceOpen c actor.workspaceId
  requireCurrentRole c actor [.owner]
  if sub.customerId = none then do
    require ("cus_".isPrefixOf customer = true) (.billingUnavailable "BILLING_RESPONSE_INVALID")
    require (∀ other ∈ c.subscriptions, other.customerId ≠ some customer) .integrity
    let subscriptions :=
      Rows.update Subscription.workspaceId c.subscriptions actor.workspaceId ({ · with customerId := some customer })
    pure { c with subscriptions }
  else pure c

/-- The transaction of `checkout` that reserves a checkout for half an hour; a pending one stays. -/
def reserveCheckout (actor : Principal) (t : Nat → Int) : Except Err Customers := do
  let (c, sub) := subscription c actor.workspaceId (t 0)
  assertWorkspaceOpen c actor.workspaceId
  requireCurrentRole c actor [.owner]
  require (sub.subscriptionId = none ∨ sub.status.ended = true) (.entitlementDenied "USE_BILLING_PORTAL")
  if ∃ until_ ∈ sub.checkoutUntil, t 1 < until_ then pure c
  else do
    let subscriptions := Rows.update Subscription.workspaceId c.subscriptions actor.workspaceId
      ({ · with checkoutUntil := some (t 2 + minutes 31) })
    pure { c with subscriptions }

end Money
