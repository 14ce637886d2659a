import Money.Accounts.State
import Money.Library.Calendar
import Money.Library.Runs

/-! `checkout` of `product/service.py` for one workspace. A call is three transactions on the subscription row, with a
    request to the provider before the last one. What is read from other tables comes with the step. -/

namespace Money
open Checked

abbrev Parameters := List (String × String)

structure CheckoutSettings where
  workspaceId : String
  /-- `money_stripe_prices`: the price of a plan. -/
  prices : List (String × String)
  origin : String

def CheckoutSettings.price? (c : CheckoutSettings) (plan : String) : Option String :=
  (c.prices.find? fun entry => entry.1 = plan).map (·.2)

structure CheckoutRow where
  customerId : Option String := none
  subscriptionId : Option String := none
  status : SubscriptionStatus := .active
  checkoutKey : Option String := none
  checkoutPlan : Option String := none
  checkoutUrl : Option String := none
  checkoutUntil : Option Int := none
  checkoutPayload : Option Parameters := none
  deriving DecidableEq

/-- A checkout is pending: `checkout_until` is in the future. -/
def CheckoutRow.pending (row : CheckoutRow) (now : Int) : Prop := ∃ until_ ∈ row.checkoutUntil, now < until_
  deriving Decidable

inductive CheckoutPhase where
  | arrived (plan key : String)
  | linked (plan key customer : String)
  | reserved (plan key : String) (until_ : Int) (parameters : Parameters)
  | answered (plan key : String) (until_ : Int) (url : String)
  | ended (result : Except Err String)
  deriving DecidableEq

/-- A time during which a checkout is pending, with the key and the parameters that it was opened with. -/
structure CheckoutWindow where
  key : String
  plan : String
  until_ : Int
  parameters : Parameters
  deriving DecidableEq

/-- A request to `/checkout/sessions`, and the number of the window that was pending when it was sent. -/
structure CheckoutRequest where
  idempotencyKey : String
  parameters : Parameters
  window : Option Nat
  deriving DecidableEq

/-- The row, the calls in the order of their arrival, the windows that were opened so far, and what the provider was
    sent. -/
structure CheckoutSystem where
  clock : Int
  row : CheckoutRow := {}
  calls : List CheckoutPhase := []
  windows : List CheckoutWindow := []
  requests : List CheckoutRequest := []
  deriving DecidableEq

/-- A transaction may be denied by what it reads elsewhere, and an answer of the provider may be an error or lost. -/
inductive CheckoutOp where
  | tick (elapsed : Nat)
  | arrive (plan key : String)
  | link (i : Nat) (denied : Option Err) (customer : Except Err String)
  | reserve (i : Nat) (denied : Option Err) (elapsed : Nat)
  | send (i : Nat) (url : Except Err String)
  | record (i : Nat)
  | observe (subscriptionId : Option String) (status : SubscriptionStatus)

namespace CheckoutSystem
variable (c : CheckoutSettings) (s : CheckoutSystem)

def setCall (i : Nat) (phase : CheckoutPhase) : CheckoutSystem := { s with calls := s.calls.set i phase }

/-- The call ends with an exception, and its transaction is rolled back. -/
def refuse (i : Nat) (e : Err) : CheckoutSystem := s.setCall i (.ended (.error e))

def link (i : Nat) (denied : Option Err) (customer : Except Err String) : Except Err CheckoutSystem :=
  match s.calls[i]?, denied with
  | some (.arrived _ _), some e => pure (s.refuse i e)
  | some (.arrived plan key), none =>
    match s.row.customerId, customer with
    | some known, _ => pure (s.setCall i (.linked plan key known))
    | none, .error e => pure (s.refuse i e)
    | none, .ok id =>
      if "cus_".isPrefixOf id then
        pure { s.setCall i (.linked plan key id) with row := { s.row with customerId := some id } }
      else pure (s.refuse i (.billingUnavailable "BILLING_RESPONSE_INVALID"))
  | _, _ => .error .absent

def timestamp (until_ : Int) : String := toString (until_ / 1000000)

def parameters (customer price : String) (until_ : Int) : Parameters :=
  [("mode", "subscription"), ("customer", customer), ("line_items[0][price]", price), ("line_items[0][quantity]", "1"),
    ("client_reference_id", c.workspaceId), ("subscription_data[metadata][workspace_id]", c.workspaceId),
    ("success_url", c.origin ++ "/account?billing=pending"), ("cancel_url", c.origin ++ "/pricing"),
    ("expires_at", timestamp until_)]

def window (plan key customer price : String) (now : Int) : CheckoutWindow :=
  { key, plan, until_ := now + minutes 31, parameters := parameters c customer price (now + minutes 31) }

def opened (i : Nat) (w : CheckoutWindow) : CheckoutSystem :=
  { s.setCall i (.reserved w.plan w.key w.until_ w.parameters) with
    row := { s.row with
      checkoutKey := some w.key
      checkoutPlan := some w.plan
      checkoutUntil := some w.until_
      checkoutUrl := none
      checkoutPayload := some w.parameters }
    windows := s.windows ++ [w] }

/-- A pending checkout is joined, with the key and the parameters that are stored. -/
def join (i : Nat) (plan : String) : CheckoutSystem :=
  if s.row.checkoutPlan ≠ some plan then s.refuse i (.entitlementDenied "CHECKOUT_ALREADY_PENDING")
  else
    match s.row.checkoutUrl, s.row.checkoutKey, s.row.checkoutUntil, s.row.checkoutPayload with
    | some url, _, _, _ => s.setCall i (.ended (.ok url))
    | none, some key, some until_, some stored => s.setCall i (.reserved plan key until_ stored)
    | none, _, _, _ => s.refuse i (.value "TypeError")

/-- The transaction that reserves a checkout. The clock is read to see whether one is pending, and again for a new one. -/
def reserve (i : Nat) (denied : Option Err) (elapsed : Nat) : Except Err CheckoutSystem :=
  match s.calls[i]? with
  | some (.linked plan key customer) =>
    match c.price? plan, denied with
    | none, _ => pure (s.refuse i (.billingUnavailable "PLAN_NOT_AVAILABLE"))
    | some _, some e => pure (s.refuse i e)
    | some price, none =>
      if s.row.subscriptionId ≠ none ∧ s.row.status.ended = false then
        pure (s.refuse i (.entitlementDenied "USE_BILLING_PORTAL"))
      else if s.row.pending s.clock then pure (s.join i plan)
      else if s.row.checkoutKey = some key then pure (s.refuse i (.entitlementDenied "CHECKOUT_EXPIRED_USE_NEW_KEY"))
      else
        let now := s.clock + elapsed
        pure ({ s with clock := now }.opened i (window c plan key customer price now))
  | _ => .error .absent

def idempotencyKey (key : String) : String := "money-checkout-" ++ c.workspaceId ++ "-" ++ key

def send (i : Nat) (url : Except Err String) : Except Err CheckoutSystem :=
  match s.calls[i]? with
  | some (.reserved plan key until_ parameters) =>
    let request := {
      idempotencyKey := idempotencyKey c key, parameters
      window := if s.row.pending s.clock then some s.windows.length else none }
    let s := { s with requests := s.requests ++ [request] }
    match url with
    | .ok url => pure (s.setCall i (.answered plan key until_ url))
    | .error e => pure (s.refuse i e)
  | _ => .error .absent

def record (i : Nat) : Except Err CheckoutSystem :=
  match s.calls[i]? with
  | some (.answered plan key until_ url) =>
    if s.row.checkoutKey ≠ some key ∨ s.row.checkoutPlan ≠ some plan then
      pure (s.refuse i (.entitlementDenied "CHECKOUT_CHANGED"))
    else
      pure { s.setCall i (.ended (.ok url)) with
        row := { s.row with
          checkoutKey := some key, checkoutPlan := some plan, checkoutUrl := some url, checkoutUntil := some until_ } }
  | _ => .error .absent

def step (s : CheckoutSystem) : CheckoutOp → Except Err CheckoutSystem
  | .tick elapsed => .ok { s with clock := s.clock + elapsed }
  | .arrive plan key => .ok { s with calls := s.calls ++ [.arrived plan key] }
  | .link i denied customer => s.link i denied customer
  | .reserve i denied elapsed => s.reserve c i denied elapsed
  | .send i url => s.send c i url
  | .record i => s.record i
  | .observe subscriptionId status => .ok { s with row := { s.row with subscriptionId, status } }

/-- The workspace after a list of steps, from a row without a checkout. -/
def after (start : Int) (ops : List CheckoutOp) : CheckoutSystem := Runs.run (step c) { clock := start } ops

end CheckoutSystem
end Money
