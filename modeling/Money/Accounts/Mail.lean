import Mathlib.Data.List.Sort
import Money.Accounts.State

/-! The transactional outbox: mail is enqueued with its operation (`AccountService._email`), and the worker of
    `email_worker.py` claims a row, delivers it and records the outcome in a second transaction. -/

namespace Money
open Checked

/-- No mail is written for a user who is gone or leaving, to an address that is not the user's own, or to a closed
    account. -/
def Customers.suppresses (P : Service) (c : Customers) (userId email : String) (kind : MailKind) : Prop :=
  c.user? userId = none ∨ (∃ source ∈ c.user? userId, source.deletionRequestedAt ≠ none) ∨
    (kind ≠ .invitation ∧ ∃ source ∈ c.user? userId, source.email ≠ email) ∨
    (∃ recipient ∈ c.userByEmail? email, recipient.deletionRequestedAt ≠ none) ∨
    (c.userByEmail? email = none ∧ ∃ request ∈ c.deletionRequests, request.recipientHash = P.digest (stripLower email))
  deriving Decidable

def newMail (P : Service) (id userId email : String) (kind : MailKind) (available created : Int) : Mail where
  id
  userId
  kind
  payload := some email
  recipientHash := some (P.digest (stripLower email))
  availableAt := available
  createdAt := created

/-- `_email`. An invitation that must not be sent fails as a whole. -/
def enqueueMail (P : Service) (c : Customers) (id userId email : String) (kind : MailKind) (t : Nat → Int) :
    Except Err Customers :=
  if c.suppresses P userId email kind then
    if kind = .invitation then .error (.account "INVITATION_UNAVAILABLE" "This invitation cannot be sent" 409) else .ok c
  else do
    let outbox ← demand (Rows.insert? Mail.id c.outbox (newMail P id userId email kind (t 0) (t 1))) .integrity
    pure { c with outbox }

/-! ### The worker -/

def Mail.idle (m : Mail) (now : Int) : Prop :=
  m.state = .queued ∨ (m.state = .sending ∧ ∃ until_ ∈ m.leaseUntil, until_ ≤ now)
  deriving Decidable

def Customers.closing (c : Customers) (userId : String) : Prop :=
  ∃ u ∈ c.users, u.id = userId ∧ u.deletionRequestedAt ≠ none
  deriving Decidable

def Mail.cancelled (m : Mail) : Mail :=
  { m with
    state := .cancelled, payload := none, leaseToken := none, leaseUntil := none, failureCode := some "ACCOUNT_CLOSING" }

def Mail.exhausted (m : Mail) : Mail :=
  { m with state := .failed, failureCode := some "EMAIL_RETRY_EXHAUSTED", leaseToken := none }

/-- The first updates of `claim`: idle mail of closing senders is cancelled, and a lost last attempt fails. -/
def Customers.swept (c : Customers) (now : Int) (m : Mail) : Mail :=
  if c.closing m.userId ∧ m.idle now then m.cancelled
  else if m.state = .sending ∧ (∃ until_ ∈ m.leaseUntil, until_ ≤ now) ∧ 5 ≤ m.attempts then m.exhausted
  else m

def Mail.due (m : Mail) (now : Int) : Prop := m.idle now ∧ m.availableAt ≤ now ∧ m.attempts < 5
  deriving Decidable

/-- The row as `claim` returns it: read before the lease was written, with its token and its attempt. -/
def Mail.claimed (m : Mail) (lease : String) : Mail := { m with attempts := m.attempts + 1, leaseToken := some lease }

def Mail.leased (m : Mail) (lease : String) (now : Int) : Mail :=
  { m.claimed lease with state := .sending, leaseUntil := some (now + minutes 2) }

/-- `EmailWorker.claim`, with the row that it returns. The rows that are locked elsewhere are skipped. -/
def claimMail (c : Customers) (skipped : List String) (lease : String) (now : Int) : Customers × Option Mail :=
  let outbox := c.outbox.map (c.swept now)
  let due := (outbox.filter fun m => m.due now ∧ m.id ∉ skipped).insertionSort fun a b => a.createdAt ≤ b.createdAt
  match due.head? with
  | none => ({ c with outbox }, none)
  | some row =>
    ({ c with outbox := Rows.update Mail.id outbox row.id (·.leased lease now) }, some (row.claimed lease))

/-- How a delivery ended: accepted, or with a failure that may be permanent. -/
inductive Delivery where
  | accepted
  | failed (code : String) (permanent : Bool)
  deriving DecidableEq

/-- What the second transaction of `once` makes of a row. -/
def Mail.settled (row : Mail) (outcome : Delivery) (read : Int) (m : Mail) : Mail :=
  match outcome with
  | .accepted =>
    { m with
      leaseToken := none, leaseUntil := none, failureCode := none, state := .delivered, deliveredAt := some read
      payload := none }
  | .failed code permanent =>
    { m with
      leaseToken := none, leaseUntil := none, failureCode := some code
      state := if permanent = true ∨ 5 ≤ row.attempts then .failed else .queued
      availableAt := read + seconds (min 3600 (30 * 2 ^ row.attempts)) }

/-- The second transaction of `once` for the claimed `row`, while its lease lasts. -/
def finishMail (c : Customers) (row : Mail) (outcome : Delivery) (t : Nat → Int) : Customers :=
  { c with outbox := c.outbox.map fun m =>
      if m.id = row.id ∧ m.leaseToken = row.leaseToken ∧ m.leaseToken ≠ none ∧ (∃ until_ ∈ m.leaseUntil, t 1 < until_) then
        row.settled outcome (t 0) m
      else m }

end Money
