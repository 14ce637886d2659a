import Mathlib.Data.List.Sort
import Money.Library.Runs
import Money.State

/-! The alert outbox of `alerts/delivery.py`. A delivery claims a row in one transaction, calls the provider for as long
    as it takes, and records the result in a second one. -/

namespace Money
open Checked

inductive AlertEvent where
  | researchCompleted | stateChanged | signalExpired | materialInvalidation
  deriving DecidableEq

def AlertEvent.message : AlertEvent → String
  | researchCompleted => "Research is complete and available for human review."
  | stateChanged => "The research state has changed; review the recorded evidence."
  | signalExpired => "The research setup has expired."
  | materialInvalidation => "New evidence has invalidated a research assumption."

inductive AlertChannel where
  | web | email | telegram
  deriving DecidableEq

inductive AlertState where
  | pending | retry | delivering | delivered | failed | blockedConfiguration
  deriving DecidableEq

/-- A row of `alert_outbox`, with the fields of its payload. -/
structure Alert where
  id : Hash
  jobId : String
  workspaceId : String
  channel : AlertChannel
  state : AlertState
  attempts : ℕ := 0
  createdAt : Int
  deliveredAt : Option Int
  event : AlertEvent
  message : String
  deliveryToken : Option String := none
  deliveryLeaseUntil : Option Int := none
  deriving DecidableEq

structure AlertKey where
  jobId : String
  event : AlertEvent
  eventKey : String
  channel : AlertChannel
  deriving DecidableEq

/-- `enqueue`, given the job that the store finds: its workspace and its status. -/
def enqueueAlert (digest : AlertKey → Hash) (rows : List Alert) (job : Option (String × Status)) (k : AlertKey)
    (t : ℕ → Int) : Except Err (Hash × List Alert) := do
  let (workspaceId, status) ← demand job (.store "Alert requires an accessible research event")
  require (k.eventKey ≠ "" ∧ k.eventKey.length ≤ 200) (.store "Alert requires an accessible research event")
  require (k.event = .researchCompleted → status = .complete ∨ status = .rejected)
    (.store "Completion alert requires completed research")
  if Rows.get? Alert.id rows (digest k) ≠ none then pure (digest k, rows)
  else pure (digest k, rows ++ [{
    id := digest k
    jobId := k.jobId
    workspaceId
    channel := k.channel
    state := if k.channel = .web then .delivered else .pending
    createdAt := t 0
    deliveredAt := if k.channel = .web then some (t 1) else none
    event := k.event
    message := k.event.message }])

/-! ### Delivery -/

/-- The row may be taken: nobody delivers it, or the lease of who does has run out. -/
def Alert.free (a : Alert) (stamp : Int) : Prop :=
  a.state ≠ .delivering ∨ ∃ until_ ∈ a.deliveryLeaseUntil, until_ ≤ stamp
  deriving Decidable

/-- The row that `deliver_one` takes: the first free one of the hundred oldest that are not locked elsewhere. -/
def nextAlert (rows : List Alert) (workspace : Option String) (skipped : List Hash) (stamp : Int) : Option Alert :=
  let open_ := rows.filter fun a => (a.state = .pending ∨ a.state = .retry ∨ a.state = .delivering) ∧
    (∀ w ∈ workspace, w ≠ "" → a.workspaceId = w) ∧ a.id ∉ skipped
  ((open_.insertionSort fun a b => a.createdAt ≤ b.createdAt).take 100).find? fun a => a.free stamp

def Alert.claimed (token : String) (stamp : Int) (a : Alert) : Alert :=
  { a with
    state := .delivering, attempts := a.attempts + 1, deliveryToken := some token
    deliveryLeaseUntil := some (stamp + seconds 60) }

def Alert.recorded (delivered : Bool) (now : Int) (a : Alert) : Alert :=
  { a with
    state := if delivered then .delivered else .retry
    deliveredAt := if delivered then some now else none }

/-- Where a delivery is: the row is claimed, the provider was called, or the result was recorded. -/
inductive DeliveryPhase where
  | claimed
  | called (delivered : Bool)
  | recorded
  deriving DecidableEq

structure AlertWorker where
  alertId : Hash
  token : String
  leaseUntil : Int
  phase : DeliveryPhase := .claimed
  deriving DecidableEq

/-- The table, all deliveries, the latest claim first, and the time. -/
structure AlertSystem where
  rows : List Alert := []
  workers : List AlertWorker := []
  clock : Int := 0
  deriving DecidableEq

inductive AlertOp where
  | enqueue (job : Option (String × Status)) (k : AlertKey) (t : ℕ → Int)
  | claim (workspace : Option String) (skipped : List Hash) (providers : AlertChannel → Option Bool) (token : String)
      (stamp now : Int)
  | deliver (token : String) (delivered : Bool)
  | record (token : String) (now : Int)

def AlertSystem.proceed (s : AlertSystem) (token : String) (phase : DeliveryPhase) : List AlertWorker :=
  Rows.update AlertWorker.token s.workers token ({ · with phase })

def AlertSystem.step (digest : AlertKey → Hash) (s : AlertSystem) : AlertOp → Except Err AlertSystem
  | .enqueue job k t => do
    let (_, rows) ← enqueueAlert digest s.rows job k t
    pure { s with rows }
  | .claim workspace skipped providers token stamp now => do
    require (s.clock ≤ now ∧ stamp ≤ now ∧ token ∉ s.workers.map AlertWorker.token) .absent
    match nextAlert s.rows workspace skipped stamp with
    | none => pure { s with clock := now }
    | some a =>
      if a.channel ≠ .web ∧ providers a.channel ≠ some true then
        pure { s with clock := now, rows := Rows.update Alert.id s.rows a.id ({ · with state := .blockedConfiguration }) }
      else if 3 ≤ a.attempts then
        pure { s with clock := now, rows := Rows.update Alert.id s.rows a.id ({ · with state := .failed }) }
      else
        pure { s with
          clock := now
          rows := Rows.update Alert.id s.rows a.id (Alert.claimed token stamp)
          workers := ⟨a.id, token, stamp + seconds 60, .claimed⟩ :: s.workers }
  | .deliver token delivered => do
    let w ← demand (Rows.get? AlertWorker.token s.workers token) .absent
    require (w.phase = .claimed) .absent
    pure { s with workers := s.proceed token (.called delivered) }
  | .record token now => do
    let w ← demand (Rows.get? AlertWorker.token s.workers token) .absent
    match w.phase with
    | .called delivered =>
      -- a newer delivery claim owns the result
      pure { s with
        rows := s.rows.map fun a =>
          if a.id = w.alertId ∧ a.deliveryToken = some token then a.recorded delivered now else a
        workers := s.proceed token .recorded }
    | _ => .error .absent

def AlertSystem.after (digest : AlertKey → Hash) (ops : List AlertOp) : AlertSystem :=
  Runs.run (AlertSystem.step digest) {} ops

end Money
