import Money.Circuit
import Money.Metering

/-! `ProviderCircuit.call` under a worker claim: the operation runs inside `CallMeter.invoke`, and an exception of
    either reaches the circuit. -/

namespace Money
open Checked

variable {Doc : Type} {E : Env Doc} (provider : String)

/-- The invocation of a provider operation: the provider name ends at the first colon, the rest is the dataset. -/
def providerInvocation (jobId : String) (fresh : Hash) : Invocation :=
  let dataset := String.ofList ((provider.toList.dropWhile (· ≠ ':')).drop 1)
  { jobId
    component := if dataset = "" then "fetch" else dataset
    provider := String.ofList (provider.toList.takeWhile (· ≠ ':'))
    model := none
    reservationId := none
    fresh
    kind := .providerOperation }

/-- What the operation of a call did: it returned or raised, and these receipts were captured. -/
structure OperationEnd where
  returned : Bool
  receipts : List Receipt
  deriving DecidableEq

/-- One execution of `call` by a worker: its claim, the job row and user that its start read, and its operation. -/
structure MeteredCall where
  claim : Claim
  workspaceId : Option String
  fresh : Hash
  started : Option (Job × Option String) := none
  operation : Option OperationEnd := none
  deriving DecidableEq

namespace MeteredCall

variable (c : MeteredCall)

def handle : Handle := { claim := some c.claim, workspaceId := c.workspaceId }

def invocation : Invocation := providerInvocation provider c.claim.jobId c.fresh

def Raised : Prop := ∃ ended ∈ c.operation, ended.returned = false
  deriving Decidable

/-- The first transaction of `invoke`, with the job row and the user that it read. -/
def start (db : Database E) (r : Reads) : Except Err (Database E × Job × Option String) := do
  let db' ← startCall db c.handle r (c.invocation provider)
  let job ← owned db c.handle c.claim.jobId r
  let user ← ownership db job
  pure (db', job, user)

def settle (db : Database E) (r : Reads) (job : Job) (user : Option String)
    (ended : OperationEnd) (durationMs : Nat) : Except Err (Database E) :=
  finishCall db c.handle r (c.invocation provider) job user ended.receipts ended.returned durationMs

end MeteredCall

/-- The circuit of a provider, the database and the calls in the order of their arrival. -/
structure MeteredCircuit (E : Env Doc) where
  circuit : Circuit
  db : Database E
  calls : List MeteredCall := []

inductive MeteredOp (E : Env Doc) where
  /-- Other transactions commit. -/
  | outside (db : Database E)
  | tick (elapsed : Nat)
  | arrive (claim : Claim) (workspaceId : Option String) (fresh : Hash)
  | enter (i : Nat)
  | start (i : Nat) (r : Reads) (duration : Rat)
  | operate (i : Nat) (ended : OperationEnd)
  | settle (i : Nat) (r : Reads) (durationMs : Nat) (duration : Rat)
  | record (i : Nat)

namespace MeteredCircuit

variable (s : MeteredCircuit E) (i : Nat)

/-- The row of call `i`, while the circuit takes its operation to be running. -/
def running? : Option MeteredCall :=
  match s.circuit.calls[i]? with
  | some (.running _) => s.calls[i]?
  | _ => none

def setCall (call : MeteredCall) : MeteredCircuit E :=
  { s with calls := s.calls.set i call }

/-- The circuit learns that the operation of call `i` ended. -/
def finish (success : Bool) (duration : Rat) : Except Err (MeteredCircuit E) := do
  let circuit ← s.circuit.finish i success duration
  pure { s with circuit }

/-- The start of call `i`. An exception ends the call before its operation. -/
def start (r : Reads) (duration : Rat) : Except Err (MeteredCircuit E) := do
  let call ← demand (s.running? i) .absent
  require (call.started = none) .absent
  match call.start provider s.db r with
  | .ok (db, job, user) => pure { s.setCall i { call with started := some (job, user) } with db }
  | .error _ => s.finish i false duration

def operate (ended : OperationEnd) : Except Err (MeteredCircuit E) := do
  let call ← demand (s.running? i) .absent
  require (call.started ≠ none ∧ call.operation = none) .absent
  pure (s.setCall i { call with operation := some ended })

/-- The `finally` block of call `i`: its own exception replaces the result of the operation. -/
def settle (r : Reads) (durationMs : Nat) (duration : Rat) : Except Err (MeteredCircuit E) := do
  let call ← demand (s.running? i) .absent
  let (job, user) ← demand call.started .absent
  let ended ← demand call.operation .absent
  match call.settle provider s.db r job user ended durationMs with
  | .ok db => ({ s with db } : MeteredCircuit E).finish i ended.returned duration
  | .error _ => s.finish i false duration

def step (l : CircuitLimits) (provider : String) (s : MeteredCircuit E) : MeteredOp E → Except Err (MeteredCircuit E)
  | .outside db => .ok { s with db }
  | .tick elapsed => (s.circuit.step l (.tick elapsed)).map fun circuit => { s with circuit }
  | .arrive claim workspaceId fresh =>
    (s.circuit.step l .arrive).map fun circuit => { s with circuit, calls := s.calls ++ [{ claim, workspaceId, fresh }] }
  | .enter i => (s.circuit.step l (.enter i)).map fun circuit => { s with circuit }
  | .start i r duration => s.start provider i r duration
  | .operate i ended => s.operate i ended
  | .settle i r durationMs duration => s.settle provider i r durationMs duration
  | .record i => (s.circuit.step l (.record i)).map fun circuit => { s with circuit }

/-- The state after a list of steps, from a provider that was never called. -/
def after (l : CircuitLimits) (provider : String) (start : Int) (db : Database E) (ops : List (MeteredOp E)) :
    MeteredCircuit E :=
  Runs.run (step l provider) { circuit := { clock := start }, db } ops

end MeteredCircuit
end Money
