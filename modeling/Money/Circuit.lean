import Money.Library.Runs
import Money.Contracts

/-! The provider circuit of `data/resilience.py`: the row of one provider that every worker shares, and the calls on
    their way. A call is admitted in one transaction and records its result in a second one. -/

namespace Money
open Checked

structure CircuitLimits where
  threshold : Nat := 3
  cooldown : Int := 60
  valid : (1 ≤ threshold ∧ threshold ≤ 10) ∧ 10 ≤ cooldown ∧ cooldown ≤ 600 := by decide

structure ProviderState where
  failures : Nat := 0
  openUntil : Option Int := none
  updatedAt : Int
  calls : Nat := 0
  failed : Nat := 0
  generation : Nat := 0
  lastDurationSeconds : Option Rat := none
  lastSuccess : Option Bool := none
  deriving DecidableEq

variable (l : CircuitLimits)

/-- The first transaction of `call`: the row that it leaves, and the generation of the admitted call. -/
def admitCall (row : Option ProviderState) (now : Int) : Except Err (ProviderState × Nat) :=
  match row with
  | none => .ok ({ updatedAt := now }, 0)
  | some row =>
    match row.openUntil with
    | none => .ok (row, row.generation)
    | some until_ => do
      require (until_ ≤ now) (.transient "PROVIDER_CIRCUIT_OPEN")
      -- a single probe owns this interval
      pure ({ row with openUntil := some (now + seconds l.cooldown), generation := row.generation + 1 }, row.generation + 1)

/-- What `_record` makes of the row when the generation is the current one. -/
def countResult (row : ProviderState) (success : Bool) (now : Int) : ProviderState :=
  let failures := if success then 0 else row.failures + 1
  let openUntil := if l.threshold ≤ failures then some (now + seconds l.cooldown) else none
  { row with
    failures, openUntil
    generation := if openUntil ≠ none ∨ row.openUntil ≠ none then row.generation + 1 else row.generation }

def recordCall (row : Option ProviderState) (success : Bool) (duration : Rat) (generation : Nat)
    (now : Int) : Except Err ProviderState := do
  let row ← demand row .noResult
  let counted := if row.generation = generation then countResult l row success now else row
  pure { counted with
    updatedAt := now
    calls := row.calls + 1
    failed := row.failed + if success then 0 else 1
    lastDurationSeconds := some duration
    lastSuccess := some success }

/-! ### Concurrent calls -/

inductive CallPhase where
  | arriving (now : Int)
  | refused (error : Err)
  | running (generation : Nat)
  | settling (generation : Nat) (success : Bool) (duration : Rat) (now : Int)
  | recorded
  deriving DecidableEq

/-- The clock, the row of the provider and the calls in the order of their arrival. -/
structure Circuit where
  clock : Int
  row : Option ProviderState := none
  calls : List CallPhase := []
  deriving DecidableEq

/-- The next thing that happens: the clock moves on, a new call reads it, or call `i` takes its next step. -/
inductive CircuitOp where
  | tick (elapsed : Nat)
  | arrive
  | enter (i : Nat)
  | finish (i : Nat) (success : Bool) (duration : Rat)
  | record (i : Nat)
  deriving DecidableEq

namespace Circuit

variable (s : Circuit)

def setCall (i : Nat) (phase : CallPhase) : Circuit := { s with calls := s.calls.set i phase }

def enter (i : Nat) : Except Err Circuit :=
  match s.calls[i]? with
  | some (.arriving now) =>
    match admitCall l s.row now with
    | .ok (row, generation) => .ok { s.setCall i (.running generation) with row := some row }
    | .error e => .ok (s.setCall i (.refused e))
  | _ => .error .absent

/-- The operation of call `i` has ended, and the call reads the clock for its record. -/
def finish (i : Nat) (success : Bool) (duration : Rat) : Except Err Circuit :=
  match s.calls[i]? with
  | some (.running generation) => .ok (s.setCall i (.settling generation success duration s.clock))
  | _ => .error .absent

def record (i : Nat) : Except Err Circuit :=
  match s.calls[i]? with
  | some (.settling generation success duration now) => do
    let row ← recordCall l s.row success duration generation now
    pure { s.setCall i .recorded with row := some row }
  | _ => .error .absent

def step : CircuitOp → Except Err Circuit
  | .tick elapsed => .ok { s with clock := s.clock + elapsed }
  | .arrive => .ok { s with calls := s.calls ++ [.arriving s.clock] }
  | .enter i => s.enter l i
  | .finish i success duration => s.finish i success duration
  | .record i => s.record l i

/-- The circuit after a list of steps, from a provider that was never called. -/
def after (start : Int) (ops : List CircuitOp) : Circuit :=
  Runs.run (step l) { clock := start } ops

/-- The failures and the opening, which decide what happens to later calls; a missing row counts as closed. -/
def gate : Nat × Option Int :=
  match s.row with
  | some row => (row.failures, row.openUntil)
  | none => (0, none)

/-- Call `i` reads `now` and is admitted by its next step. -/
def Admits (i : Nat) (now : Int) : Prop :=
  s.calls[i]? = some (.arriving now) ∧ ∃ admitted, admitCall l s.row now = .ok admitted

instance (l : CircuitLimits) (s : Circuit) (i : Nat) (now : Int) : Decidable (s.Admits l i now) :=
  decidable_of_iff (s.calls[i]? = some (.arriving now) ∧ (admitCall l s.row now).toOption.isSome) <| by
    unfold Admits
    cases admitCall l s.row now <;> simp [Except.toOption]

/-- The circuit opens, closes or admits a probe: its gate changes, and it is open before or after. -/
def Turns (t : Circuit) : Prop := s.gate ≠ t.gate ∧ (s.gate.2 ≠ none ∨ t.gate.2 ≠ none)
  deriving Decidable

end Circuit
end Money
