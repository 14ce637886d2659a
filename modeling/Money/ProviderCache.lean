import Money.Library.Runs
import Money.State

/-! The shared cache of `data/rnd_cache.py`. A call of `get` takes a lease in one transaction, fetches, and stores the
    result in a second one. The clock is read before each transaction. -/

namespace Money
open Checked

inductive CachePayload (Data : Type) where
  | ready (data : Data) (hash : Hash)
  | fetching (token : String)
  | cooldown
  deriving DecidableEq

def CachePayload.token? {Data : Type} : CachePayload Data → Option String
  | fetching token => some token
  | _ => none

structure CacheRow (Data : Type) where
  openUntil : Int
  payload : CachePayload Data
  deriving DecidableEq

/-- A call that took a lease: nothing was fetched yet, the fetch runs, it ended, or its result was handed in. -/
inductive FetchPhase (Data : Type) where
  | leased
  | fetching
  | fetched (result : Option Data)
  | finished (result : Option Data)
  deriving DecidableEq

structure FetchCall (Data : Type) where
  token : String
  ttl : Int
  leaseUntil : Int
  phase : FetchPhase Data := .leased
  deriving DecidableEq

/-- The row of a key, and the calls that took a lease for it, the latest first. -/
structure CacheLine (Data : Type) where
  row : Option (CacheRow Data) := none
  calls : List (FetchCall Data) := []
  deriving DecidableEq

variable {Data : Type} (digest : Data → Hash)

/-- The first transaction of `get`: the data that it serves, or the row of its lease. -/
def CacheLine.get (l : CacheLine Data) (ttl lease : Int) (token : String) (now : Int) :
    Except Err (Data ⊕ CacheRow Data) := do
  require ((1 ≤ ttl ∧ ttl ≤ 86400) ∧ 5 ≤ lease ∧ lease ≤ 300) (.value "Invalid R&D cache bounds")
  match l.row.filter fun row => now < row.openUntil with
  | some ⟨_, .ready data hash⟩ =>
    require (digest data = hash) (.upstream "RND_CACHE_CORRUPT")
    pure (.inl data)
  | some _ => .error (.transient "PROVIDER_BUSY")
  | none => pure (.inr ⟨now + seconds lease, .fetching token⟩)

def stored : Option Data → CachePayload Data
  | some data => .ready data (digest data)
  | none => .cooldown

/-- `_finish`: a failure closes the key for fifteen seconds. -/
def CacheRow.finish (row : CacheRow Data) (c : FetchCall Data) (result : Option Data) (now : Int) : CacheRow Data :=
  if row.payload.token? = some c.token then ⟨now + seconds (if result.isSome then c.ttl else 15), stored digest result⟩ else row

inductive CacheOp (Data : Type) where
  | get (ttl lease : Int) (token : String) (now : Int)
  | start (token : String)
  | fetch (token : String) (result : Option Data)
  | finish (token : String) (now : Int)

def CacheLine.proceed (l : CacheLine Data) (token : String) (phase : FetchPhase Data) : List (FetchCall Data) :=
  Rows.update FetchCall.token l.calls token ({ · with phase })

/-- A step of a call at its key, and the time by which it is over. A fetch that the rate limit or the circuit refuses
    fails without having started. -/
def CacheLine.step (l : CacheLine Data) (clock : Int) : CacheOp Data → Except Err (CacheLine Data)
  | .get ttl lease token now => do
    require (now ≤ clock ∧ token ∉ l.calls.map FetchCall.token) .absent
    match ← l.get digest ttl lease token now with
    | .inl _ => pure l
    | .inr row => pure ⟨some row, ⟨token, ttl, row.openUntil, .leased⟩ :: l.calls⟩
  | .start token => do
    let c ← demand (Rows.get? FetchCall.token l.calls token) .absent
    match c.phase with
    | .leased => pure { l with calls := l.proceed token .fetching }
    | _ => .error .absent
  | .fetch token result => do
    let c ← demand (Rows.get? FetchCall.token l.calls token) .absent
    match c.phase, result with
    | .fetching, _ | .leased, none => pure { l with calls := l.proceed token (.fetched result) }
    | _, _ => .error .absent
  | .finish token now => do
    let c ← demand (Rows.get? FetchCall.token l.calls token) .absent
    match c.phase with
    | .fetched result => pure ⟨l.row.map fun row => row.finish digest c result now, l.proceed token (.finished result)⟩
    | _ => .error .absent

structure CacheSystem (Data : Type) where
  lines : Hash → CacheLine Data := fun _ => {}
  clock : Int := 0

/-- Any step at any key, no earlier than the last one. -/
def CacheSystem.step (s : CacheSystem Data) : Hash × Int × CacheOp Data → Except Err (CacheSystem Data)
  | (key, clock, op) => do
    require (s.clock ≤ clock) .absent
    let l ← (s.lines key).step digest clock op
    pure ⟨Function.update s.lines key l, clock⟩

def CacheSystem.after (ops : List (Hash × Int × CacheOp Data)) : CacheSystem Data :=
  Runs.run (CacheSystem.step digest) {} ops

end Money
