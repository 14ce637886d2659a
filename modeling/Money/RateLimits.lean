import Money.State

/-! `consume_rate_limit` of `storage/store.py`: fixed windows of one bucket, under the queue lock. -/

namespace Money

/-- The row of a bucket. -/
structure RateWindow where
  windowStartedAt : Int
  count : ℕ
  deriving DecidableEq

structure RateAnswer where
  allowed : Bool
  retryAfter : Int := 0
  deriving DecidableEq

/-- A call opens a window where there is none or the last one is over. -/
def opensWindow (window : Int) (row : Option RateWindow) (stamp : Int) : Prop :=
  ∀ r ∈ row, seconds window ≤ stamp - r.windowStartedAt
  deriving Decidable

def consumeRateLimit (limit : ℕ) (window : Int) (row : Option RateWindow) (stamp : Int) : Option RateWindow × RateAnswer :=
  match row with
  | none => (some ⟨stamp, 1⟩, { allowed := true })
  | some r =>
    let elapsed := stamp - r.windowStartedAt
    if seconds window ≤ elapsed then (some ⟨stamp, 1⟩, { allowed := true })
    else if r.count < limit then (some { r with count := r.count + 1 }, { allowed := true })
    else (some r, { allowed := false, retryAfter := max 1 ((seconds window - elapsed) / seconds 1 + 1) })

/-- A call, with the number and the start of the window that it was counted in. -/
structure RateCall where
  stamp : Int
  window : ℕ
  start : Int
  allowed : Bool
  deriving DecidableEq

/-- The row, the number of windows so far, and the calls, the latest first. -/
structure RateLog where
  row : Option RateWindow := none
  windows : ℕ := 0
  calls : List RateCall := []
  deriving DecidableEq

def RateLog.consume (limit : ℕ) (window : Int) (log : RateLog) (stamp : Int) : RateLog :=
  let (row, answer) := consumeRateLimit limit window log.row stamp
  let windows := if opensWindow window log.row stamp then log.windows + 1 else log.windows
  { row, windows, calls := ⟨stamp, windows, row.elim stamp (·.windowStartedAt), answer.allowed⟩ :: log.calls }

def rateLog (limit : ℕ) (window : Int) (stamps : List Int) : RateLog := stamps.foldl (RateLog.consume limit window) {}

end Money
