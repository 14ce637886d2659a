import Money.State

/-! `history` of `product/service.py`: the jobs of a workspace, page by page, behind the endpoint of `product/api.py`. -/

namespace Money
open Checked

/-- What the endpoint's pattern for `state` allows besides the empty text. -/
inductive StateFilter where
  | queued | running | complete | rejected | failed
  deriving DecidableEq

def StateFilter.name : StateFilter → String
  | queued => "QUEUED"
  | running => "RUNNING"
  | complete => "COMPLETE"
  | rejected => "REJECTED"
  | failed => "FAILED"

structure HistoryQuery where
  query : String := ""
  state : Option StateFilter := none
  limit : ℕ := 25
  createdFrom : Option Int := none
  createdTo : Option Int := none
  newest : Bool := true
  deriving DecidableEq

structure HistoryPage where
  jobs : List Job
  nextOffset : Option ℕ
  deriving DecidableEq

/-- The row without the keys that are not public. -/
def Job.listed (j : Job) : Job := { j with leaseToken := none, workerId := none, leaseUntil := none, requestHash := "" }

namespace HistoryQuery

/-- The clauses of the statement; `like ticker query` is `ticker.contains(query.upper())` in the database. -/
def selects (like : String → String → Bool) (workspace : String) (q : HistoryQuery) (j : Job) : Prop :=
  j.workspaceId = workspace ∧ (q.query ≠ "" → like j.ticker q.query ∨ j.id = q.query) ∧
    (∀ f ∈ q.state, j.status.name = f.name) ∧ (∀ day ∈ q.createdFrom, days day ≤ j.createdAt) ∧
    ∀ day ∈ q.createdTo, j.createdAt ≤ days (day + 1) - 1
  deriving Decidable

def before (q : HistoryQuery) (a b : Job) : Prop :=
  (if q.newest then b.createdAt < a.createdAt else a.createdAt < b.createdAt) ∨ (a.createdAt = b.createdAt ∧ a.id ≤ b.id)

def valid (q : HistoryQuery) : Prop :=
  1 ≤ q.limit ∧ q.limit ≤ 100 ∧ ∀ first ∈ q.createdFrom, ∀ last ∈ q.createdTo, first ≤ last
  deriving Decidable

/-- The page at `offset` of the ordered rows. -/
def history (q : HistoryQuery) (rows : List Job) (offset : ℕ) : Except Err HistoryPage := do
  require (q.valid ∧ offset ≤ 100000) (.value "INVALID_HISTORY_RANGE")
  let found := (rows.drop offset).take (q.limit + 1)
  pure ⟨(found.take q.limit).map Job.listed, if q.limit < found.length then some (offset + q.limit) else none⟩

/-- The pages from an offset to the last one; `arrange` is how the database orders the rows for each of the calls. -/
inductive Lists (q : HistoryQuery) (arrange : ℕ → List Job) : ℕ → List Job → Prop
  | last {offset : ℕ} {jobs : List Job} (page : q.history (arrange offset) offset = .ok ⟨jobs, none⟩) :
    Lists q arrange offset jobs
  | next {offset following : ℕ} {jobs more : List Job} (rest : Lists q arrange following more)
    (page : q.history (arrange offset) offset = .ok ⟨jobs, some following⟩) : Lists q arrange offset (jobs ++ more)

end HistoryQuery
end Money
