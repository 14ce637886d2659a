import Money.Library.Transactions
import Money.Store

/-! Submission of a job with its admission step. `create_job` calls the admission inside its transaction; it may read
    and write other tables (`π`), and may raise. -/

namespace Money
open Checked Transactions

variable {Doc : Type} {E : Env Doc} {π : Type}

def Job.shown (j : Job) : Job := { j with leaseToken := none, workerId := none, leaseUntil := none, requestHash := "" }

/-- What `create_job` answers: the job that a key already stood for, or the new one, which is read afterwards. -/
inductive Submitted where
  | replayed (job : Job)
  | enqueued (jobId : String)
  deriving DecidableEq

/-- The admission step, which is called with the identity of the new job; no admission is the step that does nothing. -/
abbrev AdmissionStep (E : Env Doc) (π : Type) := String → Statements (Database E × π) Err Unit

def submitJob (h : Handle) (n : NewJob) (admission : AdmissionStep E π) : Statements (Database E × π) Err Submitted := do
  Statements.ofExcept n.mandate.enforceMandate
  let (db, _) ← get
  match n.existing db h with
  | some job =>
    Statements.ofExcept (require (job.requestHash = E.requestHash n.ticker n.mandate (n.kind = .liveRnd))
      (.idempotencyConflict "Idempotency key was used with different input"))
    pure (.replayed job.shown)
  | none =>
    let db ← Statements.ofExcept (enqueue db h { n with admission := none })
    modify fun s => (db, s.2)
    admission n.jobId
    pure (.enqueued n.jobId)

def insertUsage (record : UsageRecord) : Statements (Database E × π) Err Unit := do
  let (db, _) ← get
  Statements.ofExcept (require (db.admission? record.jobId = none) .integrity)
  modify fun s => ({ s.1 with usageRecords := s.1.usageRecords ++ [record] }, s.2)

/-! ### How it ends -/

section
variable {h : Handle} {n : NewJob} {admission : AdmissionStep E π} {db : Database E} {x : π} {e : Err}
  {t : Database E × π}

theorem submitJob_invalid (hmandate : n.mandate.enforceMandate = .error e) :
    (submitJob h n admission).on (db, x) = (.error e, (db, x)) := by
  simp only [submitJob, on_bind, on_ofExcept, hmandate]

section
variable (hmandate : n.mandate.enforceMandate = .ok ())
include hmandate

theorem submitJob_existing {job : Job}
    (hjob : n.existing db h = some job) :
    (submitJob h n admission).on (db, x) =
      if job.requestHash = E.requestHash n.ticker n.mandate (n.kind = .liveRnd) then (.ok (.replayed job.shown), (db, x))
      else (.error (.idempotencyConflict "Idempotency key was used with different input"), (db, x)) := by
  simp only [submitJob, on_bind, on_ofExcept, hmandate, on_get, hjob]
  by_cases hhash : job.requestHash = E.requestHash n.ticker n.mandate (n.kind = .liveRnd) <;> simp [require, hhash]

theorem submitJob_refused (hnone : n.existing db h = none)
    (hfull : enqueue db h { n with admission := none } = .error e) :
    (submitJob h n admission).on (db, x) = (.error e, (db, x)) := by
  simp only [submitJob, on_bind, on_ofExcept, hmandate, on_get, hnone, hfull]

theorem submitJob_enqueued {db₀ : Database E}
    (hnone : n.existing db h = none) (hdb : enqueue db h { n with admission := none } = .ok db₀) :
    (submitJob h n admission).on (db, x) =
      match (admission n.jobId).on (db₀, x) with
      | (.ok _, t) => (.ok (.enqueued n.jobId), t)
      | (.error e, t) => (.error e, t) := by
  simp only [submitJob, on_bind, on_ofExcept, hmandate, on_get, hnone, hdb, on_modify, on_pure]
  rcases (admission n.jobId).on (db₀, x) with ⟨result, t⟩
  cases result <;> rfl

end

/-- A submission that succeeds answers the job of its key, or admits a new one. -/
theorem submitJob_eq_ok {reply : Submitted} (hok : (submitJob h n admission).on (db, x) = (.ok reply, t)) :
    (n.existing db h ≠ none ∧ t = (db, x)) ∨ ∃ db₀, n.existing db h = none ∧ enqueue db h { n with admission := none } = .ok db₀ ∧
      (admission n.jobId).on (db₀, x) = (.ok (), t) := by
  cases hmandate : n.mandate.enforceMandate with
  | error e =>
    rw [submitJob_invalid hmandate] at hok
    cases hok
  | ok =>
    cases hexisting : n.existing db h with
    | some job =>
      rw [submitJob_existing hmandate hexisting] at hok
      split at hok <;> cases hok
      exact Or.inl ⟨nofun, rfl⟩
    | none =>
      cases hdb : enqueue db h { n with admission := none } with
      | error e =>
        rw [submitJob_refused hmandate hexisting hdb] at hok
        cases hok
      | ok db₀ =>
        rw [submitJob_enqueued hmandate hexisting hdb] at hok
        split at hok
        · rename_i hon
          obtain rfl := (Prod.mk.inj hok).2
          exact Or.inr ⟨db₀, rfl, rfl, hon⟩
        · cases hok

theorem insertUsage_eq_ok {record : UsageRecord} :
    (insertUsage record).on (db, x) = (.ok (), t) ↔ db.admission? record.jobId = none ∧
      t = ({ db with usageRecords := db.usageRecords ++ [record] }, x) := by
  simp only [insertUsage, on_bind, on_get, on_ofExcept]
  by_cases hnone : db.admission? record.jobId = none <;> simp [require, hnone, eq_comm]

end

end Money
