import Money.Budgets

/-! `run_first_pass`: the calls of the independent firms, whose reports are sealed and paid for in the order in which
    the calls complete. The first failure leaves the loop. -/

namespace Money
open Checked

variable {Doc : Type} {E : Env Doc}

/-- A first-pass firm: its `firm` attribute, and how its call ends. -/
structure FirmCall where
  firm : Option String
  outcome : Except Err FirmReport

/-- The arguments of `run_first_pass`. The `n`-th result is sealed and settled at `saving n` and `settling n`. -/
structure FirstPass where
  handle : Handle
  jobId : String
  snapshot : ResearchSnapshot
  sealedFirms : List Firm := []
  /-- The reservation of an agent; none of any without a budget. -/
  reservations : String → Option String
  saving : Nat → Reads
  settling : Nat → Reads
  locking : Reads
  lockedAt : Int
  updatedAt : Int

namespace FirstPass

/-- The calls that are submitted: those of the firms that are not sealed yet. -/
def submitted (p : FirstPass) (firms : List FirmCall) : List FirmCall :=
  firms.filter fun c => ∀ name ∈ c.firm, name ∉ p.sealedFirms.map Firm.name

def admitReport (snapshot : ResearchSnapshot) (report : FirmReport) : Except Err Unit := do
  require (report.firm ∈ snapshot.requiredFirstPassFirms ∧ report.snapshotId = snapshot.snapshotId ∧
    report.snapshotHash = snapshot.hash) (.value "firm report identity or snapshot mismatch")
  require (∀ c ∈ report.claims, ∀ e ∈ c.evidenceIds, e ∈ snapshot.evidenceIds)
    (.value "firm cites evidence outside the frozen snapshot")

def sealReport (p : FirstPass) (n : Nat) (db : Database E) (report : FirmReport) : Except Err (Database E) := do
  admitReport p.snapshot report
  saveReport db p.handle p.jobId (p.saving n) report.firm report

def payReport (p : FirstPass) (n : Nat) (db : Database E) (report : FirmReport) : Except Err (Database E) :=
  match p.reservations report.firm.name with
  | some reservation => settle db p.handle (p.settling n) reservation report.usage
  | none => .ok db

/-- One turn of the loop: the database that it leaves, and the exception that it raises. -/
def takeResult (p : FirstPass) (n : Nat) (db : Database E) : Except Err FirmReport → Database E × Except Err Unit
  | .error e => (db, .error e)
  | .ok report =>
    match p.sealReport n db report with
    | .error e => (db, .error e)
    | .ok db' =>
      match p.payReport n db' report with
      | .error e => (db', .error e)
      | .ok db'' => (db'', .ok ())

/-- The loop over the results in the order of their completion, from the `n`-th one on, and the lock. -/
def collect (p : FirstPass) : Nat → Database E → List (Except Err FirmReport) → Database E × Except Err Unit
  | _, db, [] =>
    match lockFirstPass db p.handle p.jobId p.locking p.lockedAt p.updatedAt with
    | .error e => (db, .error e)
    | .ok db' => (db', .ok ())
  | n, db, result :: rest =>
    match p.takeResult n db result with
    | (db', .error e) => (db', .error e)
    | (db', .ok ()) => collect p (n + 1) db' rest

/-- `run_first_pass`, where the submitted calls complete in this order. -/
def run (p : FirstPass) (db : Database E) (firms completed : List FirmCall) : Database E × Except Err Unit :=
  if firms.length ≠ p.snapshot.requiredFirstPassFirms.length then
    (db, .error (.value "all configured independent firms are required"))
  else if ∃ f ∈ p.sealedFirms, f ∉ p.snapshot.requiredFirstPassFirms then
    (db, .error (.value "unknown sealed firm"))
  else p.collect 0 db (completed.map (·.outcome))

end FirstPass
end Money
