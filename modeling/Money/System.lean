import Money.Library.Runs
import Money.Completion
import Money.Budgets

/-! The store as a whole: operations of any workers and readers, committed one after the other. The system remembers the
    claims that were granted, the latest one first. -/

namespace Money
open Checked

inductive StoreOp (Doc : Type) where
  | createJob (h : Handle) (n : NewJob)
  | claimJob (h : Handle) (q : ClaimRequest)
  | expireLeases (h : Handle) (x : Expiry)
  | renewLease (h : Handle) (jobId : String) (r : Reads) (leaseSeconds now : Int)
  | retryJob (h : Handle) (jobId : String) (r : Reads) (code : String) (stamp delay : Int)
  | updateStage (h : Handle) (jobId : String) (r : Reads) (stage : Status) (candidateId : Option (Option String)) (now : Int)
  | saveSnapshot (h : Handle) (jobId : String) (r : Reads) (snapshot : ResearchSnapshot) (now : Int)
  | saveReport (h : Handle) (jobId : String) (r : Reads) (firm : Firm) (report : FirmReport)
  | lockFirstPass (h : Handle) (jobId : String) (r : Reads) (locked updated : Int)
  | saveArtifact (h : Handle) (jobId : String) (r : Reads) (kind : ArtifactKind) (value : Doc)
  | saveCioArtifacts (h : Handle) (jobId : String) (r : Reads) (audit : CIOAuditReport) (redTeam : RedTeamReport)
      (runtime : Option Doc)
  | completeJob (h : Handle) (jobId : String) (r : Reads) (completion : Completion Doc) (now : CompletionReads)
  | failJob (h : Handle) (jobId : String) (r : Reads) (code message : String) (completed updated : Int)

/-- Every operation on the database: those of the store, of the studies, of the budgets and of the call meter. -/
inductive Op (Doc : Type) where
  | store (op : StoreOp Doc)
  | saveStudySnapshot (h : Handle) (jobId : String) (r : Reads) (snapshot : RndSnapshot)
  | completeStudy (h : Handle) (jobId : String) (r : Reads) (result : RndResult) (completed updated : Int)
  | reserveMany (h : Handle) (l : BudgetLimits) (r : Reads) (now : Int) (requests : List BudgetReservation)
  | settle (h : Handle) (r : Reads) (reservationId : String) (usage : Usage)
  | reconcileJob (h : Handle) (r : Reads) (jobId : String)
  | startCall (h : Handle) (r : Reads) (i : Invocation)
  | finishCall (h : Handle) (r : Reads) (i : Invocation) (job : Job) (user : Option String) (receipts : List Receipt)
      (success : Bool) (durationMs : Nat)

/-- The claim that an operation is taken under, with its two clock reads. -/
def StoreOp.fence {Doc : Type} : StoreOp Doc → Option (Claim × Reads)
  | .createJob .. | .claimJob .. | .expireLeases .. => none
  | .renewLease h _ r .. | .retryJob h _ r .. | .updateStage h _ r .. | .saveSnapshot h _ r .. | .saveReport h _ r ..
  | .lockFirstPass h _ r .. | .saveArtifact h _ r .. | .saveCioArtifacts h _ r .. | .completeJob h _ r ..
  | .failJob h _ r .. => h.claim.map (·, r)

def Op.fence {Doc : Type} : Op Doc → Option (Claim × Reads)
  | .store op => op.fence
  | .saveStudySnapshot h _ r _ | .completeStudy h _ r .. | .reserveMany h _ r .. | .settle h r .. | .reconcileJob h r _
  | .startCall h r _ | .finishCall h r .. => h.claim.map (·, r)

def Op.isStudy {Doc : Type} : Op Doc → Bool
  | .saveStudySnapshot .. | .completeStudy .. => true
  | _ => false

def Op.accounts {Doc : Type} : Op Doc → Bool
  | .reserveMany .. | .settle .. | .reconcileJob .. | .startCall .. | .finishCall .. => true
  | _ => false

/-- The instants at which an operation looks at the leases and the deadlines. -/
def StoreOp.looks {Doc : Type} : StoreOp Doc → List Int
  | .createJob _ _ => []
  | .claimJob _ q => [q.stamp, q.expiry.stamp]
  | .expireLeases _ x => [x.stamp]
  | .renewLease _ _ r .. | .retryJob _ _ r .. | .updateStage _ _ r .. | .saveSnapshot _ _ r .. | .saveReport _ _ r ..
  | .lockFirstPass _ _ r .. | .saveArtifact _ _ r .. | .saveCioArtifacts _ _ r .. | .completeJob _ _ r ..
  | .failJob _ _ r .. => [r.lease, r.deadline]

def Op.looks {Doc : Type} : Op Doc → List Int
  | .store op => op.looks
  | .saveStudySnapshot _ _ r _ | .completeStudy _ _ r .. | .reserveMany _ _ r .. | .settle _ r .. | .reconcileJob _ r _
  | .startCall _ r _ | .finishCall _ r .. => [r.lease, r.deadline]

variable {Doc : Type} [DecidableEq Doc] {E : Env Doc}

structure System (E : Env Doc) where
  db : Database E := {}
  granted : List Claim := []

/-- A store operation on the database, with the claim that it grants. -/
def StoreOp.step (db : Database E) : StoreOp Doc → Except Err (Database E × Option Claim)
  | .createJob h n => (Money.createJob db h n).map (·, none)
  | .claimJob h q => Money.claimJob db h q
  | .expireLeases h x => .ok (Money.expireLeases db h x, none)
  | .renewLease h jobId r leaseSeconds now => (Money.renewLease db h jobId r leaseSeconds now).map (·, none)
  | .retryJob h jobId r code stamp delay => (Money.retryJob db h jobId r code stamp delay).map (·, none)
  | .updateStage h jobId r stage candidateId now => (Money.updateStage db h jobId r stage candidateId now).map (·, none)
  | .saveSnapshot h jobId r snapshot now => (Money.saveSnapshot db h jobId r snapshot now).map (·, none)
  | .saveReport h jobId r firm report => (Money.saveReport db h jobId r firm report).map (·, none)
  | .lockFirstPass h jobId r locked updated => (Money.lockFirstPass db h jobId r locked updated).map (·, none)
  | .saveArtifact h jobId r kind value => (Money.saveArtifact db h jobId r kind value).map (·, none)
  | .saveCioArtifacts h jobId r audit redTeam runtime =>
    (Money.saveCioArtifacts db h jobId r audit redTeam runtime).map (·, none)
  | .completeJob h jobId r completion now => (Money.completeJob db h jobId r completion now).map (·, none)
  | .failJob h jobId r code message completed updated =>
    (Money.failJob db h jobId r code message completed updated).map (·, none)

def Op.apply (db : Database E) : Op Doc → Except Err (Database E × Option Claim)
  | .store op => op.step db
  | .saveStudySnapshot h jobId r snapshot => (Money.saveStudySnapshot db h jobId r snapshot).map (·, none)
  | .completeStudy h jobId r result completed updated =>
    (Money.completeStudy db h jobId r result completed updated).map (·, none)
  | .reserveMany h l r now requests => (Money.reserveMany db h l r now requests).map (·, none)
  | .settle h r reservationId usage => (Money.settle db h r reservationId usage).map (·, none)
  | .reconcileJob h r jobId => (Money.reconcileJob db h r jobId).map (·, none)
  | .startCall h r i => (Money.startCall db h r i).map (·, none)
  | .finishCall h r i job user receipts success durationMs =>
    (Money.finishCall db h r i job user receipts success durationMs).map (·, none)

def step (s : System E) (op : Op Doc) : Except Err (System E) := do
  let (db, claim) ← op.apply s.db
  pure { db, granted := claim.toList ++ s.granted }

def System.after (E : Env Doc) (ops : List (Op Doc)) : System E := Runs.run step {} ops

end Money
