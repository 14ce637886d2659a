import Money.System
import Money.Theorems.Accounting

/-! What an operation can do: a new job, an expiry, a grant, a transaction under a claim with one of the effects below,
    or a change of the accounting tables. The invariants are proved for these moves. -/

namespace Money
open Checked List

variable {Doc : Type} {E : Env Doc} {q : ClaimRequest} {db db' : Database E} {h : Handle} {row : Job} {jobId : String}
  {op : Op Doc} {r : Reads} {n : NewJob} {P : System E → Prop}

theorem next_mem (hrow : q.next db h = some row) : row ∈ db.jobs ∧ q.takes h row := by
  have hmem := mem_of_mem_head? hrow
  rw [mem_insertionSort, mem_filter] at hmem
  exact ⟨hmem.1, by simpa using hmem.2⟩

/-! ### Transactions under a claim -/

theorem job?_eq_some (h : db.job? jobId = some row) : row ∈ db.jobs ∧ row.id = jobId := Rows.get?_eq_some h

variable [DecidableEq Doc]

/-- The effects of a transaction under a claim on the job it holds, with what was checked for each. -/
inductive Effect (op : Op Doc) (db : Database E) (jobId : String) (row : Job) : Change E → Prop
  | renewed (until_ : Int) : Effect op db jobId row { job := fun j => { j with leaseUntil := some until_ } }
  | interrupted (stamp delay : Int) (code message : String) :
      Effect op db jobId row
        { job := interrupt (decide (row.attemptCount < row.maxAttempts)) stamp delay code message }
  | failed (code message : String) (completed updated : Int) :
      Effect op db jobId row { job := fun j =>
        { finish .failed completed updated j with errorCode := some code, errorMessage := some message } }
  | staged (stage : Status) (candidate : Job → Option String) (now : Int)
      (running : stage ∉ [Status.queued, .firstPassLocked, .complete, .rejected, .failed])
      (forward : row.status.index ≤ stage.index)
      (barrier : Status.firstPassLocked.index < stage.index → row.lockedAt ≠ none)
      (snapshot : stage = .firstPassResearch → row.snapshotId ≠ none) :
      Effect op db jobId row { job := fun j =>
        { j with status := stage, currentStage := stage, updatedAt := now, candidateId := candidate j } }
  | froze (s : SnapshotRow E.toPlatform) (owner : s.jobId = jobId) (stage : row.status = .snapshotBuild)
      (first : row.snapshotId = none)
      (payload : (∃ f, s.payload = .research f ∧ f.snapshot.snapshotId = s.id ∧ row.kind = .standard) ∨
        (∃ study, s.payload = .study study ∧ row.kind = .liveRnd ∧ op.isStudy = true)) :
      Effect op db jobId row { job := fun j => { j with snapshotId := some s.id }, snapshots := [s] }
  | reported (s : ResearchSnapshot) (report : FirmReport) (missing : Err) (frozen : frozenSnapshot db row missing = .ok s)
      (stage : row.status = .firstPassResearch) (unlocked : row.lockedAt = none)
      (id : some report.snapshotId = row.snapshotId) (hash : report.snapshotHash = s.hash)
      (firm : report.firm ∈ s.requiredFirstPassFirms)
      (cites : ∀ c ∈ report.claims, ∀ e ∈ c.evidenceIds, e ∈ s.evidenceIds) :
      Effect op db jobId row { reports := [{ jobId, firm := report.firm, report }] }
  | locked (s : ResearchSnapshot) (at_ updated : Int) (missing : Err) (frozen : frozenSnapshot db row missing = .ok s)
      (stage : row.status = .firstPassResearch)
      (complete : ∀ f, f ∈ (db.reportsOf jobId).map (·.firm) ↔ f ∈ s.requiredFirstPassFirms) :
      Effect op db jobId row { job := fun j =>
        { j with status := .firstPassLocked, currentStage := .firstPassLocked, lockedAt := some at_, updatedAt := updated } }
  | saved (artifacts : List (ArtifactRow Doc))
      (barrier : ∀ a ∈ artifacts, a.jobId = jobId ∧ (a.kind.beforeLock = true ∨ row.lockedAt ≠ none)) :
      Effect op db jobId row { artifacts }
  | decided (p : DecisionPacket) (now : CompletionReads)
      (origin : ∃ h r, op = .store (.completeJob h jobId r (.decision p) now)) (standard : row.kind = .standard)
      (consistent : E.validatePacket p = .ok ()) (checked : checkDecision db jobId row p now = .ok ()) :
      Effect op db jobId row {
        job := finish .complete now.completed now.updated
        packets := [{ jobId, payload := .decision p }]
        signals := (p.signal.map fun signal => { jobId, signal }).toList }
  | rejected (data : Doc) (completed updated : Int) (standard : row.kind = .standard) :
      Effect op db jobId row {
        job := finish .rejected completed updated
        packets := [{ jobId, payload := .rejection data }] }
  | studied (result : RndResult) (completed updated : Int) (study : op.isStudy = true)
      (kind : row.kind = .liveRnd) (stage : row.status = .snapshotBuild) (frozen : ∃ s ∈ db.snapshots, s.jobId = jobId) :
      Effect op db jobId row {
        job := finish .complete completed updated
        packets := [{ jobId, payload := .study result }] }

/-- A worker that holds the lease of a job applied a change to it. -/
structure Worked (op : Op Doc) (h : Handle) (r : Reads) (db db' : Database E)
    (jobId : String) (row : Job) (c : Change E) : Prop where
  found : db.job? jobId = some row
  holds : Holds h row r
  effect : Effect op db jobId row c
  keyed : (db.apply jobId c).Keyed
  result : db' = db.apply jobId c

theorem claimed_worked {body : Job → Except Err (Change E)}
    {conflict : Err} (hok : claimed db h jobId r body conflict = .ok db')
    (hbody : ∀ row c, body row = .ok c → Effect op db jobId row c) : ∃ row c, Worked op h r db db' jobId row c := by
  simp only [claimed, Database.commit, ok_iff, owned_eq_ok] at hok
  obtain ⟨row, ⟨found, holds⟩, c, hc, keyed, rfl⟩ := hok
  exact ⟨row, c, found, holds, hbody row c hc, keyed, rfl⟩

section
variable {op : Op Doc} {db db' : Database E} {h : Handle} {jobId : String} {r : Reads} {completed now updated : Int}
  {code : String}

theorem renewLease_worked {leaseSeconds : Int} (hok : renewLease db h jobId r leaseSeconds now = .ok db') :
    ∃ row c, Worked op h r db db' jobId row c := by
  refine claimed_worked hok fun row c hc => ?_
  cases hc
  exact .renewed _

theorem retryJob_worked {stamp delay : Int} (hok : retryJob db h jobId r code stamp delay = .ok db') :
    ∃ row c, Worked op h r db db' jobId row c := by
  refine claimed_worked hok fun row c hc => ?_
  cases hc
  exact .interrupted ..

theorem failJob_worked {message : String}
    (hok : failJob db h jobId r code message completed updated = .ok db') : ∃ row c, Worked op h r db db' jobId row c := by
  refine claimed_worked hok fun row c hc => ?_
  cases hc
  exact .failed ..

theorem updateStage_worked {stage : Status} {candidateId : Option (Option String)}
    (hok : updateStage db h jobId r stage candidateId now = .ok db') : ∃ row c, Worked op h r db db' jobId row c := by
  rw [updateStage, require_bind_eq_ok] at hok
  refine claimed_worked hok.2 fun row c hc => ?_
  simp only [ok_iff] at hc
  obtain ⟨forward, barrier, snapshot, rfl⟩ := hc
  exact .staged _ (fun j => candidateId.getD j.candidateId) _ hok.1 forward barrier snapshot

theorem saveSnapshot_worked {snapshot : ResearchSnapshot}
    (hok : saveSnapshot db h jobId r snapshot now = .ok db') : ∃ row c, Worked op h r db db' jobId row c := by
  rw [saveSnapshot, bind_eq_ok] at hok
  obtain ⟨frozen, -, hok⟩ := hok
  refine claimed_worked hok fun row c hc => ?_
  simp only [ok_iff] at hc
  obtain ⟨standard, ⟨stage, first⟩, -, -, -, rfl⟩ := hc
  exact .froze { id := frozen.snapshot.snapshotId, jobId, payload := .research frozen } rfl stage first
    (.inl ⟨frozen, rfl, rfl, standard⟩)

theorem saveReport_worked {firm : Firm} {report : FirmReport} (hok : saveReport db h jobId r firm report = .ok db') :
    ∃ row c, Worked op h r db db' jobId row c := by
  rw [saveReport, require_bind_eq_ok] at hok
  obtain ⟨rfl, hok⟩ := hok
  refine claimed_worked hok fun row c hc => ?_
  simp only [ok_iff] at hc
  obtain ⟨⟨stage, unlocked⟩, id, s, frozen, hash, firm, cites, rfl⟩ := hc
  exact .reported s report _ frozen stage unlocked id hash firm cites

theorem lockFirstPass_worked {locked : Int} (hok : lockFirstPass db h jobId r locked updated = .ok db') :
    ∃ row c, Worked op h r db db' jobId row c := by
  refine claimed_worked hok fun row c hc => ?_
  simp only [ok_iff] at hc
  obtain ⟨s, frozen, ⟨stage, sub, sup⟩, rfl⟩ := hc
  exact .locked s _ _ _ frozen stage fun f => ⟨sub f, sup f⟩

theorem saveArtifact_worked {kind : ArtifactKind} {value : Doc} (hok : saveArtifact db h jobId r kind value = .ok db') :
    ∃ row c, Worked op h r db db' jobId row c := by
  rw [saveArtifact, require_bind_eq_ok] at hok
  refine claimed_worked hok.2 fun row c hc => ?_
  simp only [require_bind_eq_ok] at hc
  obtain ⟨-, barrier, hc⟩ := hc
  have hcross : ∀ {x : Except Err Unit}, (x >>= fun _ => pure { artifacts := [{ jobId, kind, payload := value }] }) = .ok c →
      c = { artifacts := [{ jobId, kind, payload := value }] } := by
    intro x hx
    simp only [ok_iff] at hx
    obtain ⟨-, -, rfl⟩ := hx
    rfl
  have hres : c = { artifacts := [{ jobId, kind, payload := value }] } := by
    split at hc
    · exact hcross hc
    · exact hcross (x := pure ()) hc
  rw [hres]
  exact .saved _ (by simpa using barrier)

theorem saveCioArtifacts_worked {audit : CIOAuditReport} {redTeam : RedTeamReport} {runtime : Option Doc}
    (hok : saveCioArtifacts db h jobId r audit redTeam runtime = .ok db') : ∃ row c, Worked op h r db db' jobId row c := by
  refine claimed_worked hok fun row c hc => ?_
  simp only [ok_iff] at hc
  obtain ⟨⟨locked, -⟩, -, rfl⟩ := hc
  refine .saved _ fun a ha => ⟨?_, .inr locked⟩
  cases runtime <;> simp at ha <;> aesop

theorem completeJob_worked {completion : Completion Doc} {now : CompletionReads}
    (hok : completeJob db h jobId r completion now = .ok db') (origin : op = .store (.completeJob h jobId r completion now)) :
    ∃ row c, Worked op h r db db' jobId row c := by
  cases completion with
  | decision p =>
    rw [completeJob, completeDecision, bind_eq_ok] at hok
    obtain ⟨⟨⟩, consistent, hok⟩ := hok
    refine claimed_worked hok fun row c hc => ?_
    simp only [ok_iff] at hc
    obtain ⟨standard, ⟨⟩, checked, rfl⟩ := hc
    exact .decided p now ⟨h, r, origin⟩ standard consistent checked
  | rejection data =>
    refine claimed_worked hok fun row c hc => ?_
    simp only [ok_iff] at hc
    obtain ⟨standard, -, -, rfl⟩ := hc
    exact .rejected data _ _ standard

theorem saveStudySnapshot_worked {snapshot : RndSnapshot} (hok : saveStudySnapshot db h jobId r snapshot = .ok db')
    (study : op.isStudy = true) : ∃ row c, Worked op h r db db' jobId row c := by
  rw [saveStudySnapshot, bind_eq_ok] at hok
  obtain ⟨checked, -, hok⟩ := hok
  refine claimed_worked hok fun row c hc => ?_
  simp only [ok_iff] at hc
  obtain ⟨⟨kind, stage, first, -⟩, rfl⟩ := hc
  exact .froze { id := checked.snapshotId, jobId, payload := .study checked } rfl stage first
    (.inr ⟨checked, rfl, kind, study⟩)

theorem completeStudy_worked {result : RndResult}
    (hok : completeStudy db h jobId r result completed updated = .ok db') (study : op.isStudy = true) :
    ∃ row c, Worked op h r db db' jobId row c := by
  refine claimed_worked hok fun row c hc => ?_
  simp only [studySnapshot, ok_iff] at hc
  obtain ⟨⟨kind, stage, -⟩, s, ⟨stored, hs, -⟩, -, -, -, -, rfl⟩ := hc
  exact .studied result _ _ study kind stage ⟨stored, mem_of_find?_eq_some hs, by simpa using List.find?_some hs⟩

end

/-! ### Moves -/

def Fenced (op : Op Doc) (db : Database E) (jobId : String) : Prop :=
  ∃ c r row, op.fence = some (c, r) ∧ c.jobId = jobId ∧ db.job? jobId = some row ∧ Holds { claim := some c } row r

/-- The checks of a new job: its mandate is valid, and the queue is below its capacity and its rate. -/
structure NewJob.Within (n : NewJob) (db : Database E) (h : Handle) : Prop where
  mandate : n.mandate.enforceMandate = .ok ()
  capacity : ((db.jobs.filter fun j => !j.status.terminal).length : Int) < n.capacity
  rate : ((db.jobs.filter fun j => n.stamp - minutes 1 ≤ j.createdAt ∧ j.workspaceId = h.workspace).length : Int)
    < n.ratePerMinute

/-- What the operations can do to the store, in transactions. -/
inductive Move (op : Op Doc) (s : System E) : System E → Prop
  | created (h : Handle) (n : NewJob) (fresh : s.db.job? n.jobId = none)
      (admission : n.admission = none ∨ s.db.admission? n.jobId = none) (plane : op.fence = none)
      (origin : op = .store (.createJob h n)) (unused : n.existing s.db h = none) (limits : n.Within s.db h) :
      Move op s { s with db := { s.db with
        jobs := s.db.jobs ++ [n.row E h]
        usageRecords := s.db.usageRecords ++ (n.admission.map fun record => { record with jobId := n.jobId }).toList } }
  | expired (h : Handle) (x : Expiry) (look : x.stamp ∈ op.looks) (plane : op.fence = none) :
      Move op s { s with db := expireLeases s.db h x }
  | granted (h : Handle) (q : ClaimRequest) (row : Job) (mem : row ∈ s.db.jobs) (takes : q.takes h row)
      (look : q.stamp ∈ op.looks) (plane : op.fence = none) :
      Move op s {
        db := { s.db with jobs := Rows.update Job.id s.db.jobs row.id (q.start (s.db.admission? row.id)) }
        granted := { jobId := row.id, token := q.token, workerId := q.workerId } :: s.granted }
  | worked (c : Claim) (r : Reads) (db : Database E) (jobId : String) (row : Job) (change : Change E)
      (fence : op.fence = some (c, r)) (look : r.deadline ∈ op.looks)
      (work : Worked op { claim := some c } r s.db db jobId row change) : Move op s { s with db }
  | accounted (db : Database E) (jobId : String) (account : Accounted jobId s.db db)
      (fenced : op.fence.isSome → Fenced op s.db jobId) (kind : op.accounts = true)
      (result : op.apply s.db = .ok (db, none)) : Move op s { s with db }

/-- The moves of one operation: none, one, or those of a claim, which expires leases and then grants one. -/
inductive Moves (op : Op Doc) (s : System E) : System E → Prop
  | none : Moves op s s
  | one {t : System E} (move : Move op s t) : Moves op s t
  | two {u t : System E} (plane : op.fence = Option.none) (first : Move op s u) (second : Move op u t) : Moves op s t

theorem Holds.claim (holds : Holds h row r) :
    ∃ c, h.claim = some c ∧ c.jobId = row.id ∧ Holds { claim := some c } row r := by
  obtain ⟨⟨c, hc, hid, htoken⟩, hlimits⟩ := holds
  exact ⟨c, hc, hid, ⟨c, rfl, hid, htoken⟩, hlimits⟩

variable {s : System E}

theorem Worked.moves
    (work : ∃ row change, Worked op h r s.db db jobId row change) (fence : op.fence = h.claim.map (·, r))
    (look : r.deadline ∈ op.looks) : Moves op s { s with db } := by
  obtain ⟨row, change, work⟩ := work
  obtain ⟨c, hc, -, holds⟩ := work.holds.claim
  exact .one (.worked c r db jobId row change (by rw [fence, hc]; rfl) look
    ⟨work.found, holds, work.effect, work.keyed, work.result⟩)

theorem Posted.moves (posted : Posted h r s.db db) (fence : op.fence = h.claim.map (·, r)) (kind : op.accounts = true)
    (result : op.apply s.db = .ok (db, none)) : Moves op s { s with db } := by
  rcases posted with rfl | ⟨jobId, account, hclaim⟩
  · exact .none
  · refine .one (.accounted db jobId account (fun hsome => ?_) kind result)
    obtain ⟨row, hrow⟩ := hclaim (by simpa [fence] using hsome)
    obtain ⟨found, holds⟩ := owned_eq_ok.mp hrow
    obtain ⟨c, hc, hid, holds⟩ := holds.claim
    exact ⟨c, r, row, by rw [fence, hc]; rfl, hid.trans (job?_eq_some found).2, found, holds⟩

omit [DecidableEq Doc] in
theorem createJob_cases (hok : createJob db h n = .ok db') :
    db' = db ∨ (n.existing db h = none ∧ n.Within db h ∧ db.job? n.jobId = none ∧
      (n.admission = none ∨ db.admission? n.jobId = none) ∧
      db' = { db with
        jobs := db.jobs ++ [n.row E h]
        usageRecords := db.usageRecords ++ (n.admission.map fun record => { record with jobId := n.jobId }).toList }) := by
  simp only [createJob, bind_eq_ok] at hok
  obtain ⟨⟨⟩, mandate, hok⟩ := hok
  split at hok
  · rw [require_bind_eq_ok, pure_eq_ok] at hok
    exact .inl hok.2.symm
  next unused =>
    simp only [enqueue, ok_iff] at hok
    obtain ⟨capacity, rate, fresh, admission, rfl⟩ := hok
    exact .inr ⟨unused, ⟨mandate, capacity, rate⟩, fresh, admission, rfl⟩

theorem createJob_moves (hok : createJob s.db h n = .ok db) : Moves (.store (.createJob h n)) s { s with db } := by
  rcases createJob_cases hok with rfl | ⟨unused, limits, fresh, admission, rfl⟩
  · exact .none
  · exact .one (.created h n fresh admission rfl rfl unused limits)

variable {res : Database E × Option Claim}

theorem claimJob_moves (hok : claimJob s.db h q = .ok res) :
    Moves (.store (.claimJob h q)) s { db := res.1, granted := res.2.toList ++ s.granted } := by
  simp only [claimJob, ok_iff] at hok
  obtain ⟨-, hok⟩ := hok
  have hexpired : Move (.store (.claimJob h q)) s { s with db := expireLeases s.db h { q.expiry with jobId := none } } :=
    .expired h _ (by simp [Op.looks, StoreOp.looks]) rfl
  split at hok
  · rw [← pure_eq_ok.mp hok]
    exact .one hexpired
  next row hnext =>
    rw [← pure_eq_ok.mp hok]
    exact .two rfl hexpired
      (.granted h q row (next_mem hnext).1 (next_mem hnext).2 (by simp [Op.looks, StoreOp.looks]) rfl)

theorem moves_of_map {x : Except Err (Database E)}
    (hok : x.map (·, none) = .ok res) (h : ∀ db, x = .ok db → Moves op s { s with db }) :
    Moves op s { db := res.1, granted := res.2.toList ++ s.granted } := by
  cases x with
  | error e => cases hok
  | ok db =>
    cases hok
    exact h db rfl

theorem storeOp_moves {op : StoreOp Doc} (hok : op.step s.db = .ok res) :
    Moves (.store op) s { db := res.1, granted := res.2.toList ++ s.granted } := by
  -- Every worker operation looks at the deadline, which is the second of its two reads.
  have look : ∀ r : Reads, r.deadline ∈ [r.lease, r.deadline] := fun r => by simp
  cases op with
  | createJob h n => exact moves_of_map hok fun db h => createJob_moves h
  | claimJob h q => exact claimJob_moves hok
  | expireLeases h x =>
    cases hok
    exact .one (.expired h x (by simp [Op.looks, StoreOp.looks]) rfl)
  | renewLease h jobId r => exact moves_of_map hok fun db h => Worked.moves (renewLease_worked h) rfl (look r)
  | retryJob h jobId r => exact moves_of_map hok fun db h => Worked.moves (retryJob_worked h) rfl (look r)
  | updateStage h jobId r => exact moves_of_map hok fun db h => Worked.moves (updateStage_worked h) rfl (look r)
  | saveSnapshot h jobId r => exact moves_of_map hok fun db h => Worked.moves (saveSnapshot_worked h) rfl (look r)
  | saveReport h jobId r => exact moves_of_map hok fun db h => Worked.moves (saveReport_worked h) rfl (look r)
  | lockFirstPass h jobId r => exact moves_of_map hok fun db h => Worked.moves (lockFirstPass_worked h) rfl (look r)
  | saveArtifact h jobId r => exact moves_of_map hok fun db h => Worked.moves (saveArtifact_worked h) rfl (look r)
  | saveCioArtifacts h jobId r => exact moves_of_map hok fun db h => Worked.moves (saveCioArtifacts_worked h) rfl (look r)
  | completeJob h jobId r => exact moves_of_map hok fun db h => Worked.moves (completeJob_worked h rfl) rfl (look r)
  | failJob h jobId r => exact moves_of_map hok fun db h => Worked.moves (failJob_worked h) rfl (look r)

theorem step_moves {t : System E} (hok : step s op = .ok t) : Moves op s t := by
  simp only [step, ok_iff] at hok
  obtain ⟨res, hok, rfl⟩ := hok
  have look : ∀ r : Reads, r.deadline ∈ [r.lease, r.deadline] := fun r => by simp
  cases op with
  | store op => exact storeOp_moves hok
  | saveStudySnapshot h jobId r =>
    exact moves_of_map hok fun db h => Worked.moves (saveStudySnapshot_worked h rfl) rfl (look r)
  | completeStudy h jobId r => exact moves_of_map hok fun db h => Worked.moves (completeStudy_worked h rfl) rfl (look r)
  | reserveMany h l r =>
    exact moves_of_map hok fun db h => Posted.moves (reserveMany_posted h) rfl rfl (congrArg (Except.map (·, none)) h)
  | settle h r => exact moves_of_map hok fun db h => Posted.moves (settle_posted h) rfl rfl (congrArg (Except.map (·, none)) h)
  | reconcileJob h r =>
    exact moves_of_map hok fun db h => Posted.moves (reconcileJob_posted h) rfl rfl (congrArg (Except.map (·, none)) h)
  | startCall h r i =>
    exact moves_of_map hok fun db h => Posted.moves
      (.inr ⟨i.jobId, (startCall_accounted h).1, fun _ => (startCall_accounted h).2⟩) rfl rfl
      (congrArg (Except.map (·, none)) h)
  | finishCall h r i =>
    exact moves_of_map hok fun db h => Posted.moves
      (.inr ⟨i.jobId, (finishCall_accounted h).1, fun _ => (finishCall_accounted h).2⟩) rfl rfl
      (congrArg (Except.map (·, none)) h)

theorem step_map {x : Database E → Except Err (Database E)}
    (happly : op.apply s.db = (x s.db).map (·, none)) : step s op = (x s.db).map fun db => { s with db } := by
  rw [step, happly]
  cases x s.db <;> rfl

theorem run_moves_inv_of {Q : Op Doc → Prop} (move : ∀ op s t, Q op → P s → Move op s t → P t)
    (ops : List (Op Doc)) (hops : ∀ op ∈ ops, Q op) (hs : P s) : P (Runs.run step s ops) := by
  refine Runs.run_inv_of (fun s op t hop hs hok => ?_) ops hops hs
  cases step_moves hok with
  | none => exact hs
  | one hm => exact move op _ _ hop hs hm
  | two _ hm hm' => exact move op _ _ hop (move op _ _ hop hs hm) hm'

theorem run_moves_inv (move : ∀ op s t, P s → Move op s t → P t) (ops : List (Op Doc)) (hs : P s) : P (Runs.run step s ops) :=
  run_moves_inv_of (fun op s t _ => move op s t) ops (fun _ _ => trivial) hs

theorem after_append (ops ops' : List (Op Doc)) :
    System.after E (ops ++ ops') = Runs.run step (System.after E ops) ops' := Runs.run_append step {} ops ops'

end Money
