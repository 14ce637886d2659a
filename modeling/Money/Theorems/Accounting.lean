import Money.Budgets

/-! What the budgets and the call meter do to the database. Reservations are only admitted under a new identity or
    settled once, call records only appended. -/

namespace Money
open Checked Relation List Rows

variable {Doc : Type} {E : Env Doc} {h : Handle} {r : Reads} {db db' : Database E} {id jobId other : String}
  {row : Reservation} {job : Job} {i : Invocation} {l : BudgetLimits} {now : Int} {q : BudgetReservation}

theorem owned_eq_ok {row : Job} : owned db h jobId r = .ok row ↔ db.job? jobId = some row ∧ Holds h row r := by
  simp only [owned, ok_iff]
  constructor
  · rintro ⟨row', hrow, hholds, rfl⟩
    exact ⟨hrow, hholds⟩
  · rintro ⟨hrow, hholds⟩
    exact ⟨row, hrow, hholds, rfl⟩

/-- What one operation can do to the reservations: admit a new one of the job, or settle one of its open ones. -/
inductive Posting (jobId : String) (rows : List Reservation) : List Reservation → Prop
  | admitted (r : Reservation) (owner : r.jobId = jobId) (fresh : Rows.get? Reservation.id rows r.id = none)
      (unsettled : r.usage = none) (unknown : r.actualTokens = none) : Posting jobId rows (rows ++ [r])
  | settled (r : Reservation) (u : Usage) (owner : r.jobId = jobId) (mem : r ∈ rows) (unsettled : r.usage = none) :
      Posting jobId rows (Rows.update Reservation.id rows r.id (Reservation.settled u))

/-- The accounting of a job: postings of its reservations and new call records of its own. -/
structure Accounted (jobId : String) (db db' : Database E) : Prop where
  frame : db' = { db with reservations := db'.reservations, calls := db'.calls }
  posted : ReflTransGen (Posting jobId) db.reservations db'.reservations
  calls : ∃ new, db'.calls = db.calls ++ new ∧ ∀ c ∈ new, c.jobId = jobId

namespace Accounted
variable {jobId : String} {db db' db'' : Database E}

theorem refl (db : Database E) : Accounted jobId db db := ⟨rfl, .refl, [], by simp, by simp⟩

theorem trans (h : Accounted jobId db db') (h' : Accounted jobId db' db'') : Accounted jobId db db'' := by
  obtain ⟨new, hnew, hown⟩ := h.calls
  obtain ⟨new', hnew', hown'⟩ := h'.calls
  refine ⟨?_, h.posted.trans h'.posted, new ++ new', by rw [hnew', hnew, append_assoc], ?_⟩
  · rw [h'.frame, h.frame]
  · intro c hc
    rcases mem_append.mp hc with hc | hc
    · exact hown c hc
    · exact hown' c hc

theorem jobs (h : Accounted jobId db db') : db'.jobs = db.jobs := by rw [h.frame]
theorem usageRecords (h : Accounted jobId db db') : db'.usageRecords = db.usageRecords := by rw [h.frame]

theorem job? (h : Accounted jobId db db') (id : String) : db'.job? id = db.job? id := by
  rw [Database.job?, h.jobs, Database.job?]

theorem foldlM {α : Type} {f : Database E → α → Except Err (Database E)} {l : List α}
    (hok : l.foldlM f db = .ok db') (hf : ∀ db a db', a ∈ l → f db a = .ok db' → Accounted jobId db db') :
    Accounted jobId db db' :=
  foldlM_inv hok (refl db) fun _ _ _ ha h hstep => h.trans (hf _ _ _ ha hstep)

end Accounted

theorem Reservation.settled_id (u : Usage) (r : Reservation) : (r.settled u).id = r.id := rfl

variable {rows rows' : List Reservation}

theorem Posting.nodup (h : Posting jobId rows rows') (hn : (rows.map (·.id)).Nodup) : (rows'.map (·.id)).Nodup := by
  cases h with
  | admitted r owner fresh => exact nodup_append_singleton hn fresh
  | settled r u => rwa [map_update (Reservation.settled_id u)]

theorem Posting.others (h : Posting jobId rows rows') (hn : (rows.map (·.id)).Nodup) (hne : other ≠ jobId) :
    rows'.filter (fun r => r.jobId = other) = rows.filter fun r => r.jobId = other := by
  cases h with
  | admitted r owner => simp [filter_append, owner, Ne.symm hne]
  | settled r u owner mem =>
    rw [Rows.update, filter_map]
    have hkeep : ∀ r' ∈ rows, r'.jobId = other → r'.id ≠ r.id := by
      intro r' hr' hjob hid
      have heq : r' = r := inj_on_of_nodup_map hn hr' mem hid
      exact hne (hjob.symm.trans (heq ▸ owner))
    have hfilter : rows.filter ((fun r => decide (r.jobId = other)) ∘
        fun r' => if r'.id = r.id then r'.settled u else r') = rows.filter fun r => decide (r.jobId = other) := by
      refine filter_congr fun r' _ => ?_
      simp only [Function.comp_apply]
      split <;> rfl
    rw [hfilter]
    refine (map_congr_left fun r' hr' => ?_).trans (map_id _)
    rw [mem_filter] at hr'
    rw [if_neg (hkeep r' hr'.1 (by simpa using hr'.2))]
    rfl

theorem posted_nodup (h : ReflTransGen (Posting jobId) rows rows')
    (hn : (rows.map (·.id)).Nodup) : (rows'.map (·.id)).Nodup := by
  induction h with
  | refl => exact hn
  | tail _ hp ih => exact hp.nodup ih

theorem posted_others (h : ReflTransGen (Posting jobId) rows rows') (hn : (rows.map (·.id)).Nodup) (hne : other ≠ jobId) :
    rows'.filter (fun r => r.jobId = other) = rows.filter fun r => r.jobId = other := by
  induction h with
  | refl => rfl
  | tail hps hp ih => rw [hp.others (posted_nodup hps hn) hne, ih]

theorem insertCall_ok {row : CallRow} (hok : insertCall db row = .ok db') :
    ∃ new, db' = { db with calls := db.calls ++ new } ∧ ∀ c ∈ new, c = row := by
  unfold insertCall at hok
  split at hok
  · rw [require_bind_eq_ok, pure_eq_ok] at hok
    exact ⟨[], by simp [hok.2], by simp⟩
  · cases hok
    exact ⟨[row], rfl, by simp⟩

variable {usage : Usage}

theorem recordReportedUsage_ok (hok : recordReportedUsage db row usage job = .ok db') :
    ∃ new, db' = { db with calls := db.calls ++ new } ∧ ∀ c ∈ new, ∃ user, c = reportedUsage E row usage job user := by
  unfold recordReportedUsage at hok
  split at hok
  · cases hok
    exact ⟨[], by simp, by simp⟩
  · rw [bind_eq_ok] at hok
    obtain ⟨user, -, hok⟩ := hok
    obtain ⟨new, hnew, hrow⟩ := insertCall_ok hok
    exact ⟨new, hnew, fun c hc => ⟨user, hrow c hc⟩⟩

theorem insertCall_accounted {row : CallRow} (hok : insertCall db row = .ok db')
    (owner : row.jobId = jobId) : Accounted jobId db db' := by
  obtain ⟨new, rfl, hrow⟩ := insertCall_ok hok
  exact ⟨rfl, .refl, new, rfl, fun c hc => by rw [hrow c hc, owner]⟩

theorem startCall_accounted (hok : startCall db h r i = .ok db') :
    Accounted i.jobId db db' ∧ ∃ job, owned db h i.jobId r = .ok job := by
  simp only [startCall, ok_iff] at hok
  obtain ⟨job, hjob, -, -, -, -, user, -, hok⟩ := hok
  exact ⟨insertCall_accounted hok rfl, job, hjob⟩

theorem finishCall_accounted {user : Option String} {receipts : List Receipt} {success : Bool} {durationMs : Nat}
    (hok : finishCall db h r i job user receipts success durationMs = .ok db') :
    Accounted i.jobId db db' ∧ ∃ job, owned db h i.jobId r = .ok job := by
  simp only [finishCall, ok_iff] at hok
  obtain ⟨row, hrow, -, db₁, hfold, hok⟩ := hok
  have hreceipts : Accounted i.jobId db db₁ := .foldlM hfold fun _ _ _ _ h => insertCall_accounted h rfl
  exact ⟨hreceipts.trans (insertCall_accounted hok rfl), row, hrow⟩

/-! ### Reservations -/

theorem settleRow_ok (hok : settleRow db row usage = .ok db') : row.usage = some usage ∧ db' = db ∨
    row.usage = none ∧ ∃ new,
      (∀ c ∈ new, ∃ job user, job.id = row.jobId ∧ c = reportedUsage E row usage job user) ∧ db' = { db with
      reservations := Rows.update Reservation.id db.reservations row.id (Reservation.settled usage)
      calls := db.calls ++ new } := by
  unfold settleRow at hok
  split at hok
  next recorded hrec =>
    rw [require_bind_eq_ok, pure_eq_ok] at hok
    exact .inl ⟨hok.1 ▸ hrec, hok.2.symm⟩
  next hnone =>
    simp only [ok_iff] at hok
    obtain ⟨job, hjob, hok⟩ := hok
    obtain ⟨new, rfl, hnew⟩ := recordReportedUsage_ok hok
    refine .inr ⟨hnone, new, fun c hc => ?_, rfl⟩
    obtain ⟨user, huser⟩ := hnew c hc
    exact ⟨job, user, (get?_eq_some hjob).2, huser⟩

theorem settleRow_accounted
    (hok : settleRow db row usage = .ok db') (mem : row ∈ db.reservations) : Accounted row.jobId db db' := by
  rcases settleRow_ok hok with ⟨-, rfl⟩ | ⟨hnone, new, hnew, rfl⟩
  · exact .refl _
  · refine ⟨rfl, .single (.settled row usage rfl mem hnone), new, rfl, fun c hc => ?_⟩
    obtain ⟨job, user, hid, rfl⟩ := hnew c hc
    exact hid

theorem budgetJob_ok (hok : budgetJob db h jobId r = .ok job) :
    db.job? jobId = some job ∧ (h.claim.isSome → owned db h jobId r = .ok job) := by
  unfold budgetJob at hok
  split at hok
  next hclaim =>
    simp only [ok_iff] at hok
    obtain ⟨job', howned, -, rfl⟩ := hok
    exact ⟨(owned_eq_ok.mp howned).1, fun _ => howned⟩
  next hclaim =>
    simp only [ok_iff] at hok
    obtain ⟨job', hjob, -, rfl⟩ := hok
    exact ⟨hjob, fun h => absurd h hclaim⟩

theorem settle_ok (hok : settle db h r id usage = .ok db') :
    ∃ row job, db.reservation? id = some row ∧ budgetJob db h row.jobId r = .ok job ∧ settleRow db row usage = .ok db' := by
  simp only [settle, ok_iff] at hok
  obtain ⟨row, hrow, job, hjob, hok⟩ := hok
  exact ⟨row, job, hrow, hjob, hok⟩

theorem reserve_ok (hok : reserve db l job now q = .ok db') :
    db.reservation? q.reservationId = none ∧ checkAdmission db job q now = .ok () ∧
      (l.scopes job q now).forM (fits db.reservations q) = .ok () ∧
      db' = { db with reservations := db.reservations ++ [q.row job now] } := by
  simp only [reserve, ok_iff] at hok
  obtain ⟨-, hok⟩ := hok
  split at hok
  · split at hok <;> cases hok
  next hnone =>
    simp only [ok_iff] at hok
    obtain ⟨⟨⟩, hadm, ⟨⟩, hscopes, rfl⟩ := hok
    exact ⟨hnone, hadm, hscopes, rfl⟩

theorem reserve_accounted (hok : reserve db l job now q = .ok db') : Accounted q.jobId db db' := by
  obtain ⟨hnone, -, -, rfl⟩ := reserve_ok hok
  exact ⟨rfl, .single (.admitted _ rfl hnone rfl rfl), [], by simp, by simp⟩

theorem reserveMany_ok {rest : List BudgetReservation} (hok : reserveMany db h l r now (q :: rest) = .ok db') :
    ∃ job, (∀ q' ∈ q :: rest, q'.jobId = q.jobId) ∧ budgetJob db h q.jobId r = .ok job ∧
      (q :: rest).foldlM (fun db q => reserve db l job now q) db = .ok db' := by
  simp only [reserveMany, ok_iff] at hok
  obtain ⟨hsame, job, hjob, hok⟩ := hok
  exact ⟨job, by simpa using hsame, hjob, hok⟩

/-! ### Operations -/

def Posted (h : Handle) (r : Reads) (db db' : Database E) : Prop :=
  db' = db ∨ ∃ jobId, Accounted jobId db db' ∧ (h.claim.isSome → ∃ job, owned db h jobId r = .ok job)

theorem reserveMany_posted
    {requests : List BudgetReservation} (hok : reserveMany db h l r now requests = .ok db') : Posted h r db db' := by
  cases requests with
  | nil =>
    cases hok
    exact .inl rfl
  | cons q rest =>
    obtain ⟨job, hsame, hjob, hfold⟩ := reserveMany_ok hok
    refine .inr ⟨q.jobId, .foldlM hfold fun _ q' _ hq' h => ?_, fun hc => ⟨job, (budgetJob_ok hjob).2 hc⟩⟩
    rw [← hsame q' hq']
    exact reserve_accounted h

theorem settle_posted (hok : settle db h r id usage = .ok db') : Posted h r db db' := by
  obtain ⟨row, job, hrow, hjob, hsettle⟩ := settle_ok hok
  exact .inr ⟨row.jobId, settleRow_accounted hsettle (get?_eq_some hrow).1,
    fun hc => ⟨job, (budgetJob_ok hjob).2 hc⟩⟩

theorem settleCall_accounted {call : String × Usage} (hok : settleCall jobId db call = .ok db') : Accounted jobId db db' := by
  simp only [settleCall, ok_iff] at hok
  obtain ⟨row, hrow, hok⟩ := hok
  have howner : row.id = call.1 ∧ row.jobId = jobId := by simpa using List.find?_some hrow
  exact howner.2 ▸ settleRow_accounted hok (mem_of_find?_eq_some hrow)

theorem latestOf_mem {agent : String} (h : latestOf rows jobId agent = some row) : row ∈ rows ∧ row.jobId = jobId := by
  have hmem := mem_of_mem_head? h
  rw [mem_insertionSort, mem_filter] at hmem
  have hrow : row.jobId = jobId ∧ row.agent = agent ∧ row.stage = agentStage agent := by simpa using hmem.2
  exact ⟨hmem.1, hrow.1⟩

theorem settleAgent_accounted {entry : String × Usage}
    (hok : settleAgent jobId db entry = .ok db') : Accounted jobId db db' := by
  unfold settleAgent at hok
  split at hok
  next row hrow => exact (latestOf_mem hrow).2 ▸ settleRow_accounted hok (latestOf_mem hrow).1
  next =>
    cases hok
    exact .refl db

theorem reconcileJob_posted (hok : reconcileJob db h r jobId = .ok db') : Posted h r db db' := by
  simp only [reconcileJob, bind_eq_ok] at hok
  obtain ⟨job, hjob, agents, -, calls, -, db₁, hcalls, hagents⟩ := hok
  have hfirst : Accounted jobId db db₁ := .foldlM hcalls fun _ _ _ _ h => settleCall_accounted h
  have hsecond : Accounted jobId db₁ db' := .foldlM hagents fun _ _ _ _ h => settleAgent_accounted h
  exact .inr ⟨jobId, hfirst.trans hsecond, fun hc => ⟨job, (budgetJob_ok hjob).2 hc⟩⟩

end Money
