import Money.Product
import Money.Theorems.Jobs

/-! The allowances of the product. A submission that counts in one month and is recorded in the next one finds the new
    month empty, because the clock does not go back while the queue lock is held. -/

namespace Money
open Checked Transactions List Rows CommerceOp Customers

variable {d t : Int}

theorem dateOf_eq_iff : dateOf t = d ↔ days d ≤ t ∧ t < days (d + 1) := by
  simp only [dateOf, days, hours, minutes, seconds]
  omega

theorem days_le_days {d' : Int} : days d ≤ days d' ↔ d ≤ d' := by
  simp only [days, hours, minutes, seconds]
  omega

theorem monthWindow_eq (t : Int) : monthWindow t = (days (Calendar.firstDay (Calendar.monthOf (dateOf t))),
    days (Calendar.firstDay (Calendar.monthOf (dateOf t) + 1))) := by
  generalize hm : Calendar.monthOf (dateOf t) = month
  have hlength := Calendar.firstDay_succ month
  have hnext := Calendar.firstDay_succ (month + 1)
  have hdate : dateOf (days (Calendar.firstDay month) + days 32) = Calendar.firstDay month + 32 := by
    simp only [dateOf, days, hours, minutes, seconds]
    omega
  have hmonth : Calendar.monthOf (Calendar.firstDay month + 32) = month + 1 :=
    Calendar.monthOf_eq (by omega) (by omega)
  simp only [monthWindow, firstOfMonth, hm, hdate, hmonth, Prod.mk.injEq, true_and]
  simp only [days, hours, minutes, seconds]
  omega

theorem monthWindow_mem (t : Int) : (monthWindow t).1 ≤ t ∧ t < (monthWindow t).2 := by
  obtain ⟨hfirst, hlast⟩ := Calendar.monthOf_spec (dateOf t)
  obtain ⟨hstart, hend⟩ := dateOf_eq_iff.mp (rfl : dateOf t = dateOf t)
  rw [monthWindow_eq]
  exact ⟨(days_le_days.mpr hfirst).trans hstart, hend.trans_le (days_le_days.mpr hlast)⟩

theorem monthWindow_unique {u : Int} (hstart : (monthWindow t).1 ≤ u) (hend : u < (monthWindow t).2) :
    monthWindow u = monthWindow t := by
  rw [monthWindow_eq t] at hstart hend
  have hdate := dateOf_eq_iff.mp (rfl : dateOf u = dateOf u)
  have hmonth : Calendar.monthOf (dateOf u) = Calendar.monthOf (dateOf t) := by
    refine Calendar.monthOf_eq ?_ ?_
    · have hlt := hstart.trans_lt hdate.2
      simp only [days, hours, minutes, seconds] at hlt
      omega
    · have hlt := hdate.1.trans_lt hend
      simp only [days, hours, minutes, seconds] at hlt
      omega
  rw [monthWindow_eq, monthWindow_eq, hmonth]

/-- The plan of a workspace; one without a subscription is about to get the free one. -/
def Customers.planOf (c : Customers) (workspace : String) : String :=
  match c.subscription? workspace with
  | some row => row.plan
  | none => "FREE"

theorem subscribed_plan (c : Customers) (workspace : String) (now : Int) :
    (c.subscribed workspace now).2.plan = c.planOf workspace ∧ ∀ w, (c.subscribed workspace now).1.planOf w = c.planOf w := by
  unfold subscribed
  cases hrow : c.subscription? workspace with
  | some row => simp [planOf, hrow]
  | none =>
    refine ⟨by simp [planOf, hrow, freeSubscription], fun w => ?_⟩
    have hget := get?_append_singleton (r := freeSubscription workspace now) hrow w
    simp only [planOf, subscription?] at hrow ⊢
    rw [hget]
    by_cases hw : workspace = w
    · subst hw
      simp [freeSubscription, hrow]
    · simp [freeSubscription, hw]

theorem subscription_plan (c : Customers) (workspace : String) (now : Int) :
    (subscription c workspace now).2.plan = c.planOf workspace ∧
      ∀ w, (subscription c workspace now).1.planOf w = c.planOf w := by
  obtain ⟨hplan, hkept⟩ := subscribed_plan c workspace now
  unfold subscription
  dsimp only
  split
  · refine ⟨hplan, fun w => (hkept w ▸ ?_)⟩
    have hget : ∀ rows : List Subscription, Rows.get? Subscription.workspaceId
        (Rows.update Subscription.workspaceId rows workspace (·.renewed now)) w =
          if w = workspace then (Rows.get? Subscription.workspaceId rows w).map (·.renewed now)
          else Rows.get? Subscription.workspaceId rows w := fun rows =>
        get?_update (f := fun s : Subscription => s.renewed now) (fun _ => rfl) w
    simp only [planOf, subscription?, hget]
    by_cases hw : w = workspace
    · rw [if_pos hw]
      cases Rows.get? Subscription.workspaceId (c.subscribed workspace now).1.subscriptions w <;> rfl
    · rw [if_neg hw]
  · exact ⟨hplan, hkept⟩

section
variable {Doc : Type} {E : Env Doc} {P : Service}

/-- A usage record that was admitted found room in the allowance of its workspace and of its account. -/
structure Reserved (P : Service) (db : Database E) (c : Customers) (r : AdmissionReads) (record : UsageRecord)
    (entitled : Plan) : Prop where
  plan : P.plan (c.planOf record.workspaceId) = some entitled
  allowance : (db.usageOf record.workspaceId record.periodStart).length < entitled.researchJobsPerPeriod
  account : (db.userUsage record.userId r.usage).length < P.userJobsPerMonth
  created : record.createdAt = r.created

variable {r : AdmissionReads} {actor : Principal} {personalRnd : Bool} {db db' : Database E} {c : Customers}
  {s t : Commerce E} {h : Handle} {n : NewJob} {op : Op Doc} {record : UsageRecord} {plan : String → String}

theorem reserveResearch_ok {ticker jobId : String} {t : Database E × Customers}
    (h : (reserveResearch P actor ticker personalRnd r jobId).on (db, c) = (.ok (), t)) :
    ∃ record entitled, record.jobId = jobId ∧ Reserved P db c r record entitled ∧
      t = ({ db with usageRecords := db.usageRecords ++ [record] }, (subscription c actor.workspaceId r.subscription).1) := by
  simp only [reserveResearch, on_bind, on_get, on_ofExcept, on_modify] at h
  cases hreservable : reservable db jobId actor personalRnd with
  | error e => simp [hreservable] at h
  | ok =>
    rw [hreservable] at h
    dsimp only at h
    cases hentitled : entitlement P db (subscription c actor.workspaceId r.subscription).1
        (subscription c actor.workspaceId r.subscription).2 actor ticker personalRnd r with
    | error e => simp [hentitled] at h
    | ok entitled =>
      rw [hentitled] at h
      obtain ⟨-, ht⟩ := insertUsage_eq_ok.mp h
      simp only [entitlement, ok_iff] at hentitled
      obtain ⟨-, -, -, -, -, -, plan, hplan, -, hallowance, haccount, rfl⟩ := hentitled
      exact ⟨_, plan, rfl, ⟨(subscription_plan c actor.workspaceId r.subscription).1 ▸ hplan, hallowance, haccount, rfl⟩, ht⟩

variable [DecidableEq Doc]

theorem submit_cases (hok : s.step P (.submit h n actor personalRnd r) = .ok t) :
    t = s ∨ ∃ record entitled, s.research.db.job? n.jobId = none ∧ record.jobId = n.jobId ∧
      Reserved P s.research.db s.customers r record entitled ∧ t.research.db.jobs = s.research.db.jobs ++ [n.row E h] ∧
      t.research.db.usageRecords = s.research.db.usageRecords ++ [record] ∧
      ∀ w, t.customers.planOf w = s.customers.planOf w := by
  simp only [Commerce.step, ok_iff] at hok
  obtain ⟨⟨reply, db, customers⟩, hsubmit, rfl⟩ := hok
  rcases submitJob_eq_ok (transaction_eq_ok.mp hsubmit) with ⟨-, heq⟩ | ⟨db₀, -, henqueue, hadmit⟩
  · cases heq
    exact .inl rfl
  · obtain ⟨record, entitled, hjob, reserved, heq⟩ := reserveResearch_ok hadmit
    simp only [enqueue, ok_iff] at henqueue
    obtain ⟨-, -, fresh, -, rfl⟩ := henqueue
    cases heq
    refine .inr ⟨record, entitled, fresh, hjob, ?_, rfl, by simp, (subscription_plan _ _ _).2⟩
    exact ⟨reserved.plan, by simpa [Database.usageOf] using reserved.allowance,
      by simpa [Database.userUsage] using reserved.account, reserved.created⟩

theorem Move.records {s t : System E} (hm : Move op s t) (hop : op.submits = false) :
    t.db.jobs.map (·.id) = s.db.jobs.map (·.id) ∧ t.db.usageRecords = s.db.usageRecords := by
  cases hm with
  | created h n fresh admission plane origin =>
    subst origin
    cases hop
  | expired h x => exact ⟨expireLeases_ids s.db h x, rfl⟩
  | granted h q row => exact ⟨update_ids s.db row.id (q.start (s.db.admission? row.id)) fun _ => rfl, rfl⟩
  | worked c r db jobId row change fence look work =>
    rw [work.result]
    exact ⟨update_ids s.db jobId change.job work.effect.job_id, rfl⟩
  | accounted db jobId account => exact ⟨by rw [account.jobs], by rw [account.frame]⟩

theorem step_records {s t : System E} (hok : Money.step s op = .ok t) (hop : op.submits = false) :
    t.db.jobs.map (·.id) = s.db.jobs.map (·.id) ∧ t.db.usageRecords = s.db.usageRecords := by
  cases step_moves hok with
  | none => exact ⟨rfl, rfl⟩
  | one hm => exact hm.records hop
  | two _ hm hm' =>
    obtain ⟨hids, hrecords⟩ := hm.records hop
    obtain ⟨hids', hrecords'⟩ := hm'.records hop
    exact ⟨hids'.trans hids, hrecords'.trans hrecords⟩

/-! ### Invariant -/

/-- Under unchanged plans, usage keeps within the allowances, with one record per job. -/
structure Admitted (P : Service) (plan : String → String) (s : Commerce E) : Prop where
  plans : ∀ w, s.customers.planOf w = plan w
  workspace : ∀ w start entitled, P.plan (plan w) = some entitled →
    (s.research.db.usageOf w start).length ≤ entitled.researchJobsPerPeriod
  account : ∀ userId t, (s.research.db.userUsage userId t).length ≤ P.userJobsPerMonth
  records : s.research.db.usageRecords.map (·.jobId) = s.research.db.jobs.map (·.id)
  distinct : (s.research.db.jobs.map (·.id)).Nodup

omit [DecidableEq Doc] in
theorem usageOf_append (h : db'.usageRecords = db.usageRecords ++ [record]) (w : String) (start : Int) :
    db'.usageOf w start =
      db.usageOf w start ++ if record.workspaceId = w ∧ record.periodStart = start then [record] else [] := by
  simp only [Database.usageOf, h, filter_append, filter_cons, filter_nil, decide_eq_true_eq]

omit [DecidableEq Doc] in
theorem userUsage_append (h : db'.usageRecords = db.usageRecords ++ [record]) (userId : String) (t : Int) :
    db'.userUsage userId t = db.userUsage userId t ++
      if record.userId = userId ∧ (monthWindow t).1 ≤ record.createdAt ∧ record.createdAt < (monthWindow t).2 then [record]
      else [] := by
  simp only [Database.userUsage, h, filter_append, filter_cons, filter_nil, decide_eq_true_eq]

omit [DecidableEq Doc] in
theorem Reserved.room {entitled : Plan}
    (h : Reserved P db c r record entitled) (hmonth : 1 ≤ P.userJobsPerMonth) (hread : r.usage ≤ r.created)
    (hpast : ∀ x ∈ db.usageRecords, x.createdAt ≤ r.usage) {t : Int} (hend : record.createdAt < (monthWindow t).2) :
    (db.userUsage record.userId t).length < P.userJobsPerMonth := by
  by_cases hsame : (monthWindow t).1 ≤ r.usage
  · have hwindow : monthWindow r.usage = monthWindow t :=
      monthWindow_unique hsame ((hread.trans h.created.ge).trans_lt hend)
    have hcount := h.account
    rw [Database.userUsage, hwindow] at hcount
    exact hcount
  · have hnone : db.userUsage record.userId t = [] := by
      refine filter_eq_nil_iff.mpr fun x hx hin => ?_
      have hx' := hpast x hx
      simp only [decide_eq_true_eq] at hin
      omega
    rw [hnone]
    exact hmonth

theorem Admitted.submit (hs : Admitted P plan s) (hmonth : 1 ≤ P.userJobsPerMonth)
    (hread : r.usage ≤ r.created) (hpast : ∀ x ∈ s.research.db.usageRecords, x.createdAt ≤ r.usage)
    (hok : s.step P (.submit h n actor personalRnd r) = .ok t) : Admitted P plan t := by
  rcases submit_cases hok with rfl | ⟨record, entitled, fresh, hjob, reserved, hjobs, hrecords, hplans⟩
  · exact hs
  refine ⟨fun w => (hplans w).trans (hs.plans w), ?_, ?_, ?_, ?_⟩
  · intro w start entitled' hplan
    have hbefore := hs.workspace w start entitled' hplan
    rw [usageOf_append hrecords, length_append]
    split
    next hsame =>
      obtain ⟨rfl, rfl⟩ := hsame
      have heq := reserved.plan
      rw [hs.plans, hplan] at heq
      have hroom := reserved.allowance
      rw [← Option.some.inj heq] at hroom
      exact hroom
    next => exact hbefore
  · intro userId x
    have hbefore := hs.account userId x
    rw [userUsage_append hrecords, length_append]
    split
    next hsame =>
      obtain ⟨rfl, -, hend⟩ := hsame
      exact reserved.room hmonth hread hpast hend
    next => exact hbefore
  · rw [hrecords, hjobs, map_append, map_append, hs.records]
    simp [hjob, NewJob.row]
  · rw [hjobs]
    exact nodup_append_singleton hs.distinct fresh

def CommerceOp.Keeps (plan : String → String) : CommerceOp Doc → Prop
  | .serve customers => ∀ w, customers.planOf w = plan w
  | _ => True

theorem Admitted.step {op : CommerceOp Doc} (hs : Admitted P plan s)
    (hmonth : 1 ≤ P.userJobsPerMonth) (hop : op.Keeps plan) (hreads : op.reads.Pairwise (· ≤ ·))
    (hpast : ∀ x ∈ s.research.db.usageRecords, ∀ read ∈ op.reads, x.createdAt ≤ read) (hok : s.step P op = .ok t) :
    Admitted P plan t := by
  cases op with
  | submit h n actor personalRnd r =>
    have hread : r.usage ≤ r.created := by
      simp only [reads, AdmissionReads.list, pairwise_cons, mem_singleton, forall_eq] at hreads
      exact hreads.2.2.1
    exact hs.submit hmonth hread (fun x hx => hpast x hx _ (by simp [reads, AdmissionReads.list])) hok
  | research op =>
    simp only [Commerce.step, ok_iff] at hok
    obtain ⟨hsubmits, research, hstep, rfl⟩ := hok
    obtain ⟨hids, hrecords⟩ := step_records hstep hsubmits
    refine ⟨hs.plans, fun w start => ?_, fun userId x => ?_, ?_, hids ▸ hs.distinct⟩
    · simp only [Database.usageOf, hrecords]
      exact hs.workspace w start
    · simp only [Database.userUsage, hrecords]
      exact hs.account userId x
    · rw [hids, hrecords, hs.records]
  | serve customers =>
    cases hok
    exact ⟨hop, hs.workspace, hs.account, hs.records, hs.distinct⟩

theorem step_createdAt {op : CommerceOp Doc} (hok : s.step P op = .ok t) :
    ∀ x ∈ t.research.db.usageRecords, x ∈ s.research.db.usageRecords ∨ x.createdAt ∈ op.reads := by
  intro x hx
  cases op with
  | submit h n actor personalRnd r =>
    rcases submit_cases hok with rfl | ⟨record, entitled, -, -, reserved, -, hrecords, -⟩
    · exact .inl hx
    · rw [hrecords, mem_append, mem_singleton] at hx
      refine hx.imp id ?_
      rintro rfl
      simp [reads, AdmissionReads.list, reserved.created]
  | research op =>
    simp only [Commerce.step, ok_iff] at hok
    obtain ⟨hsubmits, research, hstep, rfl⟩ := hok
    exact .inl ((step_records hstep hsubmits).2 ▸ hx)
  | serve customers =>
    cases hok
    exact .inl hx

theorem run_allowed (hmonth : 1 ≤ P.userJobsPerMonth) :
    ∀ (ops : List (CommerceOp Doc)) {s : Commerce E}, Admitted P plan s → (∀ op ∈ ops, op.Keeps plan) →
      (ops.flatMap reads).Pairwise (· ≤ ·) →
      (∀ x ∈ s.research.db.usageRecords, ∀ read ∈ ops.flatMap reads, x.createdAt ≤ read) →
      Admitted P plan (Runs.run (Commerce.step P) s ops)
  | [], _, hs, _, _, _ => hs
  | op :: ops, s, hs, hops, hclock, hpast => by
    rw [flatMap_cons, pairwise_append] at hclock
    obtain ⟨hreads, hlater, horder⟩ := hclock
    have hkeeps := fun o ho => hops o (mem_cons_of_mem _ ho)
    have hpast' : ∀ x ∈ s.research.db.usageRecords, ∀ read ∈ ops.flatMap reads, x.createdAt ≤ read :=
      fun x hx read hread => hpast x hx read (by simp [flatMap_cons, hread])
    rcases Runs.next_cases (Commerce.step P) s op with h | h
    · rw [Runs.run_cons, h]
      exact run_allowed hmonth ops hs hkeeps hlater hpast'
    · refine run_allowed hmonth ops ?_ hkeeps hlater ?_
      · exact hs.step hmonth (hops op (mem_cons_self ..)) hreads
          (fun x hx read hread => hpast x hx read (by simp [flatMap_cons, hread])) h
      · intro x hx read hread
        rcases step_createdAt h x hx with hold | hnew
        · exact hpast' x hold read hread
        · exact horder _ hnew read hread

/-- Under constant plans and a clock that does not go back: no period and no month of a user has more records than
    allowed, and the records are those of the jobs. -/
theorem product_allowance (plan : String → String) (customers : Customers) (hmonth : 1 ≤ P.userJobsPerMonth)
    (hplans : ∀ w, customers.planOf w = plan w) (ops : List (CommerceOp Doc)) (hops : ∀ op ∈ ops, op.Keeps plan)
    (hclock : (ops.flatMap reads).Pairwise (· ≤ ·)) :
    let db := (Runs.run (Commerce.step P) ({ customers } : Commerce E) ops).research.db
    (∀ w start entitled, P.plan (plan w) = some entitled → (db.usageOf w start).length ≤ entitled.researchJobsPerPeriod) ∧
    (∀ userId t, (db.userUsage userId t).length ≤ P.userJobsPerMonth) ∧
    (∀ record ∈ db.usageRecords, db.job? record.jobId ≠ none) ∧
    (∀ job ∈ db.jobs, (db.usageRecords.filter fun record => record.jobId = job.id).length = 1) ∧
    (∀ t, (monthWindow t).1 ≤ t ∧ t < (monthWindow t).2 ∧
      ∀ u, (monthWindow t).1 ≤ u ∧ u < (monthWindow t).2 ↔ monthWindow u = monthWindow t) := by
  intro db
  have hs : Admitted P plan (Runs.run (Commerce.step P) ({ customers } : Commerce E) ops) :=
    run_allowed hmonth ops ⟨hplans, fun _ _ _ _ => Nat.zero_le _, fun _ _ => Nat.zero_le _, rfl, nodup_nil⟩ hops hclock
      nofun
  refine ⟨hs.workspace, hs.account, fun record hrecord => ?_, fun job hjob => ?_, fun t => ?_⟩
  · have hmem : record.jobId ∈ db.jobs.map (·.id) := hs.records ▸ mem_map_of_mem hrecord
    obtain ⟨job, hjob, hid⟩ := mem_map.mp hmem
    have hfound : (db.job? job.id).isSome := get?_isSome_of_mem hjob
    rw [← hid]
    exact Option.isSome_iff_ne_none.mp hfound
  · have hcount : (db.usageRecords.map (·.jobId)).count job.id = 1 := by
      rw [hs.records]
      exact count_eq_one_of_mem hs.distinct (mem_map_of_mem hjob)
    rw [← hcount, List.count, countP_map, countP_eq_length_filter]
    rfl
  · obtain ⟨hstart, hend⟩ := monthWindow_mem t
    refine ⟨hstart, hend, fun u => ⟨fun h => monthWindow_unique h.1 h.2, fun h => ?_⟩⟩
    rw [← h]
    exact monthWindow_mem u

end

def oneWorkspace : Customers where
  users := [{
    id := "user", email := "user@example.com", displayName := "User", passwordHash := "", emailVerifiedAt := some 0
    createdAt := 0 }]
  organisations := [{ id := "workspace", name := "Workspace", createdBy := "user", createdAt := 0 }]
  members := [{ workspaceId := "workspace", userId := "user", role := .owner, createdAt := 0 }]

def demoSubmission (jobId : String) (first last : Int) : CommerceOp Document :=
  .submit { workspaceId := some "workspace" } { jobId, ticker := "DEMO.L", mandate := {}, stamp := first }
    { userId := "user", workspaceId := "workspace", role := .owner } false
    { subscription := first, active := first, usage := first, created := last }

def acrossMonths : List (CommerceOp Document) :=
  [demoSubmission "first" (days 19753) (days 19754), demoSubmission "second" (days 19754) (days 19754)]

theorem product_allowance_acrossMonths :
    ((Runs.run (Commerce.step plainService) ({ customers := oneWorkspace } : Commerce plainEnv)
      acrossMonths).research.db.usageRecords.map
      fun record => (record.jobId, record.periodStart, record.createdAt)) =
        [("first", days 19723, days 19754), ("second", days 19754, days 19754)] ∧
    ((Runs.run (Commerce.step plainService) ({ customers := oneWorkspace } : Commerce plainEnv)
      acrossMonths).research.db.userUsage
      "user" (days 19754)).length ≤ plainService.userJobsPerMonth := by
  refine ⟨by decide +kernel, ?_⟩
  refine (product_allowance (fun _ => "FREE") oneWorkspace (by decide) (fun _ => rfl) acrossMonths ?_ (by decide)).2.1 "user" _
  intro op hop
  simp only [acrossMonths, mem_cons, not_mem_nil, or_false] at hop
  rcases hop with rfl | rfl <;> trivial

end Money
