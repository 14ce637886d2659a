import Money.Theorems.Settlement

/-! Token budgets are never over-admitted. Every row was admitted within its scopes by what was charged before it, and
    settlements only lower charges where usage stays within its reservation. -/

namespace Money
open Checked List Money.System BudgetLimits

variable {Doc : Type} {E : Env Doc}

/-! ### Charges -/

section
variable (covers : Reservation → Bool)
include covers

@[simp] theorem charge_nil : charge covers [] = 0 := rfl

theorem charge_cons (r : Reservation) (rows : List Reservation) :
    charge covers (r :: rows) = (if covers r then r.charged else 0) + charge covers rows := by
  by_cases hr : covers r <;> simp [charge, hr]

theorem charge_append (rows rows' : List Reservation) :
    charge covers (rows ++ rows') = charge covers rows + charge covers rows' := by
  simp [charge, filter_append]

theorem charge_concat_le (rows : List Reservation) (r : Reservation) :
    charge covers (rows ++ [r]) ≤ charge covers rows + r.charged := by
  rw [charge_append, charge_cons, charge_nil]
  split <;> omega

end

variable {covers : Reservation → Bool} {rows : List Reservation}

theorem charge_mono {covers' : Reservation → Bool}
    (h : ∀ r ∈ rows, covers r = true → covers' r = true) : charge covers rows ≤ charge covers' rows := by
  induction rows with
  | nil => exact Nat.le_refl _
  | cons r rows ih =>
    have hrest := ih fun r' hr' => h r' (mem_cons_of_mem _ hr')
    rw [charge_cons, charge_cons]
    by_cases hr : covers r = true
    · rw [if_pos hr, if_pos (h r (mem_cons_self ..) hr)]
      omega
    · rw [if_neg hr]
      omega

variable {limit : Nat} {rows' : List Reservation} {f : Reservation → Reservation} {l : BudgetLimits} {now : Int}
  {q : BudgetReservation} {S : Scope} {h : Handle} {jobId : String} {i : Invocation} {job : Job} {r' : Reservation}

theorem charge_le_of_last
    (h : ∀ pre r post, rows = pre ++ r :: post → covers r = true → charge covers (pre ++ [r]) ≤ limit) :
    charge covers rows ≤ limit := by
  induction rows using List.reverseRecOn with
  | nil => exact Nat.zero_le _
  | append_singleton rows r ih =>
    by_cases hr : covers r = true
    · exact h rows r [] rfl hr
    · have hrows : charge covers rows ≤ limit :=
        ih fun pre r' post heq => h pre r' (post ++ [r]) (by rw [heq]; simp)
      rw [charge_append, charge_cons, if_neg hr, charge_nil]
      omega

/-! ### Rows that are kept -/

def Keeping (rows rows' : List Reservation) : Prop := ∃ f, rows' = rows.map f ∧ ∀ r ∈ rows, r.Kept (f r)

theorem Keeping.refl (rows : List Reservation) : Keeping rows rows := ⟨id, by simp, fun _ _ => .inl rfl⟩

theorem Keeping.trans {rows'' : List Reservation} (h : Keeping rows rows') (h' : Keeping rows' rows'') :
    Keeping rows rows'' := by
  obtain ⟨f, rfl, hf⟩ := h
  obtain ⟨g, rfl, hg⟩ := h'
  refine ⟨g ∘ f, by rw [map_map], fun r hr => ?_⟩
  exact (hf r hr).trans (hg _ (mem_map_of_mem hr))

theorem Keeping.ids (h : Keeping rows rows') : rows'.map (·.id) = rows.map (·.id) := by
  obtain ⟨f, rfl, hf⟩ := h
  rw [map_map]
  exact map_congr_left fun r hr => (hf r hr).id_eq

variable {db db' : Database E}

theorem settleRow_keeping {row : Reservation} {usage : Usage} (hok : settleRow db row usage = .ok db')
    (hn : (db.reservations.map (·.id)).Nodup) (mem : row ∈ db.reservations) : Keeping db.reservations db'.reservations := by
  rcases settleRow_ok hok with ⟨-, rfl⟩ | ⟨hnone, new, -, rfl⟩
  · exact .refl _
  · refine ⟨_, rfl, fun r hr => ?_⟩
    by_cases hid : r.id = row.id
    · obtain rfl : r = row := inj_on_of_nodup_map hn hr mem hid
      rw [if_pos rfl]
      exact .inr ⟨hnone, usage, rfl⟩
    · rw [if_neg hid]
      exact .inl rfl

theorem foldlM_keeping {α : Type} {f : Database E → α → Except Err (Database E)} {l : List α}
    (hok : l.foldlM f db = .ok db') (hn : (db.reservations.map (·.id)).Nodup)
    (hf : ∀ db a db', (db.reservations.map (·.id)).Nodup → f db a = .ok db' → Keeping db.reservations db'.reservations) :
    Keeping db.reservations db'.reservations := by
  refine foldlM_inv (P := fun t => Keeping db.reservations t.reservations) hok (.refl _) fun t a t' _ ht hstep => ?_
  exact ht.trans (hf t a t' (ht.ids ▸ hn) hstep)

theorem reconcileJob_keeping {r : Reads}
    (hok : reconcileJob db h r jobId = .ok db') (hn : (db.reservations.map (·.id)).Nodup) :
    Keeping db.reservations db'.reservations := by
  simp only [reconcileJob, bind_eq_ok] at hok
  obtain ⟨-, -, agents, -, calls, -, db₁, hcalls, hagents⟩ := hok
  have hfirst : Keeping db.reservations db₁.reservations := by
    refine foldlM_keeping hcalls hn fun db call db' hn hok => ?_
    simp only [settleCall, ok_iff] at hok
    obtain ⟨row, hrow, hok⟩ := hok
    exact settleRow_keeping hok hn (mem_of_find?_eq_some hrow)
  refine hfirst.trans (foldlM_keeping hagents (hfirst.ids ▸ hn) fun db entry db' hn hok => ?_)
  unfold settleAgent at hok
  split at hok
  next row hrow => exact settleRow_keeping hok hn (latestOf_mem hrow).1
  next =>
    cases hok
    exact .refl _

theorem startCall_reservations {r : Reads} (hok : startCall db h r i = .ok db') : db'.reservations = db.reservations := by
  simp only [startCall, ok_iff] at hok
  obtain ⟨job, -, -, -, -, -, user, -, hok⟩ := hok
  obtain ⟨new, rfl, -⟩ := insertCall_ok hok
  rfl

theorem finishCall_reservations {r : Reads}
    {user : Option String} {receipts : List Receipt} {success : Bool} {durationMs : Nat}
    (hok : finishCall db h r i job user receipts success durationMs = .ok db') : db'.reservations = db.reservations := by
  simp only [finishCall, ok_iff] at hok
  obtain ⟨row, -, -, db₁, hfold, hok⟩ := hok
  have hreceipts : db₁.reservations = db.reservations := by
    refine foldlM_inv (P := fun t => t.reservations = db.reservations) hfold rfl fun t entry t' _ ht hstep => ?_
    obtain ⟨new, rfl, -⟩ := insertCall_ok hstep
    exact ht
  obtain ⟨new, rfl, -⟩ := insertCall_ok hok
  exact hreceipts

theorem apply_eq_ok {x : Except Err (Database E)} (h : x.map (·, (none : Option Claim)) = .ok (db, none)) : x = .ok db := by
  cases x with
  | error e => cases h
  | ok db' =>
    cases h
    rfl

section
variable [DecidableEq Doc] {op : Op Doc} {s t : System E}

theorem Move.booked (hm : Move op s t) (hn : (s.db.reservations.map (·.id)).Nodup) :
    (∃ h l r now requests, op = .reserveMany h l r now requests ∧ reserveMany s.db h l r now requests = .ok t.db) ∨
      Keeping s.db.reservations t.db.reservations := by
  cases hm with
  | created | expired | granted => exact .inr (.refl _)
  | worked c r db jobId row change fence look work =>
    rw [work.result]
    exact .inr (.refl _)
  | accounted db jobId account fenced kind result =>
    cases op with
    | store | saveStudySnapshot | completeStudy => exact absurd kind nofun
    | reserveMany h l r now requests => exact .inl ⟨h, l, r, now, requests, rfl, apply_eq_ok result⟩
    | settle h r id usage =>
      obtain ⟨row, -, hrow, -, hsettle⟩ := settle_ok (apply_eq_ok result)
      exact .inr (settleRow_keeping hsettle hn (Rows.get?_eq_some hrow).1)
    | reconcileJob h r jobId => exact .inr (reconcileJob_keeping (apply_eq_ok result) hn)
    | startCall h r i =>
      rw [startCall_reservations (apply_eq_ok result)]
      exact .inr (.refl _)
    | finishCall h r i =>
      rw [finishCall_reservations (apply_eq_ok result)]
      exact .inr (.refl _)

theorem Move.admission (hm : Move op s t) {jobId : String}
    (hjob : (s.db.job? jobId).isSome) : t.db.admission? jobId = s.db.admission? jobId := by
  cases hm with
  | created h n fresh =>
    have hne : n.jobId ≠ jobId := by
      rintro rfl
      rw [fresh] at hjob
      cases hjob
    have hnone : Rows.get? UsageRecord.jobId (n.admission.map fun record => { record with jobId := n.jobId }).toList jobId =
        none := by
      cases n.admission with
      | none => rfl
      | some record => simp [Rows.get?, hne]
    rw [Database.admission?, Rows.get?_append, hnone, Option.or_none, Database.admission?]
  | expired | granted => rfl
  | worked c r db _ row change fence look work =>
    rw [work.result]
    rfl
  | accounted db _ account => rw [Database.admission?, account.usageRecords, Database.admission?]

end

/-! ### Scopes -/

/-- The scopes of a request: those of the limits, and those of the admission of its job. -/
def requestScopes (E : Env Doc) (l : BudgetLimits) (admission : Option UsageRecord) (job : Job) (now : Int)
    (q : BudgetReservation) : List Scope :=
  l.scopes job q now ++ (admission.bind fun a => (admissionScopes E job q.jobId a).toOption).getD []

section
variable {l : BudgetLimits} {admission : Option UsageRecord} {job : Job} {now : Int} {q : BudgetReservation} {S : Scope}

theorem BudgetLimits.mem_scopes : S ∈ l.scopes job q now ↔ S = { covers := fun r => r.jobId = q.jobId, limit := l.perJob } ∨
    S = { covers := fun r => r.jobId = q.jobId ∧ r.candidate = job.ticker, limit := l.perCandidate } ∨
    S = { covers := fun r => r.jobId = q.jobId ∧ r.stage = q.stage, limit := l.perStage } ∨
    S = { covers := fun r => r.jobId = q.jobId ∧ r.agent = q.agent, limit := l.perAgent } ∨
    S = { covers := fun r => r.workspaceId = job.workspaceId ∧ dayStart now ≤ r.createdAt, limit := l.daily } ∨
    ∃ limit, l.modelLimit q.provider q.model = some limit ∧
      S = { covers := fun r => r.jobId = q.jobId ∧ r.provider = q.provider ∧ r.model = q.model, limit } := by
  have hmodel : S ∈ ((l.modelLimit q.provider q.model).map fun limit : Nat =>
      { covers := fun r => r.jobId = q.jobId ∧ r.provider = q.provider ∧ r.model = q.model, limit : Scope }).toList ↔
      ∃ limit, l.modelLimit q.provider q.model = some limit ∧
        S = { covers := fun r => r.jobId = q.jobId ∧ r.provider = q.provider ∧ r.model = q.model, limit } := by
    cases l.modelLimit q.provider q.model <;> simp
  rw [scopes, mem_append, hmodel]
  simp only [mem_cons, not_mem_nil, or_false, or_assoc]

theorem mem_requestScopes : S ∈ requestScopes E l admission job now q ↔ S ∈ l.scopes job q now ∨
    ∃ a monthly, admission = some a ∧ E.monthlyTokens a.plan = some monthly ∧
      (S = { covers := fun r => r.jobId = q.jobId, limit := a.maxTokens } ∨
        S = { covers := fun r => r.workspaceId = job.workspaceId ∧ a.periodStart ≤ r.createdAt ∧ r.createdAt < a.periodEnd
              limit := monthly }) := by
  rw [requestScopes, mem_append]
  refine or_congr Iff.rfl ?_
  cases admission with
  | none => simp
  | some a =>
    cases hmonthly : E.monthlyTokens a.plan with
    | none => simp [admissionScopes, hmonthly, demand, bind, Except.bind, Except.toOption]
    | some monthly => simp [admissionScopes, hmonthly, demand, bind, Except.bind, pure, Except.pure, Except.toOption]

theorem requestScopes_settled (hS : S ∈ requestScopes E l admission job now q) (u : Usage) (r : Reservation) :
    S.covers (r.settled u) = S.covers r := by
  rcases mem_requestScopes.mp hS with hS | ⟨_, _, -, -, rfl | rfl⟩
  · rcases mem_scopes.mp hS with rfl | rfl | rfl | rfl | rfl | ⟨_, -, rfl⟩ <;> rfl
  · rfl
  · rfl

theorem requestScopes_shared (hS : S ∈ requestScopes E l admission job now q) {q' : BudgetReservation}
    (hjob : q'.jobId = q.jobId) (hcovers : S.covers (q'.row job now) = true) : S ∈ requestScopes E l admission job now q' := by
  rw [mem_requestScopes] at hS ⊢
  rw [hjob]
  refine hS.imp_left fun hS => ?_
  rw [mem_scopes] at hS ⊢
  rw [hjob]
  rcases hS with rfl | rfl | rfl | rfl | rfl | ⟨limit, hlimit, rfl⟩
  · exact .inl rfl
  · exact .inr (.inl rfl)
  · have hstage : q'.stage = q.stage := (of_decide_eq_true hcovers).2
    exact .inr (.inr (.inl (by rw [hstage])))
  · have hagent : q'.agent = q.agent := (of_decide_eq_true hcovers).2
    exact .inr (.inr (.inr (.inl (by rw [hagent]))))
  · exact .inr (.inr (.inr (.inr (.inl rfl))))
  · obtain ⟨-, hprovider, hmodel⟩ : q'.jobId = q.jobId ∧ q'.provider = q.provider ∧ q'.model = q.model :=
      of_decide_eq_true hcovers
    rw [hprovider, hmodel]
    exact .inr (.inr (.inr (.inr (.inr ⟨limit, hlimit, rfl⟩))))

end

section
variable (hok : reserve db l job now q = .ok db')
include hok

theorem reserve_fits
    (hS : S ∈ requestScopes E l (db.admission? q.jobId) job now q) :
    charge S.covers db'.reservations ≤ S.limit := by
  obtain ⟨-, hadmission, hscopes, rfl⟩ := reserve_ok hok
  have hfits : fits db.reservations q S = .ok () := by
    rcases mem_append.mp hS with hS | hS
    · exact forM_eq_ok.mp hscopes S hS
    · unfold checkAdmission at hadmission
      cases hrecord : db.admission? q.jobId with
      | none => simp [hrecord] at hS
      | some a =>
        simp only [hrecord, bind_eq_ok] at hadmission
        obtain ⟨-, -, scopes, hscopes, hfits⟩ := hadmission
        rw [hrecord, Option.bind_some, hscopes] at hS
        exact forM_eq_ok.mp hfits S hS
  rw [fits, require_eq_ok] at hfits
  exact (charge_concat_le S.covers db.reservations (q.row job now)).trans hfits

theorem reserve_plan : ∀ a ∈ db.admission? q.jobId, (E.monthlyTokens a.plan).isSome := by
  intro a ha
  obtain ⟨-, hadmission, -, -⟩ := reserve_ok hok
  simp only [checkAdmission, Option.mem_def.mp ha, admissionScopes, bind_eq_ok, demand_eq_ok] at hadmission
  obtain ⟨-, -, scopes, ⟨monthly, hmonthly, -⟩, -⟩ := hadmission
  rw [hmonthly]
  rfl

theorem reserve_admission
    (jobId : String) : db'.admission? jobId = db.admission? jobId := by
  obtain ⟨-, -, -, rfl⟩ := reserve_ok hok
  rfl

end

theorem batch_fits : ∀ {requests : List BudgetReservation}
    {db db' : Database E}, requests.foldlM (fun db q => reserve db l job now q) db = .ok db' →
      (∀ q ∈ requests, q.jobId = jobId) → ∀ q ∈ requests, ∀ S ∈ requestScopes E l (db.admission? jobId) job now q,
        charge S.covers db'.reservations ≤ S.limit
  | [], _, _, _, _, q, hq, _, _ => by cases hq
  | q₁ :: rest, db, db', hok, hjob, q, hq, S, hS => by
    rw [foldlM_cons, bind_eq_ok] at hok
    obtain ⟨db₁, hfirst, hrest⟩ := hok
    have hrestJob : ∀ q ∈ rest, q.jobId = jobId := fun q hq => hjob q (mem_cons_of_mem _ hq)
    rcases mem_cons.mp hq with rfl | hq
    · -- A later request that this scope covers was checked against it as well.
      have hown : q.jobId = jobId := hjob q (mem_cons_self ..)
      have hlater : db'.admission? jobId = db.admission? jobId ∧ charge S.covers db'.reservations ≤ S.limit := by
        refine foldlM_inv (P := fun t => t.admission? jobId = db.admission? jobId ∧ charge S.covers t.reservations ≤ S.limit)
          hrest ⟨reserve_admission hfirst jobId, reserve_fits hfirst (hown ▸ hS)⟩ fun t q' t' hq' ht hstep => ?_
        refine ⟨(reserve_admission hstep jobId).trans ht.1, ?_⟩
        have hsame : q'.jobId = jobId := hrestJob q' hq'
        by_cases hcovers : S.covers (q'.row job now) = true
        · have hshared := requestScopes_shared hS (hsame.trans hown.symm) hcovers
          rw [← ht.1, ← hsame] at hshared
          exact reserve_fits hstep hshared
        · obtain ⟨-, -, -, rfl⟩ := reserve_ok hstep
          rw [charge_append, charge_cons, if_neg hcovers, charge_nil]
          exact ht.2
      exact hlater.2
    · rw [← reserve_admission hfirst jobId] at hS
      exact batch_fits hrest hrestJob q hq S hS

theorem reserveMany_fits {r : Reads}
    {requests : List BudgetReservation} (hok : reserveMany db h l r now requests = .ok db') :
    ∀ q ∈ requests, ∃ job, db.job? q.jobId = some job ∧
      (∀ S ∈ l.scopes job q now, charge S.covers db'.reservations ≤ S.limit) ∧
      ∀ a, db'.admission? q.jobId = some a → ∃ scopes, admissionScopes E job q.jobId a = .ok scopes ∧
        ∀ S ∈ scopes, charge S.covers db'.reservations ≤ S.limit := by
  intro q hq
  cases requests with
  | nil => cases hq
  | cons q₁ rest =>
    obtain ⟨job, hsame, hjob, hfold⟩ := reserveMany_ok hok
    have hfits := batch_fits hfold hsame q hq
    have hadmission : db'.admission? q.jobId = db.admission? q₁.jobId := by
      obtain ⟨rfl, -⟩ := batch_ok hfold
      rw [hsame q hq]
      rfl
    refine ⟨job, hsame q hq ▸ (budgetJob_ok hjob).1, fun S hS => hfits S (mem_append_left _ hS), fun a ha => ?_⟩
    rw [hadmission] at ha
    -- The plan was found when the first request of the batch was checked.
    have hplan : (E.monthlyTokens a.plan).isSome := by
      rw [foldlM_cons, bind_eq_ok] at hfold
      obtain ⟨db₁, hfirst, -⟩ := hfold
      exact reserve_plan hfirst a ha
    obtain ⟨monthly, hmonthly⟩ := Option.isSome_iff_exists.mp hplan
    have hscopes : ∃ scopes, admissionScopes E job q.jobId a = .ok scopes := by
      rw [admissionScopes, hmonthly]
      exact ⟨_, rfl⟩
    obtain ⟨scopes, hscopes⟩ := hscopes
    refine ⟨scopes, hscopes, fun S hS => hfits S (mem_append_right _ ?_)⟩
    rw [ha, Option.bind_some, hscopes]
    exact hS

/-! ### Every row was admitted within its scopes -/

def Honest (rows : List Reservation) : Prop := ∀ r ∈ rows, ∀ n, r.actualTokens = some n → n ≤ r.reservedTokens

/-- The row of a request that was within its scopes by what is charged for it and before it. -/
def Within (E : Env Doc) (l : BudgetLimits) (admission : Option UsageRecord) (pre : List Reservation) (r : Reservation) : Prop :=
  (∀ a ∈ admission, (E.monthlyTokens a.plan).isSome) ∧ ∃ job now q, (q.row job now).Kept r ∧
    ∀ S ∈ requestScopes E l admission job now q, charge S.covers (pre ++ [r]) ≤ S.limit

/-- Every reservation was within its limits when it was admitted, given the rows in front of it. -/
structure Booked (l : BudgetLimits) (db : Database E) : Prop where
  ids : (db.reservations.map (·.id)).Nodup
  /-- Token counts come from recorded usage only. -/
  known : ∀ r ∈ db.reservations, r.actualTokens = r.usage.bind Usage.tokens
  owners : ∀ r ∈ db.reservations, (db.job? r.jobId).isSome
  within : Honest db.reservations → ∀ pre r post, db.reservations = pre ++ r :: post →
    Within E l (db.admission? r.jobId) pre r

variable {r : Reservation}

theorem Reservation.Kept.known (h : r.Kept r') (hknown : r.actualTokens = r.usage.bind Usage.tokens) :
    r'.actualTokens = r'.usage.bind Usage.tokens := by
  rcases h with rfl | ⟨-, u, rfl⟩
  · exact hknown
  · rfl

theorem Reservation.Kept.jobId_eq (h : r.Kept r') : r'.jobId = r.jobId := by
  rcases h with rfl | ⟨-, u, rfl⟩ <;> rfl

theorem Reservation.Kept.charged_le (h : r.Kept r')
    (hknown : r.actualTokens = r.usage.bind Usage.tokens) (honest : ∀ n, r'.actualTokens = some n → n ≤ r'.reservedTokens) :
    r'.charged ≤ r.charged := by
  rcases h with rfl | ⟨hnone, u, rfl⟩
  · exact Nat.le_refl _
  · have hreserved : r.charged = r.reservedTokens := by
      rw [Reservation.charged, hknown, hnone]
      rfl
    rw [hreserved, Reservation.charged]
    cases hactual : (r.settled u).actualTokens with
    | none => exact Nat.le_refl _
    | some n => exact honest n hactual

theorem Honest.of_kept (hf : ∀ r ∈ rows, r.Kept (f r))
    (hknown : ∀ r ∈ rows, r.actualTokens = r.usage.bind Usage.tokens) (h : Honest (rows.map f)) : Honest rows := by
  intro r hr n hn
  rcases hf r hr with hsame | ⟨hnone, -⟩
  · exact h r (mem_map.mpr ⟨r, hr, hsame⟩) n hn
  · rw [hknown r hr, hnone] at hn
    cases hn

theorem charge_map_le (hf : ∀ r ∈ rows, covers (f r) = covers r ∧ (f r).charged ≤ r.charged) :
    charge covers (rows.map f) ≤ charge covers rows := by
  induction rows with
  | nil => exact Nat.le_refl _
  | cons r rows ih =>
    have hrest := ih fun r' hr' => hf r' (mem_cons_of_mem _ hr')
    obtain ⟨hcovers, hcharged⟩ := hf r (mem_cons_self ..)
    rw [map_cons, charge_cons, charge_cons, hcovers]
    split <;> omega

theorem requestScopes_kept {admission : Option UsageRecord}
    (hS : S ∈ requestScopes E l admission job now q) (h : r.Kept r') : S.covers r' = S.covers r := by
  rcases h with rfl | ⟨-, u, rfl⟩
  · rfl
  · exact requestScopes_settled hS u r

theorem Booked.keeping (h : Booked l db)
    (hkeep : Keeping db.reservations db'.reservations) (hjobs : ∀ id, (db.job? id).isSome → (db'.job? id).isSome)
    (hadmission : ∀ id, (db.job? id).isSome → db'.admission? id = db.admission? id) : Booked l db' := by
  have hids := hkeep.ids
  obtain ⟨f, hrows, hf⟩ := hkeep
  have hmem : ∀ r' ∈ db'.reservations, ∃ r ∈ db.reservations, r' = f r := by
    intro r' hr'
    rw [hrows] at hr'
    obtain ⟨r, hr, rfl⟩ := mem_map.mp hr'
    exact ⟨r, hr, rfl⟩
  refine ⟨hids ▸ h.ids, fun r' hr' => ?_, fun r' hr' => ?_, fun honest pre' r' post' heq => ?_⟩
  · obtain ⟨r, hr, rfl⟩ := hmem r' hr'
    exact (hf r hr).known (h.known r hr)
  · obtain ⟨r, hr, rfl⟩ := hmem r' hr'
    rw [(hf r hr).jobId_eq]
    exact hjobs _ (h.owners r hr)
  · -- The row and those before it come from the same place of the table before.
    rw [hrows] at honest heq
    obtain ⟨pre, rest, hsplit, rfl, hrest⟩ := map_eq_append_iff.mp heq
    obtain ⟨r, post, rfl, rfl, rfl⟩ := map_eq_cons_iff.mp hrest
    have hr : r ∈ db.reservations := by simp [hsplit]
    obtain ⟨hplan, job, now, q, hkept, hfits⟩ := h.within (honest.of_kept hf h.known) pre r post hsplit
    rw [(hf r hr).jobId_eq, hadmission _ (h.owners r hr)]
    refine ⟨hplan, job, now, q, hkept.trans (hf r hr), fun S hS => ?_⟩
    have hcharge : charge S.covers ((pre ++ [r]).map f) ≤ charge S.covers (pre ++ [r]) := by
      refine charge_map_le fun x hx => ?_
      have hx' : x ∈ db.reservations := by
        rw [hsplit]
        rcases mem_append.mp hx with hx | hx
        · exact mem_append_left _ hx
        · exact mem_append_right _ (mem_cons.mpr (.inl (mem_singleton.mp hx)))
      exact ⟨requestScopes_kept hS (hf x hx'),
        (hf x hx').charged_le (h.known x hx') (honest _ (mem_map_of_mem hx'))⟩
    rw [map_append, map_singleton] at hcharge
    exact hcharge.trans (hfits S hS)

theorem Booked.reserve (h : Booked l db)
    (howner : (db.job? q.jobId).isSome) (hok : reserve db l job now q = .ok db') : Booked l db' := by
  have hfits := fun S => reserve_fits (S := S) hok
  have hplan := reserve_plan hok
  obtain ⟨hfresh, -, -, rfl⟩ := reserve_ok hok
  refine ⟨Rows.nodup_append_singleton h.ids hfresh, fun r hr => ?_, fun r hr => ?_, fun honest pre r post heq => ?_⟩
  · rcases Rows.mem_snoc.mp hr with hr | rfl
    · exact h.known r hr
    · rfl
  · rcases Rows.mem_snoc.mp hr with hr | rfl
    · exact h.owners r hr
    · exact howner
  · rcases eq_nil_or_concat post with rfl | ⟨post, last, rfl⟩
    · -- The new row itself.
      obtain ⟨rfl, hrow⟩ := append_inj' heq rfl
      obtain rfl : q.row job now = r := by simpa using hrow
      exact ⟨hplan, job, now, q, .inl rfl, fun S hS => hfits S hS⟩
    · -- A row of the table before.
      have heq' : db.reservations ++ [q.row job now] = (pre ++ r :: post) ++ [last] := by simpa using heq
      obtain ⟨hold, -⟩ := append_inj' heq' rfl
      exact h.within (fun x hx => honest x (mem_append_left _ hx)) pre r post hold

theorem booked_empty (l : BudgetLimits) : Booked l ({} : Database E) where
  ids := nodup_nil
  known := forall_mem_nil _
  owners := forall_mem_nil _
  within _ pre r post heq := by simp at heq

theorem Booked.charge_le (h : Booked l db) (honest : Honest db.reservations)
    (hscope : ∀ r ∈ db.reservations, covers r = true → (∀ a ∈ db.admission? r.jobId, (E.monthlyTokens a.plan).isSome) →
      ∀ job now q, (q.row job now).Kept r → ∃ S ∈ requestScopes E l (db.admission? r.jobId) job now q,
        S.limit ≤ limit ∧ ∀ r' ∈ db.reservations, covers r' = true → S.covers r' = true) :
    charge covers db.reservations ≤ limit := by
  refine charge_le_of_last fun pre r post heq hr => ?_
  obtain ⟨hplan, job, now, q, hkept, hfits⟩ := h.within honest pre r post heq
  obtain ⟨S, hS, hlimit, hcovers⟩ := hscope r (by simp [heq]) hr hplan job now q hkept
  have hmono : charge covers (pre ++ [r]) ≤ charge S.covers (pre ++ [r]) := by
    refine charge_mono fun r' hr' => hcovers r' ?_
    rw [heq]
    rcases mem_append.mp hr' with hr' | hr'
    · exact mem_append_left _ hr'
    · exact mem_append_right _ (mem_cons.mpr (.inl (mem_singleton.mp hr')))
  exact (hmono.trans (hfits S hS)).trans hlimit

theorem Reservation.Kept.columns
    (h : (q.row job now).Kept r) : (r.jobId = q.jobId ∧ r.workspaceId = job.workspaceId ∧ r.candidate = job.ticker ∧
      r.createdAt = now) ∧ r.stage = q.stage ∧ r.agent = q.agent ∧ r.provider = q.provider ∧ r.model = q.model := by
  rcases h with rfl | ⟨-, u, rfl⟩ <;> exact ⟨⟨rfl, rfl, rfl, rfl⟩, rfl, rfl, rfl, rfl⟩

section
variable [DecidableEq Doc]

def Op.budgets (l : BudgetLimits) : Op Doc → Prop
  | .reserveMany _ l' _ _ _ => l' = l
  | _ => True

variable {l : BudgetLimits}

theorem Booked.move {op : Op Doc} {s t : System E} (hop : op.budgets l) (h : Booked l s.db)
    (hm : Move op s t) (hn : (s.db.jobs.map (·.id)).Nodup) : Booked l t.db := by
  rcases hm.booked h.ids with ⟨handle, l', r, now, requests, rfl, hok⟩ | hkeep
  · obtain rfl : l' = l := hop
    cases requests with
    | nil =>
      have hkept : s.db = t.db := Except.ok.inj hok
      exact hkept ▸ h
    | cons q rest =>
      obtain ⟨job, hsame, hjob, hfold⟩ := reserveMany_ok hok
      have hfound := (budgetJob_ok hjob).1
      have hall : Booked l' t.db ∧ t.db.jobs = s.db.jobs := by
        refine foldlM_inv (P := fun db => Booked l' db ∧ db.jobs = s.db.jobs) hfold ⟨h, rfl⟩ fun db q' db' hq' hdb hstep => ?_
        have howner : (db.job? q'.jobId).isSome := by
          rw [Database.job?, hdb.2, hsame q' hq', ← Database.job?, hfound]
          rfl
        refine ⟨hdb.1.reserve howner hstep, ?_⟩
        rw [(reserve_accounted hstep).jobs, hdb.2]
      exact hall.1
  · refine h.keeping hkeep (fun id hid => ?_) fun id hid => hm.admission hid
    obtain ⟨row, hrow⟩ := Option.isSome_iff_exists.mp hid
    obtain ⟨row', -, hrow', -⟩ := hm.turn hn hrow
    rw [hrow']
    rfl

theorem after_booked (ops : List (Op Doc)) (hops : ∀ op ∈ ops, op.budgets l) : Booked l (after E ops).db := by
  have hinit : ((({} : System E).db.jobs.map (·.id)).Nodup) ∧ Booked l ({} : System E).db := ⟨nodup_nil, booked_empty l⟩
  have hboth := run_moves_inv_of (P := fun s => (s.db.jobs.map (·.id)).Nodup ∧ Booked l s.db)
    (fun op s t hop hs hm => ⟨hm.jobs_nodup hs.1, hs.2.move hop hm hs.1⟩) ops hops hinit
  exact hboth.2

end

/-! ### Budgets in every reachable state -/

/-- Every sum of charges is within its limit, where every job of a period was admitted under a plan that allows no more.
    -/
structure WithinLimits (l : BudgetLimits) (db : Database E) : Prop where
  job : ∀ jobId, charge (fun r => r.jobId = jobId) db.reservations ≤ l.perJob
  candidate : ∀ jobId candidate, charge (fun r => r.jobId = jobId ∧ r.candidate = candidate) db.reservations ≤ l.perCandidate
  stage : ∀ jobId stage, charge (fun r => r.jobId = jobId ∧ r.stage = stage) db.reservations ≤ l.perStage
  agent : ∀ jobId agent, charge (fun r => r.jobId = jobId ∧ r.agent = agent) db.reservations ≤ l.perAgent
  day : ∀ workspace day,
    charge (fun r => r.workspaceId = workspace ∧ dateOf r.createdAt = day) db.reservations ≤ l.daily
  model : ∀ jobId provider model limit, l.modelLimit provider model = some limit →
    charge (fun r => r.jobId = jobId ∧ r.provider = provider ∧ r.model = model) db.reservations ≤ limit
  admission : ∀ jobId a, db.admission? jobId = some a →
    charge (fun r => r.jobId = jobId) db.reservations ≤ a.maxTokens
  period : ∀ workspace start finish monthly, (∀ r ∈ db.reservations,
      r.workspaceId = workspace ∧ start ≤ r.createdAt ∧ r.createdAt < finish → ∃ a allowed,
        db.admission? r.jobId = some a ∧ E.monthlyTokens a.plan = some allowed ∧
          a.periodStart ≤ start ∧ finish ≤ a.periodEnd ∧ allowed ≤ monthly) →
    charge (fun r => r.workspaceId = workspace ∧ start ≤ r.createdAt ∧ r.createdAt < finish) db.reservations ≤ monthly

theorem Booked.withinLimits (h : Booked l db) (honest : Honest db.reservations) : WithinLimits l db where
  job jobId := by
    refine h.charge_le honest fun r _ hr _ job now q hkept => ?_
    have hjob : q.jobId = jobId := hkept.columns.1.1.symm.trans (of_decide_eq_true hr)
    exact ⟨_, mem_requestScopes.mpr (.inl (mem_scopes.mpr (.inl rfl))), Nat.le_refl _,
      fun r' _ hr' => by rw [hjob]; exact hr'⟩
  candidate jobId candidate := by
    refine h.charge_le honest fun r _ hr _ job now q hkept => ?_
    obtain ⟨⟨hjob, -, hticker, -⟩, -⟩ := hkept.columns
    obtain ⟨rfl, rfl⟩ : r.jobId = jobId ∧ r.candidate = candidate := of_decide_eq_true hr
    exact ⟨_, mem_requestScopes.mpr (.inl (mem_scopes.mpr (.inr (.inl rfl)))), Nat.le_refl _,
      fun r' _ hr' => by rw [← hjob, ← hticker]; exact hr'⟩
  stage jobId stage := by
    refine h.charge_le honest fun r _ hr _ job now q hkept => ?_
    obtain ⟨⟨hjob, -⟩, hstage, -⟩ := hkept.columns
    obtain ⟨rfl, rfl⟩ : r.jobId = jobId ∧ r.stage = stage := of_decide_eq_true hr
    exact ⟨_, mem_requestScopes.mpr (.inl (mem_scopes.mpr (.inr (.inr (.inl rfl))))), Nat.le_refl _,
      fun r' _ hr' => by rw [← hjob, ← hstage]; exact hr'⟩
  agent jobId agent := by
    refine h.charge_le honest fun r _ hr _ job now q hkept => ?_
    obtain ⟨⟨hjob, -⟩, -, hagent, -⟩ := hkept.columns
    obtain ⟨rfl, rfl⟩ : r.jobId = jobId ∧ r.agent = agent := of_decide_eq_true hr
    exact ⟨_, mem_requestScopes.mpr (.inl (mem_scopes.mpr (.inr (.inr (.inr (.inl rfl)))))), Nat.le_refl _,
      fun r' _ hr' => by rw [← hjob, ← hagent]; exact hr'⟩
  day workspace day := by
    -- The check of a row counts everything from the start of its day on.
    refine h.charge_le honest fun r _ hr _ job now q hkept => ?_
    obtain ⟨⟨-, hworkspace, -, hcreated⟩, -⟩ := hkept.columns
    obtain ⟨rfl, rfl⟩ : r.workspaceId = workspace ∧ dateOf r.createdAt = day := of_decide_eq_true hr
    refine ⟨_, mem_requestScopes.mpr (.inl (mem_scopes.mpr (.inr (.inr (.inr (.inr (.inl rfl))))))),
      Nat.le_refl _, fun r' _ hr' => ?_⟩
    obtain ⟨hsame, hday⟩ : r'.workspaceId = r.workspaceId ∧ dateOf r'.createdAt = dateOf r.createdAt := of_decide_eq_true hr'
    refine decide_eq_true ⟨hsame.trans hworkspace, ?_⟩
    rw [dayStart, ← hcreated, ← hday]
    exact Int.ediv_mul_le _ (by decide)
  model jobId provider model limit hlimit := by
    refine h.charge_le honest fun r _ hr _ job now q hkept => ?_
    obtain ⟨⟨hjob, -⟩, -, -, hprovider, hmodel⟩ := hkept.columns
    obtain ⟨rfl, rfl, rfl⟩ : r.jobId = jobId ∧ r.provider = provider ∧ r.model = model := of_decide_eq_true hr
    rw [hprovider, hmodel] at hlimit
    exact ⟨_, mem_requestScopes.mpr (.inl (mem_scopes.mpr
      (.inr (.inr (.inr (.inr (.inr ⟨limit, hlimit, rfl⟩))))))), Nat.le_refl _,
      fun r' _ hr' => by rw [← hjob, ← hprovider, ← hmodel]; exact hr'⟩
  admission jobId a ha := by
    refine h.charge_le honest fun r _ hr hplan job now q hkept => ?_
    obtain rfl : r.jobId = jobId := of_decide_eq_true hr
    obtain ⟨monthly, hmonthly⟩ := Option.isSome_iff_exists.mp (hplan a ha)
    exact ⟨_, mem_requestScopes.mpr (.inr ⟨a, monthly, ha, hmonthly, .inl rfl⟩),
      Nat.le_refl _, fun r' _ hr' => by rw [← hkept.columns.1.1]; exact hr'⟩
  period workspace start finish monthly hadmitted := by
    refine h.charge_le honest fun r hmem hr _ job now q hkept => ?_
    obtain ⟨a, allowed, ha, hallowed, hstart, hfinish, hle⟩ := hadmitted r hmem (of_decide_eq_true hr)
    obtain ⟨rfl, -⟩ : r.workspaceId = workspace ∧ start ≤ r.createdAt ∧ r.createdAt < finish := of_decide_eq_true hr
    refine ⟨_, mem_requestScopes.mpr (.inr ⟨a, allowed, ha, hallowed, .inr rfl⟩),
      hle, fun r' _ hr' => ?_⟩
    obtain ⟨hsame, hafter, hbefore⟩ : r'.workspaceId = r.workspaceId ∧ start ≤ r'.createdAt ∧ r'.createdAt < finish :=
      of_decide_eq_true hr'
    exact decide_eq_true ⟨hsame.trans hkept.columns.1.2.1, by omega, by omega⟩

/-- An admitted batch leaves its scopes within their limits; without usage above its reservation all sums stay within
    them; and a usage without a token count leaves the charge. -/
theorem budgets_never_over_admitted [DecidableEq Doc] (l : BudgetLimits) (ops : List (Op Doc)) (hops : ∀ op ∈ ops, op.budgets l) :
    (∀ h l' r now requests t, step (after E ops) (.reserveMany h l' r now requests) = .ok t → ∀ q ∈ requests,
      ∃ job, (after E ops).db.job? q.jobId = some job ∧
        (∀ S ∈ l'.scopes job q now, charge S.covers t.db.reservations ≤ S.limit) ∧
        ∀ a, t.db.admission? q.jobId = some a → ∃ scopes, admissionScopes E job q.jobId a = .ok scopes ∧
          ∀ S ∈ scopes, charge S.covers t.db.reservations ≤ S.limit) ∧
    ((∀ r ∈ (after E ops).db.reservations, ∀ n, r.actualTokens = some n → n ≤ r.reservedTokens) →
      WithinLimits l (after E ops).db) ∧ ∀ r ∈ (after E ops).db.reservations,
      (∀ u, r.usage = some u → u.inputTokens = none ∨ u.outputTokens = none) → r.charged = r.reservedTokens := by
  have hbooked : Booked l (after E ops).db := after_booked ops hops
  refine ⟨fun h l' r now requests t hok q hq => ?_, fun honest => hbooked.withinLimits honest, fun r hr hunknown => ?_⟩
  · rw [step_map (x := fun db => reserveMany db h l' r now requests) rfl] at hok
    cases hmany : reserveMany (after E ops).db h l' r now requests with
    | error e => rw [hmany] at hok; cases hok
    | ok db =>
      rw [hmany] at hok
      cases hok
      exact reserveMany_fits hmany q hq
  · rw [Reservation.charged, hbooked.known r hr]
    cases husage : r.usage with
    | none => rfl
    | some u =>
      rcases hunknown u husage with hnone | hnone
      · simp [Usage.tokens, hnone]
      · cases hinput : u.inputTokens <;> simp [Usage.tokens, hinput, hnone]

theorem firstBatch_within_limits :
    WithinLimits {}
      (after plainEnv (firstBatch ++ [settlement "first" { inputTokens := some 10, outputTokens := some 5 }])).db ∧
      charge (fun r => r.jobId = "job") (after plainEnv (firstBatch ++
        [settlement "first" { inputTokens := some 10, outputTokens := some 5 }])).db.reservations = 20015 := by
  have hcounts : (after plainEnv (firstBatch ++ [settlement "first"
      { inputTokens := some 10, outputTokens := some 5 }])).db.reservations.map (fun r => (r.actualTokens, r.reservedTokens)) =
      [(some 15, 20000), (none, 20000)] := by decide +kernel
  refine ⟨?_, by decide +kernel⟩
  refine (budgets_never_over_admitted {} (firstBatch ++ [settlement "first" _]) fun op hop => ?_).2.1 fun r hr n hn => ?_
  · simp only [firstBatch, firstAttempt, settlement, cons_append, nil_append, mem_cons, not_mem_nil,
      or_false] at hop
    rcases hop with rfl | rfl | rfl | rfl <;> simp [Op.budgets]
  · have hr' := mem_map_of_mem (f := fun r : Reservation => (r.actualTokens, r.reservedTokens)) hr
    rw [hcounts] at hr'
    simp only [mem_cons, not_mem_nil, or_false, Prod.mk.injEq, hn] at hr'
    rcases hr' with ⟨hactual, hreserved⟩ | ⟨hactual, -⟩
    · cases hactual
      rw [hreserved]
      decide
    · cases hactual

def planCall (jobId plan : String) (tokens : Nat) : List (Op Document) :=
  [.store (.createJob { workspaceId := some "workspace" } { jobId, ticker := "ABC", mandate := {}, stamp := 0, admission := some {
      jobId, workspaceId := "workspace", userId := "user", periodStart := 0, periodEnd := days 30, plan, maxTokens := tokens
      maxSeconds := 1800, createdAt := 0 } }),
    .reserveMany { workspaceId := some "workspace" } {} { lease := 1, deadline := 1 } 1 [{
      reservationId := jobId ++ "-call", jobId, stage := "FIRST_PASS_RESEARCH", agent := "tradingagents", provider := "provider"
      model := "model", maximumTokens := tokens, promptVersion := "v1" }]]

def upgradedPlan : List (Op Document) :=
  planCall "pro" "PRO" 10000 ++ ["a", "b", "c", "d", "e"].flatMap fun name => planCall name "TEAM" 20000

theorem planCall_budgets (jobId plan : String) (tokens : Nat) : ∀ op ∈ planCall jobId plan tokens, op.budgets {} := by
  intro op hop
  simp only [planCall, mem_cons, not_mem_nil, or_false] at hop
  rcases hop with rfl | rfl <;> simp [Op.budgets]

/-- The calls of the larger plan take the period above the allowance of the call before. -/
theorem upgradedPlan_exceeds_allowance : (∀ op ∈ upgradedPlan, op.budgets {}) ∧
    (after plainEnv upgradedPlan).db.reservations.map (fun r => (r.jobId, r.actualTokens)) =
      [("pro", none), ("a", none), ("b", none), ("c", none), ("d", none), ("e", none)] ∧
    ∃ a, (after plainEnv upgradedPlan).db.admission? "pro" = some a ∧ plainEnv.monthlyTokens a.plan = some 100000 ∧
      charge (fun r => r.workspaceId = "workspace" ∧ a.periodStart ≤ r.createdAt ∧ r.createdAt < a.periodEnd)
        (after plainEnv upgradedPlan).db.reservations = 110000 := by
  refine ⟨fun op hop => ?_, by decide +kernel, ?_⟩
  · rcases mem_append.mp hop with hop | hop
    · exact planCall_budgets _ _ _ op hop
    · obtain ⟨name, -, hop⟩ := mem_flatMap.mp hop
      exact planCall_budgets _ _ _ op hop
  · have hsum : ((after plainEnv upgradedPlan).db.admission? "pro").map (fun a => (plainEnv.monthlyTokens a.plan,
        charge (fun r => r.workspaceId = "workspace" ∧ a.periodStart ≤ r.createdAt ∧ r.createdAt < a.periodEnd)
          (after plainEnv upgradedPlan).db.reservations)) = some (some 100000, 110000) := by decide +kernel
    obtain ⟨a, ha, hboth⟩ := Option.map_eq_some_iff.mp hsum
    rw [Prod.mk.injEq] at hboth
    exact ⟨a, ha, hboth⟩

end Money
