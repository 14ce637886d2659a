import Money.Theorems.Steps

/-! The life of one job. A move keeps its row, or turns it: an expiry, a grant, or the effect of a transaction of its
    holder. What turns keep holds in every reachable state. -/

namespace Money
open Checked List Rows

variable {Doc : Type} {E : Env Doc} (db : Database E)

theorem expireLeases_job? (h : Handle) (x : Expiry) (jobId : String) : (expireLeases db h x).job? jobId =
      (db.job? jobId).map fun j => if x.selects h j then expireJob x.stamp (x.delay j.id) j else j := by
  refine get?_map (fun j => ?_) db.jobs jobId
  split <;> rfl

theorem expireLeases_ids (h : Handle) (x : Expiry) : (expireLeases db h x).jobs.map (·.id) = db.jobs.map (·.id) := by
  simp only [expireLeases, map_map]
  refine map_congr_left fun j _ => ?_
  simp only [Function.comp_apply]
  split <;> rfl

theorem update_job? (k : String) (f : Job → Job) (hid : ∀ j, (f j).id = j.id) (jobId : String) :
    ({ db with jobs := Rows.update Job.id db.jobs k f } : Database E).job? jobId =
      if jobId = k then (db.job? jobId).map f else db.job? jobId := get?_update hid jobId

theorem update_ids (k : String) (f : Job → Job) (hid : ∀ j, (f j).id = j.id) :
    (Rows.update Job.id db.jobs k f).map (·.id) = db.jobs.map (·.id) := map_update hid

theorem apply_job? (jobId : String) (c : Change E) (hid : ∀ j, (c.job j).id = j.id) (id : String) :
    (db.apply jobId c).job? id = if id = jobId then (db.job? id).map c.job else db.job? id :=
  get?_update hid id

def System.claims (s : System E) (jobId : String) : List Claim := s.granted.filter fun c => c.jobId = jobId

/-- Jobs have distinct identities, and a claim is granted for a job that is there. -/
structure Sound (s : System E) : Prop where
  distinct : (s.db.jobs.map (·.id)).Nodup
  granted : ∀ c ∈ s.granted, s.db.job? c.jobId ≠ none

variable {s : System E} {jobId : String}

theorem Sound.claims_eq_nil (hs : Sound s) (hnone : s.db.job? jobId = none) : s.claims jobId = [] := by
  refine filter_eq_nil_iff.mpr fun c hc hid => hs.granted c hc ?_
  rwa [of_decide_eq_true hid]

theorem sound_init : Sound ({} : System E) := ⟨nodup_nil, fun _ h => nomatch h⟩

variable [DecidableEq Doc] {op : Op Doc} {row : Job} {t : System E} {Q : Op Doc → Prop}

theorem Effect.job_id {db : Database E} {c : Change E} (h : Effect op db jobId row c) (j : Job) : (c.job j).id = j.id := by
  cases h <;> rfl

theorem Move.jobs_nodup (hm : Move op s t) (hn : (s.db.jobs.map (·.id)).Nodup) : (t.db.jobs.map (·.id)).Nodup := by
  cases hm with
  | created h n fresh => exact nodup_append_singleton hn fresh
  | expired h x => exact (expireLeases_ids s.db h x).symm ▸ hn
  | granted h q row =>
    exact (update_ids s.db row.id (q.start (s.db.admission? row.id)) fun _ => rfl).symm ▸ hn
  | worked c r db jobId row change fence look work =>
    exact work.result ▸ (update_ids s.db jobId change.job work.effect.job_id).symm ▸ hn
  | accounted db jobId account => exact account.jobs.symm ▸ hn

/-- What a move does to the row of a job, with the claims that it grants for it. -/
inductive Turn (op : Op Doc) (db db' : Database E) (row : Job) : Job → List Claim → Prop
  | kept : Turn op db db' row row []
  | expired (x : Expiry) (look : x.stamp ∈ op.looks) (lost : expired x.stamp row) :
      Turn op db db' row (expireJob x.stamp (x.delay row.id) row) []
  | granted (q : ClaimRequest) (admission : Option UsageRecord) (idle : row.status = .queued) :
      Turn op db db' row (q.start admission row) [{ jobId := row.id, token := q.token, workerId := q.workerId }]
  | worked (c : Claim) (r : Reads) (change : Change E) (fence : op.fence = some (c, r)) (look : r.deadline ∈ op.looks)
      (holds : Holds { claim := some c } row r) (effect : Effect op db row.id row change)
      (result : db' = db.apply row.id change) : Turn op db db' row (change.job row) []

theorem Move.turn (hm : Move op s t) (hn : (s.db.jobs.map (·.id)).Nodup) (hrow : s.db.job? jobId = some row) :
    ∃ row' new, t.db.job? jobId = some row' ∧ t.claims jobId = new ++ s.claims jobId ∧ Turn op s.db t.db row row' new := by
  have hid : row.id = jobId := (job?_eq_some hrow).2
  cases hm with
  | created h n fresh => exact ⟨row, [], get?_append_of_some hrow, rfl, .kept⟩
  | expired h x look =>
    have hget := expireLeases_job? s.db h x jobId
    rw [hrow, Option.map_some] at hget
    refine ⟨_, [], hget, rfl, ?_⟩
    split
    next hsel => exact .expired x look hsel.1
    next => exact .kept
  | granted h q taken mem takes =>
    have hget := update_job? s.db taken.id (q.start (s.db.admission? taken.id)) (fun _ => rfl) jobId
    by_cases heq : jobId = taken.id
    · have hfound : s.db.job? taken.id = some taken := get?_of_mem hn mem
      obtain rfl : taken = row := Option.some.inj (hfound.symm.trans (heq ▸ hrow))
      rw [if_pos heq] at hget
      refine ⟨_, [{ jobId := taken.id, token := q.token, workerId := q.workerId }],
        hget.trans (congrArg _ hrow), ?_, .granted q _ takes.1⟩
      simp [System.claims, heq]
    · rw [if_neg heq] at hget
      refine ⟨row, [], hget.trans hrow, ?_, .kept⟩
      simp [System.claims, Ne.symm heq]
  | worked c r db workId held change fence look work =>
    have hget := apply_job? s.db workId change work.effect.job_id jobId
    rw [← work.result] at hget
    by_cases heq : jobId = workId
    · subst heq
      obtain rfl : held = row := Option.some.inj (work.found.symm.trans hrow)
      rw [if_pos rfl, hrow] at hget
      exact ⟨_, [], hget, rfl, .worked c r change fence look work.holds (hid.symm ▸ work.effect) (hid.symm ▸ work.result)⟩
    · rw [if_neg heq] at hget
      exact ⟨row, [], hget.trans hrow, rfl, .kept⟩
  | accounted db accountId account => exact ⟨row, [], (account.job? jobId).trans hrow, rfl, .kept⟩

theorem Move.born (hm : Move op s t) (hnone : s.db.job? jobId = none) (hrow : t.db.job? jobId = some row) :
    t.granted = s.granted ∧ ∃ h n, row = NewJob.row E h n := by
  cases hm with
  | created h n fresh =>
    have hget : some row = if n.jobId = jobId then some (n.row E h) else s.db.job? jobId :=
      hrow.symm.trans (get?_append_singleton (r := n.row E h) fresh jobId)
    split at hget
    · exact ⟨rfl, h, n, Option.some.inj hget⟩
    · exact absurd (hget.trans hnone) (by simp)
  | expired h x =>
    have hget := expireLeases_job? s.db h x jobId
    rw [hnone] at hget
    exact absurd (hrow.symm.trans hget) (by simp)
  | granted h q taken =>
    have hget := update_job? s.db taken.id (q.start (s.db.admission? taken.id)) (fun _ => rfl) jobId
    rw [hnone, Option.map_none, ite_self] at hget
    exact absurd (hrow.symm.trans hget) (by simp)
  | worked c r db workId held change fence look work =>
    have hget := apply_job? s.db workId change work.effect.job_id jobId
    rw [← work.result, hnone, Option.map_none, ite_self] at hget
    exact absurd (hrow.symm.trans hget) (by simp)
  | accounted db accountId account =>
    exact absurd (hrow.symm.trans ((account.job? jobId).trans hnone)) (by simp)

/-! ### Properties of rows -/

theorem Sound.move (hs : Sound s) (hm : Move op s t) : Sound t := by
  refine ⟨hm.jobs_nodup hs.distinct, fun c hc => ?_⟩
  have hkept : s.db.job? c.jobId ≠ none → t.db.job? c.jobId ≠ none := by
    intro hsome
    obtain ⟨row, hrow⟩ := Option.ne_none_iff_exists'.mp hsome
    obtain ⟨row', -, hrow', -⟩ := hm.turn hs.distinct hrow
    simp [hrow']
  cases hm with
  | granted h q row mem =>
    rcases mem_cons.mp hc with rfl | hc
    · refine hkept ?_
      have hfound : s.db.job? row.id = some row := get?_of_mem hs.distinct mem
      simp [hfound]
    · exact hkept (hs.granted c hc)
  | created => exact hkept (hs.granted c hc)
  | expired => exact hkept (hs.granted c hc)
  | worked => exact hkept (hs.granted c hc)
  | accounted => exact hkept (hs.granted c hc)

theorem after_sound (ops : List (Op Doc)) : Sound (System.after E ops) :=
  run_moves_inv (fun _ _ _ hs hm => hs.move hm) ops sound_init

def System.Each (s : System E) (P : Job → List Claim → Prop) : Prop :=
  ∀ jobId row, s.db.job? jobId = some row → P row (s.claims jobId)

variable {P : Job → List Claim → Prop}

section
variable (born : ∀ h n, P (NewJob.row E h n) [])
include born

theorem System.Each.move
    (turn : ∀ {db db' : Database E} {row row' claims new}, P row claims → Turn op db db' row row' new →
      P row' (new ++ claims)) (hs : Sound s) (hp : s.Each P) (hm : Move op s t) : t.Each P := by
  intro jobId row' hrow'
  cases hrow : s.db.job? jobId with
  | none =>
    obtain ⟨hgranted, h, n, rfl⟩ := hm.born hrow hrow'
    have hclaims : t.claims jobId = [] := by rw [System.claims, hgranted]; exact hs.claims_eq_nil hrow
    exact hclaims ▸ born h n
  | some row =>
    obtain ⟨row'', new, hrow'', hclaims, hturn⟩ := hm.turn hs.distinct hrow
    obtain rfl : row'' = row' := Option.some.inj (hrow''.symm.trans hrow')
    exact hclaims ▸ turn (hp jobId row hrow) hturn

theorem after_each_of
    (turn : ∀ {op : Op Doc} {db db' : Database E} {row row' claims new}, Q op → P row claims →
      Turn op db db' row row' new → P row' (new ++ claims)) (ops : List (Op Doc)) (hops : ∀ op ∈ ops, Q op) :
    (System.after E ops).Each P :=
  (run_moves_inv_of (P := fun s => Sound s ∧ s.Each P)
    (fun _ _ _ hop hs hm => ⟨hs.1.move hm, hs.2.move born (turn hop) hs.1 hm⟩) ops hops
    ⟨sound_init, fun _ _ h => nomatch h⟩).2

theorem after_each
    (turn : ∀ {op : Op Doc} {db db' : Database E} {row row' claims new}, P row claims → Turn op db db' row row' new →
      P row' (new ++ claims)) (ops : List (Op Doc)) : (System.after E ops).Each P :=
  after_each_of (Q := fun _ => True) born (fun _ => turn) ops fun _ _ => trivial

end

theorem run_row {P : Job → Prop}
    (turn : ∀ {op : Op Doc} {db db' : Database E} {row row' new}, Q op → P row → Turn op db db' row row' new → P row')
    (ops : List (Op Doc)) (hops : ∀ op ∈ ops, Q op) (hs : Sound s) (hrow : s.db.job? jobId = some row) (hp : P row) :
    ∃ row', (Runs.run step s ops).db.job? jobId = some row' ∧ P row' := by
  refine (run_moves_inv_of (P := fun s => Sound s ∧ ∃ row', s.db.job? jobId = some row' ∧ P row') ?_ ops hops
    ⟨hs, row, hrow, hp⟩).2
  rintro op s t hop ⟨hs, row, hrow, hp⟩ hm
  obtain ⟨row', new, hrow', -, hturn⟩ := hm.turn hs.distinct hrow
  exact ⟨hs.move hm, row', hrow', turn hop hp hturn⟩

end Money
