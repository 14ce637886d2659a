import Money.Theorems.Lifecycle

/-! Whatever an operation changes for a job under a claim, it changes as the holder of the latest claim, within its
    lease and the deadline of the job. -/

namespace Money
open Checked List Money.System

variable {Doc : Type} {E : Env Doc}

structure JobRows (E : Env Doc) where
  job : Option Job
  snapshots : List (SnapshotRow E.toPlatform)
  reports : List ReportRow
  artifacts : List (ArtifactRow Doc)
  packets : List (PacketRow Doc)
  signals : List SignalRow
  reservations : List Reservation
  calls : List CallRow

def Database.rowsOf (db : Database E) (jobId : String) : JobRows E where
  job := db.job? jobId
  snapshots := db.snapshots.filter fun s => s.jobId = jobId
  reports := db.reportsOf jobId
  artifacts := db.artifactsOf jobId
  packets := db.packets.filter fun p => p.jobId = jobId
  signals := db.signals.filter fun s => s.jobId = jobId
  reservations := db.reservations.filter fun r => r.jobId = jobId
  calls := db.calls.filter fun c => c.jobId = jobId

variable {jobId other : String} {db db' : Database E} {c : Claim} {r : Reads} {row : Job} {s t : System E}

theorem filter_append_others {ρ : Type} {owner : ρ → String} (rows : List ρ) {new : List ρ}
    (hnew : ∀ r ∈ new, owner r = jobId) (hne : other ≠ jobId) :
    (rows ++ new).filter (fun r => owner r = other) = rows.filter fun r => owner r = other := by
  have hnil : new.filter (fun r => decide (owner r = other)) = [] := by
    refine filter_eq_nil_iff.mpr fun r hr heq => ?_
    exact hne ((of_decide_eq_true heq).symm.trans (hnew r hr))
  rw [filter_append, hnil, append_nil]

theorem Accounted.others (h : Accounted jobId db db')
    (hn : (db.reservations.map (·.id)).Nodup) (hne : other ≠ jobId) : db'.rowsOf other = db.rowsOf other := by
  obtain ⟨new, hcalls, hnew⟩ := h.calls
  have hreservations := posted_others h.posted hn hne
  have hrows : db'.calls.filter (fun c => c.jobId = other) = db.calls.filter fun c => c.jobId = other :=
    hcalls ▸ filter_append_others db.calls hnew hne
  rw [h.frame]
  simp only [Database.rowsOf, Database.job?, Database.reportsOf, Database.artifactsOf, hreservations, hrows]

/-- All rows of the change belong to the job. -/
structure Change.Owned (c : Change E) (jobId : String) : Prop where
  snapshots : ∀ s ∈ c.snapshots, s.jobId = jobId
  reports : ∀ r ∈ c.reports, r.jobId = jobId
  artifacts : ∀ a ∈ c.artifacts, a.jobId = jobId
  packets : ∀ p ∈ c.packets, p.jobId = jobId
  signals : ∀ s ∈ c.signals, s.jobId = jobId

theorem Change.Owned.others {c : Change E} (h : c.Owned jobId) (hid : ∀ j, (c.job j).id = j.id)
    (hne : other ≠ jobId) (db : Database E) : (db.apply jobId c).rowsOf other = db.rowsOf other := by
  have hjob : (db.apply jobId c).job? other = db.job? other := by
    rw [apply_job? db jobId c hid other, if_neg hne]
  have hsnapshots := filter_append_others db.snapshots h.snapshots hne
  have hreports := filter_append_others db.reports h.reports hne
  have hartifacts := filter_append_others db.artifacts h.artifacts hne
  have hpackets := filter_append_others db.packets h.packets hne
  have hsignals := filter_append_others db.signals h.signals hne
  simp only [Database.rowsOf, hjob]
  simp only [Database.apply, Database.reportsOf, Database.artifactsOf, hsnapshots, hreports, hartifacts, hpackets, hsignals]

theorem Database.Keyed.congr (h : db.Keyed) (hsnapshots : db'.snapshots = db.snapshots)
    (hreports : db'.reports = db.reports) (hartifacts : db'.artifacts = db.artifacts)
    (hpackets : db'.packets = db.packets) (hsignals : db'.signals = db.signals) : db'.Keyed :=
  ⟨hsnapshots ▸ h.snapshots, hreports ▸ h.reports, hartifacts ▸ h.artifacts, hpackets ▸ h.packets, hsignals ▸ h.signals⟩

/-- The sealed tables respect their keys, and reservations have distinct identities. -/
structure Tables (s : System E) : Prop where
  keyed : s.db.Keyed
  reservations : (s.db.reservations.map (·.id)).Nodup

theorem tables_init : Tables ({} : System E) :=
  ⟨⟨nodup_nil, nodup_nil, nodup_nil, nodup_nil, nodup_nil⟩, nodup_nil⟩

variable [DecidableEq Doc] {op : Op Doc}

theorem Effect.owned {c : Change E} (effect : Effect op db jobId row c) : c.Owned jobId := by
  have nil : ∀ {ρ : Type} {p : ρ → Prop}, ∀ r ∈ ([] : List ρ), p r := forall_mem_nil _
  cases effect with
  | renewed | interrupted | failed | staged | locked => exact ⟨nil, nil, nil, nil, nil⟩
  | froze s owner => exact ⟨by simpa using owner, nil, nil, nil, nil⟩
  | reported => exact ⟨nil, by simp, nil, nil, nil⟩
  | saved artifacts barrier => exact ⟨nil, nil, fun a ha => (barrier a ha).1, nil, nil⟩
  | decided p =>
    refine ⟨nil, nil, nil, by simp, fun s hs => ?_⟩
    cases hsignal : p.signal <;> simp [hsignal] at hs
    rw [hs]
  | rejected => exact ⟨nil, nil, nil, by simp, nil⟩
  | studied => exact ⟨nil, nil, nil, by simp, nil⟩

theorem Tables.move (hs : Tables s) (hm : Move op s t) : Tables t := by
  cases hm with
  | created => exact ⟨hs.keyed.congr rfl rfl rfl rfl rfl, hs.reservations⟩
  | expired => exact ⟨hs.keyed.congr rfl rfl rfl rfl rfl, hs.reservations⟩
  | granted => exact ⟨hs.keyed.congr rfl rfl rfl rfl rfl, hs.reservations⟩
  | worked c r db jobId row change fence look work =>
    exact ⟨work.result ▸ work.keyed, by rw [work.result]; exact hs.reservations⟩
  | accounted db jobId account =>
    refine ⟨?_, posted_nodup account.posted hs.reservations⟩
    rw [account.frame]
    exact hs.keyed.congr rfl rfl rfl rfl rfl

theorem after_tables (ops : List (Op Doc)) : Tables (after E ops) :=
  run_moves_inv (fun _ _ _ hs hm => hs.move hm) ops tables_init

theorem Move.fenced (hm : Move op s t) (htables : Tables s)
    (fence : op.fence = some (c, r)) : (∃ row, s.db.job? c.jobId = some row ∧ Holds { claim := some c } row r) ∧
      ∀ other, other ≠ c.jobId → t.db.rowsOf other = s.db.rowsOf other := by
  cases hm with
  | created _ _ _ _ plane | expired _ _ _ plane | granted _ _ _ _ _ _ plane => exact absurd (fence.symm.trans plane) nofun
  | worked c' r' db jobId row change fence' look work =>
    obtain ⟨rfl, rfl⟩ : c = c' ∧ r = r' := by simpa using fence.symm.trans fence'
    obtain ⟨c'', hc, hid, -⟩ := work.holds.1
    obtain rfl : c = c'' := Option.some.inj hc
    obtain rfl : c.jobId = jobId := hid.trans (job?_eq_some work.found).2
    refine ⟨⟨row, work.found, work.holds⟩, fun other hne => ?_⟩
    rw [work.result]
    exact work.effect.owned.others work.effect.job_id hne s.db
  | accounted db jobId account fenced =>
    obtain ⟨c', r', row, fence', rfl, found, holds⟩ := fenced (by rw [fence]; rfl)
    obtain ⟨rfl, rfl⟩ : c = c' ∧ r = r' := by simpa using fence.symm.trans fence'
    exact ⟨⟨row, found, holds⟩, fun other hne => account.others htables.reservations hne⟩

theorem step_fenced (hok : step s op = .ok t) (fence : op.fence = some (c, r)) : t = s ∨ Move op s t := by
  cases step_moves hok with
  | none => exact .inl rfl
  | one hm => exact .inr hm
  | two plane => exact absurd (fence.symm.trans plane) nofun

theorem Held.latest {claims : List Claim} (held : Held row claims)
    (hclaims : ∀ c' ∈ claims, c'.jobId = c.jobId) (holds : Holds { claim := some c } row r) : claims.head? = some c := by
  obtain ⟨⟨c', hc', -, htoken, hworker⟩, -⟩ := holds
  obtain rfl : c = c' := Option.some.inj hc'
  obtain ⟨latest, rest, rfl, htoken', hworker'⟩ := held.holder c.token htoken
  have hsame : latest = c := by
    cases latest
    cases c
    simp_all
  rw [hsame, List.head?_cons]

theorem Move.latest (hm : Move op s t) (htables : Tables s) (hheld : s.Each Held)
    (fence : op.fence = some (c, r)) : (s.claims c.jobId).head? = some c := by
  obtain ⟨⟨row, found, holds⟩, -⟩ := hm.fenced htables fence
  refine (hheld c.jobId row found).latest (fun c' hc' => ?_) holds
  exact of_decide_eq_true (mem_filter.mp hc').2

/-! ### Runs -/

theorem Move.granted_suffix (hm : Move op s t) : s.granted <:+ t.granted := by
  cases hm with
  | granted => exact suffix_cons ..
  | created | expired | worked | accounted => exact suffix_refl _

theorem run_granted_suffix (s : System E) (ops : List (Op Doc)) : s.granted <:+ (Runs.run step s ops).granted :=
  run_moves_inv (P := fun t => s.granted <:+ t.granted) (fun _ _ _ hs hm => hs.trans hm.granted_suffix) ops
    (suffix_refl _)

theorem superseded {granted later : List Claim} (hsuffix : granted <:+ later) (hfresh : (later.map (·.token)).Nodup)
    {c₁ c₂ : Claim} (hold : c₁ ∈ granted) (hlatest : (granted.filter fun c => c.jobId = c₁.jobId).head? = some c₂)
    (hne : c₁ ≠ c₂) : (later.filter fun c => c.jobId = c₁.jobId).head? ≠ some c₁ := by
  obtain ⟨new, rfl⟩ := hsuffix
  rw [filter_append]
  intro hhead
  cases hnew : new.filter fun c => decide (c.jobId = c₁.jobId) with
  | nil =>
    rw [hnew, nil_append, hlatest] at hhead
    exact hne (Option.some.inj hhead).symm
  | cons c rest =>
    rw [hnew, cons_append, List.head?_cons] at hhead
    obtain rfl : c = c₁ := Option.some.inj hhead
    have hmem : c ∈ new := (mem_filter.mp (hnew.symm ▸ mem_cons_self ..)).1
    rw [map_append, nodup_append] at hfresh
    exact hfresh.2.2 _ (mem_map_of_mem hmem) _ (mem_map_of_mem hold) rfl

/-- What an operation changes under a claim, it changes as the holder of the latest claim, within its lease and the
    deadline; a job that has ended keeps its row; and no job has two decision packets. -/
theorem claims_are_fenced (ops : List (Op Doc)) :
    (∀ op t c r jobId, step (after E ops) op = .ok t → op.fence = some (c, r) →
      t.db.rowsOf jobId ≠ (after E ops).db.rowsOf jobId →
      c.jobId = jobId ∧ ((after E ops).claims jobId).head? = some c ∧
        ∃ row until_, (after E ops).db.job? jobId = some row ∧ row.leaseToken = some c.token ∧
          row.leaseUntil = some until_ ∧ r.lease < until_ ∧ (∀ deadline ∈ row.deadlineAt, r.deadline < deadline) ∧
          row.status.terminal = false) ∧
    (∀ c₁ c₂ ops' op r, c₁ ∈ (after E ops).granted → ((after E ops).claims c₁.jobId).head? = some c₂ →
      c₁ ≠ c₂ → ((after E (ops ++ ops')).granted.map (·.token)).Nodup → op.fence = some (c₁, r) →
      Runs.next step (after E (ops ++ ops')) op = after E (ops ++ ops')) ∧
    (∀ jobId row ops', (after E ops).db.job? jobId = some row → row.status.terminal = true →
      (after E (ops ++ ops')).db.job? jobId = some row) ∧
    ∀ jobId, ((after E ops).db.packets.filter fun p => p.jobId = jobId).length ≤ 1 := by
  refine ⟨fun op t c r jobId hok fence changed => ?_, fun c₁ c₂ ops' op r hold hlatest hne hfresh fence => ?_,
    fun jobId row ops' hrow hend => ?_, fun jobId => ?_⟩
  · rcases step_fenced hok fence with rfl | hm
    · exact absurd rfl changed
    · obtain ⟨⟨row, found, holds⟩, hothers⟩ := hm.fenced (after_tables ops) fence
      have hjob : c.jobId = jobId := by
        by_contra hne
        exact changed (hothers jobId (Ne.symm hne))
      subst hjob
      obtain ⟨⟨c', hc', -, htoken, -⟩, ⟨until_, huntil, hlease⟩, hdeadline, hterminal⟩ := holds
      obtain rfl : c = c' := Option.some.inj hc'
      exact ⟨rfl, hm.latest (after_tables ops) (after_held ops) fence,
        row, until_, found, htoken, huntil, hlease, hdeadline, hterminal⟩
  · cases hok : step (after E (ops ++ ops')) op with
    | error e => exact Runs.next_of_error hok
    | ok t =>
      rw [Runs.next_of_ok hok]
      rcases step_fenced hok fence with rfl | hm
      · rfl
      · have hsuffix : (after E ops).granted <:+ (after E (ops ++ ops')).granted := by
          rw [after_append]
          exact run_granted_suffix _ ops'
        exact absurd (hm.latest (after_tables _) (after_held _) fence) (superseded hsuffix hfresh hold hlatest hne)
  · rw [after_append]
    obtain ⟨row', hrow', rfl⟩ := run_row (P := fun j => j = row) (Q := fun _ => True)
      (fun _ hj hturn => (hturn.absorbed (hj ▸ hend)).1.trans hj) ops' (fun _ _ => trivial)
      (after_sound ops) hrow rfl
    exact hrow'
  · have hkeys := (after_tables (E := E) ops).keyed.packets
    have hcount := nodup_iff_count_le_one.mp hkeys jobId
    rwa [count_eq_countP, countP_map, countP_eq_length_filter] at hcount

def secondAttempt : List (Op Document) :=
  firstAttempt ++ [.store (.claimJob {}
    { workerId := "second", token := "fresh", stamp := seconds 300, expiry := { stamp := seconds 200, delay := fun _ => 0 } })]

def lateStage : Op Document :=
  .store (.updateStage { claim := some { jobId := "job", token := "token", workerId := "worker" } } "job"
    { lease := seconds 100, deadline := seconds 100 } .discovery none (seconds 100))

theorem secondAttempt_fences_first :
    Runs.next step (after plainEnv secondAttempt) lateStage = after plainEnv secondAttempt := by
  have hfenced := (claims_are_fenced (E := plainEnv) secondAttempt).2.1
    { jobId := "job", token := "token", workerId := "worker" } { jobId := "job", token := "fresh", workerId := "second" } []
    lateStage _ (by decide +kernel) (by decide +kernel) (by decide) (by decide +kernel) rfl
  rwa [append_nil] at hfenced

end Money
