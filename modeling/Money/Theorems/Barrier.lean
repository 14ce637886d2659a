import Money.Theorems.Fencing

/-! The barrier of the first pass. A locked job has exactly the reports its snapshot requires and never gets another
    one; before the lock nothing downstream exists and no report is read. -/

namespace Money
open Checked List Rows Money.System

variable {Doc : Type} {E : Env Doc}

/-! ### What is never taken back -/

/-- Sealed rows stay, and a job keeps its facts: a snapshot is never replaced and a lock never lifted. -/
structure Keeps (db db' : Database E) : Prop where
  snapshots : db.snapshots <+: db'.snapshots
  reports : db.reports <+: db'.reports
  artifacts : db.artifacts <+: db'.artifacts
  packets : db.packets <+: db'.packets
  signals : db.signals <+: db'.signals
  job : ∀ {jobId row}, db.job? jobId = some row → ∃ row', db'.job? jobId = some row' ∧ row'.kind = row.kind ∧
    row'.mandate = row.mandate ∧ (∀ id ∈ row.snapshotId, row'.snapshotId = some id) ∧
    (row.lockedAt ≠ none → row'.lockedAt ≠ none)

theorem Keeps.refl (db : Database E) : Keeps db db where
  snapshots := prefix_refl _
  reports := prefix_refl _
  artifacts := prefix_refl _
  packets := prefix_refl _
  signals := prefix_refl _
  job h := ⟨_, h, rfl, rfl, fun _ hid => hid, id⟩

variable {db db' : Database E}

theorem Keeps.trans {db'' : Database E} (h : Keeps db db') (h' : Keeps db' db'') : Keeps db db'' where
  snapshots := h.snapshots.trans h'.snapshots
  reports := h.reports.trans h'.reports
  artifacts := h.artifacts.trans h'.artifacts
  packets := h.packets.trans h'.packets
  signals := h.signals.trans h'.signals
  job hrow := by
    obtain ⟨row', hrow', hkind, hmandate, hsnapshot, hlocked⟩ := h.job hrow
    obtain ⟨row'', hrow'', hkind', hmandate', hsnapshot', hlocked'⟩ := h'.job hrow'
    exact ⟨row'', hrow'', hkind'.trans hkind, hmandate'.trans hmandate,
      fun id hid => hsnapshot' id (hsnapshot id hid), hlocked' ∘ hlocked⟩

theorem Keeps.snapshot? (h : Keeps db db') {id : Option String} {row : SnapshotRow E.toPlatform}
    (hrow : db.snapshot? id = some row) : db'.snapshot? id = some row := by
  obtain ⟨sid, hsid, hget⟩ := Option.bind_eq_some_iff.mp hrow
  obtain ⟨new, hnew⟩ := h.snapshots
  rw [Database.snapshot?, hsid, Option.bind_some, ← hnew]
  exact get?_append_of_some hget

variable {jobId : String}

theorem Keeps.artifact? (h : Keeps db db') {kind : ArtifactKind} {doc : Doc}
    (hdoc : db.artifact? jobId kind = some doc) : db'.artifact? jobId kind = some doc := by
  obtain ⟨new, hnew⟩ := h.artifacts
  obtain ⟨row, hrow, hpayload⟩ := Option.map_eq_some_iff.mp hdoc
  rw [Database.artifact?, ← hnew, List.find?_append, hrow]
  exact congrArg some hpayload

variable {row : Job} {missing : Err} {row' : Job} {c : Change E} {new : List Claim} {stage : Status}

theorem frozenSnapshot_eq_ok {s : ResearchSnapshot} (hok : frozenSnapshot db row missing = .ok s) :
    ∃ stored f, db.snapshot? row.snapshotId = some stored ∧ stored.payload = .research f ∧ f.snapshot = s := by
  simp only [frozenSnapshot, ok_iff] at hok
  obtain ⟨stored, hstored, hok⟩ := hok
  split at hok
  next f hpayload =>
    rw [pure_eq_ok] at hok
    exact ⟨stored, f, hstored, hpayload, hok⟩
  next => cases hok

/-! ### The invariant -/

def Backed (db : Database E) (row : Job) (f : Frozen E.toPlatform) : Prop :=
  ∃ stored, db.snapshot? row.snapshotId = some stored ∧ stored.jobId = row.id ∧ stored.payload = .research f ∧
    f.snapshot.snapshotId = stored.id

/-- A sealed report is bound to a snapshot: a required firm, its id and hash, and only its evidence. -/
structure ReportBound (f : Frozen E.toPlatform) (r : ReportRow) : Prop where
  firm : r.report.firm = r.firm
  required : r.firm ∈ f.snapshot.requiredFirstPassFirms
  id : r.report.snapshotId = f.snapshot.snapshotId
  hash : r.report.snapshotHash = f.snapshot.hash
  cites : ∀ c ∈ r.report.claims, ∀ e ∈ c.evidenceIds, e ∈ f.snapshot.evidenceIds

/-- The snapshot that a job refers to is its own, and a research snapshot carries its id. -/
def Stored (db : Database E) (jobId : String) (row : Job) : Prop :=
  ∀ id ∈ row.snapshotId, ∃ stored, Rows.get? SnapshotRow.id db.snapshots id = some stored ∧ stored.jobId = jobId ∧
    ∀ f, stored.payload = .research f → f.snapshot.snapshotId = id

def Locked (db : Database E) (jobId : String) (row : Job) : Prop :=
  row.lockedAt ≠ none → ∃ f, Backed db row f ∧
    ∀ firm, firm ∈ (db.reportsOf jobId).map (·.firm) ↔ firm ∈ f.snapshot.requiredFirstPassFirms

/-- Reports and later artifacts stand on a frozen snapshot of their job, and a locked job has all of its reports. -/
structure Barrier (db : Database E) : Prop where
  stored : ∀ jobId row, db.job? jobId = some row → Stored db jobId row
  locked : ∀ jobId row, db.job? jobId = some row → Locked db jobId row
  reports : ∀ r ∈ db.reports, ∃ row f, db.job? r.jobId = some row ∧ Backed db row f ∧ ReportBound f r
  artifacts : ∀ a ∈ db.artifacts, a.kind.beforeLock = false → ∃ row, db.job? a.jobId = some row ∧ row.lockedAt ≠ none

theorem Backed.keep (hk : Keeps db db') {f : Frozen E.toPlatform}
    (h : Backed db row f) (hid : row'.id = row.id) (hsnapshot : ∀ id ∈ row.snapshotId, row'.snapshotId = some id) :
    Backed db' row' f := by
  obtain ⟨stored, hstored, howner, hpayload, hsame⟩ := h
  obtain ⟨id, hsome, -⟩ := Option.bind_eq_some_iff.mp hstored
  refine ⟨stored, hk.snapshot? ?_, howner.trans hid.symm, hpayload, hsame⟩
  rwa [hsnapshot id hsome, ← hsome]

theorem Barrier.backed (hb : Barrier db) (hrow : db.job? jobId = some row)
    {s : ResearchSnapshot} (hok : frozenSnapshot db row missing = .ok s) : ∃ f, Backed db row f ∧ f.snapshot = s := by
  obtain ⟨stored, f, hstored, hpayload, hs⟩ := frozenSnapshot_eq_ok hok
  obtain ⟨id, hsome, hget⟩ := Option.bind_eq_some_iff.mp hstored
  obtain ⟨stored', hget', howner, hid⟩ := hb.stored jobId row hrow id hsome
  obtain rfl : stored = stored' := Option.some.inj (hget.symm.trans hget')
  refine ⟨f, ⟨stored, hstored, howner.trans (job?_eq_some hrow).2.symm, hpayload, ?_⟩, hs⟩
  rw [hid f hpayload, (get?_eq_some hget).2]

theorem barrier_init : Barrier ({} : Database E) where
  stored _ _ h := nomatch h
  locked _ _ h := nomatch h
  reports _ h := nomatch h
  artifacts _ h := nomatch h

variable [DecidableEq Doc] {op : Op Doc}

theorem Effect.keeps (effect : Effect op db jobId row c) : (c.job row).kind = row.kind ∧ (c.job row).mandate = row.mandate ∧
      (∀ id ∈ row.snapshotId, (c.job row).snapshotId = some id) ∧ (row.lockedAt ≠ none → (c.job row).lockedAt ≠ none) := by
  cases effect with
  | froze s owner stage first =>
    refine ⟨rfl, rfl, fun id hid => ?_, id⟩
    rw [first] at hid
    cases hid
  | locked => exact ⟨rfl, rfl, fun _ hid => hid, fun _ => nofun⟩
  | renewed | interrupted | failed | staged | reported | saved | decided | rejected | studied =>
    exact ⟨rfl, rfl, fun _ hid => hid, id⟩

theorem Turn.keeps
    (hturn : Turn op db db' row row' new) : row'.kind = row.kind ∧ row'.mandate = row.mandate ∧
      (∀ id ∈ row.snapshotId, row'.snapshotId = some id) ∧
      (row.lockedAt ≠ none → row'.lockedAt ≠ none) := by
  cases hturn with
  | worked c r change fence look holds effect => exact effect.keeps
  | kept | expired | granted => exact ⟨rfl, rfl, fun _ hid => hid, id⟩

variable {s t : System E}

theorem Move.inserted (hm : Move op s t) :
    ∃ c : Change E, (t.db.snapshots = s.db.snapshots ++ c.snapshots ∧ t.db.reports = s.db.reports ++ c.reports ∧
        t.db.artifacts = s.db.artifacts ++ c.artifacts ∧ t.db.packets = s.db.packets ++ c.packets ∧
        t.db.signals = s.db.signals ++ c.signals) ∧
      (c = {} ∨ ∃ jobId row, s.db.job? jobId = some row ∧ row.status.terminal = false ∧ Effect op s.db jobId row c ∧
        t.db.job? jobId = some (c.job row) ∧ op.fence ≠ none) := by
  cases hm with
  | worked c r db jobId row change fence look work =>
    refine ⟨change, ?_, .inr ⟨jobId, row, work.found, work.holds.2.2.2, work.effect, ?_, by simp [fence]⟩⟩
    · rw [work.result]
      exact ⟨rfl, rfl, rfl, rfl, rfl⟩
    · have hget := apply_job? s.db jobId change work.effect.job_id jobId
      rw [if_pos rfl, work.found] at hget
      rw [work.result]
      exact hget
  | accounted db jobId account =>
    refine ⟨{}, ?_, .inl rfl⟩
    rw [account.frame]
    simp
  | created | expired | granted => exact ⟨{}, by simp [expireLeases], .inl rfl⟩

theorem Move.keeps (hm : Move op s t) (hs : Sound s) : Keeps s.db t.db := by
  obtain ⟨c, ⟨hsnapshots, hreports, hartifacts, hpackets, hsignals⟩, -⟩ := hm.inserted
  refine ⟨⟨_, hsnapshots.symm⟩, ⟨_, hreports.symm⟩, ⟨_, hartifacts.symm⟩, ⟨_, hpackets.symm⟩, ⟨_, hsignals.symm⟩, ?_⟩
  intro jobId row hrow
  obtain ⟨row', new, hrow', -, hturn⟩ := hm.turn hs.distinct hrow
  exact ⟨row', hrow', hturn.keeps⟩

theorem run_keeps (hs : Sound s) (ops : List (Op Doc)) : Keeps s.db (Runs.run step s ops).db :=
  (run_moves_inv (P := fun t => Sound t ∧ Keeps s.db t.db) (fun _ _ _ ht hm => ⟨ht.1.move hm, ht.2.trans (hm.keeps ht.1)⟩)
    ops ⟨hs, .refl _⟩).2

/-! ### Preservation -/

theorem Move.reportsOf_locked (hm : Move op s t)
    (hrow : s.db.job? jobId = some row) (hlocked : row.lockedAt ≠ none) : t.db.reportsOf jobId = s.db.reportsOf jobId := by
  obtain ⟨c, ⟨-, hreports, -⟩, hwork⟩ := hm.inserted
  have hnone : c.reports.filter (fun r => decide (r.jobId = jobId)) = [] := by
    rcases hwork with rfl | ⟨workId, held, hheld, -, effect, -⟩
    · rfl
    · refine filter_eq_nil_iff.mpr fun r hr heq => ?_
      have howner : r.jobId = workId := effect.owned.reports r hr
      obtain rfl : workId = jobId := howner.symm.trans (of_decide_eq_true heq)
      obtain rfl : held = row := Option.some.inj (hheld.symm.trans hrow)
      cases effect with
      | reported s report missing frozen stage unlocked => exact hlocked unlocked
      | _ => cases hr
  rw [Database.reportsOf, hreports, filter_append, hnone, append_nil, Database.reportsOf]

theorem Move.stored (hm : Move op s t) (hs : Sound s) (hk : Keeps s.db t.db)
    (hb : Barrier s.db) (ht : Tables t) (jobId : String) (row' : Job) (hrow' : t.db.job? jobId = some row') :
    Stored t.db jobId row' := by
  have hkeep : ∀ {row : Job}, s.db.job? jobId = some row → row'.snapshotId = row.snapshotId → Stored t.db jobId row' := by
    intro row hrow hsame id hid
    obtain ⟨stored, hget, hfacts⟩ := hb.stored jobId row hrow id (hsame ▸ hid)
    obtain ⟨new, hnew⟩ := hk.snapshots
    exact ⟨stored, hnew ▸ get?_append_of_some hget, hfacts⟩
  cases hrow : s.db.job? jobId with
  | none =>
    obtain ⟨-, h, n, rfl⟩ := hm.born hrow hrow'
    exact fun id hid => nomatch hid
  | some row =>
    obtain ⟨row'', new, hrow'', -, hturn⟩ := hm.turn hs.distinct hrow
    obtain rfl : row'' = row' := Option.some.inj (hrow''.symm.trans hrow')
    cases hturn with
    | kept | expired | granted => exact hkeep hrow rfl
    | worked c r change fence look holds effect result =>
      cases effect with
      | froze stored owner stage first payload =>
        rintro id ⟨⟩
        have hmem : stored ∈ t.db.snapshots := by
          rw [result]
          exact mem_append_right _ (mem_singleton_self _)
        refine ⟨stored, get?_of_mem ht.keyed.snapshots hmem, owner.trans (job?_eq_some hrow).2, fun f hf => ?_⟩
        rcases payload with ⟨f', hf', hid, -⟩ | ⟨study, hstudy, -⟩
        · obtain rfl : f' = f := by simpa using hf'.symm.trans hf
          exact hid
        · exact absurd (hstudy.symm.trans hf) nofun
      | _ => exact hkeep hrow rfl

theorem Move.locked (hm : Move op s t) (hs : Sound s) (hk : Keeps s.db t.db)
    (hb : Barrier s.db) (jobId : String) (row' : Job) (hrow' : t.db.job? jobId = some row') : Locked t.db jobId row' := by
  intro hlocked'
  cases hrow : s.db.job? jobId with
  | none =>
    obtain ⟨-, h, n, rfl⟩ := hm.born hrow hrow'
    exact absurd rfl hlocked'
  | some row =>
    obtain ⟨row'', new, hrow'', -, hturn⟩ := hm.turn hs.distinct hrow
    obtain rfl : row'' = row' := Option.some.inj (hrow''.symm.trans hrow')
    have hid : row''.id = row.id := (job?_eq_some hrow').2.trans (job?_eq_some hrow).2.symm
    have hsnapshot := hturn.keeps.2.2.1
    by_cases hlocked : row.lockedAt = none
    · cases hturn with
      | kept | expired | granted => exact absurd hlocked hlocked'
      | worked c r change fence look holds effect result =>
        cases effect with
        | locked s at_ updated missing frozen stage complete =>
          obtain ⟨f, hbacked, rfl⟩ := hb.backed hrow frozen
          refine ⟨f, hbacked.keep hk hid hsnapshot, fun firm => ?_⟩
          have hreports : t.db.reports = s.db.reports := by
            rw [result]
            exact append_nil _
          rw [Database.reportsOf, hreports, ← complete firm, (job?_eq_some hrow).2, Database.reportsOf]
        | _ => exact absurd hlocked hlocked'
    · obtain ⟨f, hbacked, hfirms⟩ := hb.locked jobId row hrow hlocked
      exact ⟨f, hbacked.keep hk hid hsnapshot, by rwa [hm.reportsOf_locked hrow hlocked]⟩

theorem Move.reports (hm : Move op s t) (hk : Keeps s.db t.db) (hb : Barrier s.db) (r : ReportRow) (hr : r ∈ t.db.reports) :
    ∃ row f, t.db.job? r.jobId = some row ∧ Backed t.db row f ∧ ReportBound f r := by
  have hkeep : ∀ {row : Job} {f : Frozen E.toPlatform}, s.db.job? r.jobId = some row → Backed s.db row f → ReportBound f r →
      ∃ row f, t.db.job? r.jobId = some row ∧ Backed t.db row f ∧ ReportBound f r := by
    intro row f hrow hbacked hbound
    obtain ⟨row', hrow', -, -, hsnapshot, -⟩ := hk.job hrow
    exact ⟨row', f, hrow',
      hbacked.keep hk ((job?_eq_some hrow').2.trans (job?_eq_some hrow).2.symm) hsnapshot, hbound⟩
  obtain ⟨c, ⟨-, hreports, -⟩, hwork⟩ := hm.inserted
  rw [hreports] at hr
  rcases mem_append.mp hr with hr | hr
  · obtain ⟨row, f, hrow, hbacked, hbound⟩ := hb.reports r hr
    exact hkeep hrow hbacked hbound
  · rcases hwork with rfl | ⟨jobId, row, hrow, -, effect, -⟩
    · cases hr
    · cases effect with
      | reported snapshot report missing frozen stage unlocked id hash firm cites =>
        rw [mem_singleton] at hr
        subst hr
        obtain ⟨f, hbacked, rfl⟩ := hb.backed hrow frozen
        have hid : report.snapshotId = f.snapshot.snapshotId := by
          obtain ⟨stored, hstored, -, -, hsame⟩ := hbacked
          obtain ⟨sid, hsid, hget⟩ := Option.bind_eq_some_iff.mp hstored
          rw [hsame, (get?_eq_some hget).2]
          exact Option.some.inj (id.trans hsid)
        exact hkeep hrow hbacked ⟨rfl, firm, hid, hash, cites⟩
      | _ => cases hr

theorem Move.artifacts (hm : Move op s t) (hk : Keeps s.db t.db) (hb : Barrier s.db)
    (a : ArtifactRow Doc) (ha : a ∈ t.db.artifacts) (hkind : a.kind.beforeLock = false) :
    ∃ row, t.db.job? a.jobId = some row ∧ row.lockedAt ≠ none := by
  have hkeep : ∀ {row : Job}, s.db.job? a.jobId = some row → row.lockedAt ≠ none →
      ∃ row, t.db.job? a.jobId = some row ∧ row.lockedAt ≠ none := by
    intro row hrow hlocked
    obtain ⟨row', hrow', -, -, -, hstays⟩ := hk.job hrow
    exact ⟨row', hrow', hstays hlocked⟩
  obtain ⟨c, ⟨-, -, hartifacts, -⟩, hwork⟩ := hm.inserted
  rw [hartifacts] at ha
  rcases mem_append.mp ha with ha | ha
  · obtain ⟨row, hrow, hlocked⟩ := hb.artifacts a ha hkind
    exact hkeep hrow hlocked
  · rcases hwork with rfl | ⟨jobId, row, hrow, -, effect, -⟩
    · cases ha
    · cases effect with
      | saved artifacts barrier =>
        obtain ⟨rfl, hbefore | hlocked⟩ := barrier a ha
        · exact absurd (hkind.symm.trans hbefore) nofun
        · exact hkeep hrow hlocked
      | _ => cases ha

theorem Barrier.move (hb : Barrier s.db) (hs : Sound s) (ht : Tables t) (hm : Move op s t) : Barrier t.db where
  stored := hm.stored hs (hm.keeps hs) hb ht
  locked := hm.locked hs (hm.keeps hs) hb
  reports := hm.reports (hm.keeps hs) hb
  artifacts := hm.artifacts (hm.keeps hs) hb

theorem after_barrier (ops : List (Op Doc)) : Barrier (after E ops).db :=
  (run_moves_inv (P := fun s => Sound s ∧ Tables s ∧ Barrier s.db)
    (fun _ _ _ hs hm => ⟨hs.1.move hm, hs.2.1.move hm, hs.2.2.move hs.1 (hs.2.1.move hm) hm⟩) ops
    ⟨sound_init, tables_init, barrier_init⟩).2.2

/-! ### Stages behind the barrier -/

/-- A stage beyond the lock needs the lock, and one from the first pass on a snapshot. -/
def Allowed (row : Job) (stage : Status) : Prop :=
  stage = .rejected ∨ stage = .failed ∨
    (Status.firstPassLocked.index < stage.index → row.lockedAt ≠ none) ∧
    (Status.firstPassResearch.index ≤ stage.index → row.snapshotId ≠ none)

/-- A job is in a stage, or resumes at one, only with the lock and the snapshot that the stage needs. -/
structure Gated (row : Job) : Prop where
  status : Allowed row row.status
  resume : ∀ stage ∈ row.resumeStage, Allowed row stage
  bound : row.lockedAt ≠ none → row.snapshotId ≠ none

theorem allowed_early (row : Job) (h : stage.index < Status.firstPassResearch.index) : Allowed row stage :=
  .inr (.inr ⟨fun h' => absurd h' (by simp only [Status.index] at h ⊢; omega), fun h' => absurd h' (by omega)⟩)

theorem Allowed.mono (h : Allowed row stage)
    (hlocked : row.lockedAt ≠ none → row'.lockedAt ≠ none) (hsnapshot : row.snapshotId ≠ none → row'.snapshotId ≠ none) :
    Allowed row' stage := by
  rcases h with h | h | ⟨hlock, hsnap⟩
  · exact .inl h
  · exact .inr (.inl h)
  · exact .inr (.inr ⟨hlocked ∘ hlock, hsnapshot ∘ hsnap⟩)

theorem Gated.interrupt (hg : Gated row) (retry : Bool) (stamp delay : Int) (code message : String) :
    Gated (interrupt retry stamp delay code message row) where
  status := by
    cases retry with
    | true => exact allowed_early _ (show (0 : Nat) < 4 by decide)
    | false => exact .inr (.inl rfl)
  resume _ hstage := by
    cases hstage
    exact hg.status
  bound := hg.bound

theorem checkDecision_locked {p : DecisionPacket} {now : CompletionReads}
    (hok : checkDecision db jobId row p now = .ok ()) : row.lockedAt ≠ none := by
  rw [checkDecision, require_bind_eq_ok] at hok
  exact hok.1

theorem Effect.gated (effect : Effect op db jobId row c) (hop : op.isStudy = false) (hg : Gated row) : Gated (c.job row) := by
  cases effect with
  | renewed | reported | saved => exact ⟨hg.status, hg.resume, hg.bound⟩
  | interrupted stamp delay code message => exact hg.interrupt ..
  | failed => exact ⟨.inr (.inl rfl), hg.resume, hg.bound⟩
  | staged stage candidate now running forward barrier snapshot =>
    refine ⟨.inr (.inr ⟨barrier, fun hindex => ?_⟩), hg.resume, hg.bound⟩
    by_cases hfirst : stage = .firstPassResearch
    · exact snapshot hfirst
    · have hbeyond : Status.firstPassLocked.index < stage.index := by
        cases stage <;> simp_all [Status.index]
      exact hg.bound (barrier hbeyond)
  | froze s owner stage first =>
    have hmono : ∀ {st}, Allowed row st → Allowed { row with snapshotId := some s.id } st :=
      fun h => h.mono id fun _ => nofun
    exact ⟨hmono hg.status, fun st hst => hmono (hg.resume st hst), fun _ => nofun⟩
  | locked s at_ updated missing frozen =>
    obtain ⟨stored, f, hstored, -⟩ := frozenSnapshot_eq_ok frozen
    obtain ⟨id, hsome, -⟩ := Option.bind_eq_some_iff.mp hstored
    have hsnapshot : row.snapshotId ≠ none := by simp [hsome]
    refine ⟨.inr (.inr ⟨fun _ => nofun, fun _ => hsnapshot⟩), fun st hst => ?_, fun _ => hsnapshot⟩
    exact (hg.resume st hst).mono (fun _ => nofun) fun _ => hsnapshot
  | decided p now origin standard consistent checked =>
    have hlocked := checkDecision_locked checked
    exact ⟨.inr (.inr ⟨fun _ => hlocked, fun _ => hg.bound hlocked⟩), hg.resume, hg.bound⟩
  | rejected => exact ⟨.inl rfl, hg.resume, hg.bound⟩
  | studied result completed updated study => exact absurd (hop.symm.trans study) nofun

theorem Turn.gated (hturn : Turn op db db' row row' new) (hop : op.isStudy = false) (hg : Gated row) : Gated row' := by
  cases hturn with
  | kept => exact hg
  | expired => exact hg.interrupt ..
  | granted q admission idle =>
    refine ⟨?_, hg.resume, hg.bound⟩
    show Allowed row row.entryStage
    rw [Job.entryStage]
    cases hresume : row.resumeStage with
    | some stage => exact hg.resume stage hresume
    | none =>
      refine allowed_early row ?_
      dsimp only
      split <;> decide
  | worked c r change fence look holds effect => exact effect.gated hop hg

omit [DecidableEq Doc] in
theorem gated_born (h : Handle) (n : NewJob) : Gated (n.row E h) where
  status := allowed_early _ (show (0 : Nat) < 4 by decide)
  resume _ hstage := nomatch hstage
  bound hlocked := absurd rfl hlocked

/-! ### Runs of the store -/

theorem Move.research (hm : Move op s t) (hop : op.isStudy = false)
    (hs : ∀ stored ∈ s.db.snapshots, ∃ f, stored.payload = .research f) :
    ∀ stored ∈ t.db.snapshots, ∃ f, stored.payload = .research f := by
  intro stored hstored
  obtain ⟨c, ⟨hsnapshots, -⟩, hwork⟩ := hm.inserted
  rw [hsnapshots] at hstored
  rcases mem_append.mp hstored with hstored | hstored
  · exact hs stored hstored
  · rcases hwork with rfl | ⟨jobId, row, -, -, effect, -⟩
    · cases hstored
    · cases effect with
      | froze new owner stage first payload =>
        rw [mem_singleton] at hstored
        subst hstored
        rcases payload with ⟨f, hf, -⟩ | ⟨-, -, -, study⟩
        · exact ⟨f, hf⟩
        · exact absurd (hop.symm.trans study) nofun
      | _ => cases hstored

def storeOps (ops : List (StoreOp Doc)) : List (Op Doc) := ops.map .store

omit [DecidableEq Doc] in
theorem storeOps_isStudy (ops : List (StoreOp Doc)) : ∀ op ∈ storeOps ops, op.isStudy = false := by
  intro op hop
  obtain ⟨op', -, rfl⟩ := mem_map.mp hop
  rfl

theorem store_research (ops : List (StoreOp Doc)) :
    ∀ stored ∈ (after E (storeOps ops)).db.snapshots, ∃ f, stored.payload = .research f :=
  run_moves_inv_of
    (fun _ _ _ hop hs hm => hm.research hop hs) (storeOps ops) (storeOps_isStudy ops) fun _ h => nomatch h

theorem store_gated (ops : List (StoreOp Doc)) : (after E (storeOps ops)).Each fun row _ => Gated row :=
  after_each_of gated_born (fun hop hg hturn => hturn.gated hop hg) (storeOps ops) (storeOps_isStudy ops)

theorem run_reportsOf_locked (hs : Sound s) (hrow : s.db.job? jobId = some row)
    (hlocked : row.lockedAt ≠ none) (ops : List (Op Doc)) :
    (Runs.run step s ops).db.reportsOf jobId = s.db.reportsOf jobId := by
  refine (run_moves_inv (P := fun t => Sound t ∧ Keeps s.db t.db ∧ t.db.reportsOf jobId = s.db.reportsOf jobId) ?_ ops
    ⟨hs, .refl _, rfl⟩).2.2
  rintro op t u ⟨ht, hk, hsame⟩ hm
  obtain ⟨row', hrow', -, -, -, hstays⟩ := hk.job hrow
  exact ⟨ht.move hm, hk.trans (hm.keeps ht), (hm.reportsOf_locked hrow' (hstays hlocked)).trans hsame⟩

omit [DecidableEq Doc] in
theorem getReports_unlocked (hrow : db.job? jobId = some row)
    (hlocked : row.lockedAt = none) (h : Handle) (reports : List (Firm × FirmReport)) :
    getReports db h jobId ≠ .ok reports := by
  intro hok
  simp only [getReports, ok_iff] at hok
  obtain ⟨row', hrow', -, hne, -⟩ := hok
  obtain rfl : row = row' := Option.some.inj (hrow.symm.trans hrow')
  exact hne hlocked

omit [DecidableEq Doc] in
theorem publicReports_unlocked {later : Database E} (hrow : db.job? jobId = some row)
    (hlocked : row.lockedAt = none) {h : Handle} {view : PublicView Doc} (hok : publicReports db later h jobId = .ok view) :
    ∀ entry ∈ view.reports, ∀ r, entry.2 ≠ .report r := by
  simp only [publicReports, ok_iff] at hok
  obtain ⟨row', hrow', -, required, -, reports, hreports, rfl⟩ := hok
  obtain rfl : row = row' := Option.some.inj (hrow.symm.trans hrow')
  rw [hlocked] at hreports
  cases hreports
  intro entry hentry r
  obtain ⟨firm, -, rfl⟩ := mem_map.mp hentry
  dsimp only
  split <;> simp

/-- A lock is set over exactly the reports that the frozen snapshot requires, and no later operation changes one. Before
    it there is no artifact of a kind behind it, and no report is read. -/
theorem first_pass_barrier (ops : List (StoreOp Doc)) (jobId : String) (row : Job)
    (hrow : (after E (storeOps ops)).db.job? jobId = some row) :
    (row.lockedAt ≠ none → ∃ f, Backed (after E (storeOps ops)).db row f ∧
      (∀ firm, firm ∈ ((after E (storeOps ops)).db.reportsOf jobId).map (·.firm) ↔
        firm ∈ f.snapshot.requiredFirstPassFirms) ∧
      (∀ r ∈ (after E (storeOps ops)).db.reportsOf jobId, ReportBound f r) ∧
      ∀ ops', (after E (storeOps ops ++ storeOps ops')).db.reportsOf jobId =
        (after E (storeOps ops)).db.reportsOf jobId) ∧ (row.lockedAt = none →
      (∀ a ∈ (after E (storeOps ops)).db.artifactsOf jobId, a.kind.beforeLock = true) ∧
      (∀ h reports, getReports (after E (storeOps ops)).db h jobId ≠ .ok reports) ∧
      ∀ later h view, publicReports (after E (storeOps ops)).db later h jobId = .ok view →
        ∀ entry ∈ view.reports, ∀ r, entry.2 ≠ .report r) ∧ (row.status ≠ .rejected → row.status ≠ .failed →
      (Status.firstPassLocked.index < row.status.index → row.lockedAt ≠ none) ∧
      (Status.firstPassResearch.index ≤ row.status.index → ∃ f, Backed (after E (storeOps ops)).db row f)) := by
  have hb := after_barrier (E := E) (storeOps ops)
  have hg : Gated row := store_gated ops jobId row hrow
  have hid := (job?_eq_some hrow).2
  refine ⟨fun hlocked => ?_, fun hlocked => ⟨fun a ha => ?_, getReports_unlocked hrow hlocked,
    fun _ _ _ => publicReports_unlocked hrow hlocked⟩, fun hrejected hfailed => ?_⟩
  · obtain ⟨f, hbacked, hfirms⟩ := hb.locked jobId row hrow hlocked
    refine ⟨f, hbacked, hfirms, fun r hr => ?_, fun ops' => ?_⟩
    · obtain ⟨hr, howner⟩ := mem_filter.mp hr
      obtain ⟨row', f', hrow', ⟨stored', hstored', -, hpayload', -⟩, hbound⟩ := hb.reports r hr
      obtain ⟨stored, hstored, -, hpayload, -⟩ := hbacked
      rw [of_decide_eq_true howner] at hrow'
      obtain rfl : row = row' := Option.some.inj (hrow.symm.trans hrow')
      obtain rfl : stored = stored' := Option.some.inj (hstored.symm.trans hstored')
      obtain rfl : f = f' := by simpa using hpayload.symm.trans hpayload'
      exact hbound
    · rw [after_append]
      exact run_reportsOf_locked (after_sound _) hrow hlocked _
  · obtain ⟨ha, howner⟩ := mem_filter.mp ha
    by_contra hkind
    obtain ⟨row', hrow', hlocked'⟩ := hb.artifacts a ha (by simpa using hkind)
    rw [of_decide_eq_true howner] at hrow'
    obtain rfl : row = row' := Option.some.inj (hrow.symm.trans hrow')
    exact hlocked' hlocked
  · obtain h | h | ⟨hlock, hsnapshot⟩ := hg.status
    · exact absurd h hrejected
    · exact absurd h hfailed
    · refine ⟨hlock, fun hindex => ?_⟩
      obtain ⟨id, hsome⟩ := Option.ne_none_iff_exists'.mp (hsnapshot hindex)
      obtain ⟨stored, hget, howner, hsame⟩ := hb.stored jobId row hrow id hsome
      obtain ⟨f, hf⟩ := store_research ops stored (get?_eq_some hget).1
      refine ⟨f, stored, ?_, howner.trans hid.symm, hf, ?_⟩
      · rw [Database.snapshot?, hsome, Option.bind_some, hget]
      · rw [hsame f hf, (get?_eq_some hget).2]

def holder : Handle := { claim := some { jobId := "research", token := "token", workerId := "worker" } }

def atIssue : Reads := { lease := clearedRequest.issuedAt, deadline := clearedRequest.issuedAt }

def toStage (stage : Status) : StoreOp Document :=
  .updateStage holder "research" atIssue stage none clearedRequest.issuedAt

def firstPass : List (StoreOp Document) :=
  [.createJob {} { jobId := "research", ticker := "ABC", mandate := {}, stamp := clearedRequest.issuedAt },
    .claimJob {} {
      workerId := "worker", token := "token", stamp := clearedRequest.issuedAt
      expiry := { stamp := clearedRequest.issuedAt, delay := fun _ => 0 } },
    toStage .snapshotBuild,
    .saveSnapshot holder "research" atIssue clearedRequest.snapshot clearedRequest.issuedAt,
    toStage .firstPassResearch,
    .saveReport holder "research" atIssue .tradingagents (sampleReport .tradingagents),
    .saveReport holder "research" atIssue .aiHedgeFund (sampleReport .aiHedgeFund),
    .lockFirstPass holder "research" atIssue clearedRequest.issuedAt clearedRequest.issuedAt]

/-- After its first pass the job is locked, and bound by the barrier. -/
theorem firstPass_locked : ∃ row f, (after plainEnv (storeOps firstPass)).db.job? "research" = some row ∧
    row.lockedAt ≠ none ∧ Backed (after plainEnv (storeOps firstPass)).db row f ∧
    ∀ firm, firm ∈ ((after plainEnv (storeOps firstPass)).db.reportsOf "research").map (·.firm) ↔
      firm ∈ f.snapshot.requiredFirstPassFirms := by
  have hfound : ((after plainEnv (storeOps firstPass)).db.job? "research").map (fun j => j.lockedAt.isSome) =
      some true := by decide +kernel
  obtain ⟨row, hrow, hlocked⟩ := Option.map_eq_some_iff.mp hfound
  have hsome : row.lockedAt ≠ none := by
    intro hnone
    rw [hnone] at hlocked
    cases hlocked
  obtain ⟨f, hbacked, hfirms, -⟩ := (first_pass_barrier firstPass "research" row hrow).1 hsome
  exact ⟨row, f, hrow, hsome, hbacked, hfirms⟩

end Money
