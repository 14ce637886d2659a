import Money.Theorems.Barrier
import Money.Theorems.SignalValidity

/-! What a published signal stands on. A signal row is only inserted with the decision packet of its job, compared with
    everything sealed for it; all of it is there in every later state. -/

namespace Money
open Checked List Rows Money.System Database

variable {Doc : Type} [DecidableEq Doc] {E : Env Doc}

/-- The comparisons of `completeJob` between a decision packet and what is sealed for its job. -/
structure Decided (db : Database E) (jobId : String) (row : Job) (p : DecisionPacket) (now : CompletionReads)
    (s : ResearchSnapshot) (disagreement : Bool) (calculated : ResearchState × List String) : Prop where
  locked : row.lockedAt ≠ none
  status : row.status = .consensus
  research : p.researchId = jobId
  reports : ∀ f ∈ allFirms, reportOf p.reports f = db.report? jobId f
  mandate : p.mandate = row.mandate
  frozen : ∃ missing, frozenSnapshot db row missing = .ok s
  snapshot : some p.snapshotId = row.snapshotId ∧ p.snapshotHash = s.hash ∧ p.sources = s.evidence ∧
    p.eligibility = s.instrument ∧ p.candidate.ticker = row.ticker
  lean : db.artifact? jobId .lean = some (E.lean.dump p.lean)
  audit : db.artifact? jobId .audit = some (E.audit.dump p.audit)
  redTeam : db.artifact? jobId .redTeam = some (E.redTeam.dump p.redTeam)
  independence : db.artifact? jobId .independence = some (E.independence.dump p.independence)
  derived : evidenceIndependence s p.reports = .ok p.independence
  crossed : ∃ mismatch missing, checkCrossExamination (E := E) (db.artifact? jobId .crossExamination) s p mismatch missing =
    .ok disagreement
  consented : consensus E.toPlatform p.mandate s p.reports p.lean p.audit p.redTeam p.independence now.consensus
    p.crossExaminationRounds disagreement = .ok calculated
  designed : checkDesign (E := E) jobId (db.artifact? jobId .signalDesign) s p calculated now.design =
    .ok (p.finalState, p.reasons)

variable {jobId : String} {p : DecisionPacket} {now : CompletionReads} {db : Database E} {job row : Job}
  {reports : List FirmReport} {op : Op Doc} {t : System E}

theorem checkDecision_ok (hok : checkDecision db jobId row p now = .ok ()) :
    ∃ s disagreement calculated, Decided db jobId row p now s disagreement calculated := by
  simp only [checkDecision, checkIdentity, checkEvidence, checkArtifacts, ok_iff] at hok
  obtain ⟨locked, ⟨⟨status, research⟩, reports, mandate⟩, s, ⟨s', frozen, snapshot, rfl⟩,
    ⟨lean, audit, redTeam, independence⟩, -, -, -, ind, derived, rfl, disagreement, crossed, calculated, consented,
    final, designed, rfl⟩ := hok
  exact ⟨s', disagreement, calculated, locked, status, research, reports, mandate, ⟨_, frozen⟩, snapshot, lean, audit,
    redTeam, independence, derived, ⟨_, _, crossed⟩, consented, designed⟩

variable {s : ResearchSnapshot} {disagreement : Bool}

theorem decision_positive {lean : LeanValidationReport}
    {audit : CIOAuditReport} {redTeam : RedTeamReport} {independence : EvidenceIndependenceReport}
    (hpos : positive (decision s reports lean audit redTeam independence disagreement).1) :
    redTeam.state ≠ .veto ∧ lean.state = .pass ∧ audit.completed = true ∧ audit.materialDisagreement = false ∧
      disagreement = false := by
  unfold decision at hpos
  split at hpos
  · exact absurd hpos (by decide)
  split at hpos
  · exact absurd hpos (by decide)
  split at hpos
  · exact absurd hpos (by decide)
  split at hpos
  · exact absurd hpos (by decide)
  next hveto =>
    split at hpos
    · exact absurd hpos (by simp [positive])
    next hreasons =>
      have hnil := not_not.mp hreasons
      simp only [evidenceReasons, append_eq_nil_iff, flag_eq_nil] at hnil
      obtain ⟨⟨⟨⟨⟨⟨⟨-, hlean⟩, haudit⟩, hdisagreement⟩, -⟩, -⟩, -⟩, -⟩ := hnil
      have hpass : lean.state = .pass := by
        by_contra hne
        rw [if_pos hne] at hlean
        cases hlean
      exact ⟨fun h => hveto (.inl h), hpass, by simpa using haudit, by simpa using (not_or.mp hdisagreement).1,
        by simpa using (not_or.mp hdisagreement).2⟩

variable {calculated : ResearchState × List String}

omit [DecidableEq Doc] in
theorem checkDesign_signal {artifact : Option Doc}
    {final : ResearchState × List String} {now : Int} {signal : ResearchSignal}
    (hok : checkDesign (E := E) jobId artifact s p calculated now = .ok final) (hsignal : p.signal = some signal) :
    ∃ doc design policy quality costs designedAt, artifact = some doc ∧ E.validateDesign doc = .ok design ∧
      design.signal = some signal ∧ (design.policy = some policy ∧ design.marketQuality = some quality ∧
        design.costApplicability = some costs ∧ design.designedAt = some designedAt) ∧ designedAt ≤ p.issuedAt ∧
      generateSignal E.toPlatform (p.request jobId s calculated.1 designedAt quality costs policy) = .ok design := by
  cases artifact with
  | none =>
    rw [checkDesign, require_bind_eq_ok, hsignal] at hok
    exact absurd hok.1 nofun
  | some doc =>
    simp only [checkDesign, bind_eq_ok] at hok
    obtain ⟨design, hdesign, hok⟩ := hok
    split at hok
    next signal' hsignal' =>
      simp only [checkPublished, ok_iff] at hok
      obtain ⟨⟨policy, hpolicy, quality, hquality, costs, hcosts, designedAt, hat, ⟨hbefore, -⟩, again, hagain, rfl,
        hsame⟩, -⟩ := hok
      exact ⟨doc, again, policy, quality, costs, designedAt, rfl, hdesign, hsame.symm.trans hsignal,
        ⟨hpolicy, hquality, hcosts, hat⟩, hbefore, hagain⟩
    next =>
      rw [require_bind_eq_ok, hsignal] at hok
      exact absurd hok.1 nofun

theorem mem_allFirms (f : Firm) : f ∈ allFirms := by cases f <;> decide

theorem reports_perm {rows : List ReportRow} (hn : (reports.map (·.firm)).Nodup)
    (hn' : (rows.map (·.firm)).Nodup) (hfirm : ∀ r ∈ rows, r.report.firm = r.firm)
    (hsame : ∀ f, reportOf reports f = (Rows.get? ReportRow.firm rows f).map (·.report)) :
    reports.Perm (rows.map (·.report)) := by
  have hrev : (reports.reverse.map (·.firm)).Nodup := by rwa [map_reverse, nodup_reverse]
  have hfirms : (rows.map (·.report)).map (·.firm) = rows.map (·.firm) := by
    rw [map_map]
    exact map_congr_left hfirm
  refine (perm_ext_iff_of_nodup (List.Nodup.of_map _ hn) (List.Nodup.of_map (·.firm) (hfirms ▸ hn'))).mpr fun r => ?_
  constructor
  · intro hr
    have hget : reportOf reports r.firm = some r := get?_of_mem hrev (mem_reverse.mpr hr)
    rw [hsame] at hget
    obtain ⟨row, hrow, rfl⟩ := Option.map_eq_some_iff.mp hget
    exact mem_map_of_mem (get?_eq_some hrow).1
  · intro hr
    obtain ⟨row, hrow, rfl⟩ := mem_map.mp hr
    have hget := hsame row.firm
    rw [get?_of_mem hn' hrow] at hget
    exact mem_reverse.mp (get?_eq_some hget).1

omit [DecidableEq Doc] in
theorem validatePacket_eq_ok : E.validatePacket p = .ok () ↔
    (∀ s ∈ p.frozenSnapshot, E.validateSnapshot s = .ok s) ∧ p.consistentPacket = .ok () := by
  simp only [Env.validatePacket, require_bind_eq_ok]

theorem consistentPacket_firms (hok : p.consistentPacket = .ok ()) : (p.reports.map (·.firm)).Nodup := by
  simp only [DecisionPacket.consistentPacket, ok_iff] at hok
  obtain ⟨-, -, ⟨-, hcover⟩, hlength, -⟩ := hok
  have hrequired : (requiredFirstPassFirms p.qlibEnabled).Nodup := by
    cases p.qlibEnabled <;> decide
  have hsub := subperm_of_subset hrequired hcover
  have hperm := hsub.perm_of_length_le (by rw [length_map]; exact hlength.le)
  exact hperm.nodup_iff.mp hrequired

theorem Move.artifactsOf_ended {s : System E} (hm : Move op s t)
    (hrow : s.db.job? jobId = some row) (hend : row.status.terminal = true) :
    t.db.artifactsOf jobId = s.db.artifactsOf jobId := by
  obtain ⟨c, ⟨-, -, hartifacts, -⟩, hwork⟩ := hm.inserted
  have hnone : c.artifacts.filter (fun a => decide (a.jobId = jobId)) = [] := by
    rcases hwork with rfl | ⟨workId, held, hheld, hgoing, effect, -⟩
    · rfl
    · refine filter_eq_nil_iff.mpr fun a ha heq => ?_
      obtain rfl : workId = jobId := (effect.owned.artifacts a ha).symm.trans (of_decide_eq_true heq)
      obtain rfl : held = row := Option.some.inj (hheld.symm.trans hrow)
      exact absurd (hgoing.symm.trans hend) nofun
  rw [artifactsOf, hartifacts, filter_append, hnone, append_nil, artifactsOf]

theorem run_ended {s : System E} (hs : Sound s) (hrow : s.db.job? jobId = some row)
    (hend : row.status.terminal = true) (ops : List (Op Doc)) : (Runs.run step s ops).db.job? jobId = some row ∧
      (Runs.run step s ops).db.artifactsOf jobId = s.db.artifactsOf jobId := by
  refine (run_moves_inv (P := fun t => Sound t ∧ t.db.job? jobId = some row ∧
    t.db.artifactsOf jobId = s.db.artifactsOf jobId) ?_ ops ⟨hs, hrow, rfl⟩).2
  rintro op t u ⟨ht, hrow', hsame⟩ hm
  obtain ⟨row', new, hnext, -, hturn⟩ := hm.turn ht.distinct hrow'
  obtain ⟨rfl, -⟩ := hturn.absorbed hend
  exact ⟨ht.move hm, hnext, (hm.artifactsOf_ended hrow' hend).trans hsame⟩

omit [DecidableEq Doc] in
theorem artifact?_eq (db : Database E) (jobId : String) (kind : ArtifactKind) :
    db.artifact? jobId kind = ((db.artifactsOf jobId).find? fun a => a.kind = kind).map (·.payload) := by
  rw [artifact?, artifactsOf, List.find?_filter]
  congr 2
  funext a
  simp

omit [DecidableEq Doc] in
theorem report?_eq (db : Database E) (jobId : String) (firm : Firm) :
    db.report? jobId firm = (Rows.get? ReportRow.firm (db.reportsOf jobId) firm).map (·.report) := by
  rw [report?, Rows.get?, reportsOf, List.find?_filter]
  congr 2
  funext r
  simp

omit [DecidableEq Doc] in
theorem reportsOf_firms (hk : db.Keyed) (jobId : String) : ((db.reportsOf jobId).map (·.firm)).Nodup := by
  have hsub : ((db.reportsOf jobId).map fun r => (r.jobId, r.firm)).Nodup :=
    hk.reports.sublist (filter_sublist.map _)
  refine List.Nodup.of_map (fun f => (jobId, f)) ?_
  rw [map_map]
  have hsame : (db.reportsOf jobId).map ((fun f => (jobId, f)) ∘ fun r => r.firm) =
      (db.reportsOf jobId).map fun r => (r.jobId, r.firm) := by
    refine map_congr_left fun r hr => ?_
    have howner : r.jobId = jobId := of_decide_eq_true (mem_filter.mp hr).2
    rw [Function.comp_apply, howner]
  rwa [hsame]

/-! ### Published signals -/

/-- What a signal stands on: the packet of its job, the sealed rows, the design that generates it again, and the gates
    at `at_`. -/
structure Published (db : Database E) (row : SignalRow) (p : DecisionPacket) (s : ResearchSnapshot) (at_ : Int) : Prop where
  packet : db.packet? row.jobId = some (.decision p)
  signal : p.signal = some row.signal
  reports : p.reports.Perm ((db.reportsOf row.jobId).map (·.report))
  lean : db.artifact? row.jobId .lean = some (E.lean.dump p.lean)
  audit : db.artifact? row.jobId .audit = some (E.audit.dump p.audit)
  redTeam : db.artifact? row.jobId .redTeam = some (E.redTeam.dump p.redTeam)
  independence : db.artifact? row.jobId .independence = some (E.independence.dump p.independence)
  design : ∃ doc design policy quality costs designedAt, db.artifact? row.jobId .signalDesign = some doc ∧
    E.validateDesign doc = .ok design ∧ design.signal = some row.signal ∧
    (design.policy = some policy ∧ design.marketQuality = some quality ∧ design.costApplicability = some costs ∧
      design.designedAt = some designedAt) ∧
    generateSignal E.toPlatform (p.request row.jobId s row.signal.state.toState designedAt quality costs policy) = .ok design
  consented : ∃ reasons, consensus E.toPlatform p.mandate s p.reports p.lean p.audit p.redTeam p.independence at_
    p.crossExaminationRounds false = .ok (row.signal.state.toState, reasons)
  gates : p.redTeam.state ≠ .veto ∧ p.lean.state = .pass ∧ p.audit.completed = true ∧
    p.audit.materialDisagreement = false
  crossed : ∀ doc, db.artifact? row.jobId .crossExamination = some doc →
    ∃ x, E.validateCross doc = .ok x ∧ x.materialDisagreement = false

omit [DecidableEq Doc] in
theorem Decided.signal {signal : ResearchSignal}
    (h : Decided db jobId row p now s disagreement calculated) (hsignal : p.signal = some signal) :
    calculated.1 = signal.state.toState ∧ disagreement = false ∧ p.redTeam.state ≠ .veto ∧ p.lean.state = .pass ∧
      p.audit.completed = true ∧ p.audit.materialDisagreement = false := by
  obtain ⟨doc, design, policy, quality, costs, designedAt, -, -, hdesign, -, -, hgenerated⟩ :=
    checkDesign_signal h.designed hsignal
  have issued := SignalRequest.issued_of_signal hgenerated hdesign
  have hpositive : positive calculated.1 := issued.admissible
  obtain ⟨-, -, hdecision⟩ := consensus_clear h.consented issued.ne_reject
  rw [hdecision] at hpositive
  obtain ⟨hveto, hlean, haudit, hmaterial, hcross⟩ := decision_positive hpositive
  exact ⟨issued.state_eq.symm, hcross, hveto, hlean, haudit, hmaterial⟩

theorem Move.signal_inserted {s : System E} (hm : Move op s t) {row : SignalRow} (hnew : row ∈ t.db.signals)
    (hold : row ∉ s.db.signals) : ∃ h r p now job, op = .store (.completeJob h row.jobId r (.decision p) now) ∧
      s.db.job? row.jobId = some job ∧ job.kind = .standard ∧ E.validatePacket p = .ok () ∧
      checkDecision s.db row.jobId job p now = .ok () ∧ p.signal = some row.signal ∧
      t.db.job? row.jobId = some (finish .complete now.completed now.updated job) ∧ t.db.artifacts = s.db.artifacts ∧
      { jobId := row.jobId, payload := .decision p } ∈ t.db.packets := by
  obtain ⟨c, ⟨-, -, hartifacts, hpackets, hsignals⟩, hwork⟩ := hm.inserted
  rw [hsignals] at hnew
  have hinserted : row ∈ c.signals := (mem_append.mp hnew).resolve_left hold
  rcases hwork with rfl | ⟨jobId, job, hjob, -, effect, hjob', -⟩
  · cases hinserted
  · cases effect with
    | decided p now origin standard consistent checked =>
      obtain ⟨h, r, horigin⟩ := origin
      cases hsignal : p.signal with
      | none => simp [hsignal] at hinserted
      | some signal =>
        obtain rfl : row = { jobId, signal } := by simpa [hsignal] using hinserted
        refine ⟨h, r, p, now, job, horigin, hjob, standard, consistent, checked, hsignal, hjob', ?_, ?_⟩
        · rw [hartifacts]
          exact append_nil _
        · rw [hpackets]
          exact mem_append_right _ (mem_singleton_self _)
    | _ => cases hinserted

theorem step_signal_inserted {s : System E} (hok : step s op = .ok t) {row : SignalRow}
    (hnew : row ∈ t.db.signals) (hold : row ∉ s.db.signals) : Move op s t := by
  have hquiet : ∀ {u v : System E}, op.fence = none → Move op u v → v.db.signals = u.db.signals := by
    intro u v hplane hm
    obtain ⟨c, ⟨-, -, -, -, hsignals⟩, rfl | ⟨_, _, _, _, _, _, hfence⟩⟩ := hm.inserted
    · rw [hsignals]
      exact append_nil _
    · exact absurd hplane hfence
  cases step_moves hok with
  | none => exact absurd hnew hold
  | one hm => exact hm
  | two plane first second =>
    rw [hquiet plane second, hquiet plane first] at hnew
    exact absurd hnew hold

omit [DecidableEq Doc] in
theorem Decided.published {db' : Database E} {row : SignalRow}
    (h : Decided db row.jobId job p now s disagreement calculated) (hsignal : p.signal = some row.signal)
    (hconsistent : p.consistentPacket = .ok ()) (hb : Barrier db) (hk : db.Keyed) (hk' : db'.Keyed) (hkeeps : Keeps db db')
    (hreports : db'.reportsOf row.jobId = db.reportsOf row.jobId)
    (hartifacts : db'.artifactsOf row.jobId = db.artifactsOf row.jobId)
    (hpacket : { jobId := row.jobId, payload := .decision p } ∈ db'.packets) : Published db' row p s now.consensus := by
  obtain ⟨hstate, rfl, hgates⟩ := h.signal hsignal
  constructor
  · have hfound := get?_of_mem hk'.packets hpacket
    exact congrArg (Option.map (·.payload)) hfound
  · exact hsignal
  · rw [hreports]
    refine reports_perm (consistentPacket_firms hconsistent) (reportsOf_firms hk row.jobId) (fun r hr => ?_) fun f => ?_
    · obtain ⟨_, _, _, _, hbound⟩ := hb.reports r (mem_filter.mp hr).1
      exact hbound.firm
    · rw [h.reports f (mem_allFirms f), report?_eq]
  · exact hkeeps.artifact? h.lean
  · exact hkeeps.artifact? h.audit
  · exact hkeeps.artifact? h.redTeam
  · exact hkeeps.artifact? h.independence
  · obtain ⟨doc, design, policy, quality, costs, designedAt, hdoc, hvalid, hsame, hinputs, -, hgenerated⟩ :=
      checkDesign_signal h.designed hsignal
    exact ⟨doc, design, policy, quality, costs, designedAt, hkeeps.artifact? hdoc, hvalid, hsame, hinputs, hstate ▸ hgenerated⟩
  · exact ⟨calculated.2, by rw [← hstate]; exact h.consented⟩
  · exact hgates
  · intro doc hdoc
    obtain ⟨mismatch, missing, hcrossed⟩ := h.crossed
    have hsame : db.artifact? row.jobId .crossExamination = some doc := by
      rw [artifact?_eq, ← hartifacts, ← artifact?_eq, hdoc]
    rw [hsame] at hcrossed
    simp only [checkCrossExamination, ok_iff] at hcrossed
    obtain ⟨x, hx, -, hmaterial⟩ := hcrossed
    exact ⟨x, hx, hmaterial⟩

/-- The completion that published a signal, and what is left of it at the end of the run. -/
structure Origin (ops pre : List (Op Doc)) (row : SignalRow) (p : DecisionPacket) (now : CompletionReads) (job : Job)
    (f : Frozen E.toPlatform) (disagreement : Bool) (calculated : ResearchState × List String) : Prop where
  committed : ∃ h r post, ops = pre ++ .store (.completeJob h row.jobId r (.decision p) now) :: post
  standard : job.kind = .standard
  valid : E.validatePacket p = .ok ()
  decided : Decided (after E pre).db row.jobId job p now f.snapshot disagreement calculated
  signal : p.signal = some row.signal
  ended : (after E ops).db.job? row.jobId = some (finish .complete now.completed now.updated job)
  backed : Backed (after E ops).db (finish .complete now.completed now.updated job) f
  keeps : Keeps (after E pre).db (after E ops).db
  reports : (after E ops).db.reportsOf row.jobId = (after E pre).db.reportsOf row.jobId
  artifacts : (after E ops).db.artifactsOf row.jobId = (after E pre).db.artifactsOf row.jobId
  packet : { jobId := row.jobId, payload := .decision p } ∈ (after E ops).db.packets

theorem signal_origin (ops : List (Op Doc)) (row : SignalRow) (hrow : row ∈ (after E ops).db.signals) :
    ∃ pre p now job f disagreement calculated, Origin (E := E) ops pre row p now job f disagreement calculated := by
  -- The operation that inserted the row, and the state in which its checks passed.
  obtain ⟨pre, op, post, rfl, hbefore, hafter⟩ :=
    Runs.run_first (P := fun s : System E => row ∈ s.db.signals) ops not_mem_nil hrow
  have hfinal : after E (pre ++ op :: post) = Runs.run step (after E (pre ++ [op])) post := by
    rw [← after_append, append_assoc, singleton_append]
  have hnext : after E (pre ++ [op]) = Runs.next step (after E pre) op := after_append pre [op]
  replace hbefore : row ∉ (after E pre).db.signals := hbefore
  replace hafter : row ∈ (after E (pre ++ [op])).db.signals := hafter
  have hm : Move op (after E pre) (after E (pre ++ [op])) := by
    rcases Runs.next_cases step (after E pre) op with hsame | hok
    · rw [hnext, hsame] at hafter
      exact absurd hafter hbefore
    · rw [← hnext] at hok
      exact step_signal_inserted hok hafter hbefore
  obtain ⟨h, r, p, now, job, rfl, hjob, hkind, hvalid, hchecked, hsignal, hdone, hartifacts, hpacket⟩ :=
    hm.signal_inserted hafter hbefore
  obtain ⟨s, disagreement, calculated, hdecided⟩ := checkDecision_ok hchecked
  -- From the completion on, the job keeps its row and all that is sealed for it.
  have hkeeps := run_keeps (after_sound (E := E) pre) (.store (.completeJob h row.jobId r (.decision p) now) :: post)
  rw [← after_append] at hkeeps
  have hlater := run_keeps (after_sound (E := E) (pre ++ [.store (.completeJob h row.jobId r (.decision p) now)])) post
  rw [← hfinal] at hlater
  obtain ⟨hended, hkept⟩ := run_ended (after_sound _) hdone rfl post
  rw [← hfinal] at hended hkept
  obtain ⟨missing, hfrozen⟩ := hdecided.frozen
  obtain ⟨f, hbacked, rfl⟩ := (after_barrier pre).backed hjob hfrozen
  refine ⟨pre, p, now, job, f, disagreement, calculated, ⟨h, r, post, rfl⟩, hkind, hvalid, hdecided, hsignal, hended,
    hbacked.keep hkeeps rfl (fun _ hid => hid), hkeeps, ?_, ?_, hlater.packets.subset hpacket⟩
  · rw [after_append]
    exact run_reportsOf_locked (after_sound pre) hjob hdecided.locked _
  · rw [hkept, artifactsOf, hartifacts, artifactsOf]

theorem Origin.published {ops pre : List (Op Doc)} {row : SignalRow} {f : Frozen E.toPlatform}
    (h : Origin (E := E) ops pre row p now job f disagreement calculated) :
    Published (after E ops).db row p f.snapshot now.consensus :=
  h.decided.published h.signal (validatePacket_eq_ok.mp h.valid).2 (after_barrier pre) (after_tables pre).keyed
    (after_tables ops).keyed h.keeps h.reports h.artifacts h.packet

/-- A signal row belongs to a complete standard job. Its packet repeats what is sealed for it; the sealed design
    generates the signal again; and no gate was violated at the completion. -/
theorem published_signal_sound (ops : List (Op Doc)) (row : SignalRow) (hrow : row ∈ (after E ops).db.signals) :
    ∃ pre h r p now post job f, ops = pre ++ .store (.completeJob h row.jobId r (.decision p) now) :: post ∧
      (after E ops).db.job? row.jobId = some job ∧ job.kind = .standard ∧ job.status = .complete ∧
      p.mandate = job.mandate ∧ Backed (after E ops).db job f ∧
      Published (after E ops).db row p f.snapshot now.consensus := by
  obtain ⟨pre, p, now, job, f, disagreement, calculated, origin⟩ := signal_origin ops row hrow
  obtain ⟨h, r, post, hops⟩ := origin.committed
  exact ⟨pre, h, r, p, now, post, _, f, hops, origin.ended, origin.standard, rfl, origin.decided.mandate, origin.backed,
    origin.published⟩

def clearedDesign : SignalDesign :=
  (generateSignal plainPlatform clearedRequest).toOption.getD { policyVersion := "" }

def clearedPacket : DecisionPacket where
  researchId := "research"
  mandate := {}
  snapshotId := "snapshot"
  snapshotHash := "hash"
  candidate := { ticker := "ABC", discovery := [] }
  eligibility := clearedInstrument
  reports := clearedRequest.reports
  lean := clearedRequest.lean
  audit := clearedRequest.audit
  redTeam := clearedRequest.redTeam
  independence := clearedIndependence
  finalState := .watch
  reasons := ["LIMITED_INDEPENDENCE_OR_RED_TEAM_WARNING"]
  sources := dailyBars
  issuedAt := clearedRequest.issuedAt
  signal := clearedDesign.signal
  runtime := .live
  qlibEnabled := false
  frozenSnapshot := some clearedRequest.snapshot

def saved (kind : ArtifactKind) (value : Document) : StoreOp Document := .saveArtifact holder "research" atIssue kind value

def decidedJob : List (StoreOp Document) :=
  firstPass ++ [
    toStage .leanValidation,
    saved .lean (.lean clearedRequest.lean),
    toStage .crewaiAudit,
    .saveCioArtifacts holder "research" atIssue clearedRequest.audit clearedRequest.redTeam none,
    toStage .consensus,
    saved .independence (.independence clearedIndependence),
    saved .signalDesign (.design clearedDesign),
    .completeJob holder "research" atIssue (.decision clearedPacket) {
      universe_ := clearedRequest.issuedAt, consensus := clearedRequest.issuedAt, design := clearedRequest.issuedAt
      completed := clearedRequest.issuedAt, updated := clearedRequest.issuedAt }]

/-- The job publishes a signal. -/
theorem decidedJob_signal_sound : ∃ row p f at_, row ∈ (after plainEnv (storeOps decidedJob)).db.signals ∧
    Published (after plainEnv (storeOps decidedJob)).db row p (Frozen.snapshot (P := plainPlatform) f) at_ := by
  have hsome : (after plainEnv (storeOps decidedJob)).db.signals ≠ [] := by decide +kernel
  obtain ⟨row, hrow⟩ := exists_mem_of_ne_nil _ hsome
  obtain ⟨_, _, _, p, now, _, _, f, -, -, -, -, -, -, hpublished⟩ := published_signal_sound _ row hrow
  exact ⟨row, p, f, now.consensus, hrow, hpublished⟩

end Money
