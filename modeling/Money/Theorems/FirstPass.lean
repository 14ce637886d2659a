import Money.FirstPass
import Money.Library.Gathering
import Money.Theorems.Barrier
import Money.Theorems.Settlement

/-! What the first pass seals, and when it depends on the order of completion. The loop is a gathering of results under
    the names of the firms. -/

namespace Money
open Checked List Database

variable {Doc : Type} {E : Env Doc}

namespace FirstPass

/-! ### The loop as a gathering -/

variable (snapshot : ResearchSnapshot)

def fault : Except Err FirmReport → Option Err
  | .error e => some e
  | .ok report =>
    match admitReport snapshot report with
    | .error e => some e
    | .ok () => none

def firmOf : Except Err FirmReport → Option Firm
  | .error _ => none
  | .ok report => some report.firm

variable (sealed : List Firm)

/-- The results that are sealed, and what ends the loop, when these firms are sealed already. -/
def gather (results : List (Except Err FirmReport)) : List (Except Err FirmReport) × Option Err :=
  Gathering.gather (fault snapshot) firmOf (.store "A sealed report cannot be replaced") (sealed.map some) results

/-- The reservation is unsettled, and its aggregate call is not recorded. -/
structure Open (db : Database E) (jobId id : String) : Prop where
  row : ∃ row, db.reservation? id = some row ∧ row.jobId = jobId ∧ row.usage = none
  unrecorded : ∀ call ∈ db.calls, call.invocationId ≠ E.aggregateHash id

/-- The worker holds the job throughout, the snapshot is the frozen one, every reservation is open, and the reservations of
    two agents have two hashes. -/
structure Ready (p : FirstPass) (db : Database E) (job : Job) : Prop where
  found : db.job? p.jobId = some job
  saving : ∀ n, Holds p.handle job (p.saving n)
  settling : ∀ n, Holds p.handle job (p.settling n)
  locking : Holds p.handle job p.locking
  workspace : ∀ w ∈ p.handle.workspaceId, job.workspaceId = w
  stage : job.status = .firstPassResearch ∧ job.lockedAt = none
  snapshotId : job.snapshotId = some p.snapshot.snapshotId
  frozen : ∀ missing, frozenSnapshot db job missing = .ok p.snapshot
  keyed : db.Keyed
  owner : ∃ user, ownership db job = .ok user
  reserved : ∀ agent id, p.reservations agent = some id → Open db p.jobId id
  apart : ∀ agent agent' id id', p.reservations agent = some id → p.reservations agent' = some id' →
    E.aggregateHash id = E.aggregateHash id' → agent = agent'

def rowOf (p : FirstPass) (report : FirmReport) : ReportRow := { jobId := p.jobId, firm := report.firm, report }

def sealedIn (p : FirstPass) (db : Database E) : List Firm := (db.reportsOf p.jobId).map (·.firm)

/-- The store after some of the reports: these are saved and settled, the other reservations are open. -/
structure Progress (p : FirstPass) (db₀ : Database E) (taken : List FirmReport) (db : Database E) : Prop where
  frame : db = { db₀ with
    reports := db₀.reports ++ taken.map p.rowOf, reservations := db.reservations, calls := db.calls }
  keyed : db.Keyed
  reserved : ∀ agent id, p.reservations agent = some id → agent ∉ taken.map (·.firm.name) → Open db p.jobId id
  settled : ∀ report ∈ taken, ∀ id, p.reservations report.firm.name = some id →
    ∃ row, db.reservation? id = some row ∧ row.usage = some report.usage

section
variable {p : FirstPass} {db₀ db : Database E} {job : Job} {taken : List FirmReport} {report : FirmReport} {n : Nat}

theorem Firm.name_injective : Function.Injective Firm.name := by
  intro f g
  cases f <;> cases g <;> decide

theorem Progress.start (h : Ready p db job) : Progress p db [] db where
  frame := by simp
  keyed := h.keyed
  reserved agent id hid _ := h.reserved agent id hid
  settled := by simp

section
variable (h : Progress p db₀ taken db)
include h

theorem Progress.job? (jobId : String) : db.job? jobId = db₀.job? jobId := by
  rw [h.frame]
  rfl

theorem Progress.frozenSnapshot (job : Job) (missing : Err) :
    frozenSnapshot db job missing = Money.frozenSnapshot db₀ job missing := by
  rw [h.frame]
  rfl

theorem Progress.ownership (job : Job) : ownership db job = Money.ownership db₀ job := by
  rw [h.frame]
  rfl

theorem Progress.reports : db.reports = db₀.reports ++ taken.map p.rowOf := by rw [h.frame]

theorem Progress.sealedIn : p.sealedIn db = p.sealedIn db₀ ++ taken.map (·.firm) := by
  have hown : (taken.map p.rowOf).filter (fun r => r.jobId = p.jobId) = taken.map p.rowOf := by simp [rowOf]
  rw [FirstPass.sealedIn, reportsOf, h.reports, filter_append, hown, map_append, map_map]
  rfl

end

theorem mem_sealedIn {f : Firm} : f ∈ p.sealedIn db ↔ (p.jobId, f) ∈ db.reports.map fun r => (r.jobId, r.firm) := by
  simp only [sealedIn, reportsOf, mem_map, mem_filter, decide_eq_true_eq, Prod.mk.injEq]
  constructor
  · rintro ⟨r, ⟨hr, hjob⟩, hfirm⟩
    exact ⟨r, hr, hjob, hfirm⟩
  · rintro ⟨r, hr, hjob, hfirm⟩
    exact ⟨r, ⟨hr, hjob⟩, hfirm⟩

theorem commit_report (hk : db.Keyed) (report : FirmReport) (conflict : Err) :
    db.commit p.jobId { reports := [p.rowOf report] } conflict = if report.firm ∈ p.sealedIn db then .error conflict
      else .ok { db with reports := db.reports ++ [p.rowOf report] } := by
  have happly : db.apply p.jobId { reports := [p.rowOf report] } = { db with reports := db.reports ++ [p.rowOf report] } := by
    simp [apply, Rows.update]
  have hkeyed : Database.Keyed { db with reports := db.reports ++ [p.rowOf report] } ↔ report.firm ∉ p.sealedIn db := by
    have hrow : (p.jobId, report.firm) = ((p.rowOf report).jobId, (p.rowOf report).firm) := rfl
    rw [mem_sealedIn, hrow]
    constructor
    · intro h hmem
      have hn := h.reports
      rw [map_append, nodup_append] at hn
      exact hn.2.2 _ hmem _ (mem_singleton.mpr rfl) rfl
    · intro hnew
      refine ⟨hk.snapshots, ?_, hk.artifacts, hk.packets, hk.signals⟩
      rw [map_append, nodup_append]
      refine ⟨hk.reports, nodup_singleton _, fun key hkey key' hkey' heq => ?_⟩
      rw [map_singleton, mem_singleton] at hkey'
      exact hnew (hkey' ▸ heq ▸ hkey)
  rw [commit, happly]
  by_cases hmem : report.firm ∈ p.sealedIn db
  · rw [require, if_neg (fun h => hkeyed.mp h hmem), if_pos hmem]
    rfl
  · rw [require, if_pos (hkeyed.mpr hmem), if_neg hmem]
    rfl

theorem claimed_eq {h : Handle} {jobId : String} {r : Reads} {body : Job → Except Err (Change E)} {conflict : Err}
    {change : Change E} (howned : owned db h jobId r = .ok job) (hbody : body job = .ok change) :
    claimed db h jobId r body conflict = db.commit jobId change conflict := by
  rw [claimed, bind_of_ok howned, bind_of_ok hbody]

theorem admitReport_eq_ok {snapshot : ResearchSnapshot} : admitReport snapshot report = .ok () ↔
    (report.firm ∈ snapshot.requiredFirstPassFirms ∧ report.snapshotId = snapshot.snapshotId ∧
      report.snapshotHash = snapshot.hash) ∧ ∀ c ∈ report.claims, ∀ e ∈ c.evidenceIds, e ∈ snapshot.evidenceIds := by
  simp only [admitReport, ok_iff]

theorem sealReport_eq (hready : Ready p db₀ job) (h : Progress p db₀ taken db)
    (haccepted : admitReport p.snapshot report = .ok ()) :
    p.sealReport n db report =
      if report.firm ∈ p.sealedIn db then .error (.store "A sealed report cannot be replaced")
      else .ok { db with reports := db.reports ++ [p.rowOf report] } := by
  have howned : owned db p.handle p.jobId (p.saving n) = .ok job :=
    owned_eq_ok.mpr ⟨(h.job? p.jobId).trans hready.found, hready.saving n⟩
  obtain ⟨⟨hfirm, hid, hhash⟩, hcited⟩ := admitReport_eq_ok.mp haccepted
  have hsame : require (report.firm = report.firm) (Err.value "FirmReport") = .ok () := require_eq_ok.mpr rfl
  rw [sealReport, bind_of_ok haccepted, saveReport, bind_of_ok hsame]
  refine (claimed_eq howned ?_).trans (commit_report h.keyed report _)
  simp only [ok_iff, h.frozenSnapshot, hready.frozen]
  exact ⟨hready.stage, hready.snapshotId ▸ congrArg some hid, p.snapshot, rfl, hhash, hfirm, hcited, rfl⟩

theorem settle_open (hready : Ready p db₀ job) (hjob? : db.job? p.jobId = some job)
    (howner : ∃ user, ownership db job = .ok user) {id : String}
    (hopen : Open db p.jobId id) (usage : Usage) : ∃ db', settle db p.handle (p.settling n) id usage = .ok db' ∧
      db' = { db with reservations := db'.reservations, calls := db'.calls } ∧
      (∃ row, db'.reservation? id = some row ∧ row.usage = some usage) ∧
      (∀ id' ≠ id, db'.reservation? id' = db.reservation? id') ∧
      ∀ id', E.aggregateHash id' ≠ E.aggregateHash id → (∀ call ∈ db.calls, call.invocationId ≠ E.aggregateHash id') →
        ∀ call ∈ db'.calls, call.invocationId ≠ E.aggregateHash id' := by
  obtain ⟨⟨row, hrow, hjob, husage⟩, hunrecorded⟩ := hopen
  have hid : row.id = id := (Rows.get?_eq_some hrow).2
  have hfound : db.job? row.jobId = some job := by rw [hjob, hjob?]
  have hclaim : p.handle.claim.isSome := by
    obtain ⟨⟨c, hc, -⟩, -⟩ := hready.locking
    exact Option.isSome_iff_exists.mpr ⟨c, hc⟩
  have hbudget : budgetJob db p.handle row.jobId (p.settling n) = .ok job := by
    have howned : owned db p.handle row.jobId (p.settling n) = .ok job := owned_eq_ok.mpr ⟨hfound, hready.settling n⟩
    simp only [budgetJob, hclaim, if_true, bind_eq_ok, require_eq_ok]
    exact ⟨job, howned, (), hready.workspace, rfl⟩
  have hrecordable : Recordable db row usage job := by
    obtain ⟨user, huser⟩ := howner
    refine .inr ⟨user, huser, fun c hc => absurd (List.find?_some hc) ?_⟩
    have hother := hunrecorded c (mem_of_find?_eq_some hc)
    simp [hid, hother]
  obtain ⟨db', hok⟩ := settleRow_isOk.mpr (.inr ⟨husage, job, hfound, hrecordable⟩)
  refine ⟨db', ?_, ?_⟩
  · simp only [settle, bind_eq_ok, demand_eq_ok]
    exact ⟨row, hrow, job, hbudget, hok⟩
  · rcases settleRow_ok hok with ⟨hsome, -⟩ | ⟨-, new, hnew, rfl⟩
    · cases husage.symm.trans hsome
    · have hget : ∀ id', Rows.get? Reservation.id
          (Rows.update Reservation.id db.reservations row.id fun r => r.settled usage) id' = _ :=
        Rows.get?_update (Reservation.settled_id usage)
      refine ⟨rfl, ?_, fun id' hne => ?_, fun id' hne hcalls call hcall => ?_⟩
      · refine ⟨row.settled usage, ?_, rfl⟩
        rw [← hid] at hrow ⊢
        exact (hget row.id).trans (by rw [if_pos rfl, ← reservation?, hrow]; rfl)
      · exact (hget id').trans (if_neg (hid ▸ hne))
      · rcases mem_append.mp hcall with hcall | hcall
        · exact hcalls call hcall
        · obtain ⟨job', user, -, rfl⟩ := hnew call hcall
          exact fun heq => hne (hid ▸ heq.symm)

theorem Progress.next (hready : Ready p db₀ job) (h : Progress p db₀ taken db)
    (hnew : report.firm ∉ p.sealedIn db) :
    ∃ db', p.payReport n { db with reports := db.reports ++ [p.rowOf report] } report = .ok db' ∧
      Progress p db₀ (taken ++ [report]) db' := by
  have hnames : report.firm.name ∉ taken.map (·.firm.name) := by
    intro hmem
    obtain ⟨other, hother, hname⟩ := mem_map.mp hmem
    refine hnew ?_
    rw [h.sealedIn, ← Firm.name_injective hname]
    exact mem_append_right _ (mem_map_of_mem hother)
  have hkeyed : Database.Keyed { db with reports := db.reports ++ [p.rowOf report] } := by
    have hcommit := commit_report (p := p) h.keyed report .absent
    rw [if_neg hnew] at hcommit
    simp only [commit, bind_eq_ok, require_eq_ok, pure_eq_ok] at hcommit
    obtain ⟨_, hkeyed, heq⟩ := hcommit
    exact heq ▸ hkeyed
  have hframe : { db with reports := db.reports ++ [p.rowOf report] } =
      { db₀ with reports := db₀.reports ++ (taken ++ [report]).map p.rowOf, reservations := db.reservations,
                 calls := db.calls } := by
    have hreports : db.reports ++ [p.rowOf report] = db₀.reports ++ (taken ++ [report]).map p.rowOf := by
      rw [h.reports, map_append, append_assoc]
      rfl
    rw [hreports]
    conv_lhs => rw [h.frame]
  unfold payReport
  split
  next id hid =>
    have hopen := h.reserved _ id hid hnames
    have hjob : Database.job? { db with reports := db.reports ++ [p.rowOf report] } p.jobId = some job :=
      (h.job? p.jobId).trans hready.found
    obtain ⟨db', hok, hdb', hpaid, hothers, hcalls⟩ := settle_open hready hjob
      (hready.owner.imp fun _ huser => (h.ownership job).trans huser) ⟨hopen.row, hopen.unrecorded⟩ report.usage
    have hne : ∀ agent id', p.reservations agent = some id' → agent ≠ report.firm.name →
        E.aggregateHash id' ≠ E.aggregateHash id := fun agent id' hid' hagent heq =>
      hagent (hready.apart agent report.firm.name id' id hid' hid heq)
    refine ⟨db', hok, ?_, ?_, fun agent id' hid' hagent => ?_, fun r hr id' hid' => ?_⟩
    · rw [hdb', hframe]
    · rw [hdb']
      exact ⟨hkeyed.snapshots, hkeyed.reports, hkeyed.artifacts, hkeyed.packets, hkeyed.signals⟩
    · rw [map_append, mem_append, not_or, map_singleton, mem_singleton] at hagent
      have hother := hne agent id' hid' hagent.2
      have hbefore := h.reserved agent id' hid' hagent.1
      obtain ⟨row, hrow, hjob, husage⟩ := hbefore.row
      exact ⟨⟨row, (hothers id' fun heq => hother (congrArg _ heq)).trans hrow, hjob, husage⟩,
        hcalls id' hother hbefore.unrecorded⟩
    · rcases mem_append.mp hr with hr | hr
      · have hagent : r.firm.name ≠ report.firm.name := fun heq => hnames (heq ▸ mem_map_of_mem hr)
        obtain ⟨row, hrow, husage⟩ := h.settled r hr id' hid'
        exact ⟨row, (hothers id' fun heq => hne _ id' hid' hagent (congrArg _ heq)).trans hrow, husage⟩
      · cases mem_singleton.mp hr
        cases hid.symm.trans hid'
        exact hpaid
  next hnone =>
    refine ⟨_, rfl, hframe, hkeyed, fun agent id hid hagent => ?_, fun r hr id hid => ?_⟩
    · rw [map_append, mem_append, not_or] at hagent
      exact ⟨(h.reserved agent id hid hagent.1).row, (h.reserved agent id hid hagent.1).unrecorded⟩
    · rcases mem_append.mp hr with hr | hr
      · exact h.settled r hr id hid
      · cases mem_singleton.mp hr
        cases hnone.symm.trans hid

/-! ### The loop -/

def refusal : Except Err FirmReport → Option Err :=
  Gathering.refusal (fault snapshot) firmOf (.store "A sealed report cannot be replaced") (sealed.map some)

theorem refusal_ok_eq_none {snapshot : ResearchSnapshot} {sealed : List Firm} :
    refusal snapshot sealed (.ok report) = none ↔ admitReport snapshot report = .ok () ∧ report.firm ∉ sealed := by
  have hfault : fault snapshot (.ok report) = none ↔ admitReport snapshot report = .ok () := by
    unfold fault
    dsimp only
    split <;> simp_all
  rw [refusal, Gathering.refusal_eq_none, hfault]
  simp [firmOf]

theorem takeResult_refused (hready : Ready p db₀ job) (h : Progress p db₀ taken db) {result : Except Err FirmReport} {e : Err}
    (hrefused : refusal p.snapshot (p.sealedIn db) result = some e) : p.takeResult n db result = (db, .error e) := by
  cases result with
  | error e' =>
    cases hrefused
    rfl
  | ok report =>
    have hseal : p.sealReport n db report = .error e := by
      cases haccepted : admitReport p.snapshot report with
      | error e' =>
        rw [sealReport, bind_of_error haccepted]
        simp only [refusal, Gathering.refusal, fault, haccepted, Option.some.injEq] at hrefused
        rw [hrefused]
      | ok _ =>
        rw [sealReport_eq hready h haccepted]
        simp only [refusal, Gathering.refusal, fault, haccepted, firmOf] at hrefused
        obtain ⟨hmem, heq⟩ := Option.ite_none_right_eq_some.mp hrefused
        rw [if_pos (by simpa using hmem), Option.some.inj heq]
    simp only [takeResult, hseal]

theorem takeResult_admitted (hready : Ready p db₀ job) (h : Progress p db₀ taken db) {result : Except Err FirmReport}
    (hadmitted : refusal p.snapshot (p.sealedIn db) result = none) :
    ∃ report db', result = .ok report ∧ p.takeResult n db result = (db', .ok ()) ∧
      Progress p db₀ (taken ++ [report]) db' := by
  cases result with
  | error e => cases hadmitted
  | ok report =>
    obtain ⟨haccepted, hnew⟩ := refusal_ok_eq_none.mp hadmitted
    obtain ⟨db', hpay, hprogress⟩ := Progress.next (n := n) hready h hnew
    refine ⟨report, db', rfl, ?_, hprogress⟩
    simp only [takeResult, sealReport_eq hready h haccepted, if_neg hnew, hpay]

def lockEnd (p : FirstPass) (db : Database E) : Database E × Except Err Unit :=
  match lockFirstPass db p.handle p.jobId p.locking p.lockedAt p.updatedAt with
  | .error e => (db, .error e)
  | .ok db' => (db', .ok ())

theorem collect_gather (hready : Ready p db₀ job) :
    ∀ (results : List (Except Err FirmReport)) {n : Nat} {taken : List FirmReport} {db : Database E},
      Progress p db₀ taken db → ∃ (reports : List FirmReport) (db' : Database E),
        (gather p.snapshot (p.sealedIn db) results).1 = reports.map .ok ∧ Progress p db₀ (taken ++ reports) db' ∧
        p.collect n db results = match (gather p.snapshot (p.sealedIn db) results).2 with
          | some e => (db', .error e)
          | none => p.lockEnd db'
  | [], n, taken, db, h => ⟨[], db, rfl, by simpa using h, rfl⟩
  | result :: rest, n, taken, db, h => by
    cases hrefusal : refusal p.snapshot (p.sealedIn db) result with
    | some e =>
      refine ⟨[], db, ?_, by simpa using h, ?_⟩
      · rw [gather, Gathering.gather_of_refused hrefusal]
        rfl
      · rw [gather, Gathering.gather_of_refused hrefusal, collect, takeResult_refused hready h hrefusal]
    | none =>
      obtain ⟨report, db', rfl, htake, hprogress⟩ := takeResult_admitted hready h hrefusal
      obtain ⟨reports, db'', hreports, hend, hcollect⟩ := collect_gather hready rest hprogress
      have hseen : (p.sealedIn db').map some = (p.sealedIn db).map some ++ [firmOf (.ok report)] := by
        rw [hprogress.sealedIn, h.sealedIn]
        simp [firmOf]
      have hgather : gather p.snapshot (p.sealedIn db) (.ok report :: rest) =
          (.ok report :: (gather p.snapshot (p.sealedIn db') rest).1, (gather p.snapshot (p.sealedIn db') rest).2) := by
        rw [gather, Gathering.gather_of_admitted hrefusal, gather, hseen]
      refine ⟨report :: reports, db'', ?_, ?_, ?_⟩
      · rw [hgather, hreports]
        rfl
      · simpa using hend
      · rw [hgather, collect, htake]
        exact hcollect

/-! ### The lock -/

def Covers : Prop :=
  (∀ f ∈ sealed, f ∈ snapshot.requiredFirstPassFirms) ∧ ∀ f ∈ snapshot.requiredFirstPassFirms, f ∈ sealed
  deriving Decidable

def barrierError : Err := .barrierNotLocked "All configured independent reports must be persisted before locking"

theorem lockEnd_spec (hready : Ready p db₀ job) (h : Progress p db₀ taken db) :
    (p.lockEnd db).1.reports = db.reports ∧ (p.lockEnd db).1.reservations = db.reservations ∧
      (p.lockEnd db).2 = if Covers p.snapshot (p.sealedIn db) then .ok () else .error barrierError := by
  have howned : owned db p.handle p.jobId p.locking = .ok job :=
    owned_eq_ok.mpr ⟨(h.job? p.jobId).trans hready.found, hready.locking⟩
  have hlock : lockFirstPass db p.handle p.jobId p.locking p.lockedAt p.updatedAt =
      if Covers p.snapshot (p.sealedIn db) then .ok (db.apply p.jobId { job := fun j =>
        { j with status := .firstPassLocked, currentStage := .firstPassLocked, lockedAt := some p.lockedAt,
                 updatedAt := p.updatedAt } }) else .error barrierError := by
    rw [lockFirstPass, claimed, bind_of_ok howned]
    simp only [h.frozenSnapshot, bind_of_ok (hready.frozen _), hready.stage.1, true_and]
    by_cases hcovers : Covers p.snapshot (p.sealedIn db)
    · rw [if_pos hcovers]
      refine bind_eq_ok.mpr ⟨_, bind_eq_ok.mpr ⟨(), require_eq_ok.mpr hcovers, rfl⟩, ?_⟩
      have hk := h.keyed
      refine bind_eq_ok.mpr ⟨(), require_eq_ok.mpr ?_, rfl⟩
      exact ⟨by simpa [apply] using hk.snapshots, by simpa [apply] using hk.reports,
        by simpa [apply] using hk.artifacts, by simpa [apply] using hk.packets,
        by simpa [apply] using hk.signals⟩
    · rw [if_neg hcovers]
      refine bind_eq_error.mpr (.inl (bind_eq_error.mpr (.inl ?_)))
      exact require_eq_error.mpr ⟨hcovers, rfl⟩
  unfold lockEnd
  rw [hlock]
  by_cases hcovers : Covers p.snapshot (p.sealedIn db)
  · simp [hcovers, apply]
  · simp [hcovers]

theorem covers_congr {snapshot : ResearchSnapshot} {sealed sealed' : List Firm} (h : ∀ f, f ∈ sealed ↔ f ∈ sealed') :
    Covers snapshot sealed ↔ Covers snapshot sealed' := by
  simp only [Covers, h]

def verdict : Except Err Unit :=
  if Covers snapshot sealed then .ok () else .error barrierError

def Paid (p : FirstPass) (db : Database E) (report : FirmReport) : Prop :=
  ∀ id, p.reservations report.firm.name = some id →
    ∃ row, db.reservation? id = some row ∧ row.usage = some report.usage

theorem collect_end (hready : Ready p db job)
    (results : List (Except Err FirmReport)) :
    ∃ reports : List FirmReport, (gather p.snapshot (p.sealedIn db) results).1 = reports.map .ok ∧
      (∀ row, row ∈ (p.collect 0 db results).1.reports ↔ row ∈ db.reports ∨ row ∈ reports.map p.rowOf) ∧
      (∀ report ∈ reports, Paid p (p.collect 0 db results).1 report) ∧
      (p.collect 0 db results).2 = match (gather p.snapshot (p.sealedIn db) results).2 with
        | some e => .error e
        | none => verdict p.snapshot (p.sealedIn db ++ reports.map (·.firm)) := by
  obtain ⟨reports, db', hreports, hprogress, hcollect⟩ := collect_gather hready results (.start hready)
  rw [nil_append] at hprogress
  refine ⟨reports, hreports, ?_⟩
  obtain ⟨hsame, hreservations, houtcome⟩ := lockEnd_spec hready hprogress
  rw [hcollect]
  cases (gather p.snapshot (p.sealedIn db) results).2 with
  | some e =>
    refine ⟨fun row => ?_, hprogress.settled, rfl⟩
    rw [hprogress.reports, mem_append]
  | none =>
    refine ⟨fun row => ?_, fun report hreport id hid => ?_, ?_⟩
    · rw [hsame, hprogress.reports, mem_append]
    · obtain ⟨row, hrow, husage⟩ := hprogress.settled report hreport id hid
      refine ⟨row, ?_, husage⟩
      rwa [reservation?, hreservations]
    · rw [houtcome, hprogress.sealedIn, verdict]

/-! ### Orders of completion -/

/-- The first pass has the firms that it needs, and only required ones are sealed. -/
def Configured (p : FirstPass) (firms : List FirmCall) : Prop :=
  firms.length = p.snapshot.requiredFirstPassFirms.length ∧ ∀ f ∈ p.sealedFirms, f ∈ p.snapshot.requiredFirstPassFirms

variable {firms : List FirmCall}

theorem run_configured (h : p.Configured firms) (completed : List FirmCall) :
    p.run db firms completed = p.collect 0 db (completed.map (·.outcome)) := by
  rw [run, if_neg (not_not.mpr h.1), if_neg]
  rintro ⟨f, hf, hunknown⟩
  exact hunknown (h.2 f hf)

theorem run_unconfigured (h : ¬ p.Configured firms) (completed completed' : List FirmCall) :
    p.run db firms completed = p.run db firms completed' := by
  simp only [run]
  split
  · rfl
  next hlength =>
    have hunknown : ∃ f ∈ p.sealedFirms, f ∉ p.snapshot.requiredFirstPassFirms := by
      by_contra hknown
      refine h ⟨not_not.mp hlength, fun f hf => ?_⟩
      by_contra hunknown
      exact hknown ⟨f, hf, hunknown⟩
    rw [if_pos hunknown, if_pos hunknown]

/-- The end of the first pass is the same in every order of completion, and no admissible report is lost or unpaid. -/
structure OrderFree (p : FirstPass) (db : Database E) (firms : List FirmCall) : Prop where
  same : ∀ completed completed', completed.Perm (p.submitted firms) → completed'.Perm (p.submitted firms) →
    (p.run db firms completed).2 = (p.run db firms completed').2 ∧
      ∀ row, row ∈ (p.run db firms completed).1.reports ↔ row ∈ (p.run db firms completed').1.reports
  kept : p.Configured firms → ∀ completed, completed.Perm (p.submitted firms) → ∀ call ∈ p.submitted firms, ∀ report,
    call.outcome = .ok report → admitReport p.snapshot report = .ok () → report.firm ∉ p.sealedIn db →
      p.rowOf report ∈ (p.run db firms completed).1.reports ∧ Paid p (p.run db firms completed).1 report

/-- All calls return admissible reports of different firms, or all end in the same way, or all are refused for the same
    reason. -/
def Uniform (p : FirstPass) (db : Database E) (firms : List FirmCall) : Prop :=
  Gathering.Uniform (fault p.snapshot) firmOf (.store "A sealed report cannot be replaced") ((p.sealedIn db).map some)
    ((p.submitted firms).map (·.outcome))

theorem orderFree_of_uniform (hready : Ready p db job)
    (hconfigured : p.Configured firms) (h : p.Uniform db firms) : p.OrderFree db firms where
  same completed completed' hp hp' := by
    rw [run_configured hconfigured, run_configured hconfigured]
    obtain ⟨⟨hfirst, hsecond⟩, -⟩ := h.perm (hp.map (·.outcome))
    obtain ⟨⟨hfirst', hsecond'⟩, -⟩ := h.perm (hp'.map (·.outcome))
    obtain ⟨reports, hreports, hrows, -, houtcome⟩ := collect_end hready (completed.map (·.outcome))
    obtain ⟨reports', hreports', hrows', -, houtcome'⟩ := collect_end hready (completed'.map (·.outcome))
    have hmem : ∀ report, report ∈ reports ↔ report ∈ reports' := by
      intro report
      have hgathered := (hfirst.trans hfirst'.symm).mem_iff (a := .ok report)
      rw [← gather, ← gather, hreports, hreports'] at hgathered
      simpa using hgathered
    have hend : (gather p.snapshot (p.sealedIn db) (completed.map (·.outcome))).2 =
        (gather p.snapshot (p.sealedIn db) (completed'.map (·.outcome))).2 := hsecond.trans hsecond'.symm
    constructor
    · rw [houtcome, houtcome', hend]
      cases (gather p.snapshot (p.sealedIn db) (completed'.map (·.outcome))).2 with
      | some e => rfl
      | none =>
        have hfirms : ∀ f, f ∈ p.sealedIn db ++ reports.map (·.firm) ↔ f ∈ p.sealedIn db ++ reports'.map (·.firm) := by
          simp [hmem]
        simp only [verdict, covers_congr hfirms]
    · intro row
      rw [hrows, hrows']
      simp only [mem_map, hmem]
  kept _ completed hp call hcall report hreport haccepted hnew := by
    rw [run_configured hconfigured]
    obtain ⟨reports, hreports, hrows, hpaid, -⟩ := collect_end hready (completed.map (·.outcome))
    have hgathered := (h.perm (hp.map (·.outcome))).2 (.ok report) (hreport ▸ mem_map_of_mem hcall)
      (refusal_ok_eq_none.mpr ⟨haccepted, hnew⟩)
    rw [← gather, hreports] at hgathered
    have hmem : report ∈ reports := by simpa using hgathered
    exact ⟨(hrows _).mpr (.inr (mem_map_of_mem hmem)), hpaid report hmem⟩

theorem uniform_of_orderFree (hready : Ready p db job)
    (hconfigured : p.Configured firms) (h : p.OrderFree db firms) : p.Uniform db firms := by
  refine Gathering.uniform_of_orders fun l l' hl hl' => ?_
  obtain ⟨completed, hp, rfl⟩ := Gathering.exists_perm_map hl
  obtain ⟨completed', hp', rfl⟩ := Gathering.exists_perm_map hl'
  obtain ⟨hsame, hrowsSame⟩ := h.same completed completed' hp hp'
  rw [run_configured hconfigured, run_configured hconfigured] at hsame hrowsSame
  obtain ⟨reports, hreports, hrows, -, houtcome⟩ := collect_end hready (completed.map (·.outcome))
  obtain ⟨reports', hreports', hrows', -, houtcome'⟩ := collect_end hready (completed'.map (·.outcome))
  rw [← gather, ← gather]
  constructor
  · intro result hresult
    have hadmitted : refusal p.snapshot (p.sealedIn db) result = none := Gathering.admitted_of_mem_gather hresult
    rw [hreports] at hresult
    obtain ⟨report, hreport, rfl⟩ := mem_map.mp hresult
    have hrow : p.rowOf report ∈ (p.collect 0 db (completed'.map (·.outcome))).1.reports :=
      (hrowsSame _).mp ((hrows _).mpr (.inr (mem_map_of_mem hreport)))
    rcases (hrows' _).mp hrow with hold | hnew
    · -- a gathered report is not one that was sealed before
      refine absurd ?_ (refusal_ok_eq_none.mp hadmitted).2
      exact mem_sealedIn.mpr (mem_map_of_mem hold)
    · obtain ⟨report', hreport', heq⟩ := mem_map.mp hnew
      obtain rfl : report' = report := congrArg ReportRow.report heq
      rw [hreports']
      exact mem_map_of_mem hreport'
  · intro e e' he he'
    rw [he] at houtcome
    rw [he'] at houtcome'
    cases (houtcome.symm.trans hsame).trans houtcome'
    rfl

/-- The first pass does not depend on the order of completion exactly if its results are uniform. -/
theorem first_pass_order_free_iff (hready : Ready p db job)
    (firms : List FirmCall) : p.OrderFree db firms ↔ (p.Configured firms → p.Uniform db firms) := by
  constructor
  · exact fun h hconfigured => uniform_of_orderFree hready hconfigured h
  · intro h
    by_cases hconfigured : p.Configured firms
    · exact orderFree_of_uniform hready hconfigured (h hconfigured)
    · refine ⟨fun completed completed' _ _ => ?_, fun hyes => absurd hyes hconfigured⟩
      rw [run_unconfigured hconfigured completed completed']
      exact ⟨rfl, fun _ => Iff.rfl⟩

end

/-! ### A failure that loses a report -/

def reservedPass : Database plainEnv :=
  (System.after plainEnv ((firstPass.take 5).map Op.store ++ [.reserveMany holder {} atIssue clearedRequest.issuedAt
    [firmRequest "research" "tradingagents" "first", firmRequest "research" "ai_hedge_fund" "second"]])).db

def referencePass : FirstPass where
  handle := holder
  jobId := "research"
  snapshot := clearedRequest.snapshot
  reservations agent := if agent = "tradingagents" then some "first" else if agent = "ai_hedge_fund" then some "second" else none
  saving _ := atIssue
  settling _ := atIssue
  locking := atIssue
  lockedAt := clearedRequest.issuedAt
  updatedAt := clearedRequest.issuedAt

def timedOut : List FirmCall :=
  [{ firm := some "tradingagents", outcome := .ok (sampleReport .tradingagents) },
   { firm := some "ai_hedge_fund", outcome := .error (.transient "PROVIDER_TIMEOUT") }]

/-- The report is sealed if its firm is the first to complete, and lost otherwise; both runs end in the same way. -/
theorem completion_order_loses_report :
    (referencePass.run reservedPass timedOut timedOut).1.reports.map (·.firm) = [.tradingagents] ∧
    (referencePass.run reservedPass timedOut timedOut.reverse).1.reports = [] ∧
    (referencePass.run reservedPass timedOut timedOut).2.toOption = none ∧
    (referencePass.run reservedPass timedOut timedOut.reverse).2.toOption = none := by
  decide +kernel

def passJob : Job := (reservedPass.job? "research").get (by decide +kernel)

theorem frozenSnapshot_any {Doc : Type} {E : Env Doc} {db : Database E} {job : Job} {s : ResearchSnapshot} {missing : Err}
    (h : frozenSnapshot db job missing = .ok s) (missing' : Err) : frozenSnapshot db job missing' = .ok s := by
  simp only [frozenSnapshot, ok_iff] at h ⊢
  exact h

theorem reservedPass_values :
    Holds holder passJob atIssue ∧ frozenSnapshot reservedPass passJob .absent = .ok clearedRequest.snapshot ∧
    (∀ w ∈ holder.workspaceId, passJob.workspaceId = w) ∧
    (passJob.status = .firstPassResearch ∧ passJob.lockedAt = none) ∧
    passJob.snapshotId = some clearedRequest.snapshot.snapshotId ∧ reservedPass.Keyed ∧
    ownership reservedPass passJob = .ok none ∧
    (∀ id ∈ ["first", "second"],
      (reservedPass.reservation? id).map (fun row => (row.jobId, row.usage)) = some ("research", none)) ∧
    reservedPass.calls = [] := by
  decide +kernel

theorem referencePass_open (id : String) (hid : id = "first" ∨ id = "second") : Open reservedPass "research" id := by
  obtain ⟨-, -, -, -, -, -, -, hrows, hnone⟩ := reservedPass_values
  obtain ⟨row, hrow, hvalues⟩ := Option.map_eq_some_iff.mp (hrows id (by simpa using hid))
  obtain ⟨hjob, husage⟩ := Prod.mk.inj hvalues
  exact ⟨⟨row, hrow, hjob, husage⟩, by simp [hnone]⟩

theorem referencePass_ready : referencePass.Ready reservedPass passJob := by
  obtain ⟨hheld, hfrozen, hworkspace, hstage, hsnapshot, hkeyed, howner, -, -⟩ := reservedPass_values
  refine ⟨(Option.some_get _).symm, fun _ => hheld, fun _ => hheld, hheld, hworkspace, hstage, hsnapshot,
    frozenSnapshot_any hfrozen, hkeyed, ⟨none, howner⟩, fun agent id h => ?_, fun agent agent' id id' h h' hash => ?_⟩
  · refine referencePass_open id ?_
    simp only [referencePass] at h
    split at h
    · exact .inl (Option.some.inj h).symm
    · obtain ⟨-, h⟩ := Option.ite_none_right_eq_some.mp h
      exact .inr (Option.some.inj h).symm
  · simp only [referencePass] at h h'
    rcases ite_eq_iff.mp h with ⟨hagent, hid⟩ | ⟨-, h⟩ <;> rcases ite_eq_iff.mp h' with ⟨hagent', hid'⟩ | ⟨-, h'⟩
    · rw [hagent, hagent']
    · obtain ⟨-, hid'⟩ := Option.ite_none_right_eq_some.mp h'
      cases hid
      cases hid'
      exact absurd hash (by decide)
    · obtain ⟨-, hid⟩ := Option.ite_none_right_eq_some.mp h
      cases hid
      cases hid'
      exact absurd hash (by decide)
    · obtain ⟨hagent, -⟩ := Option.ite_none_right_eq_some.mp h
      obtain ⟨hagent', -⟩ := Option.ite_none_right_eq_some.mp h'
      rw [hagent, hagent']

/-- Two reports of different firms are sealed and paid for in every order. -/
theorem first_pass_order_free_iff_returned :
    referencePass.OrderFree reservedPass [
      { firm := some "tradingagents", outcome := .ok (sampleReport .tradingagents) },
      { firm := some "ai_hedge_fund", outcome := .ok (sampleReport .aiHedgeFund) }] := by
  refine (first_pass_order_free_iff referencePass_ready _).mpr fun _ => .inl ⟨?_, ?_⟩
  · decide +kernel
  · decide +kernel

end FirstPass
end Money
