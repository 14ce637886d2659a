import Money.Theorems.Fencing

/-! A batch of reservations is admitted as a whole or not at all, an identity never twice, and settlements and
    reconciliations lead to the same table in any order and repetition. -/

namespace Money
open Checked List Rows Reservation Money.System

variable {Doc : Type} {E : Env Doc}

/-! ### Rows settled once -/

def Reservation.once (U : String → Usage) (ids : List String) (r : Reservation) : Reservation :=
  if r.usage = none ∧ r.id ∈ ids then r.settled (U r.id) else r

variable {r row : Reservation} {rows : List Reservation}

section
variable {U : String → Usage} {ids : List String}

namespace Reservation

@[simp] theorem once_id (r : Reservation) : (r.once U ids).id = r.id := by
  unfold once
  split <;> rfl

@[simp] theorem once_jobId (r : Reservation) : (r.once U ids).jobId = r.jobId := by
  unfold once
  split <;> rfl

@[simp] theorem once_agent (r : Reservation) : (r.once U ids).agent = r.agent := by
  unfold once
  split <;> rfl

@[simp] theorem once_stage (r : Reservation) : (r.once U ids).stage = r.stage := by
  unfold once
  split <;> rfl

@[simp] theorem once_createdAt (r : Reservation) : (r.once U ids).createdAt = r.createdAt := by
  unfold once
  split <;> rfl

theorem once_of_usage {u : Usage} (h : r.usage = some u) : r.once U ids = r := by
  simp [once, h]

theorem once_of_notMem (h : r.id ∉ ids) : r.once U ids = r := by
  simp [once, h]

theorem once_of_mem (h : r.usage = none) (hid : r.id ∈ ids) : r.once U ids = r.settled (U r.id) := by
  simp [once, h, hid]

@[simp] theorem once_nil (r : Reservation) : r.once U [] = r := by simp [once]

theorem once_append_of {new : List String}
    (h : r.id ∈ new → r.usage ≠ none ∨ r.id ∈ ids) : r.once U (ids ++ new) = r.once U ids := by
  unfold once
  by_cases hold : r.id ∈ ids
  · simp [hold]
  · by_cases hnew : r.id ∈ new
    · have hsettled : r.usage ≠ none := (h hnew).resolve_right hold
      simp [hsettled]
    · simp [hold, hnew]

end Reservation

theorem map_once_update (hn : (rows.map (·.id)).Nodup) (mem : row ∈ rows) (hnone : row.usage = none) (hnew : row.id ∉ ids) :
    Rows.update Reservation.id (rows.map (·.once U ids)) row.id (Reservation.settled (U row.id)) =
      rows.map (·.once U (ids ++ [row.id])) := by
  rw [Rows.update, map_map]
  refine map_congr_left fun r hr => ?_
  simp only [Function.comp_apply, once_id]
  by_cases hid : r.id = row.id
  · obtain rfl : r = row := inj_on_of_nodup_map hn hr mem hid
    rw [if_pos rfl, once_of_notMem hnew, once_of_mem hnone (by simp)]
  · rw [if_neg hid, once_append_of]
    intro hmem
    exact absurd (mem_singleton.mp hmem) hid

end

/-- The aggregate record of a usage is not needed, not there yet, or there as it is. -/
def Recordable (db : Database E) (row : Reservation) (usage : Usage) (job : Job) : Prop :=
  (∃ c ∈ db.calls, c.reservationId = some row.id ∧ c.kind = .inferenceCall) ∨
    ∃ user, ownership db job = .ok user ∧ ∀ c,
      db.calls.find? (fun c => c.invocationId = E.aggregateHash row.id ∧ c.sequence = 0) = some c →
        c = reportedUsage E row usage job user

variable {db : Database E} {job : Job} {r' : Reservation} {jobId : String} {rows' : List Reservation} {l : BudgetLimits}
  {now : Int} {op : Op Doc} {s : System E} {U : String → Usage}

theorem insertCall_isOk {row : CallRow} : (∃ db', insertCall db row = .ok db') ↔
    ∀ c, db.calls.find? (fun c => c.invocationId = row.invocationId ∧ c.sequence = row.sequence) = some c → c = row := by
  unfold insertCall
  split
  next previous hprevious =>
    simp only [hprevious, ok_iff, Option.some.injEq, forall_eq']
    exact ⟨fun ok => ok.choose_spec.1, fun h => ⟨_, h, rfl⟩⟩
  next hnone =>
    rw [hnone]
    exact ⟨fun _ _ h => (by cases h), fun _ => ⟨_, rfl⟩⟩

variable {usage : Usage}

theorem recordReportedUsage_isOk : (∃ db', recordReportedUsage db row usage job = .ok db') ↔ Recordable db row usage job := by
  unfold recordReportedUsage Recordable
  by_cases hcall : ∃ c ∈ db.calls, c.reservationId = some row.id ∧ c.kind = .inferenceCall
  · simp [hcall]
  · simp only [hcall, if_false, false_or, bind_eq_ok]
    constructor
    · rintro ⟨db', user, huser, hok⟩
      exact ⟨user, huser, insertCall_isOk.mp ⟨db', hok⟩⟩
    · rintro ⟨user, huser, hfree⟩
      have hinsert : ∃ db', insertCall db (reportedUsage E row usage job user) = .ok db' := insertCall_isOk.mpr hfree
      obtain ⟨db', hok⟩ := hinsert
      exact ⟨db', user, huser, hok⟩

theorem settleRow_isOk : (∃ db', settleRow db row usage = .ok db') ↔
    row.usage = some usage ∨ row.usage = none ∧ ∃ job, db.job? row.jobId = some job ∧ Recordable db row usage job := by
  unfold settleRow
  split
  next recorded hrecorded =>
    simp only [ok_iff, hrecorded, Option.some.injEq, reduceCtorEq, false_and, or_false]
    exact ⟨fun ok => ok.choose_spec.1, fun h => ⟨_, h, rfl⟩⟩
  next hnone =>
    simp only [ok_iff, hnone, reduceCtorEq, false_or, true_and]
    constructor
    · rintro ⟨db', job, hjob, hok⟩
      have hfree := recordReportedUsage_isOk.mp ⟨db', hok⟩
      exact ⟨job, hjob, hfree⟩
    · rintro ⟨job, hjob, hfree⟩
      have hrecord : ∃ db', recordReportedUsage { db with
          reservations := Rows.update Reservation.id db.reservations row.id (Reservation.settled usage) } row usage job =
          .ok db' := recordReportedUsage_isOk.mpr hfree
      obtain ⟨db', hok⟩ := hrecord
      exact ⟨db', job, hjob, hok⟩

/-! ### Databases that differ by settlements -/

/-- No two reservations have one aggregate hash. -/
def HashesApart (db : Database E) : Prop :=
  ∀ a ∈ db.reservations, ∀ b ∈ db.reservations, E.aggregateHash a.id = E.aggregateHash b.id → a.id = b.id
  deriving Decidable

/-- The database is the first one with some of its reservations settled once, as could have been done at first. -/
structure Settling (U : String → Usage) (db₀ : Database E) (ids : List String) (db : Database E) : Prop where
  frame : db = { db₀ with reservations := db₀.reservations.map (·.once U ids), calls := db.calls }
  calls : ∃ new, db.calls = db₀.calls ++ new ∧
    ∀ c ∈ new, c.kind = .reportedUsage ∧ ∃ r ∈ db₀.reservations, r.id ∈ ids ∧ c.invocationId = E.aggregateHash r.id
  settles : ∀ row ∈ db₀.reservations, row.id ∈ ids → ∃ db', settleRow db₀ row (U row.id) = .ok db'

section
variable {U : String → Usage} {db₀ db : Database E} {ids : List String}

theorem Settling.refl (U : String → Usage) (db : Database E) : Settling U db [] db where
  frame := by
    have hsame : db.reservations.map (·.once U []) = db.reservations :=
      (map_congr_left fun r _ => once_nil r).trans (map_id _)
    rw [hsame]
  calls := ⟨[], by simp, by simp⟩
  settles _ _ h := nomatch h

section
variable (h : Settling U db₀ ids db)
include h

theorem Settling.reservations :
    db.reservations = db₀.reservations.map (·.once U ids) := by rw [h.frame]

theorem Settling.jobs : db.jobs = db₀.jobs := by rw [h.frame]

theorem Settling.job? (jobId : String) : db.job? jobId = db₀.job? jobId := by
  rw [Database.job?, h.jobs, Database.job?]

theorem Settling.more {new : List String}
    (hnew : ∀ row ∈ db₀.reservations, row.id ∈ new → row.usage ≠ none ∨ row.id ∈ ids)
    (hsettles : ∀ row ∈ db₀.reservations, row.id ∈ new → ∃ db', settleRow db₀ row (U row.id) = .ok db') :
    Settling U db₀ (ids ++ new) db where
  frame := by
    have hsame : db₀.reservations.map (·.once U (ids ++ new)) = db₀.reservations.map (·.once U ids) :=
      map_congr_left fun row hrow => once_append_of (hnew row hrow)
    rw [hsame]
    exact h.frame
  calls := by
    obtain ⟨rows, hrows, hcalls⟩ := h.calls
    refine ⟨rows, hrows, fun c hc => ?_⟩
    obtain ⟨hkind, r, hr, hid, hhash⟩ := hcalls c hc
    exact ⟨hkind, r, hr, mem_append_left _ hid, hhash⟩
  settles row hrow hid := by
    rcases mem_append.mp hid with hid | hid
    · exact h.settles row hrow hid
    · exact hsettles row hrow hid

theorem Settling.recordable (apart : HashesApart db₀) (mem : row ∈ db₀.reservations)
    (hnew : row.id ∉ ids) {job : Job} : Recordable db row usage job ↔ Recordable db₀ row usage job := by
  obtain ⟨new, hcalls, hreported⟩ := h.calls
  have hinference : (∃ c ∈ db.calls, c.reservationId = some row.id ∧ c.kind = .inferenceCall) ↔
      ∃ c ∈ db₀.calls, c.reservationId = some row.id ∧ c.kind = .inferenceCall := by
    rw [hcalls]
    constructor
    · rintro ⟨c, hc, hid, hkind⟩
      rcases mem_append.mp hc with hc | hc
      · exact ⟨c, hc, hid, hkind⟩
      · exact absurd ((hreported c hc).1.symm.trans hkind) nofun
    · rintro ⟨c, hc, hid, hkind⟩
      exact ⟨c, mem_append_left _ hc, hid, hkind⟩
  have hfind : db.calls.find? (fun c => c.invocationId = E.aggregateHash row.id ∧ c.sequence = 0) =
      db₀.calls.find? fun c => c.invocationId = E.aggregateHash row.id ∧ c.sequence = 0 := by
    have hnone : new.find? (fun c => c.invocationId = E.aggregateHash row.id ∧ c.sequence = 0) = none := by
      refine List.find?_eq_none.mpr fun c hc hmatch => ?_
      obtain ⟨-, r, hr, hid, hhash⟩ := hreported c hc
      exact hnew (apart r hr row mem (hhash.symm.trans (of_decide_eq_true hmatch).1) ▸ hid)
    rw [hcalls, List.find?_append, hnone, Option.or_none]
  have howner : ownership db job = ownership db₀ job := by
    rw [h.frame]
    rfl
  rw [Recordable, Recordable, hinference, hfind, howner]

theorem Settling.settleRow (apart : HashesApart db₀)
    (hn : (db₀.reservations.map (·.id)).Nodup) (mem : row ∈ db₀.reservations) :
    ((∃ db', settleRow db (row.once U ids) (U row.id) = .ok db') ↔ ∃ db', settleRow db₀ row (U row.id) = .ok db') ∧
      ∀ db', settleRow db (row.once U ids) (U row.id) = .ok db' → Settling U db₀ (ids ++ [row.id]) db' := by
  have hone : ∀ r ∈ db₀.reservations, r.id ∈ [row.id] → r = row := fun r hr hid =>
    inj_on_of_nodup_map hn hr mem (mem_singleton.mp hid)
  by_cases hfresh : row.usage = none ∧ row.id ∉ ids
  · -- The first settlement of the row.
    obtain ⟨hnone, hnew⟩ := hfresh
    rw [once_of_notMem hnew]
    have hiff : (∃ db', Money.settleRow db row (U row.id) = .ok db') ↔ ∃ db', Money.settleRow db₀ row (U row.id) = .ok db' := by
      rw [settleRow_isOk, settleRow_isOk, h.job?]
      simp only [h.recordable apart mem hnew]
    refine ⟨hiff, fun db' hok => ?_⟩
    have hsettles := hiff.mp ⟨db', hok⟩
    rcases settleRow_ok hok with ⟨hsome, -⟩ | ⟨-, new, hreported, rfl⟩
    · exact absurd (hnone.symm.trans hsome) nofun
    · obtain ⟨old, hold, hcalls⟩ := h.calls
      refine ⟨?_, ⟨old ++ new, by rw [hold, append_assoc], fun c hc => ?_⟩, fun r hr hid => ?_⟩
      · rw [h.reservations, map_once_update hn mem hnone hnew]
        rw [h.frame]
      · rcases mem_append.mp hc with hc | hc
        · obtain ⟨hkind, r, hr, hid, hhash⟩ := hcalls c hc
          exact ⟨hkind, r, hr, mem_append_left _ hid, hhash⟩
        · obtain ⟨job, user, -, rfl⟩ := hreported c hc
          exact ⟨rfl, row, mem, by simp, rfl⟩
      · rcases mem_append.mp hid with hid | hid
        · exact h.settles r hr hid
        · rw [hone r hr hid]
          exact hsettles
  · -- A usage is recorded already: the settlement repeats it or is refused, and changes nothing.
    have hrecorded : ∃ u, (row.once U ids).usage = some u ∧
        ((∃ db', Money.settleRow db₀ row (U row.id) = .ok db') ↔ u = U row.id) := by
      cases husage : row.usage with
      | some u =>
        refine ⟨u, by rw [once_of_usage husage, husage], ?_⟩
        rw [settleRow_isOk, husage]
        simp
      | none =>
        have hmem : row.id ∈ ids := by
          by_contra hnew
          exact hfresh ⟨husage, hnew⟩
        exact ⟨U row.id, by rw [once_of_mem husage hmem]; rfl, fun _ => rfl, fun _ => h.settles row mem hmem⟩
    obtain ⟨u, husage, hiff⟩ := hrecorded
    have hiff' : (∃ db', Money.settleRow db (row.once U ids) (U row.id) = .ok db') ↔
        ∃ db', Money.settleRow db₀ row (U row.id) = .ok db' := by
      rw [settleRow_isOk, husage, hiff]
      simp
    refine ⟨hiff', fun db' hok => ?_⟩
    have hsettles := hiff'.mp ⟨db', hok⟩
    rcases settleRow_ok hok with ⟨-, rfl⟩ | ⟨hnone, -⟩
    · refine h.more (fun r hr hid => ?_) fun r hr hid => ?_
      · rw [hone r hr hid]
        by_contra hcontra
        rw [not_or, not_not] at hcontra
        exact hfresh hcontra
      · rw [hone r hr hid]
        exact hsettles
    · exact absurd (husage.symm.trans hnone) nofun

end

end

/-! ### Operations in any order -/

/-- An operation that succeeds after settlements exactly if it does at first, and then settles its targets once. -/
def Tracks (U : String → Usage) (db₀ : Database E) (f : Database E → Except Err (Database E)) (targets : List String) : Prop :=
  ∀ ids db, Settling U db₀ ids db →
    ((∃ db', f db = .ok db') ↔ ∃ db', f db₀ = .ok db') ∧ ∀ db', f db = .ok db' → Settling U db₀ (ids ++ targets) db'

section
variable {U : String → Usage} {db₀ : Database E}

theorem Tracks.pure : Tracks U db₀ .ok [] := by
  intro ids db h
  refine ⟨⟨fun _ => ⟨_, rfl⟩, fun _ => ⟨_, rfl⟩⟩, ?_⟩
  rintro db' ⟨⟩
  rwa [append_nil]

variable {f : Database E → Except Err (Database E)} {g : Database E → Except Err (Database E)} {ids : List String}
  {db : Database E}

theorem Tracks.congr {targets : List String}
    (heq : ∀ ids db, Settling U db₀ ids db → f db = g db) (hg : Tracks U db₀ g targets) : Tracks U db₀ f targets := by
  intro ids db h
  rw [heq ids db h, heq [] db₀ (.refl U db₀)]
  exact hg ids db h

theorem Tracks.bind {targets targets' : List String} (hf : Tracks U db₀ f targets) (hg : Tracks U db₀ g targets') :
    Tracks U db₀ (fun db => f db >>= g) (targets ++ targets') := by
  -- The second one succeeds from wherever the first one leads exactly if it does at first.
  have hboth : ∀ {ids db}, Settling U db₀ ids db → ((∃ db', (f db >>= g) = .ok db') ↔
      (∃ db', f db₀ = .ok db') ∧ ∃ db', g db₀ = .ok db') := by
    intro ids db h
    simp only [bind_eq_ok]
    constructor
    · rintro ⟨db'', db', hok, hok'⟩
      exact ⟨(hf ids db h).1.mp ⟨db', hok⟩, (hg _ db' ((hf ids db h).2 db' hok)).1.mp ⟨db'', hok'⟩⟩
    · rintro ⟨hfirst, hsecond⟩
      obtain ⟨db', hok⟩ := (hf ids db h).1.mpr hfirst
      obtain ⟨db'', hok'⟩ := (hg _ db' ((hf ids db h).2 db' hok)).1.mpr hsecond
      exact ⟨db'', db', hok, hok'⟩
  intro ids db h
  refine ⟨(hboth h).trans (hboth (.refl U db₀)).symm, fun db'' hok => ?_⟩
  obtain ⟨db', hok, hok'⟩ := bind_eq_ok.mp hok
  rw [← append_assoc]
  exact (hg _ db' ((hf ids db h).2 db' hok)).2 db'' hok'

theorem Tracks.foldlM {α : Type} {f : Database E → α → Except Err (Database E)} {targets : α → List String} :
    ∀ {l : List α}, (∀ a ∈ l, Tracks U db₀ (fun db => f db a) (targets a)) →
      Tracks U db₀ (fun db => l.foldlM f db) (l.flatMap targets)
  | [], _ => Tracks.pure
  | a :: l, h => by
    have hrest := Tracks.foldlM fun b hb => h b (mem_cons_of_mem _ hb)
    have hall := (h a (mem_cons_self ..)).bind hrest
    simpa only [foldlM_cons, flatMap_cons] using hall

theorem Tracks.of_error {targets : List String}
    (h : ∀ ids db, Settling U db₀ ids db → ∃ e, f db = .error e) : Tracks U db₀ f targets := by
  have hno : ∀ {ids db}, Settling U db₀ ids db → ¬ ∃ db', f db = .ok db' := by
    rintro ids db hs ⟨db', hok⟩
    obtain ⟨e, herr⟩ := h ids db hs
    exact absurd (hok.symm.trans herr) nofun
  intro ids db hs
  exact ⟨⟨fun hok => absurd hok (hno hs), fun hok => absurd hok (hno (.refl U db₀))⟩, fun db' hok => absurd ⟨db', hok⟩ (hno hs)⟩

theorem find?_once {p : Reservation → Bool} (hp : ∀ r : Reservation, p (r.once U ids) = p r) :
    (rows.map (·.once U ids)).find? p = (rows.find? p).map (·.once U ids) := by
  rw [List.find?_map]
  congr 2
  funext r
  exact hp r

theorem latestOf_once (rows : List Reservation) (ids : List String) (jobId agent : String) :
    latestOf (rows.map (·.once U ids)) jobId agent = (latestOf rows jobId agent).map (·.once U ids) := by
  have hfilter : (rows.map (·.once U ids)).filter
      (fun r => r.jobId = jobId ∧ r.agent = agent ∧ r.stage = agentStage agent) =
      (rows.filter fun r => r.jobId = jobId ∧ r.agent = agent ∧ r.stage = agentStage agent).map (·.once U ids) := by
    rw [filter_map]
    congr 2
    funext r
    simp
  have hlater : ∀ a b : Reservation, later a b ↔ later (a.once U ids) (b.once U ids) := by
    intro a b
    simp only [later, once_createdAt, once_id]
  rw [latestOf, hfilter, ← map_insertionSort (r := later) later _ _ fun a _ b _ => hlater a b, List.head?_map, latestOf]

-- What is sealed, and who may settle, is read from tables that settlements leave alone.
theorem Settling.reads (hs : Settling U db₀ ids db) (h : Handle) (jobId : String) (r : Reads) :
    budgetJob db h jobId r = budgetJob db₀ h jobId r ∧ sealedCalls db jobId = sealedCalls db₀ jobId ∧
      sealedUsage db jobId = sealedUsage db₀ jobId := by
  rw [hs.frame]
  exact ⟨rfl, rfl, rfl⟩

def agentTarget (rows : List Reservation) (jobId : String) (entry : String × Usage) : List (String × Usage) :=
  (latestOf rows jobId entry.1).toList.map fun row => (row.id, entry.2)

theorem tracks_unreadable (h : Handle) (r : Reads) (jobId : String) (targets : List String)
    (hno : ∀ calls agents, sealedCalls db₀ jobId = .ok calls → sealedUsage db₀ jobId ≠ .ok agents) :
    Tracks U db₀ (fun db => reconcileJob db h r jobId) targets := by
  refine .of_error fun ids db hs => ?_
  cases hok : reconcileJob db h r jobId with
  | error e => exact ⟨e, rfl⟩
  | ok db' =>
    simp only [reconcileJob, bind_eq_ok] at hok
    obtain ⟨-, -, agents, hagents, calls, hcalls, -⟩ := hok
    obtain ⟨-, hcalls', hagents'⟩ := hs.reads h jobId r
    exact absurd (hagents' ▸ hagents) (hno calls agents (hcalls' ▸ hcalls))

variable (apart : HashesApart db₀) (hn : (db₀.reservations.map (·.id)).Nodup)
include apart hn

theorem Tracks.settleRow (mem : row ∈ db₀.reservations)
    (hf : ∀ ids db, Settling U db₀ ids db → f db = settleRow db (row.once U ids) (U row.id)) : Tracks U db₀ f [row.id] := by
  intro ids db h
  have hfirst := hf [] db₀ (.refl U db₀)
  rw [once_nil] at hfirst
  rw [hf ids db h, hfirst]
  exact h.settleRow apart hn mem

theorem tracks_settle (h : Handle) (r : Reads) {id : String} (husage : usage = U id) :
    Tracks U db₀ (fun db => settle db h r id usage) [id] := by
  have hfound : ∀ {ids db}, Settling U db₀ ids db →
      db.reservation? id = (db₀.reservation? id).map (·.once U ids) := by
    intro ids db hs
    rw [Database.reservation?, hs.reservations]
    exact find?_once fun row => by rw [once_id]
  cases hrow : db₀.reservation? id with
  | none =>
    refine .of_error fun ids db hs => ⟨.noResult, ?_⟩
    have hnone : db.reservation? id = none := by rw [hfound hs, hrow, Option.map_none]
    rw [settle, hnone]
    rfl
  | some row =>
    obtain ⟨mem, rfl⟩ := get?_eq_some hrow
    have hsettle : ∀ {ids db}, Settling U db₀ ids db →
        settle db h r row.id usage = budgetJob db₀ h row.jobId r >>= fun _ => settleRow db (row.once U ids) usage := by
      intro ids db hs
      have hsome : db.reservation? row.id = some (row.once U ids) := by rw [hfound hs, hrow, Option.map_some]
      have hjobId : (row.once U ids).jobId = row.jobId := once_jobId row
      rw [settle, hsome, ← (hs.reads h row.jobId r).1, ← hjobId]
      rfl
    cases hjob : budgetJob db₀ h row.jobId r with
    | error e =>
      refine .of_error fun ids db hs => ⟨e, ?_⟩
      rw [hsettle hs, hjob]
      rfl
    | ok job =>
      refine .settleRow apart hn mem fun ids db hs => ?_
      rw [hsettle hs, hjob, husage]
      rfl

theorem tracks_settleCall (jobId : String) {call : String × Usage} (husage : call.2 = U call.1) :
    Tracks U db₀ (fun db => settleCall jobId db call) [call.1] := by
  have hfound : ∀ {ids db}, Settling U db₀ ids db →
      db.reservations.find? (fun r => r.id = call.1 ∧ r.jobId = jobId) =
        (db₀.reservations.find? fun r => r.id = call.1 ∧ r.jobId = jobId).map (·.once U ids) := by
    intro ids db hs
    rw [hs.reservations]
    exact find?_once fun row => by rw [once_id, once_jobId]
  cases hrow : db₀.reservations.find? (fun r => r.id = call.1 ∧ r.jobId = jobId) with
  | none =>
    refine .of_error fun ids db hs => ⟨.noResult, ?_⟩
    rw [settleCall, hfound hs, hrow]
    rfl
  | some row =>
    have hid : row.id = call.1 ∧ row.jobId = jobId := by simpa using List.find?_some hrow
    rw [← hid.1]
    refine .settleRow apart hn (mem_of_find?_eq_some hrow) fun ids db hs => ?_
    rw [settleCall, hfound hs, hrow, hid.1, husage]
    rfl

theorem tracks_settleAgent (jobId : String) {entry : String × Usage}
    (husage : ∀ e ∈ agentTarget db₀.reservations jobId entry, e.2 = U e.1) :
    Tracks U db₀ (fun db => settleAgent jobId db entry) ((agentTarget db₀.reservations jobId entry).map (·.1)) := by
  have hfound : ∀ {ids db}, Settling U db₀ ids db → latestOf db.reservations jobId entry.1 =
      (latestOf db₀.reservations jobId entry.1).map (·.once U ids) := by
    intro ids db hs
    rw [hs.reservations, latestOf_once]
  unfold agentTarget at husage ⊢
  cases hrow : latestOf db₀.reservations jobId entry.1 with
  | none =>
    have hsame : ∀ ids db, Settling U db₀ ids db → settleAgent jobId db entry = .ok db := by
      intro ids db hs
      rw [settleAgent, hfound hs, hrow]
      rfl
    exact .congr hsame .pure
  | some row =>
    rw [hrow] at husage
    have husage : entry.2 = U row.id := husage _ (mem_singleton.mpr rfl)
    refine .settleRow apart hn (latestOf_mem hrow).1 fun ids db hs => ?_
    rw [settleAgent, hfound hs, hrow, ← husage]
    rfl

theorem tracks_reconcileJob (h : Handle) (r : Reads) (jobId : String) {calls agents : List (String × Usage)}
    (hcalls : sealedCalls db₀ jobId = .ok calls) (hagents : sealedUsage db₀ jobId = .ok agents)
    (husage : ∀ e ∈ calls ++ agents.flatMap (agentTarget db₀.reservations jobId), e.2 = U e.1) :
    Tracks U db₀ (fun db => reconcileJob db h r jobId)
      ((calls ++ agents.flatMap (agentTarget db₀.reservations jobId)).map (·.1)) := by
  have hreconcile : ∀ {ids db}, Settling U db₀ ids db → reconcileJob db h r jobId = budgetJob db₀ h jobId r >>= fun _ =>
      calls.foldlM (settleCall jobId) db >>= fun db => agents.foldlM (settleAgent jobId) db := by
    intro ids db hs
    obtain ⟨hjob, hcalls', hagents'⟩ := hs.reads h jobId r
    rw [reconcileJob, hjob, hcalls', hcalls, hagents', hagents]
    rfl
  have hboth := (Tracks.foldlM fun call hcall => tracks_settleCall apart hn jobId
    (husage call (mem_append_left _ hcall))).bind <| Tracks.foldlM fun entry hentry =>
      tracks_settleAgent apart hn jobId fun e he =>
        husage e (mem_append_right _ (mem_flatMap.mpr ⟨entry, hentry, he⟩))
  rw [← map_flatMap, ← map_eq_flatMap, ← map_append] at hboth
  cases hjob : budgetJob db₀ h jobId r with
  | error e =>
    refine .of_error fun ids db hs => ⟨e, ?_⟩
    rw [hreconcile hs, hjob]
    rfl
  | ok job =>
    refine .congr (fun ids db hs => ?_) hboth
    rw [hreconcile hs, hjob]
    rfl

end

/-- A later version of a row: the same one, or the row with its usage recorded. -/
def Reservation.Kept (r r' : Reservation) : Prop := r' = r ∨ r.usage = none ∧ ∃ u, r' = r.settled u

theorem Reservation.Kept.trans {r'' : Reservation} (h : r.Kept r') (h' : r'.Kept r'') : r.Kept r'' := by
  rcases h with rfl | ⟨hnone, u, rfl⟩
  · exact h'
  · rcases h' with rfl | ⟨hsettled, -⟩
    · exact .inr ⟨hnone, u, rfl⟩
    · exact absurd hsettled nofun

theorem Reservation.Kept.id_eq (h : r.Kept r') : r'.id = r.id := by
  rcases h with rfl | ⟨-, u, rfl⟩ <;> rfl

theorem Posting.kept (h : Posting jobId rows rows')
    (hn : (rows.map (·.id)).Nodup) (hr : r ∈ rows) : ∃ r' ∈ rows', r.Kept r' := by
  cases h with
  | admitted new => exact ⟨r, mem_append_left _ hr, .inl rfl⟩
  | settled row u owner mem unsettled =>
    refine ⟨_, mem_map_of_mem hr, ?_⟩
    by_cases hid : r.id = row.id
    · obtain rfl : r = row := inj_on_of_nodup_map hn hr mem hid
      rw [if_pos rfl]
      exact .inr ⟨unsettled, u, rfl⟩
    · rw [if_neg hid]
      exact .inl rfl

theorem posted_kept (h : Relation.ReflTransGen (Posting jobId) rows rows')
    (hn : (rows.map (·.id)).Nodup) (hr : r ∈ rows) : ∃ r' ∈ rows', r.Kept r' := by
  induction h with
  | refl => exact ⟨r, hr, .inl rfl⟩
  | tail hps hp ih =>
    obtain ⟨r', hr', hkept⟩ := ih
    obtain ⟨r'', hr'', hkept'⟩ := hp.kept (posted_nodup hps hn) hr'
    exact ⟨r'', hr'', hkept.trans hkept'⟩

theorem batch_ok : ∀ {requests : List BudgetReservation} {db db' : Database E},
    requests.foldlM (fun db q => reserve db l job now q) db = .ok db' →
      db' = { db with reservations := db.reservations ++ requests.map (·.row job now) } ∧
        (∀ q ∈ requests, db.reservation? q.reservationId = none) ∧ (requests.map (·.reservationId)).Nodup
  | [], db, db', hok => by
    cases hok
    exact ⟨by simp, by simp, nodup_nil⟩
  | q :: requests, db, db', hok => by
    rw [foldlM_cons, bind_eq_ok] at hok
    obtain ⟨db₁, hfirst, hrest⟩ := hok
    obtain ⟨hnone, -, -, rfl⟩ := reserve_ok hfirst
    obtain ⟨rfl, hfresh, hnodup⟩ := batch_ok hrest
    -- A later identity is none of the table before, and not that of the first row either.
    have hlater : ∀ q' ∈ requests, db.reservation? q'.reservationId = none ∧ q'.reservationId ≠ q.reservationId := by
      intro q' hq'
      have hnew := hfresh q' hq'
      have hrow : Rows.get? Reservation.id db.reservations (q.row job now).id = none := hnone
      rw [Database.reservation?, get?_append_singleton hrow] at hnew
      split at hnew
      · cases hnew
      next hne => exact ⟨hnew, Ne.symm hne⟩
    refine ⟨by simp, ?_, ?_⟩
    · intro q' hq'
      rcases mem_cons.mp hq' with rfl | hq'
      · exact hnone
      · exact (hlater q' hq').1
    · refine nodup_cons.mpr ⟨fun hmem => ?_, hnodup⟩
      obtain ⟨q', hq', hid⟩ := mem_map.mp hmem
      exact (hlater q' hq').2 hid

variable [DecidableEq Doc]

theorem Move.reservations {t : System E} (hm : Move op s t) :
    ∃ jobId, Relation.ReflTransGen (Posting jobId) s.db.reservations t.db.reservations := by
  cases hm with
  | created | expired | granted => exact ⟨"", .refl⟩
  | worked c r db jobId row change fence look work => exact ⟨jobId, by rw [work.result]; exact .refl⟩
  | accounted db jobId account => exact ⟨jobId, account.posted⟩

theorem run_kept (hn : (s.db.reservations.map (·.id)).Nodup) (ops : List (Op Doc))
    (hr : r ∈ s.db.reservations) : ((Runs.run step s ops).db.reservations.map (·.id)).Nodup ∧
      ∃ r' ∈ (Runs.run step s ops).db.reservations, r.Kept r' := by
  refine run_moves_inv (P := fun t => (t.db.reservations.map (·.id)).Nodup ∧ ∃ r' ∈ t.db.reservations, r.Kept r')
    (fun op t u ht hm => ?_) ops ⟨hn, r, hr, .inl rfl⟩
  obtain ⟨jobId, hposted⟩ := hm.reservations
  obtain ⟨hn, r', hr', hkept⟩ := ht
  obtain ⟨r'', hr'', hkept'⟩ := posted_kept hposted hn hr'
  exact ⟨posted_nodup hposted hn, r'', hr'', hkept.trans hkept'⟩

/-! ### Operations of the budgets -/

def Op.settles : Op Doc → Bool
  | .settle .. | .reconcileJob .. => true
  | _ => false

def Op.settlements (db : Database E) : Op Doc → List (String × Usage)
  | .settle _ _ reservationId usage => [(reservationId, usage)]
  | .reconcileJob _ _ jobId =>
    match sealedCalls db jobId, sealedUsage db jobId with
    | .ok calls, .ok agents => calls ++ agents.flatMap (agentTarget db.reservations jobId)
    | _, _ => []
  | _ => []

/-- The reservations that these operations record usage for, where they succeed. -/
def System.targets (s : System E) (ops : List (Op Doc)) : List String :=
  (ops.filter fun op => (step s op).isOk).flatMap fun op => (op.settlements s.db).map (·.1)

theorem tracks_op {db₀ : Database E} (apart : HashesApart db₀)
    (hn : (db₀.reservations.map (·.id)).Nodup) (hop : op.settles = true)
    (husage : ∀ e ∈ op.settlements db₀, e.2 = U e.1) : ∃ f : Database E → Except Err (Database E),
      (∀ s : System E, step s op = (f s.db).map fun db => { s with db }) ∧
        Tracks U db₀ f ((op.settlements db₀).map (·.1)) := by
  cases op with
  | settle h r id usage =>
    exact ⟨fun db => settle db h r id usage, fun s => step_map (x := fun db => settle db h r id usage) rfl,
      tracks_settle apart hn h r (husage (id, usage) (mem_singleton.mpr rfl))⟩
  | reconcileJob h r jobId =>
    refine ⟨fun db => reconcileJob db h r jobId, fun s => step_map (x := fun db => reconcileJob db h r jobId) rfl, ?_⟩
    simp only [Op.settlements] at husage ⊢
    cases hcalls : sealedCalls db₀ jobId with
    | ok calls =>
      cases hagents : sealedUsage db₀ jobId with
      | ok agents =>
        rw [hcalls, hagents] at husage
        exact tracks_reconcileJob apart hn h r jobId hcalls hagents husage
      | error e => exact tracks_unreadable h r jobId _ fun _ _ _ hok => absurd (hagents.symm.trans hok) nofun
    | error e => exact tracks_unreadable h r jobId _ fun _ _ hok => absurd (hcalls.symm.trans hok) nofun
  | store | saveStudySnapshot | completeStudy | reserveMany | startCall | finishCall => exact absurd hop nofun

theorem run_settling (apart : HashesApart s.db)
    (hn : (s.db.reservations.map (·.id)).Nodup) : ∀ {ops : List (Op Doc)} {ids : List String} {t : System E},
      (∀ op ∈ ops, op.settles = true ∧ ∀ e ∈ op.settlements s.db, e.2 = U e.1) → Settling U s.db ids t.db →
        Settling U s.db (ids ++ s.targets ops) (Runs.run step t ops).db
  | [], ids, t, _, ht => by simpa [targets] using ht
  | op :: ops, ids, t, hops, ht => by
    obtain ⟨hop, husage⟩ := hops op (mem_cons_self ..)
    obtain ⟨f, hstep, htracks⟩ := tracks_op apart hn hop husage
    obtain ⟨hiff, hsettling⟩ := htracks ids t.db ht
    have hrest : ∀ op ∈ ops, op.settles = true ∧ ∀ e ∈ op.settlements s.db, e.2 = U e.1 :=
      fun op hop => hops op (mem_cons_of_mem _ hop)
    cases hok : f t.db with
    | ok db' =>
      obtain ⟨db₁, hfirst⟩ := hiff.mp ⟨db', hok⟩
      have hnext : Runs.next step t op = { t with db := db' } := Runs.next_of_ok (by rw [hstep, hok]; rfl)
      have htargets : s.targets (op :: ops) = (op.settlements s.db).map (·.1) ++ s.targets ops := by
        have hsucceeds : (step s op).isOk = true := by
          rw [hstep, hfirst]
          rfl
        simp [targets, hsucceeds]
      rw [Runs.run_cons, hnext, htargets, ← append_assoc]
      exact run_settling apart hn hrest (hsettling db' hok)
    | error e =>
      have hnext : Runs.next step t op = t := Runs.next_of_error (by rw [hstep, hok]; rfl)
      have htargets : s.targets (op :: ops) = s.targets ops := by
        have hfails : (step s op).isOk = false := by
          rw [hstep]
          cases hfirst : f s.db with
          | error e => rfl
          | ok db₁ =>
            obtain ⟨db', hok'⟩ := hiff.mpr ⟨db₁, hfirst⟩
            exact absurd (hok.symm.trans hok') nofun
        simp [targets, hfails]
      rw [Runs.run_cons, hnext, htargets]
      exact run_settling apart hn hrest ht

theorem Reservation.once_congr {ids ids' : List String} (h : ∀ id, id ∈ ids ↔ id ∈ ids') (r : Reservation) :
    r.once U ids = r.once U ids' := by
  simp only [once, h]

theorem System.mem_targets_congr (s : System E) {ops ops' : List (Op Doc)} (h : ∀ op, op ∈ ops ↔ op ∈ ops') (id : String) :
    id ∈ s.targets ops ↔ id ∈ s.targets ops' := by
  simp only [targets, mem_flatMap, mem_filter, h]

theorem next_reserveMany (s : System E) (h : Handle) (l : BudgetLimits) (r : Reads) (now : Int)
    (requests : List BudgetReservation) : Runs.next step s (.reserveMany h l r now requests) = s ∨
      ∃ job, Runs.next step s (.reserveMany h l r now requests) = { s with db := { s.db with
          reservations := s.db.reservations ++ requests.map (·.row job now) } } ∧
        (∀ q ∈ requests, s.db.reservation? q.reservationId = none) ∧ (requests.map (·.reservationId)).Nodup := by
  have hstep : step s (.reserveMany h l r now requests) = (reserveMany s.db h l r now requests).map fun db => { s with db } :=
    step_map (x := fun db => reserveMany db h l r now requests) rfl
  cases hok : reserveMany s.db h l r now requests with
  | error e => exact .inl (Runs.next_of_error (e := e) (by rw [hstep, hok]; rfl))
  | ok db =>
    have hnext : Runs.next step s (.reserveMany h l r now requests) = { s with db } :=
      Runs.next_of_ok (by rw [hstep, hok]; rfl)
    rw [hnext]
    cases requests with
    | nil =>
      cases hok
      exact .inl rfl
    | cons q rest =>
      obtain ⟨job, -, -, hfold⟩ := reserveMany_ok hok
      obtain ⟨rfl, hfresh, hnodup⟩ := batch_ok hfold
      exact .inr ⟨job, rfl, hfresh, hnodup⟩

theorem reserveMany_refused (hrow : row ∈ s.db.reservations) {h : Handle}
    {r : Reads} {requests : List BudgetReservation} (hreuse : ∃ q ∈ requests, q.reservationId = row.id) :
    ∃ e, step s (.reserveMany h l r now requests) = .error e := by
  rw [step_map (x := fun db => reserveMany db h l r now requests) rfl]
  obtain ⟨q, hq, hid⟩ := hreuse
  cases hok : reserveMany s.db h l r now requests with
  | error e => exact ⟨e, rfl⟩
  | ok db =>
    cases requests with
    | nil => cases hq
    | cons q₁ rest =>
      obtain ⟨job, -, -, hfold⟩ := reserveMany_ok hok
      have hfresh := (batch_ok hfold).2.1 q hq
      rw [hid] at hfresh
      exact absurd rfl (get?_eq_none.mp hfresh row hrow)

theorem settle_refused (hn : (s.db.reservations.map (·.id)).Nodup)
    (hrow : row ∈ s.db.reservations) {u : Usage} (hrecorded : row.usage = some u) (hne : usage ≠ u) (h : Handle)
    (r : Reads) : ∃ e, step s (.settle h r row.id usage) = .error e := by
  rw [step_map (x := fun db => settle db h r row.id usage) rfl]
  cases hok : settle s.db h r row.id usage with
  | error e => exact ⟨e, rfl⟩
  | ok db =>
    obtain ⟨row', job, hrow', -, hsettle⟩ := settle_ok hok
    obtain rfl : row = row' := Option.some.inj ((get?_of_mem hn hrow).symm.trans hrow')
    have hsame : row.usage = some usage := by
      rcases settleRow_ok hsettle with ⟨hsame, -⟩ | ⟨hnone, -⟩
      · exact hsame
      · exact absurd (hnone.symm.trans hrecorded) nofun
    exact absurd (Option.some.inj (hsame.symm.trans hrecorded)) hne

/-- A batch is admitted as a whole or not at all; an identity never twice; the same usage leads, in any order and
    repetition, to one table; and another usage is refused. -/
theorem reservations_atomic_and_idempotent (ops : List (Op Doc)) (apart : HashesApart (after E ops).db) :
    (∀ h l r now requests, Runs.next step (after E ops) (.reserveMany h l r now requests) = after E ops ∨
      ∃ job, Runs.next step (after E ops) (.reserveMany h l r now requests) =
          { after E ops with db := { (after E ops).db with
            reservations := (after E ops).db.reservations ++ requests.map (·.row job now) } } ∧
        (∀ q ∈ requests, (after E ops).db.reservation? q.reservationId = none) ∧
        (requests.map (·.reservationId)).Nodup) ∧
    (∀ row ∈ (after E ops).db.reservations, ∀ ops' h l r now requests, (∃ q ∈ requests, q.reservationId = row.id) →
      ∃ e, step (after E (ops ++ ops')) (.reserveMany h l r now requests) = .error e) ∧
    (∀ (U : String → Usage) (settling : List (Op Doc)), (∀ op ∈ settling,
        op.settles = true ∧ ∀ e ∈ op.settlements (after E ops).db, e.2 = U e.1) →
      (after E (ops ++ settling)).db.reservations = (after E ops).db.reservations.map
        (once U ((after E ops).targets settling)) ∧ ∀ settling', (∀ op, op ∈ settling' ↔ op ∈ settling) →
        (after E (ops ++ settling')).db.reservations = (after E (ops ++ settling)).db.reservations) ∧
    ∀ row ∈ (after E ops).db.reservations, ∀ u usage, row.usage = some u → usage ≠ u → ∀ ops' h r,
      ∃ e, step (after E (ops ++ ops')) (.settle h r row.id usage) = .error e := by
  have hn := (after_tables (E := E) ops).reservations
  refine ⟨fun h l r now requests => next_reserveMany _ h l r now requests, fun row hrow ops' h l r now requests hreuse => ?_,
    fun U settling hsettling => ?_, fun row hrow u usage hrecorded hne ops' h r => ?_⟩
  · rw [after_append]
    obtain ⟨-, row', hrow', hkept⟩ := run_kept hn ops' hrow
    exact reserveMany_refused hrow' (hkept.id_eq ▸ hreuse)
  · have hall : ∀ settling', (∀ op ∈ settling', op ∈ settling) → (after E (ops ++ settling')).db.reservations =
        (after E ops).db.reservations.map (·.once U ((after E ops).targets settling')) := by
      intro settling' hsub
      rw [after_append]
      have hrun := run_settling apart hn (fun op hop => hsettling op (hsub op hop)) (.refl U _)
      rw [nil_append] at hrun
      exact hrun.reservations
    refine ⟨hall settling fun _ hop => hop, fun settling' hsame => ?_⟩
    rw [hall settling' fun op hop => (hsame op).mp hop, hall settling fun _ hop => hop]
    exact map_congr_left fun row _ => once_congr ((after E ops).mem_targets_congr hsame) row
  · rw [after_append]
    obtain ⟨hn', row', hrow', hkept⟩ := run_kept hn ops' hrow
    have hsame : row' = row := by
      rcases hkept with rfl | ⟨hnone, -⟩
      · rfl
      · exact absurd (hnone.symm.trans hrecorded) nofun
    subst hsame
    exact settle_refused hn' hrow' hrecorded hne h r

def firstHolder : Handle := { claim := some { jobId := "job", token := "token", workerId := "worker" } }

def firmRequest (jobId agent reservationId : String) : BudgetReservation where
  reservationId
  jobId
  stage := "FIRST_PASS_RESEARCH"
  agent
  provider := "provider"
  model := "model"
  maximumTokens := 20000
  promptVersion := "v1"

def firstBatch : List (Op Document) :=
  firstAttempt ++ [.reserveMany firstHolder {} { lease := 1, deadline := 1 } 1
    [firmRequest "job" "tradingagents" "first", firmRequest "job" "ai_hedge_fund" "second"]]

def settlement (reservationId : String) (usage : Usage) : Op Document :=
  .settle firstHolder { lease := 2, deadline := 2 } reservationId usage

theorem firstBatch_settled_in_any_order :
    (after plainEnv
      (firstBatch ++ [settlement "first" {}, settlement "second" {}, settlement "first" {}])).db.reservations =
      (after plainEnv (firstBatch ++ [settlement "second" {}, settlement "first" {}])).db.reservations ∧
    (after plainEnv (firstBatch ++ [settlement "second" {}, settlement "first" {}])).db.reservations.map (·.usage) =
      [some {}, some {}] := by
  obtain ⟨-, -, hany, -⟩ := reservations_atomic_and_idempotent firstBatch (E := plainEnv) (by decide +kernel)
  obtain ⟨-, hsame⟩ := hany (fun _ => {}) [settlement "second" {}, settlement "first" {}] (by
    intro op hop
    simp only [mem_cons, not_mem_nil, or_false] at hop
    rcases hop with rfl | rfl <;> exact ⟨rfl, by simp [settlement, Op.settlements]⟩)
  refine ⟨hsame _ fun op => ?_, by decide +kernel⟩
  simp only [mem_cons, not_mem_nil, or_false]
  tauto

end Money
