import Money.Submission
import Money.Theorems.Jobs

/-! The limits of the queue. A move adds one ticket or keeps them all, and the limits that are checked under the queue
    lock hold in every reachable state. -/

namespace Money
open Checked Transactions List Rows Money.System

variable {Doc : Type} {E : Env Doc}

structure Ticket where
  workspaceId : String
  idempotencyKey : Option String
  createdAt : Int
  ticker : String
  kind : ResearchKind
  mandate : ResearchMandate
  requestHash : Hash

def Job.ticket (j : Job) : Ticket where
  workspaceId := j.workspaceId
  idempotencyKey := j.idempotencyKey
  createdAt := j.createdAt
  ticker := j.ticker
  kind := j.kind
  mandate := j.mandate
  requestHash := j.requestHash

def Database.tickets (db : Database E) : List Ticket := db.jobs.map Job.ticket

theorem length_filter_tickets (db : Database E) (p : Ticket → Bool) :
    (db.jobs.filter fun j => p j.ticket).length = (db.tickets.filter p).length := by
  rw [Database.tickets, filter_map, length_map]
  rfl

theorem expireLeases_tickets (db : Database E) (h : Handle) (x : Expiry) : (expireLeases db h x).tickets = db.tickets := by
  simp only [Database.tickets, expireLeases, map_map]
  refine map_congr_left fun j _ => ?_
  simp only [Function.comp_apply]
  split <;> rfl

variable [DecidableEq Doc] {op : Op Doc} {db : Database E} {s : System E} {h : Handle} {n : NewJob} {rate : Int}
  {key : String}

theorem Effect.ticket {jobId : String} {row : Job} {c : Change E}
    (h : Effect op db jobId row c) (j : Job) : (c.job j).ticket = j.ticket := by
  cases h <;> rfl

theorem Move.tickets {t : System E} (hm : Move op s t) : t.db.tickets = s.db.tickets ∨
      ∃ h n, op = .store (.createJob h n) ∧ n.existing s.db h = none ∧
        n.Within s.db h ∧ t.db.jobs = s.db.jobs ++ [n.row E h] := by
  cases hm with
  | created h n fresh admission plane origin unused limits => exact .inr ⟨h, n, origin, unused, limits, rfl⟩
  | expired h x => exact .inl (expireLeases_tickets s.db h x)
  | granted h q row => exact .inl (map_update fun _ => rfl)
  | worked c r db jobId row change fence look work =>
    exact .inl (work.result ▸ map_update work.effect.ticket)
  | accounted db jobId account => exact .inl (congrArg (List.map Job.ticket) account.jobs)

/-! ### Invariant -/

def Ticket.inWindow (workspace : String) (x : Int) (k : Ticket) : Bool :=
  decide (k.workspaceId = workspace ∧ x ≤ k.createdAt ∧ k.createdAt ≤ x + minutes 1)

def Ticket.Apart (k k' : Ticket) : Prop :=
  k.workspaceId = k'.workspaceId → k.idempotencyKey = k'.idempotencyKey → k.idempotencyKey = none

/-- The submissions keep to the rate and to their keys, and carry the hash of their input. -/
structure Metered (E : Env Doc) (rate : Int) (tickets : List Ticket) : Prop where
  window : ∀ workspace x, (tickets.filter (·.inWindow workspace x)).length ≤ rate.toNat
  keys : tickets.Pairwise Ticket.Apart
  inputs : ∀ k ∈ tickets, k.requestHash = E.requestHash k.ticker k.mandate (k.kind = .liveRnd) ∧
    k.mandate.enforceMandate = .ok ()

omit [DecidableEq Doc] in
theorem Metered.append (hs : Metered E n.ratePerMinute db.tickets)
    (unused : n.existing db h = none) (limits : n.Within db h) :
    Metered E n.ratePerMinute (db.tickets ++ [(n.row E h).ticket]) where
  window workspace x := by
    have hbefore := hs.window workspace x
    rw [filter_append, length_append]
    by_cases hin : (n.row E h).ticket.inWindow workspace x = true
    · have hnew : h.workspace = workspace ∧ x ≤ n.stamp ∧ n.stamp ≤ x + minutes 1 := of_decide_eq_true hin
      have hcount : (db.tickets.filter (·.inWindow workspace x)).length ≤
          (db.tickets.filter fun k => decide (n.stamp - minutes 1 ≤ k.createdAt ∧ k.workspaceId = h.workspace)).length := by
        rw [← countP_eq_length_filter, ← countP_eq_length_filter]
        refine countP_mono_left fun k _ hk => ?_
        have hold : k.workspaceId = workspace ∧ x ≤ k.createdAt ∧ k.createdAt ≤ x + minutes 1 := of_decide_eq_true hk
        exact decide_eq_true ⟨by omega, hold.1.trans hnew.1.symm⟩
      have hlength : (db.jobs.filter fun j => n.stamp - minutes 1 ≤ j.createdAt ∧ j.workspaceId = h.workspace).length = _ :=
        length_filter_tickets db fun k => decide (n.stamp - minutes 1 ≤ k.createdAt ∧ k.workspaceId = h.workspace)
      have hrate := limits.rate
      simp only [filter_cons, hin, if_true, filter_nil, length_singleton]
      omega
    · simp only [filter_cons, hin, filter_nil]
      exact hbefore
  keys := by
    refine pairwise_append.mpr ⟨hs.keys, pairwise_singleton .., ?_⟩
    intro k hk k' hk' hworkspace hkey
    cases mem_singleton.mp hk'
    obtain ⟨j, hj, rfl⟩ := mem_map.mp hk
    -- a job with this key would have been found
    cases hn : n.idempotencyKey with
    | none => exact hkey.trans hn
    | some key =>
      rw [NewJob.existing, hn, Option.bind_some, List.find?_eq_none] at unused
      exact absurd (decide_eq_true ⟨hworkspace, hkey.trans hn⟩) (unused j hj)
  inputs k hk := by
    rcases mem_append.mp hk with hk | hk
    · exact hs.inputs k hk
    · cases mem_singleton.mp hk
      exact ⟨rfl, limits.mandate⟩

def Op.Limited (capacity rate : Int) (op : Op Doc) : Prop :=
  ∀ h n, op = .store (.createJob h n) → n.capacity = capacity ∧ n.ratePerMinute = rate

theorem after_metered {capacity : Int} {ops : List (Op Doc)} (hops : ∀ op ∈ ops, op.Limited capacity rate) :
    Metered E rate (after E ops).db.tickets := by
  refine run_moves_inv_of (P := fun s : System E => Metered E rate s.db.tickets) ?_ ops hops
    ⟨fun _ _ => Nat.zero_le _, List.Pairwise.nil, nofun⟩
  intro op s t hop hs hm
  rcases hm.tickets with heq | ⟨h, n, rfl, unused, limits, hjobs⟩
  · exact heq ▸ hs
  · obtain ⟨-, rfl⟩ := hop h n rfl
    have htickets : t.db.tickets = s.db.tickets ++ [(n.row E h).ticket] := by
      simp [Database.tickets, hjobs]
    exact htickets ▸ hs.append unused limits

def Database.jobsOf (db : Database E) (workspace key : String) : List Job :=
  db.jobs.filter fun j => j.workspaceId = workspace ∧ j.idempotencyKey = some key

omit [DecidableEq Doc] in
theorem mem_jobsOf {workspace : String} {j : Job} :
    j ∈ db.jobsOf workspace key ↔ j ∈ db.jobs ∧ j.workspaceId = workspace ∧ j.idempotencyKey = some key := by
  simp [Database.jobsOf]

omit [DecidableEq Doc] in
theorem Metered.jobsOf_length (hs : Metered E rate db.tickets) (workspace key : String) :
    (db.jobsOf workspace key).length ≤ 1 := by
  refine length_le_one (List.Pairwise.imp_of_mem ?_ ((pairwise_map.mp hs.keys).filter _))
  intro j j' hj hj' hapart
  obtain ⟨-, hworkspace, hkey⟩ := mem_jobsOf.mp hj
  obtain ⟨-, hworkspace', hkey'⟩ := mem_jobsOf.mp hj'
  have hnone := hapart (hworkspace.trans hworkspace'.symm) (hkey.trans hkey'.symm)
  exact absurd (hkey.symm.trans hnone) nofun

omit [DecidableEq Doc] in
theorem Metered.existing (hs : Metered E rate db.tickets)
    {job : Job} (hjob : job ∈ db.jobsOf h.workspace key) (hn : n.idempotencyKey = some key) : n.existing db h = some job := by
  rw [NewJob.existing, hn, Option.bind_some, ← List.head?_filter]
  cases hfound : (db.jobsOf h.workspace key).head? with
  | none => exact absurd (List.head?_eq_none_iff.mp hfound ▸ hjob) nofun
  | some found =>
    rw [eq_of_length_le_one (hs.jobsOf_length h.workspace key) hjob (mem_of_mem_head? hfound)]
    exact hfound

def Database.active (db : Database E) : List Job := db.jobs.filter fun j => !j.status.terminal

theorem next_createJob_capacity (grown : s.db.jobs.length < (Runs.next step s (.store (.createJob h n))).db.jobs.length) :
    ((Runs.next step s (.store (.createJob h n))).db.active.length : Int) ≤ n.capacity := by
  have hstep : step s (.store (.createJob h n)) = (createJob s.db h n).map fun db => { s with db } :=
    step_map (x := fun db => createJob db h n) rfl
  cases hcreate : createJob s.db h n with
  | error e =>
    rw [hcreate] at hstep
    rw [Runs.next_of_error hstep] at grown
    exact absurd grown (lt_irrefl _)
  | ok db =>
    rw [hcreate] at hstep
    rw [Runs.next_of_ok hstep] at grown ⊢
    rcases createJob_cases hcreate with rfl | ⟨-, limits, -, -, rfl⟩
    · exact absurd grown (lt_irrefl _)
    · have hbelow := limits.capacity
      simp only [Database.active, filter_append, length_append]
      have hone : ([n.row E h].filter fun j => !j.status.terminal).length ≤ 1 := length_filter_le ..
      omega

section
variable {db : Database E} {rate : Int} {π : Type} {x : π} {h : Handle} {n : NewJob} {admission : AdmissionStep E π}

variable {key : String} {job : Job}

section
variable (hs : Metered E rate db.tickets) (hn : n.idempotencyKey = some key) (hjob : job ∈ db.jobsOf h.workspace key)
include hs hn hjob

omit [DecidableEq Doc] in
theorem Metered.repeat_same
    (hinput : (n.ticker, n.mandate, n.kind) = (job.ticker, job.mandate, job.kind)) :
    transaction (submitJob h n admission) (db, x) = .ok (.replayed job.shown, (db, x)) := by
  obtain ⟨hhash, hmandate⟩ := hs.inputs job.ticket (mem_map_of_mem (mem_jobsOf.mp hjob).1)
  simp only [Prod.mk.injEq] at hinput
  obtain ⟨hticker, hsame, hkind⟩ := hinput
  have hequal : job.requestHash = E.requestHash n.ticker n.mandate (n.kind = .liveRnd) := by
    rw [hticker, hsame, hkind]
    exact hhash
  rw [transaction_eq_ok, submitJob_existing (hsame ▸ hmandate) (hs.existing hjob hn), if_pos hequal]

omit [DecidableEq Doc] in
theorem Metered.repeat_other (hother : E.requestHash n.ticker n.mandate (n.kind = .liveRnd) ≠
      E.requestHash job.ticker job.mandate (job.kind = .liveRnd)) :
    ∃ e, (submitJob h n admission).on (db, x) = (.error e, (db, x)) := by
  cases hvalid : n.mandate.enforceMandate with
  | error e => exact ⟨e, submitJob_invalid hvalid⟩
  | ok =>
    have hhash := (hs.inputs job.ticket (mem_map_of_mem (mem_jobsOf.mp hjob).1)).1
    refine ⟨.idempotencyConflict "Idempotency key was used with different input", ?_⟩
    rw [submitJob_existing hvalid (hs.existing hjob hn), if_neg fun heq => hother (heq.symm.trans hhash)]

end

omit [DecidableEq Doc] in
theorem committed_of_raise {db₀ : Database E} {e : Err} {t : Database E × π} (hnone : n.existing db h = none)
    (hdb : enqueue db h { n with admission := none } = .ok db₀) (hraise : (admission n.jobId).on (db₀, x) = (.error e, t)) :
    committed (submitJob h n admission) (db, x) = (db, x) := by
  cases hvalid : n.mandate.enforceMandate with
  | error e' => exact committed_of_error (submitJob_invalid hvalid)
  | ok =>
    refine committed_of_error (e := e) (t := t) ?_
    rw [submitJob_enqueued hvalid hnone hdb, hraise]

end

/-- No minute has more submissions than the rate, a submission leaves the queue within its capacity, a workspace has one
    job at most for a key, and a submission whose admission raises changes nothing. -/
theorem queue_limits (capacity rate : Int) (ops : List (Op Doc)) (hops : ∀ op ∈ ops, op.Limited capacity rate) :
    (∀ workspace x, ((after E ops).db.jobs.filter fun j =>
      j.workspaceId = workspace ∧ x ≤ j.createdAt ∧ j.createdAt ≤ x + minutes 1).length ≤ rate.toNat) ∧
    (∀ (before : List (Op Doc)) (h : Handle) (n : NewJob) (later : List (Op Doc)),
      ops = before ++ Op.store (.createJob h n) :: later →
      (after E before).db.jobs.length < (after E (before ++ [Op.store (.createJob h n)])).db.jobs.length →
      ((after E (before ++ [Op.store (.createJob h n)])).db.active.length : Int) ≤ capacity) ∧
    (∀ workspace key, ((after E ops).db.jobsOf workspace key).length ≤ 1) ∧
    (∀ (π : Type) (x : π) (h : Handle) (n : NewJob) (admission : AdmissionStep E π) (key : String),
      n.idempotencyKey = some key → ∀ job ∈ (after E ops).db.jobsOf h.workspace key,
      ((n.ticker, n.mandate, n.kind) = (job.ticker, job.mandate, job.kind) →
        transaction (submitJob h n admission) ((after E ops).db, x) =
          .ok (.replayed job.shown, ((after E ops).db, x))) ∧
      (E.requestHash n.ticker n.mandate (n.kind = .liveRnd) ≠
          E.requestHash job.ticker job.mandate (job.kind = .liveRnd) →
        (∃ e, transaction (submitJob h n admission) ((after E ops).db, x) = .error e) ∧
        committed (submitJob h n admission) ((after E ops).db, x) = ((after E ops).db, x))) ∧
    (∀ (π : Type) (x : π) (h : Handle) (n : NewJob) (admission : AdmissionStep E π) (db : Database E) (e : Err)
        (t : Database E × π), n.existing (after E ops).db h = none →
      enqueue (after E ops).db h { n with admission := none } = .ok db → (admission n.jobId).on (db, x) = (.error e, t) →
      committed (submitJob h n admission) ((after E ops).db, x) = ((after E ops).db, x)) := by
  have hs := after_metered (E := E) hops
  refine ⟨?_, ?_, hs.jobsOf_length, ?_, ?_⟩
  · intro workspace x
    have hlength : ((after E ops).db.jobs.filter fun j =>
        j.workspaceId = workspace ∧ x ≤ j.createdAt ∧ j.createdAt ≤ x + minutes 1).length = _ :=
      length_filter_tickets (after E ops).db (·.inWindow workspace x)
    exact hlength ▸ hs.window workspace x
  · rintro before h n later rfl grown
    obtain ⟨rfl, -⟩ := hops _ (mem_append_right _ (mem_cons_self ..)) h n rfl
    rw [after_append] at grown ⊢
    exact next_createJob_capacity grown
  · intro π x h n admission key hn job hjob
    refine ⟨hs.repeat_same hn hjob, fun hother => ?_⟩
    obtain ⟨e, hraise⟩ := hs.repeat_other hn hjob hother
    exact ⟨⟨e, transaction_eq_error.mpr ⟨_, hraise⟩⟩, committed_of_error hraise⟩
  · intro π x h n admission db e t
    exact committed_of_raise

def twoSubmissions : List (Op Document) :=
  [.store (.createJob {} {
      jobId := "first", ticker := "ABC", mandate := {}, ratePerMinute := 2, stamp := 5, idempotencyKey := some "key" }),
    .store (.createJob {} { jobId := "second", ticker := "ABC", mandate := {}, ratePerMinute := 2, stamp := 3 })]

def otherInput : NewJob := { jobId := "third", ticker := "XYZ", mandate := {}, stamp := 6, idempotencyKey := some "key" }

theorem queue_limits_twoSubmissions : (after plainEnv twoSubmissions).db.jobs.map (·.createdAt) = [5, 3] ∧
    ((after plainEnv twoSubmissions).db.jobs.filter fun j =>
      j.workspaceId = "private" ∧ 3 ≤ j.createdAt ∧ j.createdAt ≤ 3 + minutes 1).length ≤ 2 ∧
    ((after plainEnv twoSubmissions).db.jobsOf "private" "key").length ≤ 1 ∧
    committed (submitJob {} otherInput fun _ => pure ()) ((after plainEnv twoSubmissions).db, ()) =
      ((after plainEnv twoSubmissions).db, ()) := by
  have hlimits := queue_limits (E := plainEnv) 100 2 twoSubmissions (by
    intro op hop h n heq
    simp only [twoSubmissions, mem_cons, not_mem_nil, or_false] at hop
    rcases hop with rfl | rfl <;> cases heq <;> exact ⟨rfl, rfl⟩)
  obtain ⟨job, hjob, hother⟩ : ∃ job ∈ (after plainEnv twoSubmissions).db.jobsOf "private" "key",
      plainEnv.requestHash "XYZ" {} False ≠ plainEnv.requestHash job.ticker job.mandate (job.kind = .liveRnd) := by
    decide +kernel
  exact ⟨by decide +kernel, hlimits.1 "private" 3, hlimits.2.2.1 "private" "key",
    ((hlimits.2.2.2.1 Unit () {} otherInput (fun _ => pure ()) "key" rfl job hjob).2 hother).2⟩

end Money
