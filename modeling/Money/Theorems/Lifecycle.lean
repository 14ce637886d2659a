import Money.Theorems.Jobs

/-! Progress of a job over its attempts: stages move forward, attempts stay within their number, a queued job is idle,
    and a job that ran out of time can only fail. -/

namespace Money
open Checked Money.System

variable {Doc : Type} {E : Env Doc}

def Status.running (s : Status) : Prop := s ≠ .queued ∧ s.terminal = false

def Job.effectiveStage (j : Job) : Status := if j.status = .queued then j.resumeStage.getD .queued else j.status

/-! ### Rows between attempts -/

/-- A queued job is idle and has an attempt left, and an interrupted one resumes at a stage it ran in. -/
structure Steady (j : Job) : Prop where
  idle : j.status = .queued → j.leaseToken = none ∧ j.leaseUntil = none ∧ j.deadlineAt = none
  left : j.status = .queued → 1 ≤ j.maxAttempts → j.attemptCount < j.maxAttempts
  resume : ∀ stage ∈ j.resumeStage, stage.running
  bounded : 1 ≤ j.maxAttempts → j.attemptCount ≤ j.maxAttempts

theorem steady_born (h : Handle) (n : NewJob) : Steady (n.row E h) where
  idle _ := ⟨rfl, rfl, rfl⟩
  left _ hmax := by
    have hzero : (n.row E h).attemptCount = 0 := rfl
    omega
  resume _ hstage := nomatch hstage
  bounded hmax := by
    have hzero : (n.row E h).attemptCount = 0 := rfl
    omega

variable {j : Job} {j' : Job} {jobId : String} {c : Change E} {db' : Database E} {claims new : List Claim}

theorem Steady.busy (hj : Steady j) (hstatus : j'.status ≠ .queued) (hresume : j'.resumeStage = j.resumeStage)
    (hcount : j'.attemptCount = j.attemptCount) (hmax : j'.maxAttempts = j.maxAttempts) : Steady j' where
  idle h := absurd h hstatus
  left h := absurd h hstatus
  resume := hresume ▸ hj.resume
  bounded := by rw [hcount, hmax]; exact hj.bounded

theorem Steady.interrupt (hj : Steady j) (hrun : j.status.running) {retry : Bool}
    (hretry : retry = true → j.attemptCount < j.maxAttempts) (stamp delay : Int) (code message : String) :
    Steady (interrupt retry stamp delay code message j) where
  idle _ := ⟨rfl, rfl, rfl⟩
  left hstatus _ := by
    cases retry with
    | true => exact hretry rfl
    | false => cases hstatus
  resume stage hstage := by
    cases hstage
    exact hrun
  bounded := hj.bounded

theorem Steady.running_of_holds (hj : Steady j) {h : Handle} {r : Reads} (holds : Holds h j r) : j.status.running := by
  obtain ⟨-, ⟨until_, huntil, -⟩, -, hterminal⟩ := holds
  refine ⟨fun hqueued => ?_, hterminal⟩
  have hnone := (hj.idle hqueued).2.1
  rw [hnone] at huntil
  cases huntil

theorem Steady.running_of_expired (hj : Steady j) {stamp : Int} (lost : expired stamp j) : j.status.running := by
  obtain ⟨hterminal, hlost⟩ := lost
  refine ⟨fun hqueued => ?_, hterminal⟩
  obtain ⟨-, hlease, hdeadline⟩ := hj.idle hqueued
  rcases hlost with ⟨_, hsome, -⟩ | ⟨_, hsome, -⟩
  · rw [hlease] at hsome
    cases hsome
  · rw [hdeadline] at hsome
    cases hsome

theorem Steady.entryStage (hj : Steady j) (hqueued : j.status = .queued) :
    j.entryStage.running ∧ j.effectiveStage.index ≤ j.entryStage.index := by
  rw [Job.effectiveStage, if_pos hqueued, Job.entryStage]
  cases hresume : j.resumeStage with
  | some stage => exact ⟨hj.resume stage hresume, le_refl _⟩
  | none =>
    refine ⟨?_, Nat.zero_le _⟩
    dsimp only
    split <;> exact ⟨by decide, rfl⟩

theorem staged_running {stage : Status} (h : stage ∉ [Status.queued, .firstPassLocked, .complete, .rejected, .failed]) :
    stage.running := by
  cases stage <;> first | exact ⟨by decide, rfl⟩ | exact absurd h (by decide)

/-- The attempts of a job are its claims, and its token is that of the latest one. -/
structure Held (j : Job) (claims : List Claim) : Prop where
  attempts : j.attemptCount = claims.length
  holder : ∀ token ∈ j.leaseToken, ∃ c rest, claims = c :: rest ∧ c.token = token ∧ j.workerId = some c.workerId

theorem held_born (h : Handle) (n : NewJob) : Held (n.row E h) [] where
  attempts := rfl
  holder _ htoken := nomatch htoken

variable [DecidableEq Doc] {op : Op Doc} {db : Database E}

theorem Effect.steady (effect : Effect op db jobId j c) (hj : Steady j) (hrun : j.status.running) : Steady (c.job j) ∧
      ((c.job j).status.terminal = false → j.effectiveStage.index ≤ (c.job j).effectiveStage.index) := by
  have hstage : j.effectiveStage = j.status := if_neg hrun.1
  have hsame : ∀ {j' : Job}, j'.status = j.status → j.effectiveStage.index ≤ j'.effectiveStage.index := by
    intro j' heq
    rw [hstage, Job.effectiveStage, if_neg (heq.symm ▸ hrun.1), heq]
  cases effect with
  | renewed => exact ⟨hj.busy hrun.1 rfl rfl rfl, fun _ => hsame rfl⟩
  | interrupted stamp delay code message =>
    refine ⟨hj.interrupt hrun of_decide_eq_true stamp delay code message, fun hterm => ?_⟩
    by_cases hleft : j.attemptCount < j.maxAttempts
    · simp [Money.interrupt, hleft, Job.effectiveStage, hrun.1]
    · simp [Money.interrupt, hleft, Status.terminal] at hterm
  | failed => exact ⟨hj.busy nofun rfl rfl rfl, fun hterm => nomatch hterm⟩
  | staged stage candidate now running forward =>
    have hnext := staged_running running
    refine ⟨hj.busy hnext.1 rfl rfl rfl, fun _ => ?_⟩
    rw [hstage, Job.effectiveStage, if_neg hnext.1]
    exact forward
  | froze => exact ⟨hj.busy hrun.1 rfl rfl rfl, fun _ => hsame rfl⟩
  | reported => exact ⟨hj.busy hrun.1 rfl rfl rfl, fun _ => hsame rfl⟩
  | locked s at_ updated missing frozen stage =>
    refine ⟨hj.busy nofun rfl rfl rfl, fun _ => ?_⟩
    rw [hstage, stage]
    show (4 : Nat) ≤ 5
    decide
  | saved => exact ⟨hj.busy hrun.1 rfl rfl rfl, fun _ => hsame rfl⟩
  | decided => exact ⟨hj.busy nofun rfl rfl rfl, fun hterm => nomatch hterm⟩
  | rejected => exact ⟨hj.busy nofun rfl rfl rfl, fun hterm => nomatch hterm⟩
  | studied => exact ⟨hj.busy nofun rfl rfl rfl, fun hterm => nomatch hterm⟩

theorem Turn.steady (hturn : Turn op db db' j j' new) (hj : Steady j) :
    Steady j' ∧ (j'.status.terminal = false → j.effectiveStage.index ≤ j'.effectiveStage.index) := by
  cases hturn with
  | kept => exact ⟨hj, fun _ => le_refl _⟩
  | expired x look lost =>
    have hrun := hj.running_of_expired lost
    have hleft : retries x.stamp j = true → j.attemptCount < j.maxAttempts := fun h => (of_decide_eq_true h).1
    refine ⟨hj.interrupt hrun hleft .., fun hterm => ?_⟩
    cases hretry : retries x.stamp j with
    | true => simp [expireJob, interrupt, hretry, Job.effectiveStage, hrun.1]
    | false => simp [expireJob, interrupt, hretry, Status.terminal] at hterm
  | granted q admission idle =>
    obtain ⟨hentry, hle⟩ := hj.entryStage idle
    refine ⟨⟨fun h => absurd h hentry.1, fun h => absurd h hentry.1, hj.resume, fun hmax => ?_⟩, fun _ => ?_⟩
    · exact hj.left idle hmax
    · have hstage : (q.start admission j).effectiveStage = j.entryStage := if_neg hentry.1
      rw [hstage]
      exact hle
  | worked c r change fence look holds effect => exact effect.steady hj (hj.running_of_holds holds)

theorem Effect.held (effect : Effect op db jobId j c) (hj : Held j claims) : Held (c.job j) claims := by
  cases effect <;> first | exact ⟨hj.attempts, hj.holder⟩ | exact ⟨hj.attempts, nofun⟩

theorem Turn.held (hturn : Turn op db db' j j' new) (hj : Held j claims) : Held j' (new ++ claims) := by
  cases hturn with
  | kept => exact hj
  | expired => exact ⟨hj.attempts, nofun⟩
  | granted q admission =>
    refine ⟨?_, ?_⟩
    · show j.attemptCount + 1 = ((claims.length + 1 : Nat) : Int)
      rw [hj.attempts]
      push_cast
      rfl
    · rintro token ⟨⟩
      exact ⟨_, claims, rfl, rfl, rfl⟩
  | worked c r change fence look holds effect => exact effect.held hj

theorem after_held (ops : List (Op Doc)) : (after E ops).Each Held :=
  after_each held_born (fun hj hturn => hturn.held hj) ops

theorem after_steady (ops : List (Op Doc)) : (after E ops).Each fun j _ => Steady j :=
  after_each steady_born (fun hj hturn => (hturn.steady hj).1) ops

theorem Turn.absorbed (hturn : Turn op db db' j j' new) (hend : j.status.terminal = true) : j' = j ∧ new = [] := by
  cases hturn with
  | kept => exact ⟨rfl, rfl⟩
  | expired x look lost => exact absurd (lost.1.symm.trans hend) nofun
  | granted q admission idle =>
    rw [idle] at hend
    cases hend
  | worked c r change fence look holds => exact absurd (holds.2.2.2.symm.trans hend) nofun

theorem Turn.overdue (hturn : Turn op db db' j j' new)
    (hj : Steady j) {deadline : Int} (hdeadline : j.deadlineAt = some deadline) (hlooks : ∀ t ∈ op.looks, deadline ≤ t) :
    j' = j ∨ j'.status = .failed := by
  cases hturn with
  | kept => exact .inl rfl
  | expired x look lost =>
    have hlate : timedOut x.stamp j := ⟨deadline, hdeadline, hlooks _ look⟩
    have hretry : retries x.stamp j = false := by simp [retries, hlate]
    exact .inr (by simp [expireJob, interrupt, hretry])
  | granted q admission idle =>
    rw [(hj.idle idle).2.2] at hdeadline
    cases hdeadline
  | worked c r change fence look holds =>
    have hbefore : r.deadline < deadline := holds.2.2.1 deadline hdeadline
    have hafter : deadline ≤ r.deadline := hlooks _ look
    omega

/-- The stage of a job never falls while it goes on; its attempts are the granted claims, within their number; a queued
    job is idle; and after the deadline it keeps its row until it fails. -/
theorem stage_progress_and_attempts (ops : List (Op Doc)) (jobId : String) (row : Job)
    (hrow : (after E ops).db.job? jobId = some row) :
    (∀ ops', ∃ row', (after E (ops ++ ops')).db.job? jobId = some row' ∧
      (row'.status.terminal = false → row.effectiveStage.index ≤ row'.effectiveStage.index)) ∧
    (row.attemptCount = ((after E ops).claims jobId).length ∧
      (1 ≤ row.maxAttempts → row.attemptCount ≤ row.maxAttempts)) ∧
    (row.status = .queued → (1 ≤ row.maxAttempts → row.attemptCount < row.maxAttempts) ∧
      row.leaseToken = none ∧ row.leaseUntil = none ∧ row.deadlineAt = none) ∧
    ∀ deadline, row.deadlineAt = some deadline → ∀ ops', (∀ op ∈ ops', ∀ t ∈ op.looks, deadline ≤ t) →
      ∃ row', (after E (ops ++ ops')).db.job? jobId = some row' ∧ (row' = row ∨ row'.status = .failed) := by
  have hsound := after_sound (E := E) ops
  have hsteady : Steady row := after_steady ops jobId row hrow
  refine ⟨fun ops' => ?_, ⟨(after_held ops jobId row hrow).attempts, hsteady.bounded⟩,
    fun hqueued => ⟨hsteady.left hqueued, hsteady.idle hqueued⟩, fun deadline hdeadline ops' hlate => ?_⟩
  · -- The stage reached is compared with the first row; a job that has ended stays so.
    have hkeep : ∀ {op : Op Doc} {db db' : Database E} {j j' : Job} {new : List Claim}, True →
        (Steady j ∧ (j.status.terminal = false → row.effectiveStage.index ≤ j.effectiveStage.index)) →
        Turn op db db' j j' new →
        Steady j' ∧ (j'.status.terminal = false → row.effectiveStage.index ≤ j'.effectiveStage.index) := by
      intro op db db' j j' new _ hj hturn
      refine ⟨(hturn.steady hj.1).1, fun hterm => ?_⟩
      cases hend : j.status.terminal with
      | false => exact (hj.2 hend).trans ((hturn.steady hj.1).2 hterm)
      | true =>
        rw [(hturn.absorbed hend).1] at hterm ⊢
        exact hj.2 hterm
    obtain ⟨row', hrow', -, hle⟩ :=
      run_row hkeep ops' (fun _ _ => trivial) hsound hrow ⟨hsteady, fun _ => le_refl _⟩
    rw [after_append]
    exact ⟨row', hrow', hle⟩
  · have hkeep : ∀ {op : Op Doc} {db db' : Database E} {j j' : Job} {new : List Claim}, (∀ t ∈ op.looks, deadline ≤ t) →
        (Steady j ∧ (j = row ∨ j.status = .failed)) → Turn op db db' j j' new →
        Steady j' ∧ (j' = row ∨ j'.status = .failed) := by
      intro op db db' j j' new hop hj hturn
      refine ⟨(hturn.steady hj.1).1, ?_⟩
      rcases hj.2 with rfl | hfailed
      · exact hturn.overdue hj.1 hdeadline hop
      · rw [(hturn.absorbed (by rw [hfailed]; rfl)).1]
        exact .inr hfailed
    obtain ⟨row', hrow', -, hres⟩ := run_row hkeep ops' hlate hsound hrow ⟨hsteady, .inl rfl⟩
    rw [after_append]
    exact ⟨row', hrow', hres⟩

def firstAttempt : List (Op Document) :=
  [.store (.createJob {} { jobId := "job", ticker := "ABC", mandate := {}, stamp := 0 }),
    .store (.claimJob {} { workerId := "worker", token := "token", stamp := 0, expiry := { stamp := 0, delay := fun _ => 0 } })]

theorem firstAttempt_fails_when_overdue : ∃ row, (after plainEnv firstAttempt).db.job? "job" = some row ∧
    row.status = .eligibilityCheck ∧ row.attemptCount = ((after plainEnv firstAttempt).claims "job").length ∧
    ∀ ops', (∀ op ∈ ops', ∀ t ∈ op.looks, seconds 1800 ≤ t) →
      ∃ row', (after plainEnv (firstAttempt ++ ops')).db.job? "job" = some row' ∧
        (row' = row ∨ row'.status = .failed) := by
  have hfound : ((after plainEnv firstAttempt).db.job? "job").map (fun j => (j.status, j.deadlineAt)) =
      some (.eligibilityCheck, some (seconds 1800)) := by decide +kernel
  obtain ⟨row, hrow, hcolumns⟩ := Option.map_eq_some_iff.mp hfound
  rw [Prod.mk.injEq] at hcolumns
  obtain ⟨-, ⟨hattempts, -⟩, -, hoverdue⟩ := stage_progress_and_attempts firstAttempt "job" row hrow
  exact ⟨row, hrow, hcolumns.1, hattempts, hoverdue _ hcolumns.2⟩

end Money
