import Money.MeteredCircuit
import Money.Theorems.Circuit
import Money.Theorems.Barrier
import Money.Theorems.Settlement

/-! The circuit takes every exception of `CallMeter.invoke` for one of the provider: a call whose start or settlement is
    refused is recorded as a failure, whatever its operation did. -/

namespace Money
open Checked List MeteredCall

variable {Doc : Type} {E : Env Doc}

/-! ### The two transactions of a call -/

namespace MeteredCall
variable {provider : String} {c : MeteredCall} {db : Database E} {r : Reads}

/-- The worker holds the job of the call in its own workspace, and the invocation is new. -/
structure Startable (c : MeteredCall) (db : Database E) (r : Reads) (job : Job) : Prop where
  found : db.job? c.claim.jobId = some job
  held : Holds c.handle job r
  workspace : ∀ w ∈ c.workspaceId, w = job.workspaceId
  admission : ∀ a ∈ db.admission? job.id, a.workspaceId = job.workspaceId
  fresh : ∀ row ∈ db.calls, row.invocationId ≠ c.fresh

variable {job : Job}

theorem ownership_isOk :
    (∃ user, ownership db job = .ok user) ↔ ∀ a ∈ db.admission? job.id, a.workspaceId = job.workspaceId := by
  unfold ownership
  cases db.admission? job.id with
  | none => simp
  | some record => simp [require_bind_eq_ok, pure_eq_ok, -bind_pure_comp]

theorem start_isOk (provider : String) : (∃ started, c.start provider db r = .ok started) ↔ ∃ job, Startable c db r job := by
  simp only [start, startCall, bind_eq_ok, require_eq_ok, pure_eq_ok, owned_eq_ok]
  constructor
  · rintro ⟨_, db', ⟨job, ⟨hjob, hheld⟩, _, hworkspace, -, -, _, hfresh, user, huser, -⟩, -⟩
    exact ⟨job, hjob, hheld, hworkspace, ownership_isOk.mp ⟨user, huser⟩, hfresh⟩
  · rintro ⟨job, h⟩
    obtain ⟨user, huser⟩ := ownership_isOk.mpr h.admission
    have hinsert : ∃ db', insertCall db ((c.invocation provider).record E job user 0 .providerOperation .started) =
        .ok db' := by
      refine insertCall_isOk.mpr fun row hrow => absurd (List.find?_some hrow) ?_
      have hfresh : row.invocationId ≠ ((c.invocation provider).record E job user 0 .providerOperation .started).invocationId :=
        h.fresh row (mem_of_find?_eq_some hrow)
      simp [hfresh]
    obtain ⟨db', hinsert⟩ := hinsert
    exact ⟨_, db', ⟨job, ⟨h.found, h.held⟩, (), h.workspace, (), rfl, (), h.fresh, user, huser, hinsert⟩,
      job, ⟨h.found, h.held⟩, user, huser, rfl⟩

/-- The records of an ended operation: its receipts and the invocation itself. -/
def records (E : Env Doc) (provider : String) (c : MeteredCall) (job : Job) (user : Option String) (ended : OperationEnd)
    (durationMs : Nat) : List CallRow :=
  (ended.receipts.zipIdx 1).map (fun entry => Receipt.record E entry.1 (c.invocation provider) job user entry.2) ++
    [{ (c.invocation provider).record E job user 257 .providerOperation (if ended.returned then .succeeded else .failed) with
      durationMs := some durationMs
      errorCode := if ended.returned then none else some "COMPONENT_FAILED" }]

/-- The worker still holds the job, the receipts are of the provider, and the records of the call can be inserted. -/
structure Settleable (provider : String) (c : MeteredCall) (db : Database E) (r : Reads) (job : Job)
    (user : Option String) (ended : OperationEnd) (durationMs : Nat) : Prop where
  held : ∃ row, db.job? c.claim.jobId = some row ∧ Holds c.handle row r
  receipts : ∀ receipt ∈ ended.receipts,
    receipt.provider = (c.invocation provider).provider ∧ receipt.model = (c.invocation provider).model
  insertable : ∃ db', (c.records E provider job user ended durationMs).foldlM insertCall db = .ok db'

theorem settle_isOk {user : Option String} {ended : OperationEnd} {durationMs : Nat} :
    (∃ db', c.settle provider db r job user ended durationMs = .ok db') ↔
      Settleable provider c db r job user ended durationMs := by
  simp only [settle, finishCall, bind_eq_ok, require_eq_ok, owned_eq_ok]
  constructor
  · rintro ⟨db', row, hrow, _, hreceipts, db'', hfold, hlast⟩
    refine ⟨⟨row, hrow⟩, hreceipts, db', ?_⟩
    rw [records, foldlM_append_eq_ok, foldlM_map]
    exact ⟨db'', hfold, bind_eq_ok.mpr ⟨db', hlast, rfl⟩⟩
  · rintro ⟨⟨row, hrow⟩, hreceipts, db', hinsert⟩
    rw [records, foldlM_append_eq_ok, foldlM_map] at hinsert
    obtain ⟨db'', hfold, hlast⟩ := hinsert
    obtain ⟨newest, hlast, hnil⟩ := bind_eq_ok.mp hlast
    exact ⟨newest, row, hrow, (), hreceipts, db'', hfold, hlast⟩

end MeteredCall

namespace MeteredCircuit
variable {l : CircuitLimits} {provider : String} {s t : MeteredCircuit E} {g i : Nat} {call : MeteredCall} {c : Circuit}
  {duration : Rat} {now : Int} {db : Database E}

theorem running?_eq_some :
    s.running? i = some call ↔ (∃ g, s.circuit.calls[i]? = some (.running g)) ∧ s.calls[i]? = some call := by
  unfold running?
  split
  next g hg => simp [hg]
  next hne => simpa using fun g hg => absurd hg (hne g)

theorem finish_eq_ok (hi : s.circuit.calls[i]? = some (.running g)) (success : Bool) (duration : Rat) :
    s.finish i success duration =
      .ok { s with circuit := s.circuit.setCall i (.settling g success duration s.circuit.clock) } := by
  simp only [finish, Circuit.finish, hi]
  rfl

/-- What each operation can do to the circuit, the calls and the store together. -/
inductive Move (l : CircuitLimits) (provider : String) (s : MeteredCircuit E) : MeteredOp E → MeteredCircuit E → Prop
  | outside (db : Database E) : Move l provider s (.outside db) { s with db }
  | tick (elapsed : Nat) :
    Move l provider s (.tick elapsed) { s with circuit := { s.circuit with clock := s.circuit.clock + elapsed } }
  | arrive (claim : Claim) (workspaceId : Option String) (fresh : Hash) :
    Move l provider s (.arrive claim workspaceId fresh)
      { s with
        circuit := { s.circuit with calls := s.circuit.calls ++ [.arriving s.circuit.clock] }
        calls := s.calls ++ [{ claim, workspaceId, fresh }] }
  | enter {i : Nat} {circuit : Circuit} (h : s.circuit.step l (.enter i) = .ok circuit) :
    Move l provider s (.enter i) { s with circuit }
  | started {i : Nat} {call : MeteredCall} {db : Database E} {job : Job} {user : Option String} (r : Reads) (duration : Rat)
      (hi : s.running? i = some call) (hnew : call.started = none) (hok : call.start provider s.db r = .ok (db, job, user)) :
    Move l provider s (.start i r duration) { s.setCall i { call with started := some (job, user) } with db }
  | unstarted {i g : Nat} {call : MeteredCall} {r : Reads} {e : Err} (duration : Rat)
      (hg : s.circuit.calls[i]? = some (.running g)) (hi : s.calls[i]? = some call) (hnew : call.started = none)
      (herr : call.start provider s.db r = .error e) :
    Move l provider s (.start i r duration)
      { s with circuit := s.circuit.setCall i (.settling g false duration s.circuit.clock) }
  | operated {i : Nat} {call : MeteredCall} (ended : OperationEnd) (hi : s.running? i = some call)
      (hstarted : call.started ≠ none) (hnew : call.operation = none) :
    Move l provider s (.operate i ended) (s.setCall i { call with operation := some ended })
  | settled {i g : Nat} {call : MeteredCall} {r : Reads} {job : Job} {user : Option String} {ended : OperationEnd}
      {durationMs : Nat} {db : Database E} (duration : Rat) (hg : s.circuit.calls[i]? = some (.running g))
      (hi : s.calls[i]? = some call) (hstarted : call.started = some (job, user)) (hended : call.operation = some ended)
      (hok : call.settle provider s.db r job user ended durationMs = .ok db) :
    Move l provider s (.settle i r durationMs duration)
      { s with db, circuit := s.circuit.setCall i (.settling g ended.returned duration s.circuit.clock) }
  | unsettled {i g : Nat} {call : MeteredCall} {r : Reads} {job : Job} {user : Option String} {ended : OperationEnd}
      {durationMs : Nat} {e : Err} (duration : Rat) (hg : s.circuit.calls[i]? = some (.running g))
      (hi : s.calls[i]? = some call) (hstarted : call.started = some (job, user)) (hended : call.operation = some ended)
      (herr : call.settle provider s.db r job user ended durationMs = .error e) :
    Move l provider s (.settle i r durationMs duration)
      { s with circuit := s.circuit.setCall i (.settling g false duration s.circuit.clock) }
  | record {i : Nat} {circuit : Circuit} (h : s.circuit.step l (.record i) = .ok circuit) :
    Move l provider s (.record i) { s with circuit }

variable {op : MeteredOp E}

theorem step_move (h : step l provider s op = .ok t) : Move l provider s op t := by
  cases op with
  | outside db =>
    cases h
    exact .outside db
  | tick elapsed =>
    cases h
    exact .tick elapsed
  | arrive claim workspaceId fresh =>
    cases h
    exact .arrive claim workspaceId fresh
  | enter i =>
    obtain ⟨circuit, hcircuit, rfl⟩ := map_eq_ok.mp h
    exact .enter hcircuit
  | start i r duration =>
    simp only [step, start, bind_eq_ok, demand_eq_ok, require_eq_ok] at h
    obtain ⟨call, hi, _, hnew, h⟩ := h
    split at h
    next db job user hok =>
      cases h
      exact .started r duration hi hnew hok
    next e herr =>
      obtain ⟨⟨g, hg⟩, hi⟩ := running?_eq_some.mp hi
      rw [finish_eq_ok hg] at h
      cases h
      exact .unstarted duration hg hi hnew herr
  | operate i ended =>
    simp only [step, operate, bind_eq_ok, demand_eq_ok, require_eq_ok, pure_eq_ok] at h
    obtain ⟨call, hi, _, ⟨hstarted, hnew⟩, rfl⟩ := h
    exact .operated ended hi hstarted hnew
  | settle i r durationMs duration =>
    simp only [step, settle, bind_eq_ok, demand_eq_ok] at h
    obtain ⟨call, hi, ⟨job, user⟩, hstarted, ended, hended, h⟩ := h
    obtain ⟨⟨g, hg⟩, hi⟩ := running?_eq_some.mp hi
    dsimp only at h
    split at h
    next db hok =>
      rw [finish_eq_ok (s := { s with db }) hg] at h
      cases h
      exact .settled duration hg hi hstarted hended hok
    next e herr =>
      rw [finish_eq_ok hg] at h
      cases h
      exact .unsettled duration hg hi hstarted hended herr
  | record i =>
    obtain ⟨circuit, hcircuit, rfl⟩ := map_eq_ok.mp h
    exact .record hcircuit

/-! ### Failures and raised operations -/

/-- Every call that the circuit takes for a failure is one whose operation raised. -/
def Blameless (s : MeteredCircuit E) : Prop :=
  ∀ (k g : Nat) (duration : Rat) (now : Int), s.circuit.calls[k]? = some (.settling g false duration now) →
    ∃ call, s.calls[k]? = some call ∧ call.Raised

def Ordered (s : MeteredCircuit E) : Prop := ∀ call ∈ s.calls, call.started = none → call.operation = none

/-- The bookkeeping of the call succeeds: its start is admitted, and a result that the operation returned is settled. -/
def Kept (provider : String) (s : MeteredCircuit E) : MeteredOp E → Prop
  | .start i r _ => ∀ call ∈ s.running? i, call.started = none → ∃ job, call.Startable s.db r job
  | .settle i r durationMs _ => ∀ call ∈ s.running? i, ∀ job user ended, call.started = some (job, user) →
    call.operation = some ended → ended.returned = true → call.Settleable provider s.db r job user ended durationMs
  | _ => True

theorem move_ordered (h : Move l provider s op t) (hs : Ordered s) : Ordered t := by
  cases h with
  | arrive claim workspaceId fresh =>
    intro call hcall hnew
    rcases mem_append.mp hcall with hcall | hcall
    · exact hs call hcall hnew
    · cases mem_singleton.mp hcall
      rfl
  | started r duration hi hnew hok =>
    intro call hcall hnone
    rcases mem_or_eq_of_mem_set hcall with hcall | rfl
    · exact hs call hcall hnone
    · cases hnone
  | operated ended hi hstarted hnew =>
    intro call hcall hnone
    rcases mem_or_eq_of_mem_set hcall with hcall | rfl
    · exact hs call hcall hnone
    · exact absurd hnone hstarted
  | outside | tick | enter | unstarted | settled | unsettled | record => exact hs

theorem getElem?_setCall {k : Nat} {phase p : CallPhase} (h : (c.setCall i phase).calls[k]? = some p) :
    k = i ∧ p = phase ∨ k ≠ i ∧ c.calls[k]? = some p := by
  rw [Circuit.setCall, List.getElem?_set] at h
  split at h
  next heq =>
    obtain ⟨-, h⟩ := Option.ite_none_right_eq_some.mp h
    exact .inl ⟨heq.symm, (Option.some.inj h).symm⟩
  next hne => exact .inr ⟨fun heq => hne heq.symm, h⟩

theorem blameless_settling {success : Bool}
    (hs : Blameless s) (hg : s.circuit.calls[i]? = some (.running g)) (hi : s.calls[i]? = some call) :
    Blameless { s with db, circuit := s.circuit.setCall i (.settling g success duration now) } ↔
      (success = false → call.Raised) := by
  constructor
  · rintro h rfl
    have hlt : i < s.circuit.calls.length := (List.getElem?_eq_some_iff.mp hg).1
    obtain ⟨call', hi', hraised⟩ := h i g duration now (by simp [Circuit.setCall, hlt])
    cases hi.symm.trans hi'
    exact hraised
  · intro h k g' duration' now' hk
    rcases getElem?_setCall hk with ⟨rfl, hphase⟩ | ⟨-, hk⟩
    · cases hphase
      exact ⟨call, hi, h rfl⟩
    · exact hs k g' duration' now' hk

theorem blameless_setCall {call' : MeteredCall} (hs : Blameless s)
    (hi : s.running? i = some call) : Blameless { s.setCall i call' with db } := by
  obtain ⟨⟨g, hg⟩, -⟩ := running?_eq_some.mp hi
  intro k g' duration now hk
  have hne : i ≠ k := by
    rintro rfl
    cases hg.symm.trans hk
  obtain ⟨failed, hfailed, hraised⟩ := hs k g' duration now hk
  exact ⟨failed, (List.getElem?_set_ne hne).trans hfailed, hraised⟩

theorem blameless_circuit {circuit : Circuit} (hs : Blameless s)
    (h : ∀ (k g : Nat) (duration : Rat) (now : Int), circuit.calls[k]? = some (.settling g false duration now) →
      s.circuit.calls[k]? = some (.settling g false duration now)) : Blameless { s with circuit } :=
  fun k g duration now hk => hs k g duration now (h k g duration now hk)

theorem move_blameless (h : Move l provider s op t) (ho : Ordered s) (hs : Blameless s) :
    Blameless t ↔ Kept provider s op := by
  cases h with
  | outside | tick => exact iff_of_true hs trivial
  | arrive claim workspaceId fresh =>
    refine iff_of_true (fun k g duration now hk => ?_) trivial
    have hold : s.circuit.calls[k]? = some (.settling g false duration now) := by
      rw [List.getElem?_append] at hk
      split at hk
      · exact hk
      · cases mem_singleton.mp (mem_of_getElem? hk)
    obtain ⟨call, hcall, hraised⟩ := hs k g duration now hold
    exact ⟨call, List.getElem?_append_left (List.getElem?_eq_some_iff.mp hcall).1 ▸ hcall, hraised⟩
  | enter h =>
    refine iff_of_true (blameless_circuit hs fun k g duration now hk => ?_) trivial
    cases Circuit.step_move h with
    | refused | admitted =>
      rcases getElem?_setCall hk with ⟨-, hphase⟩ | ⟨-, hk⟩
      · cases hphase
      · exact hk
  | started r duration hi hnew hok =>
    refine iff_of_true (blameless_setCall hs hi) fun call hcall _ => ?_
    cases hi.symm.trans hcall
    exact (start_isOk provider).mp ⟨_, hok⟩
  | unstarted duration hg hi hnew herr =>
    refine (blameless_settling hs hg hi).trans (iff_of_false ?_ ?_)
    · intro h
      obtain ⟨ended, hended, -⟩ := h rfl
      rw [ho _ (mem_of_getElem? hi) hnew] at hended
      cases hended
    · intro h
      have hjob := h _ (running?_eq_some.mpr ⟨⟨_, hg⟩, hi⟩) hnew
      obtain ⟨started, hok⟩ := (start_isOk provider).mpr hjob
      cases herr.symm.trans hok
  | operated ended hi hstarted hnew => exact iff_of_true (blameless_setCall hs hi) trivial
  | settled duration hg hi hstarted hended hok =>
    refine (blameless_settling hs hg hi).trans (iff_of_true ?_ ?_)
    · intro hfailed
      exact ⟨_, hended, hfailed⟩
    · intro call hcall job user ended hstarted' hended' _
      cases hi.symm.trans (running?_eq_some.mp hcall).2
      cases hstarted.symm.trans hstarted'
      cases hended.symm.trans hended'
      exact settle_isOk.mp ⟨_, hok⟩
  | unsettled duration hg hi hstarted hended herr =>
    refine (blameless_settling hs hg hi).trans ⟨?_, ?_⟩
    · intro hraised call hcall job user ended hstarted' hended' hreturned
      cases hi.symm.trans (running?_eq_some.mp hcall).2
      obtain ⟨ended'', hended'', hfailed⟩ := hraised rfl
      cases hended'.symm.trans hended''
      rw [hfailed] at hreturned
      cases hreturned
    · intro h _
      refine ⟨_, hended, Bool.eq_false_iff.mpr fun hreturned => ?_⟩
      have hsettle := h _ (running?_eq_some.mpr ⟨⟨_, hg⟩, hi⟩) _ _ _ hstarted hended hreturned
      obtain ⟨db, hok⟩ := settle_isOk.mpr hsettle
      cases herr.symm.trans hok
  | record h =>
    refine iff_of_true (blameless_circuit hs fun k g duration now hk => ?_) trivial
    cases Circuit.step_move h with
    | recorded =>
      rcases getElem?_setCall hk with ⟨-, hphase⟩ | ⟨-, hk⟩
      · cases hphase
      · exact hk

theorem kept_of_error {e : Err} (h : step l provider s op = .error e) : Kept provider s op := by
  cases op with
  | start i r duration =>
    intro call hcall hnew
    obtain ⟨⟨g, hg⟩, -⟩ := running?_eq_some.mp hcall
    cases hstart : call.start provider s.db r with
    | ok started => exact (start_isOk provider).mp ⟨_, hstart⟩
    | error e =>
      simp only [step, start, Option.mem_def.mp hcall, demand, require, if_pos hnew, hstart, bind, Except.bind,
        finish_eq_ok hg, reduceCtorEq] at h
  | settle i r durationMs duration =>
    intro call hcall job user ended hstarted hended _
    obtain ⟨⟨g, hg⟩, -⟩ := running?_eq_some.mp hcall
    cases hsettle : call.settle provider s.db r job user ended durationMs with
    | ok db => exact settle_isOk.mp ⟨_, hsettle⟩
    | error e =>
      simp only [step, settle, Option.mem_def.mp hcall, demand, hstarted, hended, hsettle, bind, Except.bind,
        finish_eq_ok hg, reduceCtorEq] at h
  | outside | tick | arrive | enter | operate | record => trivial

theorem next_blameless (op : MeteredOp E) (ho : Ordered s) (hs : Blameless s) :
    Blameless (Runs.next (step l provider) s op) ↔ Kept provider s op := by
  cases h : step l provider s op with
  | ok t =>
    rw [Runs.next_of_ok h]
    exact move_blameless (step_move h) ho hs
  | error e =>
    rw [Runs.next_of_error h]
    exact iff_of_true hs (kept_of_error h)

/-! ### The counter of the provider -/

def Counted (s t : Circuit) : Prop := s.gate.1 < t.gate.1 ∨ s.gate.2 = none ∧ t.gate.2 ≠ none

theorem not_counted_self (c : Circuit) : ¬ Counted c c := by
  rintro (hlt | ⟨hclosed, hopen⟩)
  · exact absurd hlt (Nat.lt_irrefl _)
  · exact absurd hclosed hopen

theorem recordCall_success {row : ProviderState} (h : recordCall l c.row true duration g now = .ok row) :
    row.failures ≤ c.gate.1 ∧ (c.gate.2 = none → row.openUntil = none) := by
  have hthreshold : ¬ l.threshold ≤ 0 := by
    have hvalid := l.valid
    omega
  simp only [recordCall, demand_bind_eq_ok, pure_eq_ok] at h
  obtain ⟨row₀, hrow, rfl⟩ := h
  by_cases hg : row₀.generation = g
  · simp [hg, countResult, hthreshold]
  · simp [hg, Circuit.gate, hrow]

theorem counted_cases {op : CircuitOp} {c' : Circuit} (h : c.step l op = .ok c') (hcount : Counted c c') :
    ∃ (k g : Nat) (duration : Rat) (now : Int), op = .record k ∧ c.calls[k]? = some (.settling g false duration now) := by
  cases Circuit.step_move h with
  | tick | arrive | refused | finished => exact absurd hcount (not_counted_self _)
  | admitted hi hrow =>
    obtain ⟨-, hfailures, ⟨hclosed, hnone, -⟩ | ⟨until_, hopen, -⟩⟩ := Circuit.admitCall_spec hrow
    · rcases hcount with hlt | ⟨-, hopen⟩
      · exact absurd hfailures.symm hlt.ne
      · exact absurd hnone hopen
    · rcases hcount with hlt | ⟨hclosed, -⟩
      · exact absurd hfailures.symm hlt.ne
      · cases hclosed.symm.trans hopen
  | @recorded i g success duration now row hi hrow =>
    cases success with
    | false => exact ⟨i, g, duration, now, rfl, hi⟩
    | true =>
      obtain ⟨hfailures, hclosed⟩ := recordCall_success hrow
      rcases hcount with hlt | ⟨hnone, hopen⟩
      · exact absurd hlt (Nat.not_lt.mpr hfailures)
      · exact absurd (hclosed hnone) hopen

theorem move_counted (h : Move l provider s op t) (hs : Blameless s)
    (hcount : Counted s.circuit t.circuit) : ∃ k call, op = .record k ∧ s.calls[k]? = some call ∧ call.Raised := by
  cases h with
  | enter h =>
    obtain ⟨k, g, duration, now, hop, -⟩ := counted_cases h hcount
    cases hop
  | record h =>
    obtain ⟨k, g, duration, now, hop, hk⟩ := counted_cases h hcount
    cases hop
    obtain ⟨call, hcall, hraised⟩ := hs _ g duration now hk
    exact ⟨_, call, rfl, hcall, hraised⟩
  | outside | tick | arrive | started | unstarted | operated | settled | unsettled => exact absurd hcount (not_counted_self _)

/-- Only calls whose operation raised are failures of the circuit. -/
def OnlyProviderFailures (l : CircuitLimits) (provider : String) (start : Int) (db : Database E) (ops : List (MeteredOp E)) :
    Prop :=
  ∀ pre op post, ops = pre ++ op :: post →
    Blameless (after l provider start db (pre ++ [op])) ∧
    (Counted (after l provider start db pre).circuit (after l provider start db (pre ++ [op])).circuit →
      ∃ (k : Nat) (call : MeteredCall), op = .record k ∧ (after l provider start db pre).calls[k]? = some call ∧ call.Raised)

/-- Only failures of the provider count against it in exactly the runs whose bookkeeping never fails. -/
theorem only_provider_failures_iff (l : CircuitLimits) (provider : String) (start : Int) (db : Database E)
    (ops : List (MeteredOp E)) : OnlyProviderFailures l provider start db ops ↔
      Runs.Along (step l provider) (Kept provider) { circuit := { clock := start }, db } ops := by
  have hordered : Ordered ({ circuit := { clock := start }, db } : MeteredCircuit E) := by simp [Ordered]
  have hblameless : Blameless ({ circuit := { clock := start }, db } : MeteredCircuit E) := by simp [Blameless]
  have halong := Runs.along_iff (fun s op t ho h => move_ordered (step_move h) ho)
    (fun s op ho hs => (next_blameless op ho hs : Blameless (Runs.next (step l provider) s op) ↔ _)) ops hordered hblameless
  refine ⟨fun h => halong.mpr fun pre op post hops => (h pre op post hops).1, fun h pre op post hops => ?_⟩
  refine ⟨halong.mp h pre op post hops, ?_⟩
  have hs : Blameless (after l provider start db pre) := by
    rcases eq_nil_or_concat pre with rfl | ⟨pre, op', rfl⟩
    · exact hblameless
    · rw [concat_eq_append]
      exact halong.mp h pre op' (op :: post) (by rw [hops]; simp)
  have hnext : after l provider start db (pre ++ [op]) = Runs.next (step l provider) (after l provider start db pre) op := by
    rw [after, Runs.run_append]
    rfl
  rw [hnext]
  intro hcount
  rcases Runs.next_cases (step l provider) (after l provider start db pre) op with hsame | hstep
  · rw [hsame] at hcount
    exact absurd hcount (not_counted_self _)
  · exact move_counted (step_move hstep) hs hcount

def claimedStore : Database plainEnv := (System.after plainEnv ((firstPass.take 2).map Op.store)).db

def settledLate : List (MeteredOp plainEnv) :=
  [.arrive { jobId := "research", token := "token", workerId := "worker" } none "call", .enter 0, .start 0 atIssue 1,
    .operate 0 { returned := true, receipts := [] },
    .settle 0 { lease := clearedRequest.issuedAt + seconds 121, deadline := clearedRequest.issuedAt + seconds 121 } 121000 121,
    .record 0]

/-- One call whose operation returned opens the circuit that all workers share. -/
theorem returned_operation_opens_circuit :
    (after { threshold := 1 } "provider:dataset" 0 claimedStore settledLate).circuit.gate = (1, some (seconds 60)) ∧
    (after { threshold := 1 } "provider:dataset" 0 claimedStore settledLate).calls.map (·.operation) =
      [some { returned := true, receipts := [] }] := by
  decide +kernel

end MeteredCircuit
end Money
