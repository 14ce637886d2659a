import Money.Alerts

/-! The alert outbox as a state machine. Each alert is tracked together with its deliveries, the latest one first. -/

namespace Money
open Checked List Rows

variable {digest : AlertKey → Hash} {s t : AlertSystem} {op : AlertOp}

def Alert.isOpen (a : Alert) : Prop := a.state = .pending ∨ a.state = .retry ∨ a.state = .delivering

/-- What each operation can do to the outbox. Every other invariant is derived from these cases. -/
inductive AlertMove (digest : AlertKey → Hash) (s : AlertSystem) : AlertOp → AlertSystem → Prop where
  | again {job k r} (known : Rows.get? Alert.id s.rows (digest k) ≠ none) : AlertMove digest s (.enqueue job k r) s
  | added {job k r} (a : Alert) (fresh : Rows.get? Alert.id s.rows a.id = none) (untried : a.attempts = 0)
      (token : a.deliveryToken = none) (lease : a.deliveryLeaseUntil = none)
      (stored : a.deliveredAt ≠ none ↔ a.state = .delivered) :
      AlertMove digest s (.enqueue job k r) { s with rows := s.rows ++ [a] }
  | idle {workspace skipped providers token stamp now} (later : s.clock ≤ now) :
      AlertMove digest s (.claim workspace skipped providers token stamp now) { s with clock := now }
  | closed {workspace skipped providers token stamp now} (a : Alert) (state : AlertState) (row : a ∈ s.rows)
      (isOpen : a.isOpen) (later : s.clock ≤ now) (final : state = .failed ∨ state = .blockedConfiguration) :
      AlertMove digest s (.claim workspace skipped providers token stamp now)
        { s with clock := now, rows := Rows.update Alert.id s.rows a.id ({ · with state }) }
  | claimed {workspace skipped providers token stamp now} (a : Alert) (row : a ∈ s.rows) (isOpen : a.isOpen)
      (free : a.free stamp) (later : s.clock ≤ now) (read : stamp ≤ now)
      (fresh : token ∉ s.workers.map AlertWorker.token) (left : a.attempts < 3) :
      AlertMove digest s (.claim workspace skipped providers token stamp now)
        { s with
          clock := now
          rows := Rows.update Alert.id s.rows a.id (Alert.claimed token stamp)
          workers := ⟨a.id, token, stamp + seconds 60, .claimed⟩ :: s.workers }
  | called {token delivered} (w : AlertWorker) (found : Rows.get? AlertWorker.token s.workers token = some w)
      (waiting : w.phase = .claimed) :
      AlertMove digest s (.deliver token delivered) { s with workers := s.proceed token (.called delivered) }
  | recorded {token now} (w : AlertWorker) (delivered : Bool)
      (found : Rows.get? AlertWorker.token s.workers token = some w) (ended : w.phase = .called delivered) :
      AlertMove digest s (.record token now)
        { s with
          rows := s.rows.map fun a =>
            if a.id = w.alertId ∧ a.deliveryToken = some token then a.recorded delivered now else a
          workers := s.proceed token .recorded }

variable {rows : List Alert} {stamp : Int} {w : AlertWorker} {token : String}

theorem enqueueAlert_eq_ok {rows' : List Alert} {job : Option (String × Status)} {k : AlertKey} {r : ℕ → Int} {id : Hash}
    (h : enqueueAlert digest rows job k r = .ok (id, rows')) :
    id = digest k ∧ (Rows.get? Alert.id rows (digest k) ≠ none ∧ rows' = rows ∨
      ∃ a : Alert, a.id = digest k ∧ Rows.get? Alert.id rows (digest k) = none ∧ a.attempts = 0 ∧ a.deliveryToken = none ∧
        a.deliveryLeaseUntil = none ∧ (a.deliveredAt ≠ none ↔ a.state = .delivered) ∧ rows' = rows ++ [a]) := by
  simp only [enqueueAlert, ok_iff] at h
  obtain ⟨⟨workspaceId, status⟩, -, -, -, h⟩ := h
  split at h
  next known =>
    obtain ⟨rfl, rfl⟩ := Prod.mk.inj (pure_eq_ok.mp h)
    exact ⟨rfl, .inl ⟨known, rfl⟩⟩
  next fresh =>
    obtain ⟨rfl, rfl⟩ := Prod.mk.inj (pure_eq_ok.mp h)
    refine ⟨rfl, .inr ⟨_, rfl, not_not.mp fresh, rfl, rfl, rfl, ?_, rfl⟩⟩
    cases k.channel <;> simp

theorem nextAlert_eq_some {workspace : Option String} {skipped : List Hash} {a : Alert}
    (h : nextAlert rows workspace skipped stamp = some a) : a ∈ rows ∧ a.isOpen ∧ a.free stamp := by
  have member := mem_of_mem_take (mem_of_find?_eq_some h)
  rw [mem_insertionSort, mem_filter, decide_eq_true_eq] at member
  exact ⟨member.1, member.2.1, by simpa using List.find?_some h⟩

theorem step_alertMove (h : s.step digest op = .ok t) : AlertMove digest s op t := by
  cases op with
  | enqueue job k r =>
    simp only [AlertSystem.step, ok_iff, Prod.exists] at h
    obtain ⟨id, rows, h, rfl⟩ := h
    obtain ⟨-, ⟨known, rfl⟩ | ⟨a, hid, fresh, untried, token, lease, stored, rfl⟩⟩ := enqueueAlert_eq_ok h
    · exact .again known
    · exact .added a (hid ▸ fresh) untried token lease stored
  | claim workspace skipped providers token stamp now =>
    simp only [AlertSystem.step, require_bind_eq_ok] at h
    obtain ⟨⟨later, read, fresh⟩, h⟩ := h
    split at h
    next =>
      cases h
      exact .idle later
    next a found =>
      obtain ⟨row, isOpen, free⟩ := nextAlert_eq_some found
      split at h
      · cases h
        exact .closed a _ row isOpen later (.inr rfl)
      · split at h
        · cases h
          exact .closed a _ row isOpen later (.inl rfl)
        · cases h
          exact .claimed a row isOpen free later read fresh (by omega)
  | deliver token delivered =>
    simp only [AlertSystem.step, ok_iff] at h
    obtain ⟨w, found, waiting, rfl⟩ := h
    exact .called w found waiting
  | record token now =>
    simp only [AlertSystem.step, demand_bind_eq_ok] at h
    obtain ⟨w, found, h⟩ := h
    split at h
    next delivered ended =>
      cases h
      exact .recorded w delivered found ended
    next => cases h

/-! ### An alert and its deliveries -/

def AlertSystem.deliveries (s : AlertSystem) (id : Hash) : List AlertWorker := s.workers.filter fun w => w.alertId = id

/-- The row stores the latest claim, a delivery on its way keeps it out of the queue, and earlier leases have run out.
    -/
structure Tracked (clock : Int) (a : Alert) (ws : List AlertWorker) : Prop where
  attempts : a.attempts = ws.length
  bounded : ws.length ≤ 3
  latest : a.deliveryToken = ws.head?.map AlertWorker.token
  lease : a.deliveryLeaseUntil = ws.head?.map AlertWorker.leaseUntil
  held : ∀ w ∈ ws.head?, w.phase ≠ .recorded →
    a.state = .delivering ∨ a.state = .failed ∨ a.state = .blockedConfiguration
  older : ∀ w ∈ ws.tail, w.phase ≠ .recorded → w.leaseUntil ≤ clock
  stored : a.deliveredAt ≠ none ↔ a.state = .delivered

/-- Alerts and lease tokens are unique, and every row agrees with the deliveries that claimed it. -/
structure AlertSystem.Sound (s : AlertSystem) : Prop where
  keyed : (s.rows.map Alert.id).Nodup
  tokens : (s.workers.map AlertWorker.token).Nodup
  owned : ∀ w ∈ s.workers, ∃ a ∈ s.rows, a.id = w.alertId
  tracked : ∀ a ∈ s.rows, Tracked s.clock a (s.deliveries a.id)

variable {clock now : Int} {a : Alert} {ws : List AlertWorker}

section
variable (h : Tracked clock a ws)
include h

theorem Tracked.later (hnow : clock ≤ now) : Tracked now a ws :=
  { h with older := fun w hw hphase => (h.older w hw hphase).trans hnow }

theorem Tracked.head_of_unexpired (hw : w ∈ ws) (running : w.phase ≠ .recorded)
    (unexpired : clock < w.leaseUntil) : ws.head? = some w := by
  cases ws with
  | nil => cases hw
  | cons first rest =>
    rcases mem_cons.mp hw with rfl | hw
    · rfl
    · exact absurd (h.older w hw running) (Int.not_le.mpr unexpired)

theorem Tracked.claim (isOpen : a.isOpen) (free : a.free stamp)
    (later : clock ≤ now) (read : stamp ≤ now) (left : a.attempts < 3) :
    Tracked now (a.claimed token stamp) (⟨a.id, token, stamp + seconds 60, .claimed⟩ :: ws) where
  attempts := by simp [Alert.claimed, h.attempts]
  bounded := by rw [length_cons, ← h.attempts]; exact left
  latest := rfl
  lease := rfl
  held := fun _ _ _ => .inl rfl
  older := by
    intro w hw hphase
    cases ws with
    | nil => cases hw
    | cons first rest =>
      rcases mem_cons.mp hw with rfl | hw
      · -- the delivery that the row was held by until now
        have held := h.held w rfl hphase
        obtain ⟨until_, huntil, expired⟩ := free.resolve_left fun hne => by
          rcases isOpen with hstate | hstate | hstate <;> simp_all
        rw [h.lease] at huntil
        cases huntil
        exact expired.trans read
      · exact (h.older w hw hphase).trans later
  stored := by
    have waiting : a.state ≠ .delivered := by
      rcases isOpen with hstate | hstate | hstate <;> simp [hstate]
    simpa [Alert.claimed, h.stored] using waiting

theorem Tracked.close {state : AlertState} (isOpen : a.isOpen)
    (final : state = .failed ∨ state = .blockedConfiguration) : Tracked clock { a with state } ws :=
  { h with
    held := fun _ _ _ => .inr final
    stored := by
      have waiting : a.state ≠ .delivered := by
        rcases isOpen with hstate | hstate | hstate <;> simp [hstate]
      have : a.deliveredAt = none := not_not.mp fun hsome => waiting (h.stored.mp hsome)
      rcases final with rfl | rfl <;> simp [this] }

theorem Tracked.proceed {a' : Alert} {phase : DeliveryPhase}
    (same : a'.attempts = a.attempts ∧ a'.deliveryToken = a.deliveryToken ∧ a'.deliveryLeaseUntil = a.deliveryLeaseUntil)
    (keeps : ∀ w ∈ ws, w.token = token → w.phase = .recorded → phase = .recorded)
    (held : ∀ w ∈ ws.head?, (if w.token = token then phase else w.phase) ≠ .recorded →
      a'.state = .delivering ∨ a'.state = .failed ∨ a'.state = .blockedConfiguration)
    (stored : a'.deliveredAt ≠ none ↔ a'.state = .delivered) :
    Tracked clock a' (Rows.update AlertWorker.token ws token ({ · with phase })) := by
  obtain ⟨attempts, htoken, lease⟩ := same
  refine ⟨by simp [Rows.update, attempts, h.attempts], by simpa [Rows.update] using h.bounded, ?_, ?_, ?_, ?_, stored⟩
  · rw [htoken, h.latest, Rows.update, List.head?_map, Option.map_map]
    congr 1
    funext w
    dsimp only [Function.comp]
    split <;> rfl
  · rw [lease, h.lease, Rows.update, List.head?_map, Option.map_map]
    congr 1
    funext w
    dsimp only [Function.comp]
    split <;> rfl
  · intro w hw hphase
    rw [Rows.update, List.head?_map] at hw
    obtain ⟨w₀, hw₀, rfl⟩ := Option.mem_map.mp hw
    exact held w₀ hw₀ fun hrec => hphase (by split <;> simp_all)
  · intro w hw hphase
    rw [Rows.update, ← map_tail] at hw
    obtain ⟨w₀, hw₀, rfl⟩ := mem_map.mp hw
    have expired := h.older w₀ hw₀
    have hkeep := keeps w₀ (mem_of_mem_tail hw₀)
    split at hphase <;> simp_all

end

theorem deliveries_proceed (token : String) (phase : DeliveryPhase) (id : Hash) :
    AlertSystem.deliveries ⟨rows, s.proceed token phase, clock⟩ id =
      Rows.update AlertWorker.token (s.deliveries id) token ({ · with phase }) := by
  unfold AlertSystem.deliveries AlertSystem.proceed Rows.update
  rw [filter_map]
  congr 1
  refine filter_congr fun w _ => ?_
  dsimp only [Function.comp]
  split <;> rfl

theorem deliveries_claim (w : AlertWorker) (id : Hash) :
    AlertSystem.deliveries ⟨rows, w :: s.workers, clock⟩ id =
      if w.alertId = id then w :: s.deliveries id else s.deliveries id := by
  simp only [AlertSystem.deliveries, filter_cons, decide_eq_true_eq]

theorem AlertSystem.Sound.eq_of_token (h : s.Sound) {w' : AlertWorker} (hw : w ∈ s.workers)
    (found : Rows.get? AlertWorker.token s.workers token = some w') (same : w.token = token) : w = w' :=
  eq_of_key h.tokens hw (get?_eq_some found).1 (same.trans (get?_eq_some found).2.symm)

/-- A delivery goes on to its next phase, and the rows change with it. -/
theorem AlertSystem.Sound.proceed (h : s.Sound) {f : Alert → Alert} (hid : ∀ b, (f b).id = b.id) {phase : DeliveryPhase}
    (tracked : ∀ b ∈ s.rows, Tracked s.clock (f b)
      (Rows.update AlertWorker.token (s.deliveries b.id) token ({ · with phase }))) :
    AlertSystem.Sound { s with rows := s.rows.map f, workers := s.proceed token phase } where
  keyed := nodup_map hid h.keyed
  tokens := nodup_update (fun _ => rfl) h.tokens
  owned w' hw' := by
    obtain ⟨w₀, hw₀, rfl⟩ := mem_update.mp hw'
    obtain ⟨b, hb, own⟩ := h.owned w₀ hw₀
    exact ⟨f b, mem_map_of_mem hb, by split <;> exact (hid b).trans own⟩
  tracked b hb := by
    obtain ⟨b₀, hb₀, rfl⟩ := mem_map.mp hb
    rw [hid, deliveries_proceed]
    exact tracked b₀ hb₀

theorem AlertSystem.Sound.step (h : s.Sound) (hstep : s.step digest op = .ok t) : t.Sound := by
  have rowOf : ∀ {a b : Alert}, a ∈ s.rows → b ∈ s.rows → b.id = a.id → b = a := fun ha hb => eq_of_key h.keyed hb ha
  have keep : ∀ {w : AlertWorker} {f : Alert → Alert}, (∀ a, (f a).id = a.id) → w ∈ s.workers →
      ∃ a ∈ s.rows.map f, a.id = w.alertId := by
    intro w f hf hw
    obtain ⟨a, ha, hid⟩ := h.owned w hw
    exact ⟨f a, mem_map_of_mem ha, (hf a).trans hid⟩
  cases step_alertMove hstep with
  | again => exact h
  | added a fresh untried token lease stored =>
    refine ⟨nodup_append_singleton h.keyed fresh, h.tokens, fun w hw => ?_, fun b hb => ?_⟩
    · obtain ⟨b, hb, hid⟩ := h.owned w hw
      exact ⟨b, mem_append_left _ hb, hid⟩
    · rcases mem_snoc.mp hb with hb | rfl
      · exact h.tracked b hb
      · have none_yet : s.deliveries b.id = [] := filter_eq_nil_iff.mpr fun w hw hid => by
          obtain ⟨b', hb', hid'⟩ := h.owned w hw
          exact get?_eq_none.mp fresh b' hb' (hid'.trans (of_decide_eq_true hid))
        change Tracked s.clock b (s.deliveries b.id)
        rw [none_yet]
        exact ⟨untried, Nat.zero_le _, token, lease, nofun, nofun, stored⟩
  | idle later => exact ⟨h.keyed, h.tokens, h.owned, fun a ha => (h.tracked a ha).later later⟩
  | closed a state row isOpen later final =>
    refine ⟨nodup_update (fun _ => rfl) h.keyed, h.tokens, fun w hw => keep (fun b => by split <;> rfl) hw, fun b hb => ?_⟩
    obtain ⟨b₀, hb₀, rfl⟩ := mem_update.mp hb
    split
    next hid =>
      obtain rfl := rowOf row hb₀ hid
      exact ((h.tracked b₀ hb₀).close isOpen final).later later
    next => exact (h.tracked b₀ hb₀).later later
  | claimed a row isOpen free later read fresh left =>
    refine ⟨nodup_update (fun _ => rfl) h.keyed, ?_, fun w hw => ?_, fun b hb => ?_⟩
    · exact nodup_cons.mpr ⟨fresh, h.tokens⟩
    · rcases mem_cons.mp hw with rfl | hw
      · exact ⟨_, mem_update_self row, rfl⟩
      · exact keep (fun b => by split <;> rfl) hw
    · obtain ⟨b₀, hb₀, rfl⟩ := mem_update.mp hb
      rw [deliveries_claim]
      split
      next hid =>
        obtain rfl := rowOf row hb₀ hid
        change Tracked _ _ (if b₀.id = b₀.id then _ else _)
        rw [if_pos rfl]
        exact (h.tracked b₀ hb₀).claim isOpen free later read left
      next hid =>
        rw [if_neg fun same => hid same.symm]
        exact (h.tracked b₀ hb₀).later later
  | @called token delivered w found waiting =>
    have moved : AlertSystem.Sound { s with rows := s.rows.map id, workers := s.proceed token (.called delivered) } := by
      refine h.proceed (fun _ => rfl) fun b hb => ?_
      have unrecorded : ∀ w' ∈ s.deliveries b.id, w'.token = token → w'.phase = .claimed := fun w' hw' same =>
        h.eq_of_token (mem_of_mem_filter hw') found same ▸ waiting
      refine (h.tracked b hb).proceed ⟨rfl, rfl, rfl⟩ (fun w' hw' same hrec => ?_) (fun w' hw' hphase => ?_)
        (h.tracked b hb).stored
      · simp [unrecorded w' hw' same] at hrec
      · refine (h.tracked b hb).held w' hw' fun hrec => ?_
        by_cases same : w'.token = token
        · simp [unrecorded w' (mem_of_mem_head? hw') same] at hrec
        · simp [same, hrec] at hphase
    rwa [map_id] at moved
  | @recorded token now w delivered found ended =>
    refine h.proceed (fun b => by split <;> rfl) fun b hb => ?_
    have tracked := h.tracked b hb
    split
    next own =>
      refine tracked.proceed ⟨rfl, rfl, rfl⟩ (fun _ _ _ _ => rfl) (fun w' hw' hphase => ?_) ?_
      · have same : w'.token = token := by
          have := tracked.latest.symm.trans own.2
          rw [Option.mem_def.mp hw'] at this
          exact Option.some.inj this
        simp [same] at hphase
      · unfold Alert.recorded
        cases delivered <;> simp
    next =>
      refine tracked.proceed ⟨rfl, rfl, rfl⟩ (fun _ _ _ _ => rfl) (fun w' hw' hphase => ?_) tracked.stored
      refine tracked.held w' hw' fun hrec => hphase ?_
      split
      · rfl
      · exact hrec

theorem AlertSystem.sound_after (digest : AlertKey → Hash) (ops : List AlertOp) : (AlertSystem.after digest ops).Sound :=
  Runs.run_inv (fun _ _ _ h hstep => h.step hstep) ops ⟨.nil, .nil, forall_mem_nil _, forall_mem_nil _⟩

/-! ### Finality -/

/-- The result of the latest delivery of the alert is recorded, if there was one. -/
def AlertSystem.Ended (s : AlertSystem) (a : Alert) : Prop := ∀ w ∈ (s.deliveries a.id).head?, w.phase = .recorded

theorem AlertSystem.Sound.token_ne (h : s.Sound)
    (found : Rows.get? AlertWorker.token s.workers token = some w) (unrecorded : w.phase ≠ .recorded) (ended : s.Ended a) :
    ∀ w' ∈ (s.deliveries a.id).head?, w'.token ≠ token := by
  intro w' hw' same
  rw [← h.eq_of_token (mem_of_mem_filter (mem_of_mem_head? hw')) found same] at unrecorded
  exact unrecorded (ended w' hw')

theorem AlertSystem.Sound.keeps (h : s.Sound) (ha : a ∈ s.rows) (final : ¬ a.isOpen) (ended : s.Ended a)
    (hstep : s.step digest op = .ok t) : a ∈ t.rows ∧ t.Ended a := by
  have other : ∀ b ∈ s.rows, b.isOpen → a.id ≠ b.id := fun b hb hopen same =>
    final (eq_of_key h.keyed ha hb same ▸ hopen)
  cases step_alertMove hstep with
  | again => exact ⟨ha, ended⟩
  | added => exact ⟨mem_append_left _ ha, ended⟩
  | idle => exact ⟨ha, ended⟩
  | closed b state row isOpen => exact ⟨mem_update.mpr ⟨a, ha, (if_neg (other b row isOpen)).symm⟩, ended⟩
  | claimed b row isOpen =>
    refine ⟨mem_update.mpr ⟨a, ha, (if_neg (other b row isOpen)).symm⟩, ?_⟩
    unfold AlertSystem.Ended
    rw [deliveries_claim, if_neg fun same => other b row isOpen same.symm]
    exact ended
  | @called token _ w found waiting =>
    refine ⟨ha, fun w' hw' => ?_⟩
    rw [deliveries_proceed, Rows.update, List.head?_map] at hw'
    obtain ⟨w₀, hw₀, rfl⟩ := Option.mem_map.mp hw'
    rw [if_neg (h.token_ne found (by simp [waiting]) ended w₀ hw₀)]
    exact ended w₀ hw₀
  | @recorded token now w delivered found called =>
    have other := h.token_ne found (by simp [called]) ended
    refine ⟨mem_map.mpr ⟨a, ha, if_neg fun own => ?_⟩, fun w' hw' => ?_⟩
    · have latest := own.2.symm.trans (h.tracked a ha).latest
      obtain ⟨w₀, hw₀, same⟩ := Option.map_eq_some_iff.mp latest.symm
      exact other w₀ hw₀ same
    · rw [deliveries_proceed, Rows.update, List.head?_map] at hw'
      obtain ⟨w₀, hw₀, rfl⟩ := Option.mem_map.mp hw'
      rw [if_neg (other w₀ hw₀)]
      exact ended w₀ hw₀

theorem AlertSystem.Sound.final (h : s.Sound) (ha : a ∈ s.rows) (final : ¬ a.isOpen) (ended : s.Ended a)
    (ops : List AlertOp) : a ∈ (Runs.run (AlertSystem.step digest) s ops).rows :=
  (Runs.run_inv (P := fun t : AlertSystem => t.Sound ∧ a ∈ t.rows ∧ t.Ended a)
    (fun _ _ _ ⟨h, ha, ended⟩ hstep => ⟨h.step hstep, h.keeps ha final ended hstep⟩) ops ⟨h, ha, ended⟩).2.1

def AlertWorker.ending (w : AlertWorker) (now : Int) : List AlertOp :=
  match w.phase with
  | .claimed => [.deliver w.token true, .record w.token now]
  | _ => [.record w.token now]

theorem AlertSystem.Sound.revived (h : s.Sound) (ha : a ∈ s.rows) (hstate : a.state = .failed)
    (latest : w ∈ (s.deliveries a.id).head?) (running : w.phase ≠ .recorded) (now : Int) :
    a ∉ (Runs.run (AlertSystem.step digest) s (w.ending now)).rows := by
  have member := mem_of_mem_head? latest
  have found := get?_of_mem h.tokens (mem_of_mem_filter member)
  have own : a.id = w.alertId ∧ a.deliveryToken = some w.token := by
    refine ⟨(of_decide_eq_true (mem_filter.mp member).2).symm, (h.tracked a ha).latest.trans ?_⟩
    rw [Option.mem_def.mp latest, Option.map_some]
  -- in the table that the record leaves, no row with the token has failed
  have gone : ∀ delivered, a ∉ s.rows.map fun b =>
      if b.id = w.alertId ∧ b.deliveryToken = some w.token then b.recorded delivered now else b := by
    intro delivered hmem
    obtain ⟨b, -, hb⟩ := mem_map.mp hmem
    split at hb
    · subst hb
      cases delivered <;> simp [Alert.recorded] at hstate
    next hother => exact hother (hb ▸ own)
  unfold AlertWorker.ending
  cases hphase : w.phase with
  | claimed =>
    have found' : Rows.get? AlertWorker.token (s.proceed w.token (.called true)) w.token =
        some { w with phase := .called true } := by
      rw [AlertSystem.proceed, get?_update (by exact fun _ => rfl), if_pos rfl, found, Option.map_some]
    simpa [Runs.next, AlertSystem.step, found, found', demand, require, hphase, bind, Except.bind, pure, Except.pure]
      using gone true
  | called delivered =>
    simpa [Runs.next, AlertSystem.step, found, demand, hphase, bind, Except.bind, pure, Except.pure] using gone delivered
  | recorded => exact absurd hphase running

/-- What `enqueue` asks of an event, given the status of its job. -/
def AlertKey.Raised (k : AlertKey) (status : Status) : Prop :=
  (k.eventKey ≠ "" ∧ k.eventKey.length ≤ 200) ∧ (k.event = .researchCompleted → status = .complete ∨ status = .rejected)

/-- What holds of the outbox. An alert that was given up stays so in every continuation exactly if no delivery under its
    latest token is on its way. -/
structure AlertSystem.Orderly (digest : AlertKey → Hash) (s : AlertSystem) : Prop where
  named : ∀ job k t id rows, enqueueAlert digest s.rows job k t = .ok (id, rows) → id = digest k
  again : ∀ workspace status k t, k.Raised status → (∃ a ∈ s.rows, a.id = digest k) →
    enqueueAlert digest s.rows (some (workspace, status)) k t = .ok (digest k, s.rows)
  tried : ∀ a ∈ s.rows, a.attempts = (s.deliveries a.id).length ∧ a.attempts ≤ 3
  leases : ∀ w ∈ s.workers, ∀ w' ∈ s.workers, w.alertId = w'.alertId → w.phase ≠ .recorded → w'.phase ≠ .recorded →
    s.clock < w.leaseUntil → s.clock < w'.leaseUntil → w = w'
  latest : ∀ token now, ∀ a ∈ s.rows, a ∉ (Runs.next (AlertSystem.step digest) s (.record token now)).rows →
    (s.deliveries a.id).head?.map AlertWorker.token = some token
  stored : ∀ a ∈ s.rows, a.deliveredAt ≠ none ↔ a.state = .delivered
  delivered : ∀ a ∈ s.rows, a.state = .delivered → ∀ later, a ∈ (Runs.run (AlertSystem.step digest) s later).rows
  failed : ∀ a ∈ s.rows, a.state = .failed →
    ((∀ later, a ∈ (Runs.run (AlertSystem.step digest) s later).rows) ↔ s.Ended a)

/-- Whatever calls and workers interleave, the outbox is in order. -/
theorem alert_outbox_orderly (digest : AlertKey → Hash) (ops : List AlertOp) :
    (AlertSystem.after digest ops).Orderly digest := by
  have h := AlertSystem.sound_after digest ops
  generalize AlertSystem.after digest ops = s at h
  constructor
  case named => exact fun job k t id rows hok => (enqueueAlert_eq_ok hok).1
  case again =>
    rintro workspace status k t ⟨keyed, complete⟩ ⟨a, ha, hid⟩
    have known : Rows.get? Alert.id s.rows (digest k) ≠ none := fun fresh => get?_eq_none.mp fresh a ha hid
    rw [enqueueAlert, demand_some_bind]
    exact require_bind_eq_ok.mpr ⟨keyed, require_bind_eq_ok.mpr ⟨complete, if_pos known⟩⟩
  case tried => exact fun a ha => ⟨(h.tracked a ha).attempts, (h.tracked a ha).attempts ▸ (h.tracked a ha).bounded⟩
  case leases =>
    intro w hw w' hw' same running running' lease lease'
    obtain ⟨a, ha, hid⟩ := h.owned w hw
    have first := (h.tracked a ha).head_of_unexpired (mem_filter.mpr ⟨hw, decide_eq_true hid.symm⟩) running lease
    have first' := (h.tracked a ha).head_of_unexpired
      (mem_filter.mpr ⟨hw', decide_eq_true (same.symm.trans hid.symm)⟩) running' lease'
    exact Option.some.inj (first.symm.trans first')
  case latest =>
    intro token now a ha changed
    by_contra other
    rcases Runs.next_cases (AlertSystem.step digest) s (.record token now) with hn | hn
    · exact changed (hn.symm ▸ ha)
    · generalize Runs.next (AlertSystem.step digest) s (.record token now) = t at hn changed
      cases step_alertMove hn with
      | recorded w delivered found called =>
        exact changed (mem_map.mpr ⟨a, ha, if_neg fun own => other ((h.tracked a ha).latest.symm.trans own.2)⟩)
  case stored => exact fun a ha => (h.tracked a ha).stored
  case delivered =>
    intro a ha hstate later
    refine h.final ha (by simp [Alert.isOpen, hstate]) (fun w hw => ?_) later
    by_contra running
    have := (h.tracked a ha).held w hw running
    simp [hstate] at this
  case failed =>
    intro a ha hstate
    refine ⟨fun always w hw => ?_, fun ended later => h.final ha (by simp [Alert.isOpen, hstate]) ended later⟩
    by_contra running
    exact h.revived ha hstate hw running 0 (always _)

def mailedAlert : AlertKey := ⟨"job", .signalExpired, "day-1", .email⟩

/-- Three deliveries outlive their leases. The fourth call gives the alert up, and then the third provider call returns.
    -/
def lateDelivery : List AlertOp :=
  let claim (token : String) (now : Int) := AlertOp.claim none [] (fun _ => some true) token now now
  [.enqueue (some ("private", .complete)) mailedAlert fun _ => 0, claim "a" 0, claim "b" (seconds 60), claim "c" (seconds 120),
    claim "d" (seconds 180), .deliver "c" true, .record "c" (seconds 181)]

theorem failed_alert_is_delivered_late :
    (AlertSystem.after AlertKey.eventKey (lateDelivery.take 5)).rows.map Alert.state = [.failed] ∧
      (AlertSystem.after AlertKey.eventKey lateDelivery).rows.map Alert.state = [.delivered] := by
  decide +kernel

end Money
