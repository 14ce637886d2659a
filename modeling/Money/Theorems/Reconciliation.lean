import Money.Theorems.Accounts

/-! The order of billing events. The worker compares the subscription of an event with the one that the row holds, so
    the order does not matter exactly while all events are about one subscription that the row can take on. -/

namespace Money
open Checked List Rows Subscription

variable {P : Service} {gateway : Gateway} {notifies : Bool} {c c' : Customers}

/-- One subscription per workspace, and one row per event. -/
structure Customers.Billed (c : Customers) : Prop where
  rows : (c.subscriptions.map workspaceId).Nodup
  events : (c.billingEvents.map BillingEvent.id).Nodup

/-- Enough new mail identities for a notice to every user. -/
structure FreshDraws (c : Customers) (draws : List String) : Prop where
  nodup : draws.Nodup
  fresh : ∀ id ∈ draws, Rows.get? Mail.id c.outbox id = none
  enough : c.users.length ≤ draws.length

/-- Calls of `reconcile_once` while the provider reports the same. Each takes the oldest event that is due and not
    locked elsewhere. -/
inductive Reconciles (P : Service) (gateway : Gateway) (notifies : Bool) (c : Customers) : Customers → Prop where
  | refl : Reconciles P gateway notifies c c
  | once {c' : Customers} (skipped draws : List String) (t : Nat → Int) : Reconciles P gateway notifies c c' →
      FreshDraws c' draws → Reconciles P gateway notifies c (reconcileOnce P gateway notifies c' skipped draws t)

variable {c₁ c₂ : Customers} {customer' workspace' : String}

theorem Reconciles.trans (h : Reconciles P gateway notifies c c₁)
    (h' : Reconciles P gateway notifies c₁ c₂) : Reconciles P gateway notifies c c₂ := by
  induction h' with
  | refl => exact h
  | once skipped draws t _ hfresh ih => exact ih.once skipped draws t hfresh

variable {t : Nat → Int}

theorem enqueueAll_of_fresh {kind : MailKind} (hkind : kind ≠ .invitation) :
    ∀ {users : List User} {ids : List String} {c : Customers}, users.length ≤ ids.length → ids.Nodup →
      (∀ id ∈ ids, Rows.get? Mail.id c.outbox id = none) → ∃ c', enqueueAll P kind t c users ids = .ok c'
  | [], _, c, _, _, _ => ⟨c, rfl⟩
  | u :: users, [], _, hlength, _, _ => by simp at hlength
  | u :: users, id :: ids, c, hlength, hnodup, hfresh => by
    obtain ⟨hid, hnodup⟩ := nodup_cons.mp hnodup
    have hlater : ∀ c₁, enqueueMail P c id u.id u.email kind t = .ok c₁ →
        ∀ id' ∈ ids, Rows.get? Mail.id c₁.outbox id' = none := by
      intro c₁ h id' hid'
      have hnone := hfresh id' (mem_cons_of_mem _ hid')
      rcases enqueueMail_eq_ok.mp h with ⟨-, -, rfl⟩ | ⟨-, -, rfl⟩
      · exact hnone
      · refine get?_eq_none.mpr fun m hm => ?_
        rcases mem_snoc.mp hm with hm | rfl
        · exact get?_eq_none.mp hnone m hm
        · rintro rfl
          exact hid hid'
    have hmail : ∃ c₁, enqueueMail P c id u.id u.email kind t = .ok c₁ := by
      by_cases hs : c.suppresses P u.id u.email kind
      · exact ⟨c, enqueueMail_eq_ok.mpr (.inl ⟨hs, hkind, rfl⟩)⟩
      · exact ⟨_, enqueueMail_eq_ok.mpr (.inr ⟨hs, hfresh id (mem_cons_self ..), rfl⟩)⟩
    obtain ⟨c₁, h₁⟩ := hmail
    obtain ⟨c', h'⟩ := enqueueAll_of_fresh hkind (Nat.le_of_succ_le_succ hlength) hnodup (hlater c₁ h₁)
    refine ⟨c', ?_⟩
    simp only [enqueueAll, bind_eq_ok]
    exact ⟨c₁, h₁, h'⟩

/-! ### What the provider reports -/

structure BillingView where
  plan : String
  status : SubscriptionStatus
  subscriptionId : Option String
  periodStart : Int
  periodEnd : Int
  deriving DecidableEq

def Subscription.view (s : Subscription) : BillingView :=
  ⟨s.plan, s.status, s.subscriptionId, s.periodStart, s.periodEnd⟩

def Subscription.shows (v : BillingView) (now : Int) (s : Subscription) : Subscription :=
  { s with
    plan := v.plan, status := v.status, subscriptionId := v.subscriptionId, periodStart := v.periodStart
    periodEnd := v.periodEnd, updatedAt := now }

/-- The provider reports the subscription as one of the customer and of the workspace, in a form that a row can show. -/
def Provided (P : Service) (gateway : Gateway) (customer workspace id : String) (v : BillingView) : Prop :=
  ∃ s item, gateway id = .ok s ∧ s.id = some id ∧ s.customer = some customer ∧ s.livemode = some P.live ∧
    s.workspaceId = some workspace ∧ s.items = [item] ∧ item.quantity = some 1 ∧ P.planOf item.price = some v.plan ∧
    fromTimestamp (s.currentPeriodStart.or item.currentPeriodStart) = .ok v.periodStart ∧
    fromTimestamp (s.currentPeriodEnd.or item.currentPeriodEnd) = .ok v.periodEnd ∧
    v.periodStart < v.periodEnd ∧ v.periodEnd - v.periodStart ≤ days 370 ∧ s.status = some v.status ∧
    v.subscriptionId = some id

variable {workspace id : String} {v : BillingView}

theorem Provided.names {customer : String} (h : Provided P gateway customer workspace id v) : v.subscriptionId = some id := by
  obtain ⟨_, _, -, -, -, -, -, -, -, -, -, -, -, -, -, hv⟩ := h
  exact hv

variable {v' : BillingView}

theorem Provided.customer {customer : String}
    (h : Provided P gateway customer workspace id v) (h' : Provided P gateway customer' workspace' id v') :
    customer = customer' := by
  obtain ⟨s, _, hs, -, hcustomer, -⟩ := h
  obtain ⟨s', _, hs', -, hcustomer', -⟩ := h'
  cases hs.symm.trans hs'
  exact Option.some.inj (hcustomer.symm.trans hcustomer')

theorem Provided.unique {customer : String}
    (h : Provided P gateway customer workspace id v) (h' : Provided P gateway customer' workspace' id v') : v = v' := by
  obtain ⟨plan, status, _, start, finish⟩ := v
  obtain ⟨plan', status', _, start', finish'⟩ := v'
  obtain ⟨s, item, hs, -, -, -, -, hitems, -, hplan, hstart, hfinish, -, -, hstatus, rfl⟩ := h
  obtain ⟨s', item', hs', -, -, -, -, hitems', -, hplan', hstart', hfinish', -, -, hstatus', rfl⟩ := h'
  cases hs.symm.trans hs'
  cases hitems.symm.trans hitems'
  cases hplan.symm.trans hplan'
  cases hstart.symm.trans hstart'
  cases hfinish.symm.trans hfinish'
  cases hstatus.symm.trans hstatus'
  rfl

def Subscription.opens (row : Subscription) (id : String) : Prop :=
  ∀ held ∈ row.subscriptionId, held = id ∨ row.status.ended = true

variable {now : Int}

theorem observed_eq_ok {row row' : Subscription} {customer : String} :
    (∃ s, gateway id = .ok s ∧ observed P row customer id s now = .ok row') ↔
      ∃ v, Provided P gateway customer row.workspaceId id v ∧ row.opens id ∧ row' = row.shows v now := by
  simp only [observed, ok_iff]
  constructor
  · rintro ⟨s, hs, ⟨hid, hcustomer, hlive⟩, hworkspace, hopen, item, hitem, ⟨hone, hquantity⟩, plan, hplan, start, hstart,
      finish, hfinish, ⟨hlt, hle⟩, status, hstatus, rfl⟩
    have hitems : s.items = [item] := by
      obtain ⟨x, hx⟩ := length_eq_one_iff.mp hone
      rw [hx] at hitem ⊢
      cases hitem
      rfl
    exact ⟨⟨plan, status, some id, start, finish⟩, ⟨s, item, hs, hid, hcustomer, hlive, hworkspace, hitems, hquantity, hplan,
      hstart, hfinish, hlt, hle, hstatus, rfl⟩, hopen, rfl⟩
  · rintro ⟨⟨plan, status, _, start, finish⟩, ⟨s, item, hs, hid, hcustomer, hlive, hworkspace, hitems, hquantity, hplan,
      hstart, hfinish, hlt, hle, hstatus, rfl⟩, hopen, rfl⟩
    refine ⟨s, hs, ⟨hid, hcustomer, hlive⟩, hworkspace, hopen, item, ?_, ⟨?_, hquantity⟩, plan, hplan, start, hstart, finish,
      hfinish, ⟨hlt, hle⟩, status, hstatus, rfl⟩ <;> rw [hitems] <;> rfl

/-! ### One attempt -/

/-- The event can be applied to the row of its customer, which then shows `v`. -/
def Applies (P : Service) (gateway : Gateway) (c : Customers) (e : BillingEvent) (row : Subscription) (v : BillingView) : Prop :=
  ∃ customer id, e.customerId = some customer ∧ e.subscriptionId = some id ∧ c.subscriptionOf? customer = some row ∧
    Provided P gateway customer row.workspaceId id v ∧ row.opens id ∧
    ∀ other ∈ c.subscriptions, other.subscriptionId = some id → other.workspaceId = row.workspaceId

def Applied (c : Customers) (e : BillingEvent) (row : Subscription) (v : BillingView) (c' : Customers) : Prop :=
  ∃ now f, (∀ x : BillingEvent, (f x).id = x.id ∧ (f x).customerId = x.customerId ∧ (f x).state = .processed) ∧
    c'.subscriptions = Rows.update workspaceId c.subscriptions row.workspaceId (·.shows v now) ∧
    c'.billingEvents = Rows.update BillingEvent.id c.billingEvents e.id f

def Retried (c : Customers) (e : BillingEvent) (c' : Customers) : Prop :=
  c'.subscriptions = c.subscriptions ∧
    ∃ now, c'.billingEvents = Rows.update BillingEvent.id c.billingEvents e.id (·.retried now)

/-- An attempt at a pending event applied it, or put it off with the rows as they were. -/
def Attempt (P : Service) (gateway : Gateway) (c : Customers) (e : BillingEvent) (c' : Customers) : Prop :=
  (∃ row v, Applies P gateway c e row v ∧ Applied c e row v c') ∨
    (∀ row v, ¬ Applies P gateway c e row v) ∧ Retried c e c'

theorem subscriptionOf?_mem {customer : String} {row : Subscription} (h : c.subscriptionOf? customer = some row) :
    row ∈ c.subscriptions ∧ row.customerId = some customer :=
  ⟨mem_of_find?_eq_some h, by simpa using List.find?_some h⟩

variable {e : BillingEvent} {draws : List String}

theorem reconcile_applied (hk : c.Billed)
    (h : reconcile P gateway notifies c e draws t = .ok c') : ∃ row v, Applies P gateway c e row v ∧ Applied c e row v c' := by
  simp only [reconcile, ok_iff] at h
  obtain ⟨customer, hcustomer, row, hrow, id, hid, s, hs, row', hobserved, hother, h⟩ := h
  obtain ⟨v, hprovided, hopen, rfl⟩ := observed_eq_ok.mp ⟨s, hs, hobserved⟩
  have hv := hprovided.names
  refine ⟨row, v, ⟨customer, id, hcustomer, hid, hrow, hprovided, hopen, fun other ho hsame => ?_⟩, ?_⟩
  · exact hother other ho (hsame.trans hv.symm)
  have hupdate := update_const hk.rows (subscriptionOf?_mem hrow).1 (·.shows v (t 1))
  refine ⟨t 1, fun x => { x with state := .processed, processedAt := some (t 2), attempts := e.attempts + 1 },
    fun _ => ⟨rfl, rfl, rfl⟩, ?_⟩
  rw [← hupdate]
  split at h
  · obtain ⟨rows, rfl, -⟩ := enqueueAll_posts h
    exact ⟨rfl, rfl⟩
  · cases h
    exact ⟨rfl, rfl⟩

variable (notifies) in
theorem reconcile_of_applies (t : Nat → Int) {row : Subscription}
    (hdraws : FreshDraws c draws) (h : Applies P gateway c e row v) :
    ∃ c', reconcile P gateway notifies c e draws t = .ok c' := by
  obtain ⟨customer, id, hcustomer, hid, hrow, hprovided, hopen, hother⟩ := h
  have hobserved : ∃ s, gateway id = .ok s ∧ observed P row customer id s (t 1) = .ok (row.shows v (t 1)) :=
    observed_eq_ok.mpr ⟨v, hprovided, hopen, rfl⟩
  obtain ⟨s, hs, hobserved⟩ := hobserved
  have hv := hprovided.names
  have hintegrity : ∀ other ∈ c.subscriptions, other.subscriptionId = (row.shows v (t 1)).subscriptionId →
      other.workspaceId = (row.shows v (t 1)).workspaceId :=
    fun other ho hsame => hother other ho (hsame.trans hv)
  have hnotified : ∀ c₁ : Customers, c₁.outbox = c.outbox → c₁.users = c.users → ∀ t' : Nat → Int,
      ∃ c', (if notifies = true then notifySubscription P c₁ row.workspaceId draws t' else pure c₁) = .ok c' := by
    intro c₁ ho hu t'
    split
    · have henough : (subscribers c₁ row.workspaceId).length ≤ draws.length :=
        (length_filter_le ..).trans (hu ▸ hdraws.enough)
      exact enqueueAll_of_fresh (by decide) henough hdraws.nodup (ho ▸ hdraws.fresh)
    · exact ⟨c₁, rfl⟩
  simp only [reconcile, ok_iff]
  obtain ⟨c', hc'⟩ := hnotified { c with
    subscriptions := Rows.update workspaceId c.subscriptions row.workspaceId fun _ => row.shows v (t 1)
    billingEvents := Rows.update BillingEvent.id c.billingEvents e.id fun x =>
      { x with state := .processed, processedAt := some (t 2), attempts := e.attempts + 1 } } rfl rfl fun i => t (i + 3)
  exact ⟨c', customer, hcustomer, row, hrow, id, hid, s, hs, _, hobserved, hintegrity, hc'⟩

variable (P gateway notifies) in
theorem attempt_cases {skipped draws : List String} (t : Nat → Int) {e : BillingEvent} (hk : c.Billed)
    (hdraws : FreshDraws c draws) (hdue : c.dueEvent? skipped (t 0) = some e) :
    Attempt P gateway c e (reconcileOnce P gateway notifies c skipped draws t) := by
  simp only [reconcileOnce, hdue]
  cases hr : reconcile P gateway notifies c e draws t with
  | ok c' => exact .inl (reconcile_applied hk hr)
  | error err =>
    refine .inr ⟨fun row v happlies => ?_, rfl, t 1, rfl⟩
    obtain ⟨c', hc'⟩ := reconcile_of_applies notifies t hdraws happlies
    rw [hr] at hc'
    cases hc'

variable {skipped : List String}

theorem dueEvent?_eq_some (h : c.dueEvent? skipped now = some e) :
    e ∈ c.billingEvents ∧ e.state = .pending ∧ e.id ∉ skipped := by
  have hmem := (perm_insertionSort _ _).mem_iff.mp (mem_of_mem_head? h)
  obtain ⟨hmem, hp⟩ := mem_filter.mp hmem
  exact ⟨hmem, (of_decide_eq_true hp).1, (of_decide_eq_true hp).2.2⟩

variable (P gateway notifies) in
theorem once_cases (skipped : List String) (t : Nat → Int) (hk : c.Billed) (hdraws : FreshDraws c draws) :
    reconcileOnce P gateway notifies c skipped draws t = c ∨ ∃ e ∈ c.billingEvents, e.state = .pending ∧
      Attempt P gateway c e (reconcileOnce P gateway notifies c skipped draws t) := by
  cases hdue : c.dueEvent? skipped (t 0) with
  | none =>
    refine .inl ?_
    simp only [reconcileOnce, hdue]
  | some e =>
    obtain ⟨hmem, hpending, -⟩ := dueEvent?_eq_some hdue
    exact .inr ⟨e, hmem, hpending, attempt_cases P gateway notifies t hk hdraws hdue⟩

theorem dueEvent?_of_pending (hk : c.Billed) (he : e ∈ c.billingEvents)
    (hpending : e.state = .pending) (hdue : e.availableAt ≤ now) : ∃ skipped, c.dueEvent? skipped now = some e := by
  refine ⟨(c.billingEvents.map BillingEvent.id).filter (· ≠ e.id), ?_⟩
  have hmem : e ∈ c.billingEvents.filter fun x => x.state = .pending ∧ x.availableAt ≤ now ∧
      x.id ∉ (c.billingEvents.map BillingEvent.id).filter (· ≠ e.id) :=
    mem_filter.mpr ⟨he, by simp [hpending, hdue]⟩
  cases hfirst : c.dueEvent? ((c.billingEvents.map BillingEvent.id).filter (· ≠ e.id)) now with
  | none =>
    rw [Customers.dueEvent?, List.head?_eq_none_iff] at hfirst
    exact absurd ((perm_insertionSort _ _).mem_iff.mpr hmem) (hfirst ▸ not_mem_nil)
  | some x =>
    obtain ⟨hx, -, hskip⟩ := dueEvent?_eq_some hfirst
    have hid : x.id = e.id := not_not.mp fun hne =>
      hskip (mem_filter.mpr ⟨mem_map_of_mem hx, by simpa using hne⟩)
    rw [eq_of_key hk.events hx he hid]

theorem BillingEvent.retried_fields (now : Int) (e : BillingEvent) : (e.retried now).id = e.id ∧
    (e.retried now).customerId = e.customerId ∧ (e.retried now).subscriptionId = e.subscriptionId := by
  unfold BillingEvent.retried
  split <;> exact ⟨rfl, rfl, rfl⟩

theorem Attempt.events (h : Attempt P gateway c e c') :
    ∃ g, (∀ x : BillingEvent, (g x).id = x.id ∧ (g x).customerId = x.customerId) ∧
      c'.billingEvents = Rows.update BillingEvent.id c.billingEvents e.id g := by
  rcases h with ⟨_, _, -, _, f, hf, -, he⟩ | ⟨-, -, now, he⟩
  · exact ⟨f, fun x => ⟨(hf x).1, (hf x).2.1⟩, he⟩
  · exact ⟨_, fun x => ⟨(x.retried_fields now).1, (x.retried_fields now).2.1⟩, he⟩

theorem Attempt.billed (h : Attempt P gateway c e c') (hk : c.Billed) : c'.Billed := by
  obtain ⟨g, hg, he⟩ := h.events
  refine ⟨?_, by rw [he]; exact nodup_update (fun x => (hg x).1) hk.events⟩
  rcases h with ⟨_, _, -, _, _, -, hs, -⟩ | ⟨-, hs, -⟩ <;> rw [hs]
  · exact nodup_update (fun _ => rfl) hk.rows
  · exact hk.rows

variable (P gateway notifies) in
theorem once_billed (skipped : List String) (t : Nat → Int) (hk : c.Billed) (hdraws : FreshDraws c draws) :
    (reconcileOnce P gateway notifies c skipped draws t).Billed := by
  rcases once_cases P gateway notifies skipped t hk hdraws with h | ⟨e, -, -, h⟩
  · rw [h]
    exact hk
  · exact h.billed hk

/-! ### Draining the events -/

theorem exists_freshDraws (c : Customers) : ∃ draws, FreshDraws c draws := by
  let name : Nat → String := fun n => String.ofList (List.replicate n 'a')
  have hlength : ∀ n, (name n).length = n := fun n => by simp [name]
  let longest := (c.outbox.map (·.id.length)).sum
  refine ⟨(List.range c.users.length).map fun i => name (longest + 1 + i), ?_, fun id hid => ?_, by simp⟩
  · refine (nodup_map_iff fun i j h => ?_).mpr nodup_range
    have hij := congrArg String.length h
    rw [hlength, hlength] at hij
    omega
  · obtain ⟨i, -, rfl⟩ := mem_map.mp hid
    refine get?_eq_none.mpr fun m hm heq => ?_
    have hle : m.id.length ≤ longest := single_le_sum (fun _ _ => Nat.zero_le _) _ (mem_map_of_mem hm)
    rw [heq, hlength] at hle
    omega

/-- Only the event `id` may have changed. -/
structure Spares (c : Customers) (id : String) (c' : Customers) : Prop where
  billed : c'.Billed
  others : ∀ x : BillingEvent, x.id ≠ id → (x ∈ c'.billingEvents ↔ x ∈ c.billingEvents)

theorem Spares.trans (h : Spares c id c₁) (h' : Spares c₁ id c₂) : Spares c id c₂ :=
  ⟨h'.billed, fun x hx => (h'.others x hx).trans (h.others x hx)⟩

theorem Attempt.spares (h : Attempt P gateway c e c') (hk : c.Billed) : Spares c e.id c' := by
  refine ⟨h.billed hk, fun x hx => ?_⟩
  obtain ⟨g, hg, he⟩ := h.events
  rw [he]
  exact mem_update_of_ne (fun x => (hg x).1) hx

/-- How a pending event ends: applied, or given up with the rows as they were. -/
def Concludes (P : Service) (gateway : Gateway) (c : Customers) (e : BillingEvent) (c' : Customers) : Prop :=
  ∃ e' ∈ c'.billingEvents, e'.id = e.id ∧ e'.customerId = e.customerId ∧
    ((e'.state = .processed ∧ ∃ row v now, Applies P gateway c e row v ∧
      c'.subscriptions = Rows.update workspaceId c.subscriptions row.workspaceId (·.shows v now)) ∨
    (e'.state = .failed ∧ c'.subscriptions = c.subscriptions))

theorem applies_congr {e' : BillingEvent} {row : Subscription} (hs : c'.subscriptions = c.subscriptions)
    (hcustomer : e'.customerId = e.customerId) (hid : e'.subscriptionId = e.subscriptionId)
    (h : Applies P gateway c' e' row v) : Applies P gateway c e row v := by
  unfold Applies Customers.subscriptionOf? at h ⊢
  rwa [hs, hcustomer, hid] at h

variable (P gateway notifies)

theorem attempt_one (hk : c.Billed) (he : e ∈ c.billingEvents) (hpending : e.state = .pending) :
    ∃ c', Reconciles P gateway notifies c c' ∧ Spares c e.id c' ∧ (Concludes P gateway c e c' ∨
      c'.subscriptions = c.subscriptions ∧ e.attempts + 1 < 5 ∧ ∃ e' ∈ c'.billingEvents, e'.id = e.id ∧
        e'.customerId = e.customerId ∧ e'.subscriptionId = e.subscriptionId ∧ e'.state = .pending ∧
        e'.attempts = e.attempts + 1) := by
  obtain ⟨draws, hdraws⟩ := exists_freshDraws c
  obtain ⟨skipped, hdue⟩ := dueEvent?_of_pending hk he hpending (le_refl e.availableAt)
  have hattempt := attempt_cases P gateway notifies (fun _ => e.availableAt) hk hdraws hdue
  refine ⟨_, Reconciles.refl.once skipped draws (fun _ => e.availableAt) hdraws, hattempt.spares hk, ?_⟩
  rcases hattempt with ⟨row, v, happlies, now, f, hf, hs, hevents⟩ | ⟨-, hs, now, hevents⟩
  · exact .inl ⟨f e, hevents ▸ mem_update_self he, (hf e).1, (hf e).2.1, .inl ⟨(hf e).2.2, row, v, now, happlies, hs⟩⟩
  · have hmem : e.retried now ∈ _ := hevents ▸ mem_update_self he
    obtain ⟨hid, hcustomer, hsub⟩ := e.retried_fields now
    have hretried : e.retried now = _ := if_pos hpending
    by_cases hlast : 5 ≤ e.attempts + 1
    · exact .inl ⟨_, hmem, hid, hcustomer, .inr ⟨by rw [hretried]; exact if_pos hlast, hs⟩⟩
    · refine .inr ⟨hs, not_le.mp hlast, _, hmem, hid, hcustomer, hsub, ?_⟩
      rw [hretried]
      exact ⟨if_neg hlast, rfl⟩

theorem drain_one (n : Nat) : ∀ {c : Customers} {e : BillingEvent}, 5 - e.attempts ≤ n → c.Billed → e ∈ c.billingEvents →
    e.state = .pending → ∃ c', Reconciles P gateway notifies c c' ∧ Spares c e.id c' ∧ Concludes P gateway c e c' := by
  induction n with
  | zero =>
    intro c e hn hk he hpending
    obtain ⟨c₁, hrun, hspares, hends | ⟨-, hfew, -⟩⟩ := attempt_one P gateway notifies hk he hpending
    · exact ⟨c₁, hrun, hspares, hends⟩
    · omega
  | succ n ih =>
    intro c e hn hk he hpending
    obtain ⟨c₁, hrun, hspares, hends | ⟨hs, -, e₁, he₁, hid, hcustomer, hsub, hstate, hattempts⟩⟩ :=
      attempt_one P gateway notifies hk he hpending
    · exact ⟨c₁, hrun, hspares, hends⟩
    · obtain ⟨c', hrun', hspares', e', he', hid', hcustomer', hends⟩ := ih (by omega) hspares.billed he₁ hstate
      refine ⟨c', hrun.trans hrun', hspares.trans (hid ▸ hspares'), e', he', hid'.trans hid, hcustomer'.trans hcustomer, ?_⟩
      -- The rows did not change meanwhile, so the event applied from the beginning if it does.
      rw [hs] at hends
      refine hends.imp_left fun ⟨hstate, row, v, now, happlies, hupdate⟩ => ?_
      exact ⟨hstate, row, v, now, applies_congr hs hcustomer hsub happlies, hupdate⟩

theorem drain_others (hk : c.Billed) (he : e ∈ c.billingEvents) (ids : List String) (hids : e.id ∉ ids) :
    ∃ c', Reconciles P gateway notifies c c' ∧ c'.Billed ∧ e ∈ c'.billingEvents ∧
      ∀ x ∈ c'.billingEvents, x.id ∈ ids → x.state ≠ .pending := by
  induction ids with
  | nil => exact ⟨c, .refl, hk, he, nofun⟩
  | cons id ids ih =>
    obtain ⟨c₁, hrun₁, hk₁, he₁, hdone₁⟩ := ih fun h => hids (mem_cons_of_mem _ h)
    have hne : e.id ≠ id := fun h => hids (h ▸ mem_cons_self ..)
    by_cases hpending : ∃ x ∈ c₁.billingEvents, x.id = id ∧ x.state = .pending
    · obtain ⟨x, hx, rfl, hx'⟩ := hpending
      obtain ⟨c', hrun, hspares, x', hmem', hid', -, hends⟩ := drain_one P gateway notifies _ (le_refl _) hk₁ hx hx'
      refine ⟨c', hrun₁.trans hrun, hspares.billed, (hspares.others e hne).mpr he₁, fun y hy hid => ?_⟩
      by_cases hyx : y.id = x.id
      · rw [eq_of_key hspares.billed.events hy hmem' (hyx.trans hid'.symm)]
        rcases hends with ⟨hstate, -⟩ | ⟨hstate, -⟩ <;> rw [hstate] <;> exact nofun
      · refine hdone₁ y ((hspares.others y hyx).mp hy) ((mem_cons.mp hid).resolve_left hyx)
    · refine ⟨c₁, hrun₁, hk₁, he₁, fun y hy hid hstate => ?_⟩
      rcases mem_cons.mp hid with rfl | hid
      · exact hpending ⟨y, hy, rfl, hstate⟩
      · exact hdone₁ y hy hid hstate

variable {P gateway notifies} in
theorem Reconciles.events (h : Reconciles P gateway notifies c c') (hk : c.Billed) :
    c'.Billed ∧ c'.billingEvents.map BillingEvent.id = c.billingEvents.map BillingEvent.id := by
  induction h with
  | refl => exact ⟨hk, rfl⟩
  | @once c₁ skipped draws t _ hdraws ih =>
    refine ⟨once_billed P gateway notifies skipped t ih.1 hdraws, ?_⟩
    rcases once_cases P gateway notifies skipped t ih.1 hdraws with h | ⟨e, -, -, h⟩
    · rw [h]
      exact ih.2
    · obtain ⟨g, hg, he⟩ := h.events
      rw [he, map_update fun x => (hg x).1]
      exact ih.2

def Customers.Idle (c : Customers) : Prop := ∀ e ∈ c.billingEvents, e.state ≠ .pending

theorem drain_but (hk : c.Billed) (he : e ∈ c.billingEvents) :
    ∃ c', Reconciles P gateway notifies c c' ∧ c'.Billed ∧ e ∈ c'.billingEvents ∧
      ∀ x ∈ c'.billingEvents, x.id ≠ e.id → x.state ≠ .pending := by
  obtain ⟨c', hrun, hk', he', hdone⟩ := drain_others P gateway notifies hk he
    ((c.billingEvents.map BillingEvent.id).filter (· ≠ e.id)) (by simp)
  refine ⟨c', hrun, hk', he', fun x hx hne => hdone x hx (mem_filter.mpr ⟨?_, by simpa using hne⟩)⟩
  rw [← (hrun.events hk).2]
  exact mem_map_of_mem hx

variable {P gateway} in
theorem Concludes.idle (h : Concludes P gateway c₁ e c') (hs : Spares c₁ e.id c')
    (hdone : ∀ x ∈ c₁.billingEvents, x.id ≠ e.id → x.state ≠ .pending) : c'.Idle := by
  obtain ⟨e', he', hid', -, hends⟩ := h
  intro x hx
  by_cases hxe : x.id = e.id
  · rw [eq_of_key hs.billed.events hx he' (hxe.trans hid'.symm)]
    rcases hends with ⟨hstate, -⟩ | ⟨hstate, -⟩ <;> rw [hstate] <;> exact nofun
  · exact hdone x ((hs.others x hxe).mp hx) hxe

theorem drain_last (hk : c.Billed) (he : e ∈ c.billingEvents) (hpending : e.state = .pending) :
    ∃ c₁ c', Reconciles P gateway notifies c c' ∧ c'.Idle ∧ Concludes P gateway c₁ e c' := by
  obtain ⟨c₁, hrun₁, hk₁, he₁, hdone⟩ := drain_but P gateway notifies hk he
  obtain ⟨c', hrun, hspares, hends⟩ := drain_one P gateway notifies _ (le_refl _) hk₁ he₁
    hpending
  exact ⟨c₁, c', hrun₁.trans hrun, hends.idle hspares hdone, hends⟩

theorem drain (hk : c.Billed) : ∃ c', Reconciles P gateway notifies c c' ∧ c'.Idle := by
  by_cases hpending : ∃ e ∈ c.billingEvents, e.state = .pending
  · obtain ⟨e, he, hpending⟩ := hpending
    obtain ⟨_, c', hrun, hidle, -⟩ := drain_last P gateway notifies hk he hpending
    exact ⟨c', hrun, hidle⟩
  · exact ⟨c, .refl, fun e he hstate => hpending ⟨e, he, hstate⟩⟩

variable {P gateway notifies}

/-! ### The row of a customer -/

theorem subscriptionOf?_shows (customer : String)
    (h : c'.subscriptions = Rows.update workspaceId c.subscriptions workspace (·.shows v now)) :
    c'.subscriptionOf? customer =
      (c.subscriptionOf? customer).map fun r => if r.workspaceId = workspace then r.shows v now else r := by
  have hcustomer : ∀ r : Subscription, (if r.workspaceId = workspace then r.shows v now else r).customerId = r.customerId := by
    intro r
    split <;> rfl
  simp only [Customers.subscriptionOf?, h, Rows.update, List.find?_map, Function.comp_def, hcustomer]

theorem Applies.row {row : Subscription} {customer : String}
    (h : Applies P gateway c e row v) (hcustomer : e.customerId = some customer)
    (hs : c'.subscriptions = Rows.update workspaceId c.subscriptions row.workspaceId (·.shows v now)) :
    c.subscriptionOf? customer = some row ∧ c'.subscriptionOf? customer = some (row.shows v now) := by
  obtain ⟨customer', id, hcustomer', -, hrow, -⟩ := h
  cases hcustomer.symm.trans hcustomer'
  refine ⟨hrow, ?_⟩
  rw [subscriptionOf?_shows customer hs, hrow, Option.map_some, if_pos rfl]

theorem Applies.other {row : Subscription} {customer : String} (hk : c.Billed)
    (h : Applies P gateway c e row v) (hne : e.customerId ≠ some customer)
    (hs : c'.subscriptions = Rows.update workspaceId c.subscriptions row.workspaceId (·.shows v now)) :
    c'.subscriptionOf? customer = c.subscriptionOf? customer := by
  obtain ⟨customer', id, hcustomer', -, hrow, -⟩ := h
  rw [subscriptionOf?_shows customer hs]
  cases hours : c.subscriptionOf? customer with
  | none => rfl
  | some r =>
    obtain ⟨hmem, hcustomer⟩ := subscriptionOf?_mem hours
    obtain ⟨hmem', hrowCustomer⟩ := subscriptionOf?_mem hrow
    have hworkspace : r.workspaceId ≠ row.workspaceId := by
      intro hsame
      rw [eq_of_key hk.rows hmem hmem' hsame, hrowCustomer] at hcustomer
      exact hne (hcustomer' ▸ hcustomer)
    rw [Option.map_some, if_neg hworkspace]

theorem Subscription.view_shows (v : BillingView) (now : Int) (s : Subscription) : (s.shows v now).view = v := rfl

theorem Attempt.other {x : BillingEvent} (h : Attempt P gateway c e c') (hk : c.Billed) (he : e ∈ c.billingEvents)
    (hne : x.customerId ≠ e.customerId) : x ∈ c'.billingEvents ↔ x ∈ c.billingEvents := by
  obtain ⟨g, hg, hevents⟩ := h.events
  rw [hevents, mem_update]
  constructor
  · rintro ⟨x₀, hx₀, rfl⟩
    split at hne
    next hid =>
      rw [eq_of_key hk.events hx₀ he hid] at hne
      exact absurd (hg e).2 hne
    next hid =>
      rw [if_neg hid]
      exact hx₀
  · intro hx
    refine ⟨x, hx, (if_neg fun hid => hne ?_).symm⟩
    rw [eq_of_key hk.events hx he hid]

/-! ### Order -/

def Customers.pendingFor (c : Customers) (customer : String) (e : BillingEvent) : Prop :=
  e ∈ c.billingEvents ∧ e.customerId = some customer ∧ e.state = .pending

/-- All events of the customer are resolved and the row shows `v`, as the provider reports it if there were events. -/
structure Reconciled (P : Service) (gateway : Gateway) (c : Customers) (customer : String) (v : BillingView)
    (c' : Customers) : Prop where
  view : (c'.subscriptionOf? customer).map view = some v
  resolved : ∀ e ∈ c'.billingEvents, e.customerId = some customer → e.unresolved = false
  provided : (∃ e, c.pendingFor customer e) → ∃ workspace id, Provided P gateway customer workspace id v

/-- However the events of the customer are processed, once none is pending the row shows the same. -/
def OrderIndependent (P : Service) (gateway : Gateway) (notifies : Bool) (c : Customers) (customer : String) : Prop :=
  ∃ v, ∀ c', Reconciles P gateway notifies c c' → (∀ e, ¬ c'.pendingFor customer e) → Reconciled P gateway c customer v c'

/-- No event of the customer has failed, and the pending ones are all about one subscription that the row can take on. -/
def SingleSubscription (P : Service) (gateway : Gateway) (c : Customers) (customer : String) (row : Subscription) : Prop :=
  (∀ e ∈ c.billingEvents, e.customerId = some customer → e.state ≠ .failed) ∧
  ((∀ e, ¬ c.pendingFor customer e) ∨ ∃ id v, (∀ e, c.pendingFor customer e → e.subscriptionId = some id) ∧
    Provided P gateway customer row.workspaceId id v ∧ row.opens id ∧
    ∀ other ∈ c.subscriptions, other.subscriptionId = some id → other.workspaceId = row.workspaceId)

section Order
variable {customer : String} {row : Subscription}

theorem Customers.Idle.pendingFor (h : c.Idle) (e : BillingEvent) : ¬ c.pendingFor customer e :=
  fun hp => h e hp.1 hp.2.2

theorem unresolved_of_failed (h : e.state = .failed) : e.unresolved = true := by
  rw [BillingEvent.unresolved, h]
  rfl

theorem Reconciled.not_failed (h : Reconciled P gateway c customer v c')
    (he : e ∈ c'.billingEvents) (hcustomer : e.customerId = some customer) : e.state ≠ .failed := by
  intro hfailed
  have hresolved := h.resolved e he hcustomer
  rw [unresolved_of_failed hfailed] at hresolved
  cases hresolved

theorem Reconciled.applied {c₁ : Customers} (h : Reconciled P gateway c customer v c')
    (hends : Concludes P gateway c₁ e c') (he : e.customerId = some customer) : e.subscriptionId = v.subscriptionId := by
  obtain ⟨e', he', -, hcustomer', ⟨-, row, w, now, happlies, hs⟩ | ⟨hfailed, -⟩⟩ := hends
  · have hview := h.view
    rw [(happlies.row he hs).2, Option.map_some, view_shows] at hview
    cases hview
    obtain ⟨_, id, -, hid, -, hprovided, -⟩ := happlies
    rw [hid, hprovided.names]
  · exact absurd hfailed (h.not_failed he' (hcustomer'.trans he))

theorem OrderIndependent.single (h : OrderIndependent P gateway notifies c customer) (hk : c.Billed)
    (hrow : c.subscriptionOf? customer = some row) : SingleSubscription P gateway c customer row := by
  obtain ⟨v, hv⟩ := h
  -- A failed event stays failed, whatever becomes of the others.
  have hnone : ∀ {c₁ : Customers} {e : BillingEvent}, Reconciles P gateway notifies c c₁ → c₁.Billed →
      e ∈ c₁.billingEvents → e.customerId = some customer → e.state ≠ .failed := by
    intro c₁ e hrun₁ hk₁ he hcustomer hfailed
    obtain ⟨c', hrun, hk', he', hdone⟩ := drain_but P gateway notifies hk₁ he
    refine (hv c' (hrun₁.trans hrun) fun x hx => ?_).not_failed he' hcustomer hfailed
    by_cases hxe : x.id = e.id
    · have hstate := hx.2.2
      rw [eq_of_key hk'.events hx.1 he' hxe, hfailed] at hstate
      cases hstate
    · exact hdone x hx.1 hxe hx.2.2
  refine ⟨fun e he => hnone .refl hk he, ?_⟩
  by_cases hpending : ∃ e, c.pendingFor customer e
  · -- With any pending event at the end the row shows its subscription, so they are all about one.
    have hlast : ∀ e, c.pendingFor customer e → e.subscriptionId = v.subscriptionId := by
      intro e he
      obtain ⟨c₁, c', hrun, hidle, hends⟩ := drain_last P gateway notifies hk he.1 he.2.2
      exact (hv c' hrun hidle.pendingFor).applied hends he.2.1
    obtain ⟨e, he⟩ := hpending
    -- Taken first, the event has to apply to the row as it is.
    obtain ⟨c₁, hrun₁, hspares₁, e₁, he₁, hid₁, hcustomer₁, hends₁⟩ :=
      drain_one P gateway notifies _ (le_refl _) hk he.1 he.2.2
    rcases hends₁ with ⟨-, row', w, now, ⟨customer', id, hcustomer', hid, hrow', hprovided, hopen, hother⟩, -⟩ | ⟨hfailed, -⟩
    · cases he.2.1.symm.trans hcustomer'
      cases hrow.symm.trans hrow'
      refine .inr ⟨id, w, fun x hx => ?_, hprovided, hopen, hother⟩
      rw [hlast x hx, ← hlast e he, hid]
    · exact absurd hfailed (hnone hrun₁ hspares₁.billed he₁ (hcustomer₁.trans he.2.1))
  · exact .inl fun e he => hpending ⟨e, he⟩

/-- Nothing of the customer changed, and no row took on a subscription of this customer. -/
structure Untouched (P : Service) (gateway : Gateway) (customer : String) (c c' : Customers) : Prop where
  events : ∀ x : BillingEvent, x.customerId = some customer → (x ∈ c'.billingEvents ↔ x ∈ c.billingEvents)
  row : c'.subscriptionOf? customer = c.subscriptionOf? customer
  taken : ∀ r ∈ c'.subscriptions, r ∈ c.subscriptions ∨ ∃ customer' ≠ customer, ∃ workspace id v,
    Provided P gateway customer' workspace id v ∧ r.subscriptionId = some id

theorem shows_subscriptions {w : BillingView} {r : Subscription}
    (hs : c'.subscriptions = Rows.update workspaceId c.subscriptions workspace (·.shows w now))
    (hr : r ∈ c'.subscriptions) : r ∈ c.subscriptions ∨ r.workspaceId = workspace ∧ r.subscriptionId = w.subscriptionId := by
  rw [hs] at hr
  obtain ⟨r₀, hr₀, rfl⟩ := mem_update.mp hr
  split
  next hworkspace => exact .inr ⟨hworkspace, rfl⟩
  next => exact .inl hr₀

theorem Attempt.untouched (h : Attempt P gateway c e c') (hk : c.Billed) (he : e ∈ c.billingEvents)
    (hne : e.customerId ≠ some customer) : Untouched P gateway customer c c' := by
  refine ⟨fun x hx => h.other hk he (hx ▸ hne.symm), ?_, fun r hr => ?_⟩
  all_goals rcases h with ⟨row, w, happlies, now, f, -, hs, -⟩ | ⟨-, hs, -⟩
  · exact happlies.other hk hne hs
  · rw [Customers.subscriptionOf?, hs]
    rfl
  · obtain ⟨customer', id, hcustomer, -, -, hprovided, -⟩ := happlies
    refine (shows_subscriptions hs hr).imp_right fun htaken => ?_
    exact ⟨customer', fun hsame => hne (hsame ▸ hcustomer), _, id, w, hprovided, htaken.2.trans hprovided.names⟩
  · exact .inl (hs ▸ hr)

variable (P gateway notifies) in
theorem once_customer (skipped : List String) (t : Nat → Int) (customer : String) (hk : c.Billed)
    (hdraws : FreshDraws c draws) :
    (∃ e, c.pendingFor customer e ∧ Attempt P gateway c e (reconcileOnce P gateway notifies c skipped draws t)) ∨
      Untouched P gateway customer c (reconcileOnce P gateway notifies c skipped draws t) := by
  rcases once_cases P gateway notifies skipped t hk hdraws with hsame | ⟨e, he, hpending, hattempt⟩
  · rw [hsame]
    exact .inr ⟨fun _ _ => .rfl, rfl, fun _ => .inl⟩
  · by_cases hcustomer : e.customerId = some customer
    · exact .inl ⟨e, ⟨he, hcustomer, hpending⟩, hattempt⟩
    · exact .inr (hattempt.untouched hk he hcustomer)

/-- The events of the customer are resolved, and its row shows the view. -/
structure Still (customer : String) (v : BillingView) (c : Customers) : Prop where
  billed : c.Billed
  events : ∀ e ∈ c.billingEvents, e.customerId = some customer → e.unresolved = false
  view : (c.subscriptionOf? customer).map view = some v

theorem Still.once (h : Still customer v c)
    (hdraws : FreshDraws c draws) : Still customer v (reconcileOnce P gateway notifies c skipped draws t) := by
  have hbilled := once_billed P gateway notifies skipped t h.billed hdraws
  rcases once_customer P gateway notifies skipped t customer h.billed hdraws with ⟨e, he, -⟩ | hsame
  · have hresolved := h.events e he.1 he.2.1
    rw [BillingEvent.unresolved, he.2.2] at hresolved
    cases hresolved
  · exact ⟨hbilled, fun x hx hc => h.events x ((hsame.events x hc).mp hx) hc, hsame.row ▸ h.view⟩

/-- The pending events are about the subscription `id`, which the row can take on as `v`. Until it does, some event is
    pending. -/
structure Converging (P : Service) (gateway : Gateway) (customer workspace id : String) (v : BillingView) (c : Customers) :
    Prop where
  billed : c.Billed
  provided : Provided P gateway customer workspace id v
  failed : ∀ e ∈ c.billingEvents, e.customerId = some customer → e.state ≠ .failed
  about : ∀ e, c.pendingFor customer e → e.subscriptionId = some id
  row : ∃ r, c.subscriptionOf? customer = some r ∧ r.workspaceId = workspace ∧ r.opens id ∧
    (r.view = v ∨ ∃ e, c.pendingFor customer e)
  other : ∀ r ∈ c.subscriptions, r.subscriptionId = some id → r.workspaceId = workspace

variable {w : BillingView} {r : Subscription}

section
variable (h : Converging P gateway customer workspace id v c)
include h

theorem Converging.applies
    (he : c.pendingFor customer e) : ∃ r, Applies P gateway c e r v := by
  obtain ⟨r, hr, hworkspace, hopen, -⟩ := h.row
  exact ⟨r, customer, id, he.2.1, h.about e he, hr, hworkspace ▸ h.provided, hopen, hworkspace ▸ h.other⟩

theorem Converging.apply
    (he : c.pendingFor customer e) (happlies : Applies P gateway c e r w)
    (happlied : Applied c e r w c') (hbilled : c'.Billed) : Converging P gateway customer workspace id v c' := by
  obtain ⟨now, f, hf, hs, hevents⟩ := happlied
  obtain ⟨hrow, hrow'⟩ := happlies.row he.2.1 hs
  obtain ⟨r', hr', hworkspace, -⟩ := h.row
  cases hr'.symm.trans hrow
  obtain ⟨_, _, -, hid, -, hprovided, -⟩ := happlies
  cases (h.about e he).symm.trans hid
  cases hprovided.unique h.provided
  have hfrom : ∀ x ∈ c'.billingEvents, x.state = .processed ∨ x ∈ c.billingEvents := by
    intro x hx
    rw [hevents] at hx
    obtain ⟨x₀, hx₀, rfl⟩ := mem_update.mp hx
    split
    · exact .inl (hf x₀).2.2
    · exact .inr hx₀
  refine ⟨hbilled, h.provided, fun x hx hcustomer hfailed => ?_, fun x hx => ?_, ⟨_, hrow', hworkspace, ?_, .inl rfl⟩, ?_⟩
  · rcases hfrom x hx with hprocessed | hx
    · rw [hprocessed] at hfailed
      cases hfailed
    · exact h.failed x hx hcustomer hfailed
  · rcases hfrom x hx.1 with hprocessed | hmem
    · exact absurd (hprocessed.symm.trans hx.2.2) (by decide)
    · exact h.about x ⟨hmem, hx.2⟩
  · intro held hheld
    exact .inl (Option.some.inj (hheld.symm.trans h.provided.names))
  · intro r hr hsub
    rcases shows_subscriptions hs hr with hr | ⟨hsame, -⟩
    · exact h.other r hr hsub
    · exact hsame.trans hworkspace

theorem Converging.once (hdraws : FreshDraws c draws) :
    Converging P gateway customer workspace id v (reconcileOnce P gateway notifies c skipped draws t) := by
  have hbilled := once_billed P gateway notifies skipped t h.billed hdraws
  rcases once_customer P gateway notifies skipped t customer h.billed hdraws with ⟨e, he, hattempt⟩ | hsame
  · rcases hattempt with ⟨r, w, happlies, happlied⟩ | ⟨hnot, -⟩
    · exact h.apply he happlies happlied hbilled
    · obtain ⟨r, happlies⟩ := h.applies he
      exact absurd happlies (hnot r v)
  have hpendingFor : ∀ x, (reconcileOnce P gateway notifies c skipped draws t).pendingFor customer x ↔ c.pendingFor customer x :=
    fun x => and_congr_left fun hx => hsame.events x hx.1
  refine ⟨hbilled, h.provided, fun x hx hc => h.failed x ((hsame.events x hc).mp hx) hc,
    fun x hx => h.about x ((hpendingFor x).mp hx), ?_, fun r hr hsub => ?_⟩
  · obtain ⟨r, hr, hworkspace, hopen, hview⟩ := h.row
    exact ⟨r, hsame.row.trans hr, hworkspace, hopen, hview.imp_right fun ⟨x, hx⟩ => ⟨x, (hpendingFor x).mpr hx⟩⟩
  · rcases hsame.taken r hr with hr | ⟨customer', hne, _, _, _, hprovided, htaken⟩
    · exact h.other r hr hsub
    · -- The subscription is one of this customer, so no event of another one was applied with it.
      cases hsub.symm.trans htaken
      exact absurd (hprovided.customer h.provided) hne

end

theorem Still.run (h : Still customer v c) (hrun : Reconciles P gateway notifies c c') : Still customer v c' := by
  induction hrun with
  | refl => exact h
  | once skipped draws t _ hdraws ih => exact ih.once hdraws

theorem Converging.run (h : Converging P gateway customer workspace id v c)
    (hrun : Reconciles P gateway notifies c c') : Converging P gateway customer workspace id v c' := by
  induction hrun with
  | refl => exact h
  | once skipped draws t _ hdraws ih => exact ih.once hdraws

theorem SingleSubscription.orderIndependent (h : SingleSubscription P gateway c customer row) (hk : c.Billed)
    (hrow : c.subscriptionOf? customer = some row) : OrderIndependent P gateway notifies c customer := by
  have resolved : ∀ {c' : Customers}, (∀ e ∈ c'.billingEvents, e.customerId = some customer → e.state ≠ .failed) →
      (∀ e, ¬ c'.pendingFor customer e) → ∀ e ∈ c'.billingEvents, e.customerId = some customer → e.unresolved = false := by
    intro c' hfailed hnone e he hcustomer
    have hpending : e.state ≠ .pending := fun hstate => hnone e ⟨he, hcustomer, hstate⟩
    exact decide_eq_false fun hstate => hstate.elim hpending (hfailed e he hcustomer)
  by_cases hpending : ∃ e, c.pendingFor customer e
  · obtain ⟨id, v, habout, hprovided, hopen, hother⟩ := h.2.resolve_left fun hnone => hpending.elim hnone
    refine ⟨v, fun c' hrun hidle => ?_⟩
    have hconverging : Converging P gateway customer row.workspaceId id v c' :=
      Converging.run ⟨hk, hprovided, h.1, habout, ⟨row, hrow, rfl, hopen, .inr hpending⟩, hother⟩ hrun
    obtain ⟨r, hr, -, -, hview | ⟨e, he⟩⟩ := hconverging.row
    · exact ⟨by rw [hr, ← hview]; rfl, resolved hconverging.failed hidle, fun _ => ⟨_, id, hprovided⟩⟩
    · exact absurd he (hidle e)
  · refine ⟨row.view, fun c' hrun _ => ?_⟩
    have hstill : Still customer row.view c' :=
      Still.run ⟨hk, resolved h.1 fun e he => hpending ⟨e, he⟩, by rw [hrow]; rfl⟩ hrun
    exact ⟨hstill.view, hstill.events, fun h => absurd h hpending⟩

/-- The order of the events does not matter exactly if none has failed before and the pending ones are all about one
    subscription that the row can take on. -/
theorem order_independent_iff (P : Service) (gateway : Gateway) (notifies : Bool) (hk : c.Billed)
    (hrow : c.subscriptionOf? customer = some row) :
    (∀ c', Reconciles P gateway notifies c c' → ∃ c'', Reconciles P gateway notifies c' c'' ∧
      ∀ e, ¬ c''.pendingFor customer e) ∧
    (OrderIndependent P gateway notifies c customer ↔ SingleSubscription P gateway c customer row) := by
  refine ⟨fun c' hrun => ?_, fun h => h.single hk hrow, fun h => h.orderIndependent hk hrow⟩
  obtain ⟨c'', hrun', hidle⟩ := drain P gateway notifies (hrun.events hk).1
  exact ⟨c'', hrun', hidle.pendingFor⟩

end Order

/-! ### Two subscriptions -/

def deskOfAnn : List AccountOp := joins "ann" ann ++ [
  .workspace (.createWorkspace "ann" "desk" "Desk" fun _ => 4),
  .billing (.linkCustomer owner "cus_team" 4)]

def notified (event kind subscription : String) : AccountOp :=
  .billing (.webhook event kind { id := some subscription, customer := some "cus_team" } event fun _ => 5)

def followed : Gateway := fun asked =>
  if asked = "sub_old" then .ok { teamSubscription with id := some "sub_old", status := some .canceled }
  else gatewayOf "sub_team" teamSubscription asked

def oneSubscription : Customers :=
  (Accounts.after plainService (deskOfAnn ++ [notified "evt_team" "customer.subscription.created" "sub_team",
    notified "evt_seats" "customer.subscription.updated" "sub_team"])).tables

/-- Two events about one subscription. -/
theorem one_subscription_order_independent : OrderIndependent plainService followed true oneSubscription "cus_team" := by
  have hrow : oneSubscription.subscriptionOf? "cus_team" =
      some { freeSubscription "desk" 4 with customerId := some "cus_team" } := by decide +kernel
  have habout : ∀ e ∈ oneSubscription.billingEvents, e.subscriptionId = some "sub_team" := by decide +kernel
  refine (order_independent_iff plainService followed true ⟨by decide +kernel, by decide +kernel⟩ hrow).2.mpr
    ⟨by decide +kernel, .inr ⟨"sub_team", ⟨"TEAM", .active, some "sub_team", 0, seconds 2592000⟩,
      fun e he => habout e he.1, ?_, by simp [opens, freeSubscription], by decide +kernel⟩⟩
  exact ⟨teamSubscription, { quantity := some 1, price := some "price_team" }, by decide +kernel⟩

def twoEvents : Customers :=
  (Accounts.after plainService (deskOfAnn ++ [notified "evt_old" "customer.subscription.deleted" "sub_old",
    notified "evt_team" "customer.subscription.created" "sub_team"])).tables

/-- Calls that are given the locked events and the time, without accounts to notify. -/
def reconcileAll (c : Customers) (draws : List String) (calls : List (List String × Int)) : Customers :=
  calls.foldl (fun c call => reconcileOnce plainService followed false c call.1 draws fun _ => call.2) c

theorem once_freshDraws {ids : List String} (h : FreshDraws c ids) :
    FreshDraws (reconcileOnce P gateway false c skipped draws t) ids := by
  simp only [reconcileOnce]
  split
  · exact h
  next e hdue =>
    split
    next c' hr =>
      simp only [reconcile, bind_eq_ok, Bool.false_eq_true, if_false] at hr
      obtain ⟨_, -, _, -, _, -, _, -, _, -, _, -, hr⟩ := hr
      cases hr
      exact ⟨h.nodup, h.fresh, h.enough⟩
    next => exact ⟨h.nodup, h.fresh, h.enough⟩

theorem reconcileAll_reconciles (draws : List String) (calls : List (List String × Int)) : ∀ {c : Customers},
    FreshDraws c draws → Reconciles plainService followed false c (reconcileAll c draws calls) := by
  induction calls with
  | nil => exact fun _ => .refl
  | cons call calls ih =>
    intro c h
    exact (Reconciles.refl.once call.1 draws (fun _ => call.2) h).trans (ih (once_freshDraws h))

def lateEnd : Customers := reconcileAll twoEvents ["mail"]
  [(["evt_old"], 6), ([], 7), ([], hours 2), ([], hours 4), ([], hours 6), ([], hours 8)]

/-- The event about the old subscription fails once the row shows the new one, and the workspace is kept from research.
    -/
theorem late_end_blocks_research :
    (∀ id s, followed id = .ok s → s.status ≠ some .canceled → id = "sub_team") ∧
    ¬ OrderIndependent plainService followed false twoEvents "cus_team" ∧
    Reconciles plainService followed false twoEvents lateEnd ∧
    entitlement plainService ({} : Database plainEnv) lateEnd (subscription lateEnd "desk" (hours 9)).2 owner "DEMO.L" false
      ⟨hours 9, hours 9, hours 9, hours 9⟩ = .error (.entitlementDenied "BILLING_RECONCILIATION_REQUIRED") := by
  have hrun : Reconciles plainService followed false twoEvents lateEnd :=
    reconcileAll_reconciles ["mail"] _ ⟨by decide, by decide +kernel, by decide +kernel⟩
  have hidle : ∀ e ∈ lateEnd.billingEvents, e.state ≠ .pending := by decide +kernel
  have hfailed : ∃ e ∈ lateEnd.billingEvents, e.customerId = some "cus_team" ∧ e.unresolved = true := by decide +kernel
  refine ⟨fun id s hs hstatus => ?_, fun ⟨v, hv⟩ => ?_, hrun, by decide +kernel⟩
  · unfold followed at hs
    split at hs
    · cases hs
      exact absurd rfl hstatus
    · unfold gatewayOf at hs
      split at hs
      next heq => exact heq
      next => cases hs
  · obtain ⟨e, he, hcustomer, hunresolved⟩ := hfailed
    have hresolved := (hv lateEnd hrun fun x hx => hidle x hx.1 hx.2.2).resolved e he hcustomer
    rw [hunresolved] at hresolved
    cases hresolved

end Money
