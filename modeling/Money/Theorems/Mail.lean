import Money.Theorems.Accounts

/-! Mail after the closure of an account. What is left is the mail that another sender has in delivery to the address at
    that moment: if the delivery fails, the worker takes it up again. -/

namespace Money
open Checked List Rows

variable {P : Service} {c c' : Customers} {s t : Accounts}

/-! ### Rows of the outbox -/

def Mail.Live (m : Mail) : Prop := m.attempts < 5 ∧ (m.state = .queued ∨ m.state = .sending)

def Mail.Leased (m : Mail) : Prop := (m.leaseToken ≠ none → m.state = .sending) ∧ (m.state = .sending → m.leaseUntil ≠ none)

/-- How a row changes: it stays the mail of its sender to its address, and is not brought back. -/
structure Mail.Follows (m m' : Mail) : Prop where
  user : m'.userId = m.userId
  recipient : m'.recipientHash = m.recipientHash
  payload : m'.payload = m.payload ∨ m'.payload = none
  leased : m.Leased → m'.Leased
  live : m.Leased → m'.Live → m.Live

/-- The row still holds its text, which is addressed to `e`. -/
def Mail.To (m : Mail) (e : String) : Prop := ∃ email ∈ m.payload, stripLower email = e
  deriving Decidable

/-- The hash in the row is that of the address in its text. -/
def Mail.Addressed (P : Service) (m : Mail) : Prop :=
  ∀ address ∈ m.payload, m.recipientHash = some (P.digest (stripLower address))

theorem Mail.Follows.refl (m : Mail) : m.Follows m := ⟨rfl, rfl, .inl rfl, fun h => h, fun _ h => h⟩

variable {m : Mail}

theorem Mail.Follows.payload_mem {m' : Mail} (h : m.Follows m') {email : String} (he : email ∈ m'.payload) :
    email ∈ m.payload := by
  rcases h.payload with same | none_
  · exact same ▸ he
  · rw [none_] at he
    cases he

variable {m' row : Mail} {now : Int} {email lease : String} {outcome : Delivery} {skipped : List String} {r : Nat → Int}
  {kind : MailKind} {op : AccountOp}

theorem Mail.withdrawn_follows (userId : String) (recipient : Hash) (m : Mail) :
    m.Follows (m.withdrawn userId recipient) := by
  unfold Mail.withdrawn
  split
  next h =>
    refine ⟨rfl, rfl, .inr rfl, fun hl => ⟨fun htoken => ?_, fun hs => by cases hs⟩, fun _ hlive => ?_⟩
    · rw [hl.1 htoken] at h
      cases h.2
    · rcases hlive.2 with hs | hs <;> cases hs
  next => exact .refl m

theorem Customers.swept_follows (c : Customers) (now : Int) (m : Mail) : m.Follows (c.swept now m) := by
  unfold Customers.swept
  split
  · refine ⟨rfl, rfl, .inr rfl, fun _ => ⟨fun h => absurd rfl h, fun hs => by cases hs⟩, fun _ hlive => ?_⟩
    rcases hlive.2 with hs | hs <;> cases hs
  · split
    · refine ⟨rfl, rfl, .inl rfl, fun _ => ⟨fun h => absurd rfl h, fun hs => by cases hs⟩, fun _ hlive => ?_⟩
      rcases hlive.2 with hs | hs <;> cases hs
    · exact .refl m

theorem Mail.due.live (h : m.due now) : m.Live :=
  ⟨h.2.2, h.1.imp_right And.left⟩

theorem Mail.leased_follows {due : Int} (h : m.due due) : m.Follows (m.leased lease now) :=
  ⟨rfl, rfl, .inl rfl, fun _ => ⟨fun _ => rfl, fun _ => Option.some_ne_none _⟩, fun _ _ => h.live⟩

theorem Mail.settled_follows {read : Int} (hlease : m.leaseToken ≠ none) : m.Follows (row.settled outcome read m) := by
  cases outcome with
  | accepted =>
    refine ⟨rfl, rfl, .inr rfl, fun _ => ⟨fun h => absurd rfl h, fun hs => by cases hs⟩, fun _ hlive => ?_⟩
    rcases hlive.2 with hs | hs <;> cases hs
  | failed code permanent =>
    refine ⟨rfl, rfl, .inl rfl, fun _ => ⟨fun h => absurd rfl h, fun hs => ?_⟩, fun hl hlive => ?_⟩
    · change (if permanent = true ∨ 5 ≤ row.attempts then MailState.failed else .queued) = .sending at hs
      split at hs <;> cases hs
    · exact ⟨hlive.1, .inr (hl.1 hlease)⟩

/-- What the two updates of `claim` rewrite is not due, so the row that it takes is as it was and its sender stays. -/
theorem claimMail_cases (c : Customers) (skipped : List String) (lease : String) (now : Int) :
    claimMail c skipped lease now = ({ c with outbox := c.outbox.map (c.swept now) }, none) ∨
      ∃ m ∈ c.outbox, c.swept now m = m ∧ ¬c.closing m.userId ∧ m.due now ∧ claimMail c skipped lease now =
        ({ c with outbox := update Mail.id (c.outbox.map (c.swept now)) m.id (·.leased lease now) },
          some (m.claimed lease)) := by
  unfold claimMail
  dsimp only
  split
  · exact .inl rfl
  next due hdue =>
    have hmem : due ∈ (c.outbox.map (c.swept now)).filter fun m => m.due now ∧ m.id ∉ skipped :=
      (perm_insertionSort _ _).mem_iff.mp (mem_of_mem_head? hdue)
    obtain ⟨hmem, hp⟩ := mem_filter.mp hmem
    obtain ⟨m, hm, rfl⟩ := mem_map.mp hmem
    have hdue := (of_decide_eq_true hp).1
    by_cases hcancel : c.closing m.userId ∧ m.idle now
    · rw [Customers.swept, if_pos hcancel] at hdue
      rcases hdue.1 with hs | ⟨hs, -⟩ <;> cases hs
    · by_cases hfinal : m.state = .sending ∧ (∃ until_ ∈ m.leaseUntil, until_ ≤ now) ∧ 5 ≤ m.attempts
      · rw [Customers.swept, if_neg hcancel, if_pos hfinal] at hdue
        rcases hdue.1 with hs | ⟨hs, -⟩ <;> cases hs
      · have hsame : c.swept now m = m := by rw [Customers.swept, if_neg hcancel, if_neg hfinal]
        rw [hsame] at hdue ⊢
        exact .inr ⟨m, hm, hsame, fun hclosing => hcancel ⟨hclosing, hdue.1⟩, hdue, rfl⟩

theorem claimMail_eq_some (h : (claimMail c skipped lease now).2 = some row) :
    ∃ m ∈ c.outbox, ¬ c.closing m.userId ∧ m.due now ∧ row = m.claimed lease := by
  rcases claimMail_cases c skipped lease now with none | ⟨m, hm, -, stays, due, claimed⟩
  · rw [none] at h
    cases h
  · rw [claimed] at h
    exact ⟨m, hm, stays, due, (Option.some.inj h).symm⟩

theorem claimMail_follows (hk : c.Keyed)
    (h : m' ∈ (claimMail c skipped lease now).1.outbox) : ∃ m ∈ c.outbox, m.Follows m' := by
  rcases claimMail_cases c skipped lease now with none | ⟨due, hdue, same, -, isDue, claimed⟩
  · rw [none] at h
    obtain ⟨m, hm, rfl⟩ := mem_map.mp h
    exact ⟨m, hm, c.swept_follows now m⟩
  · rw [claimed] at h
    obtain ⟨m₁, hm₁, rfl⟩ := mem_update.mp h
    obtain ⟨m, hm, rfl⟩ := mem_map.mp hm₁
    refine ⟨m, hm, ?_⟩
    split
    next hid =>
      obtain rfl := eq_of_key hk.outbox hm hdue ((c.swept_id now m).symm.trans hid)
      rw [same]
      exact Mail.leased_follows isDue
    next => exact c.swept_follows now m

theorem finishMail_follows (h : m' ∈ (finishMail c row outcome r).outbox) : ∃ m ∈ c.outbox, m.Follows m' := by
  obtain ⟨m, hm, rfl⟩ := mem_map.mp h
  refine ⟨m, hm, ?_⟩
  split
  next hlease => exact Mail.settled_follows hlease.2.2.1
  next => exact .refl m

/-! ### Steps -/

def Mail.Unforbidden (P : Service) (c : Customers) (m : Mail) : Prop :=
  ∃ id userId email kind a b, m = newMail P id userId email kind a b ∧ ¬ c.suppresses P userId email kind

variable {userId : String}

theorem suppresses_congr (hu : c'.users = c.users) (hr : c'.deletionRequests = c.deletionRequests) :
    c'.suppresses P userId email kind ↔ c.suppresses P userId email kind := by
  unfold Customers.suppresses Customers.user? Customers.userByEmail?
  rw [hu, hr]

theorem Posts.outbox {rows : List Mail} (hp : Posts P c rows) (hm : m ∈ c'.outbox)
    (hn : (c.outbox.map Mail.id).Nodup) (ho : c'.outbox = c.outbox ++ rows) (hu : c'.users = c.users)
    (hr : c'.deletionRequests = c.deletionRequests) : (∃ m₀ ∈ c.outbox, m₀.Follows m) ∨ m.Unforbidden P c' := by
  rw [ho] at hm
  rcases mem_append.mp hm with hm | hm
  · exact .inl ⟨m, hm, .refl m⟩
  · obtain ⟨id, userId, email, kind, a, b, rfl, hs⟩ := (hp hn).2 m hm
    exact .inr ⟨id, userId, email, kind, a, b, rfl, fun h => hs ((suppresses_congr hu hr).mp h)⟩

theorem step_outbox (hk : s.tables.Keyed) (h : s.step P op = .ok t)
    (hm : m ∈ t.tables.outbox) : (∃ m₀ ∈ s.tables.outbox, m₀.Follows m) ∨ m.Unforbidden P t.tables := by
  cases step_accountMove h with
  | readUser | authenticate | keeps | reviews => exact .inl ⟨m, hm, .refl m⟩
  | identity hread hrows => exact hrows.outbox hm hk.outbox rfl rfl rfl
  | workspace hread hrows => exact hrows.outbox hm hk.outbox rfl rfl rfl
  | billing hrows => exact hrows.outbox hm hk.outbox rfl rfl rfl
  | closes hc =>
    obtain ⟨_, -, -, -, _, _, _, _, -, -, -, rfl⟩ := requestDeletion_eq_ok hc
    obtain ⟨m₀, hm₀, rfl⟩ := mem_map.mp hm
    exact .inl ⟨m₀, hm₀, Mail.withdrawn_follows ..⟩
  | erases => exact .inl ⟨m, (mem_filter.mp hm).1, .refl m⟩
  | claimMail => exact .inl (claimMail_follows hk hm)
  | finishMail => exact .inl (finishMail_follows hm)

/-- Only mail that is being sent has a lease, and a recipient hash is that of the address in the payload. -/
structure MailInv (P : Service) (s : Accounts) : Prop where
  settled : s.tables.Settled
  leased : ∀ m ∈ s.tables.outbox, m.Leased
  addressed : ∀ m ∈ s.tables.outbox, m.Addressed P

theorem step_mail (hs : MailInv P s) (h : s.step P op = .ok t) : MailInv P t where
  settled := step_settled hs.settled h
  leased m hm := by
    rcases step_outbox hs.settled.keyed h hm with ⟨m₀, hm₀, hf⟩ | ⟨_, _, _, _, _, _, rfl, -⟩
    · exact hf.leased (hs.leased m₀ hm₀)
    · exact ⟨fun h => absurd rfl h, fun hs => by cases hs⟩
  addressed m hm := by
    rcases step_outbox hs.settled.keyed h hm with ⟨m₀, hm₀, hf⟩ | ⟨_, _, _, _, _, _, rfl, -⟩
    · exact fun email he => hf.recipient.trans (hs.addressed m₀ hm₀ email (hf.payload_mem he))
    · rintro _ ⟨⟩
      rfl

theorem MailInv.advances (hs : MailInv P s) (h : s.step P op = .ok t) : Advances P s t :=
  step_advances hs.settled.keyed hs.settled.requested h

theorem after_mail (P : Service) (ops : List AccountOp) : MailInv P (Accounts.after P ops) :=
  Runs.run_inv (fun _ _ _ hs h => step_mail hs h) ops ⟨after_settled P [], forall_mem_nil _, forall_mem_nil _⟩

/-! ### A closed address -/

/-- Nobody who stays has the address, and the request of an account that had it is on record. -/
structure Barred (P : Service) (c : Customers) (e : String) : Prop where
  request : ∃ r ∈ c.deletionRequests, r.recipientHash = P.digest e
  users : ∀ v ∈ c.users, v.email = e → v.deletionRequestedAt ≠ none

variable {e : String}

theorem Barred.suppresses (h : Barred P c e) (hn : c.Normal)
    (he : stripLower email = e) : c.suppresses P userId email kind := by
  refine .inr (.inr (.inr ?_))
  cases hu : c.userByEmail? email with
  | none =>
    obtain ⟨r, hr, hhash⟩ := h.request
    exact .inr ⟨rfl, r, hr, by rw [he, hhash]⟩
  | some v =>
    obtain ⟨hmem, hemail⟩ := get?_eq_some hu
    refine .inl ⟨v, rfl, fun hstays => ?_⟩
    -- An account that stays has a normal address, so it would have this one.
    have hnormal := (hn v hmem).resolve_right fun h => h.2 hstays
    rw [hemail, he] at hnormal
    exact h.users v hmem (hemail.trans hnormal.symm) hstays

theorem Mail.Unforbidden.not_to (hm : m.Unforbidden P c) (hb : Barred P c e) (hn : c.Normal) : ¬ m.To e := by
  obtain ⟨id, userId, email, kind, a, b, rfl, hs⟩ := hm
  rintro ⟨_, ⟨⟩, he⟩
  exact hs (hb.suppresses hn he)

theorem Advances.barred (h : Advances P s t) (hb : Barred P s.tables e)
    (hnew : e ∉ t.registered.drop s.registered.length) : Barred P t.tables e where
  request := by
    obtain ⟨r, hr, hhash⟩ := hb.request
    obtain ⟨r', hr', hhash'⟩ := h.request hr
    exact ⟨r', hr', hhash'.trans hhash⟩
  users v hv he := by
    rcases h.users v hv with ⟨u, hu, hbec⟩ | ⟨-, -, hreg⟩
    · rcases hbec.email with hsame | ⟨-, hdel⟩
      · exact hbec.deletion (hb.users u hu (hsame.symm.trans he))
      · exact hdel
    · exact absurd (he ▸ hreg) hnew

/-- The account is leaving, its address is barred, and live mail to it is that of accounts that are leaving. -/
structure Quiet (P : Service) (c : Customers) (userId e : String) : Prop where
  closing : c.closing userId
  barred : Barred P c e
  mail : ∀ m ∈ c.outbox, m.Live → m.To e → c.closing m.userId

theorem step_quiet (hs : MailInv P s) (hq : Quiet P s.tables userId e)
    (h : s.step P op = .ok t) (hnew : e ∉ t.registered.drop s.registered.length) : Quiet P t.tables userId e := by
  have hadv := hs.advances h
  have hbarred := hadv.barred hq.barred hnew
  refine ⟨hadv.closing hq.closing, hbarred, fun m hm hlive hto => ?_⟩
  rcases step_outbox hs.settled.keyed h hm with ⟨m₀, hm₀, hf⟩ | hposted
  · rw [hf.user]
    refine hadv.closing (hq.mail m₀ hm₀ (hf.live (hs.leased m₀ hm₀) hlive) ?_)
    exact hto.imp fun _ he => ⟨hf.payload_mem he.1, he.2⟩
  · exact absurd hto (hposted.not_to hbarred (step_settled hs.settled h).normal)

theorem run_until_registered {I : Accounts → Prop} (later : List AccountOp)
    (hstep : ∀ s op t, MailInv P s → I s → s.step P op = .ok t → e ∉ t.registered.drop s.registered.length → I t)
    (hs : MailInv P s) (hi : I s) (hnew : e ∉ (Runs.run (Accounts.step P) s later).registered.drop s.registered.length) :
    I (Runs.run (Accounts.step P) s later) := by
  let E : Accounts → Prop := fun t => e ∈ t.registered.drop s.registered.length
  refine Runs.run_until (P := fun t => MailInv P t ∧ s.registered <+: t.registered) (I := I) (E := E) ?_ ?_ ?_ later
    ⟨hs, prefix_rfl⟩ (fun _ => hi) hnew
  · intro t op t' ht h
    exact ⟨step_mail ht.1 h, ht.2.trans (ht.1.advances h).registered⟩
  · intro t op t' ht h hmem
    obtain ⟨more, hmore⟩ := (ht.1.advances h).registered
    change e ∈ t'.registered.drop s.registered.length
    rw [← hmore, drop_append_of_le_length ht.2.length_le]
    exact mem_append_left _ hmem
  · intro t op t' ht hi h hnew
    exact hstep t op t' ht.1 hi h fun hmem => hnew (drop_subset_drop_left _ ht.2.length_le hmem)

/-- No claim returns mail of the account or to its address, unless an account has since been registered with it. -/
def Silent (P : Service) (t : Accounts) (userId e : String) : Prop :=
  ∀ (later : List AccountOp) (skipped : List String) (lease : String) (now : Int) (row : Mail),
    let t' := Runs.run (Accounts.step P) t later
    e ∉ t'.registered.drop t.registered.length → (claimMail t'.tables skipped lease now).2 = some row →
      row.userId ≠ userId ∧ ¬ row.To e

theorem Quiet.silent (hq : Quiet P t.tables userId e) (ht : MailInv P t) : Silent P t userId e := by
  intro later skipped lease now row t' hnew hclaim
  have hq' : Quiet P t'.tables userId e :=
    run_until_registered later (fun _ _ _ hs hq h hnew => step_quiet hs hq h hnew)
      ht hq hnew
  obtain ⟨m, hm, hstays, hdue, rfl⟩ := claimMail_eq_some hclaim
  exact ⟨fun hid => hstays (hid ▸ hq'.closing), fun hto => hstays (hq'.mail m hm hdue.live hto)⟩

theorem claimMail_again (hn : (c.outbox.map Mail.id).Nodup) (hm : m ∈ c.outbox) (hstays : ¬ c.closing m.userId)
    (hstate : m.state = .sending) (hlease : m.leaseUntil ≠ none) (hattempts : m.attempts < 5) :
    ∃ skipped lease now row, (claimMail c skipped lease now).2 = some row ∧ row.payload = m.payload := by
  obtain ⟨until_, huntil⟩ := Option.ne_none_iff_exists'.mp hlease
  -- The other rows are locked elsewhere.
  let skipped := (c.outbox.map Mail.id).filter (· ≠ m.id)
  let now := max until_ m.availableAt
  have hdue : m.due now :=
    ⟨.inr ⟨hstate, until_, huntil, le_max_left ..⟩, le_max_right .., hattempts⟩
  have hswept : c.swept now m = m := by
    rw [Customers.swept, if_neg fun h => hstays h.1, if_neg fun h => absurd h.2.2 (by omega)]
  have hfirst : ∀ m' ∈ c.outbox, m'.id ∉ skipped → m' = m := by
    intro m' hm' hskip
    refine eq_of_key hn hm' hm (not_not.mp fun hne => hskip ?_)
    exact mem_filter.mpr ⟨mem_map_of_mem hm', by simpa using hne⟩
  have hmem : m ∈ (c.outbox.map (c.swept now)).filter fun m => m.due now ∧ m.id ∉ skipped := by
    refine mem_filter.mpr ⟨mem_map.mpr ⟨m, hm, hswept⟩, ?_⟩
    simp [hdue, skipped]
  refine ⟨skipped, "lease", now, ?_⟩
  unfold claimMail
  dsimp only
  split
  next hnone =>
    rw [List.head?_eq_none_iff] at hnone
    exact absurd ((perm_insertionSort _ _).mem_iff.mpr hmem) (hnone ▸ not_mem_nil)
  next row hrow =>
    have hrow := (perm_insertionSort _ _).mem_iff.mp (mem_of_mem_head? hrow)
    obtain ⟨hrow, hp⟩ := mem_filter.mp hrow
    obtain ⟨m', hm', rfl⟩ := mem_map.mp hrow
    have hid := (of_decide_eq_true hp).2
    rw [c.swept_id] at hid
    rw [hfirst m' hm' hid, hswept]
    exact ⟨_, rfl, rfl⟩

theorem Mail.withdrawn_live {recipient : Hash} (hl : (m.withdrawn userId recipient).Live)
    (hr : m.recipientHash = some recipient) : (m.withdrawn userId recipient).state = .sending := by
  by_cases hqueued : (m.userId = userId ∨ m.recipientHash = some recipient) ∧ m.state = .queued
  · rw [Mail.withdrawn, if_pos hqueued] at hl
    rcases hl.2 with hs | hs <;> cases hs
  · rw [Mail.withdrawn, if_neg hqueued] at hl ⊢
    exact hl.2.resolve_left fun hs => hqueued ⟨.inr hr, hs⟩

theorem requestDeletion_quiet {user current : User} {password : String} {keys : List String} (hk : c.Keyed)
    (addressed : ∀ m ∈ c.outbox, m.Addressed P)
    (hcurrent : c.user? user.id = some current) (h : requestDeletion P c user password keys r = .ok c')
    (hsending : ∀ m ∈ c'.outbox, m.To current.email → m.state = .sending → m.attempts < 5 → c'.closing m.userId) :
    Quiet P c' user.id current.email := by
  obtain ⟨current', hcurrent', -, -, _, _, _, _, -, -, -, rfl⟩ := requestDeletion_eq_ok h
  cases hcurrent.symm.trans hcurrent'
  obtain ⟨hmem, hid⟩ := get?_eq_some hcurrent
  refine ⟨?_, ⟨⟨_, mem_append_right _ (mem_singleton_self _), rfl⟩, fun v hv he => ?_⟩, fun m hm hlive hto => ?_⟩
  · refine ⟨_, mem_update.mpr ⟨current, hmem, rfl⟩, ?_⟩
    rw [if_pos hid]
    exact ⟨hid, Option.some_ne_none _⟩
  · obtain ⟨u, hu, rfl⟩ := mem_update.mp hv
    have hemail : u.email = current.email := by
      split at he <;> exact he
    rw [if_pos (by rw [eq_of_key hk.emails hu hmem hemail, hid])]
    exact Option.some_ne_none _
  · obtain ⟨m₀, hm₀, rfl⟩ := mem_map.mp hm
    obtain ⟨email, hemail, he⟩ := hto
    have hhash := addressed m₀ hm₀ email ((m₀.withdrawn_follows user.id (P.digest current.email)).payload_mem hemail)
    exact hsending _ hm ⟨email, hemail, he⟩ (Mail.withdrawn_live hlive (he ▸ hhash)) hlive.1

/-- Once an account is closed, nothing is sent for it or to its address exactly if all mail in delivery to it by then,
    with an attempt left, is of senders that are closing too. -/
theorem silent_after_closure (P : Service) (ops : List AccountOp) {session : Hash} {user current : User} {password : String}
    {keys : List String} {r : Nat → Int} {t : Accounts}
    (hcurrent : (Accounts.after P ops).tables.user? user.id = some current)
    (h : (Accounts.after P ops).step P (.requestDeletion session user password keys r) = .ok t) :
    Silent P t user.id current.email ↔ ∀ m ∈ t.tables.outbox, m.To current.email → m.state = .sending →
      m.attempts < 5 → t.tables.closing m.userId := by
  have hs := after_mail P ops
  have ht := step_mail hs h
  constructor
  · intro hsilent m hm hto hstate hattempts
    by_contra hstays
    obtain ⟨skipped, lease, now, row, hclaim, hrow⟩ :=
      claimMail_again ht.settled.keyed.outbox hm hstays hstate ((ht.leased m hm).2 hstate) hattempts
    refine (hsilent [] skipped lease now row ?_ hclaim).2 (by rwa [Mail.To, hrow])
    simp
  · intro hsending
    obtain ⟨-, c', hc, rfl⟩ := step_requestDeletion.mp h
    exact (requestDeletion_quiet hs.settled.keyed hs.addressed hcurrent hc hsending).silent ht

/-- Bob leaves after the invitation was accepted, while none of the mail to Bob is in delivery. -/
theorem silent_after_bob_leaves :
    Silent plainService (Accounts.after plainService (bobJoined ++ [leaves "bob" bob ["key"] 9])) "bob" bob.text := by
  have hcurrent : (Accounts.after plainService bobJoined).tables.user? "bob" = some (account "bob" bob) := by decide +kernel
  have hleaves : (Accounts.after plainService bobJoined).step plainService (leaves "bob" bob ["key"] 9) =
      .ok (Accounts.after plainService (bobJoined ++ [leaves "bob" bob ["key"] 9])) := by decide +kernel
  exact (silent_after_closure plainService bobJoined hcurrent hleaves).mpr (by decide +kernel)

/-- Bob leaves while Ann's invitation is in delivery. The worker does not come back, and the next one claims it. -/
theorem invitation_outlives_closure :
    ¬ Silent plainService (Accounts.after plainService (bobInvited ++
      [.claimMail ["mail-ann", "mail-bob", "mail-team"] "lease" 8, leaves "bob" bob ["key"] 9])) "bob" bob.text := by
  intro hsilent
  have hclaim : ∃ row ∈ (claimMail (Accounts.after plainService (bobInvited ++
      [.claimMail ["mail-ann", "mail-bob", "mail-team"] "lease" 8, leaves "bob" bob ["key"] 9])).tables
      ["mail-ann", "mail-bob", "mail-team"] "again" (8 + minutes 2)).2, row.To bob.text := by decide +kernel
  obtain ⟨row, hrow, hto⟩ := hclaim
  exact (hsilent [] _ _ _ row (by simp) hrow).2 hto

end Money
