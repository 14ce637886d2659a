import Money.Theorems.Mail

/-! Once an account is erased, no table holds its address, as text or as a digest, until it is registered again. The
    placeholder of another account can bring an address back, if it was chosen to look like it. -/

namespace Money
open Checked List Rows Accounts

variable {P : Service} {c c' : Customers} {s t : Accounts}

/-! ### Where rows come from -/

def Customers.stays (c : Customers) (userId : String) : Prop :=
  ∃ u ∈ c.users, u.id = userId ∧ u.deletionRequestedAt = none

variable {e raw userId : String} {u user : User} {purpose : TokenPurpose} {now : Int} {op : AccountOp}

theorem Customers.Keyed.not_closing (hk : c.Keyed) (h : c.stays userId) : ¬ c.closing userId := by
  rintro ⟨v, hv, hid, hdel⟩
  obtain ⟨u, hu, hid', hstays⟩ := h
  rw [eq_of_key hk.users hv hu (hid.trans hid'.symm)] at hdel
  exact hdel hstays

theorem stays_of_user? (hu : c.user? userId = some u) (hdel : u.deletionRequestedAt = none) : c.stays userId :=
  ⟨u, (get?_eq_some hu).1, (get?_eq_some hu).2, hdel⟩

def Adds.Owned {ρ : Type} (user : ρ → String) (c : Customers) (rows rows' : List ρ) : Prop :=
  ∀ x ∈ rows', (∃ x₀ ∈ rows, user x₀ = user x) ∨ c.stays (user x)

theorem Adds.Owned.of_within {ρ : Type} {user : ρ → String} {rows rows' : List ρ} (h : Rows.Within user rows rows') :
    Adds.Owned user c rows rows' := fun x hx => .inl (h x hx)

theorem Adds.Owned.snoc {ρ : Type} {user : ρ → String} {rows rows' : List ρ} {x : ρ} (h : Adds.Owned user c rows rows')
    (hx : c.stays (user x)) : Adds.Owned user c rows (rows' ++ [x]) := by
  intro y hy
  rcases mem_snoc.mp hy with hy | rfl
  · exact h y hy
  · exact .inr hx

/-- The rows of users and addresses that a step can leave: those that were there, and rows of users who stay. -/
structure Adds (P : Service) (s t : Accounts) : Prop where
  tokens : Adds.Owned ActionToken.userId t.tables s.tables.tokens t.tables.tokens
  sessions : Adds.Owned Session.userId t.tables s.tables.sessions t.tables.sessions
  members : ∀ m ∈ t.tables.members, (∃ m₀ ∈ s.tables.members, m₀.userId = m.userId) ∨ t.tables.stays m.userId ∨
    ∃ row ∈ s.seen, row.session ≠ none ∧ row.user.id = m.userId ∧ ∃ i ∈ s.tables.invitations, i.email = row.user.email
  invitations : ∀ i ∈ t.tables.invitations, (∃ i₀ ∈ s.tables.invitations, i₀.email = i.email) ∨
    stripLower i.email = i.email ∧ ∃ userId, ¬ t.tables.suppresses P userId i.email .invitation
  seen : ∀ row ∈ t.seen, row ∈ s.seen ∨ row.user ∈ t.tables.users ∧ (row.session ≠ none → row.user.deletionRequestedAt = none)

theorem Adds.of_rows (htokens : Rows.Within ActionToken.userId s.tables.tokens t.tables.tokens)
    (hsessions : Rows.Within Session.userId s.tables.sessions t.tables.sessions)
    (hmembers : Rows.Within Member.userId s.tables.members t.tables.members)
    (hinvitations : Rows.Within Invitation.email s.tables.invitations t.tables.invitations)
    (hseen : t.seen = s.seen) : Adds P s t :=
  ⟨.of_within htokens, .of_within hsessions, fun m hm => .inl (hmembers m hm),
    fun i hi => .inl (hinvitations i hi), fun _ hrow => .inl (hseen ▸ hrow)⟩

theorem Uses.within {f : Invitation → Invitation} (hf : Uses f) {rows : List Invitation} :
    Rows.Within Invitation.email rows (rows.map f) :=
  within_map fun i => (hf.row i).2.1

theorem issued_tokens (hstays : c'.stays userId) : Adds.Owned ActionToken.userId c' c.tokens
    (c.tokens.map (·.superseded userId purpose now) ++ [newToken P userId purpose raw now]) := by
  refine .snoc (.of_within (within_map fun k => ?_)) hstays
  unfold ActionToken.superseded
  split <;> rfl

theorem Issues.owned {email : Address} (h : Issues P c email purpose c') :
    Adds.Owned ActionToken.userId c' c.tokens c'.tokens ∧ Adds.Owned Session.userId c' c.sessions c'.sessions := by
  rcases h with rfl | ⟨user, hmem, -, hdel, raw, now, rows, -, -, rfl⟩
  · exact ⟨.of_within within_refl, .of_within within_refl⟩
  · exact ⟨issued_tokens ⟨user, hmem, rfl, hdel⟩, .of_within within_refl⟩

theorem IdentityOp.apply_stays {op : IdentityOp} (h : op.apply P c = .ok c') :
    Adds.Owned ActionToken.userId c' c.tokens c'.tokens ∧ Adds.Owned Session.userId c' c.sessions c'.sessions := by
  have same : Adds.Owned Session.userId c' c.sessions c.sessions := .of_within within_refl
  have sameTokens : Adds.Owned ActionToken.userId c' c.tokens c.tokens := .of_within within_refl
  cases op with
  | signup email displayName hashed d r =>
    rcases signup_eq_ok h with rfl | ⟨u, hu, rows, -, -, -, -, rfl⟩
    · exact ⟨sameTokens, same⟩
    · refine ⟨issued_tokens ⟨u, mem_append_right _ (mem_singleton_self _), rfl, ?_⟩, same⟩
      rw [mem_singleton.mp hu]
      rfl
  | verifyEmail raw r =>
    obtain ⟨token, -, rfl⟩ := verifyEmail_eq_ok h
    exact ⟨.of_within (within_update fun _ => rfl), same⟩
  | forgotPassword email raw mailId r => exact (forgotPassword_issues h).owned
  | resendVerification email raw mailId r => exact (resendVerification_issues h).owned
  | setNotifications userId wanted =>
    cases h
    exact ⟨sameTokens, same⟩
  | resetPassword raw hashed r =>
    obtain ⟨token, -, rfl⟩ := resetPassword_eq_ok h
    refine ⟨.of_within (within_update fun _ => rfl), .of_within (within_map fun x => ?_)⟩
    split
    · exact (Session.revoked_revokedAt (r 2) x).2.1
    · rfl
  | login user password raw r =>
    obtain ⟨-, ⟨u, hu, -, hdel⟩, -, rfl⟩ := login_eq_ok h
    exact ⟨sameTokens, same.snoc (stays_of_user? hu hdel)⟩
  | rotate user raw fresh r =>
    obtain ⟨⟨u, hu, -, hdel⟩, -, -, r', rfl⟩ := rotate_eq_ok h
    exact ⟨sameTokens, .snoc (.of_within (within_update fun _ => rfl)) (stays_of_user? hu hdel)⟩
  | logout raw now =>
    rcases logout_eq_ok h with rfl | ⟨_, f, hf, rfl⟩
    · exact ⟨sameTokens, same⟩
    · exact ⟨sameTokens, .of_within (within_update fun x => (hf x).2.1)⟩
  | revokeSession userId reference r =>
    obtain ⟨_, f, hf, rfl⟩ := revokeSession_eq_ok h
    exact ⟨sameTokens, .of_within (within_update fun x => (hf x).2.1)⟩

theorem WorkspaceOp.adds {op : WorkspaceOp} (hread : ∀ row ∈ op.read, row ∈ s.seen)
    (h : op.apply P s.tables = .ok c') : Adds P s { s with tables := c' } := by
  cases op with
  | createWorkspace userId workspaceId name r =>
    obtain ⟨⟨u, hu, hdel⟩, -, -, rfl⟩ := createWorkspace_eq_ok h
    refine { Adds.of_rows within_refl within_refl within_refl within_refl rfl with
      members := fun m hm => ?_ }
    rcases mem_snoc.mp hm with hm | rfl
    · exact .inl ⟨m, hm, rfl⟩
    · exact .inr (.inl (stays_of_user? hu hdel))
  | invite actor email role raw mailId r =>
    obtain ⟨-, -, -, hsend, -, subscriptions, f, now, rows, hf, -, rfl⟩ := invite_eq_ok h
    refine { Adds.of_rows (P := P) (t := s) within_refl within_refl within_refl within_refl rfl with
      invitations := fun i hi => ?_ }
    rcases mem_snoc.mp hi with hi | rfl
    · exact .inl (hf.within i hi)
    · exact .inr ⟨email.normal, actor.userId, hsend⟩
  | acceptInvitation session user raw r =>
    obtain ⟨i, hi, -, hemail, -, -, -, -, subscriptions, f, hf, rfl⟩ := acceptInvitation_eq_ok h
    refine { Adds.of_rows (P := P) (t := s) within_refl within_refl within_refl within_refl rfl with
      members := fun m hm => ?_
      invitations := fun j hj => .inl (hf.within j hj) }
    rcases mem_snoc.mp hm with hm | rfl
    · exact .inl ⟨m, hm, rfl⟩
    · exact .inr (.inr ⟨_, hread _ rfl, Option.some_ne_none _, rfl, i, hi, hemail⟩)
  | changeMember actor userId role =>
    obtain ⟨-, -, -, rfl | ⟨_, -, rfl⟩⟩ := changeMember_eq_ok h
    · exact .of_rows within_refl within_refl within_filter within_refl rfl
    · exact .of_rows within_refl within_refl (within_update fun _ => rfl) within_refl
        rfl
  | transferOwnership actor password successorId =>
    obtain ⟨-, -, -, -, -, rfl⟩ := transferOwnership_eq_ok h
    refine .of_rows within_refl within_refl (fun m hm => ?_) within_refl rfl
    obtain ⟨m₁, hm₁, rfl⟩ := mem_update.mp hm
    obtain ⟨m₀, hm₀, rfl⟩ := mem_update.mp hm₁
    refine ⟨m₀, hm₀, ?_⟩
    split <;> split <;> rfl

theorem step_adds (h : s.step P op = .ok t) : Adds P s t := by
  have unchanged : Adds P s s :=
    .of_rows within_refl within_refl within_refl within_refl rfl
  cases step_accountMove h with
  | readUser huser =>
    refine { unchanged with seen := fun row hrow => ?_ }
    rcases mem_snoc.mp hrow with hrow | rfl
    · exact .inl hrow
    · exact .inr ⟨(get?_eq_some huser).1, fun h => absurd rfl h⟩
  | authenticate huser =>
    obtain ⟨-, huser, hdel⟩ := authenticatedUser_eq_ok huser
    refine { unchanged with seen := fun row hrow => ?_ }
    rcases mem_snoc.mp hrow with hrow | rfl
    · exact .inl hrow
    · exact .inr ⟨(get?_eq_some huser).1, fun _ => hdel⟩
  | identity hread hrows hc =>
    obtain ⟨htokens, hsessions⟩ := IdentityOp.apply_stays hc
    exact ⟨htokens, hsessions, fun m hm => .inl ⟨m, hm, rfl⟩, fun i hi => .inl ⟨i, hi, rfl⟩,
      fun row hrow => .inl (s.remember_seen _ _ ▸ hrow)⟩
  | workspace hread hrows hc => exact WorkspaceOp.adds hread hc
  | closes hc =>
    obtain ⟨_, -, -, -, _, _, f, g, hg, hf, -, rfl⟩ := requestDeletion_eq_ok hc
    refine .of_rows (within_map fun k => ?_) (within_map fun x => ?_) within_filter ?_ rfl
    · unfold ActionToken.closed
      split <;> rfl
    · unfold Session.closed
      split <;> rfl
    · rw [map_map]
      exact (hf.uses.comp hg).within
  | keeps => exact unchanged
  | erases => exact .of_rows within_filter within_filter within_filter within_filter rfl
  | reviews | billing | claimMail | finishMail =>
    exact .of_rows within_refl within_refl within_refl within_refl rfl

/-! ### What the erasure finds -/

theorem User.Becomes.address {v : User} (h : u.Becomes v) {q : String → Prop}
    (hq : q u.email ∨ u.email = placeholder u.id) : q v.email ∨ v.email = placeholder v.id := by
  rcases h.email with hsame | ⟨herased, -⟩
  · rw [hsame, h.id]
    exact hq
  · exact .inr (h.id ▸ herased)

/-- The reads and the deletion requests of an account are under its address, until it is erased. -/
structure ErasureInv (P : Service) (s : Accounts) : Prop where
  mail : MailInv P s
  seen : ∀ row ∈ s.seen, ∃ v ∈ s.tables.users, v.id = row.user.id ∧
    (v.email = row.user.email ∨ v.email = placeholder v.id)
  requests : ∀ r ∈ s.tables.deletionRequests, ∃ v ∈ s.tables.users, v.id = r.userId ∧
    (r.recipientHash = P.digest v.email ∨ v.email = placeholder v.id)

theorem step_erasureInv (hs : ErasureInv P s) (h : s.step P op = .ok t) : ErasureInv P t := by
  have hadv := hs.mail.advances h
  have kept : ∀ (id : String) (q : String → Prop),
      (∃ v ∈ s.tables.users, v.id = id ∧ (q v.email ∨ v.email = placeholder v.id)) →
      ∃ v ∈ t.tables.users, v.id = id ∧ (q v.email ∨ v.email = placeholder v.id) := by
    rintro id q ⟨v, hv, hid, hq⟩
    obtain ⟨v', hv', hb⟩ := hadv.kept v hv
    exact ⟨v', hv', hb.id.trans hid, hb.address hq⟩
  refine ⟨step_mail hs.mail h, fun row hrow => ?_, fun r hr => ?_⟩
  · rcases (step_adds h).seen row hrow with hrow | ⟨huser, -⟩
    · exact kept row.user.id (· = row.user.email) (hs.seen row hrow)
    · exact ⟨row.user, huser, rfl, .inl rfl⟩
  · rcases hadv.requests with ⟨g, hg, he⟩ | ⟨r', he, v, hv, hid, hhash⟩ <;> rw [he] at hr
    · obtain ⟨r₀, hr₀, rfl⟩ := mem_map.mp hr
      rw [(hg r₀).1, (hg r₀).2]
      exact kept r₀.userId (r₀.recipientHash = P.digest ·) (hs.requests r₀ hr₀)
    · rcases mem_snoc.mp hr with hr | rfl
      · exact kept r.userId (r.recipientHash = P.digest ·) (hs.requests r hr)
      · exact ⟨v, hv, hid, .inl hhash⟩

theorem after_erasureInv (P : Service) (ops : List AccountOp) : ErasureInv P (after P ops) :=
  Runs.run_inv (fun _ _ _ hs h => step_erasureInv hs h) ops ⟨after_mail P [], forall_mem_nil _,
    forall_mem_nil _⟩

/-- No row holds the address, as text or as a digest that no other text has, and nothing of the account is left. -/
structure Forgotten (P : Service) (c : Customers) (userId e : String) : Prop where
  users : ∀ v ∈ c.users, v.email ≠ e
  invitations : ∀ i ∈ c.invitations, i.email ≠ e
  outbox : ∀ m ∈ c.outbox, m.payload ≠ some e ∧
    (m.recipientHash = some (P.digest e) → ∃ other ≠ e, P.digest other = P.digest e)
  tokens : ∀ k ∈ c.tokens, k.userId ≠ userId
  sessions : ∀ x ∈ c.sessions, x.userId ≠ userId
  members : ∀ m ∈ c.members, m.userId ≠ userId

/-- The account is leaving, its address is barred, and nothing of it is left. -/
structure Gone (P : Service) (s : Accounts) (userId e : String) : Prop where
  closing : s.tables.closing userId
  barred : Barred P s.tables e
  seen : ∀ row ∈ s.seen, row.session ≠ none → row.user.id = userId → row.user.email = e
  forgotten : Forgotten P s.tables userId e

theorem step_gone (he : stripLower e = e) (hs : MailInv P s) (hg : Gone P s userId e)
    (h : s.step P op = .ok t) (hnew : e ∉ t.registered.drop s.registered.length)
    (hplaceholder : ∀ v ∈ t.tables.users, placeholder v.id ≠ e) : Gone P t userId e := by
  have hadv := hs.advances h
  have hadds := step_adds h
  have ht := step_mail hs h
  have hclosing := hadv.closing hg.closing
  have hbarred := hadv.barred hg.barred hnew
  have hleft : ¬ t.tables.stays userId := fun hstays => ht.settled.keyed.not_closing hstays hclosing
  refine ⟨hclosing, hbarred, fun row hrow hsession hid => ?_, ⟨fun v hv hemail => ?_, fun i hi hemail => ?_, fun m hm => ?_,
    fun k hk hid => ?_, fun x hx hid => ?_, fun m hm hid => ?_⟩⟩
  · rcases hadds.seen row hrow with hrow | ⟨huser, hstays⟩
    · exact hg.seen row hrow hsession hid
    · exact absurd ⟨row.user, huser, hid, hstays hsession⟩ hleft
  · rcases hadv.users v hv with ⟨u, hu, hb⟩ | ⟨-, -, hreg⟩
    · rcases hb.email with hsame | ⟨herased, -⟩
      · exact hg.forgotten.users u hu (hsame.symm.trans hemail)
      · exact hplaceholder v hv (hb.id ▸ herased.symm.trans hemail)
    · exact hnew (hemail ▸ hreg)
  · rcases hadds.invitations i hi with ⟨i₀, hi₀, hsame⟩ | ⟨-, sender, hsend⟩
    · exact hg.forgotten.invitations i₀ hi₀ (hsame.trans hemail)
    · exact hsend (hbarred.suppresses ht.settled.normal (hemail ▸ he))
  · rcases step_outbox hs.settled.keyed h hm with ⟨m₀, hm₀, hf⟩ | hposted
    · obtain ⟨hpayload, hhash⟩ := hg.forgotten.outbox m₀ hm₀
      rw [hf.recipient]
      exact ⟨fun hsame => hpayload (hf.payload_mem hsame), hhash⟩
    · obtain ⟨id, sender, email, kind, a, b, rfl, hsend⟩ := hposted
      have hother : stripLower email ≠ e := fun hsame => hsend (hbarred.suppresses ht.settled.normal hsame)
      refine ⟨fun hpayload => ?_, fun hhash => ⟨_, hother, Option.some.inj hhash⟩⟩
      cases hpayload
      exact hother he
  · rcases hadds.tokens k hk with ⟨k₀, hk₀, hsame⟩ | hstays
    · exact hg.forgotten.tokens k₀ hk₀ (hsame.trans hid)
    · exact hleft (hid ▸ hstays)
  · rcases hadds.sessions x hx with ⟨x₀, hx₀, hsame⟩ | hstays
    · exact hg.forgotten.sessions x₀ hx₀ (hsame.trans hid)
    · exact hleft (hid ▸ hstays)
  · rcases hadds.members m hm with ⟨m₀, hm₀, hsame⟩ | hstays | ⟨row, hrow, hsession, hrid, i, hi, hemail⟩
    · exact hg.forgotten.members m₀ hm₀ (hsame.trans hid)
    · exact hleft (hid ▸ hstays)
    · -- The request was authenticated before the erasure, and its address is invited no more.
      exact hg.forgotten.invitations i hi (hemail.trans (hg.seen row hrow hsession (hrid.trans hid)))

theorem erase_gone {closures : List Closure} (hs : ErasureInv P s)
    (huser : user ∈ s.tables.users) (hrequest : ∃ r ∈ s.tables.deletionRequests, r.userId = user.id)
    (hplaceholder : placeholder user.id ≠ user.email) :
    Gone P { s with tables := erase P s.tables user closures now } user.id user.email := by
  have hk := hs.mail.settled.keyed
  have same : ∀ v ∈ s.tables.users, v.id = user.id → v = user := fun v hv hid => eq_of_key hk.users hv huser hid
  obtain ⟨r, hr, hrid⟩ := hrequest
  have hdel : user.deletionRequestedAt ≠ none := by
    obtain ⟨v, hv, hdel⟩ := hs.mail.settled.requested r hr
    obtain ⟨hmem, hid⟩ := get?_eq_some hv
    rw [← same v hmem (hid.trans hrid)]
    exact hdel
  have hnormal : stripLower user.email = user.email :=
    (hs.mail.settled.normal user huser).resolve_right fun h => hplaceholder h.1.symm
  have hhash : r.recipientHash = P.digest user.email := by
    obtain ⟨v, hv, hid, hq⟩ := hs.requests r hr
    rw [same v hv (hid.trans hrid)] at hq
    exact hq.resolve_right fun h => hplaceholder h.symm
  have husers : ∀ v ∈ (erase P s.tables user closures now).users, v.email ≠ user.email := by
    intro v hv hemail
    obtain ⟨u, hu, rfl⟩ := mem_update.mp hv
    split at hemail
    next hid => exact hplaceholder (hid ▸ hemail)
    next hid => exact hid (by rw [eq_of_key hk.emails hu huser hemail])
  refine ⟨?_, ⟨?_, fun v hv hemail => absurd hemail (husers v hv)⟩, fun row hrow _ hid => ?_, ⟨husers, fun i hi hemail => ?_,
    fun m hm => ?_, fun k hk hid => ?_, fun x hx hid => ?_, fun m hm hid => ?_⟩⟩
  · exact ⟨user.erased, mem_update.mpr ⟨user, huser, (if_pos rfl).symm⟩, rfl, hdel⟩
  · refine ⟨_, mem_update.mpr ⟨r, hr, rfl⟩, ?_⟩
    split <;> exact hhash
  · obtain ⟨v, hv, hvid, hq⟩ := hs.seen row hrow
    rw [same v hv (hvid.trans hid)] at hq
    exact (hq.resolve_right fun h => hplaceholder h.symm).symm
  · have hkept := of_decide_eq_true (mem_filter.mp hi).2
    exact hkept (.inr hemail)
  · obtain ⟨hm, hkept⟩ := mem_filter.mp hm
    have hhash : m.recipientHash ≠ some (P.digest user.email) := fun h => of_decide_eq_true hkept (.inr h)
    refine ⟨fun hpayload => hhash ?_, fun hsame => absurd hsame hhash⟩
    rw [hs.mail.addressed m hm user.email hpayload, hnormal]
  · exact of_decide_eq_true (mem_filter.mp hk).2 hid
  · exact of_decide_eq_true (mem_filter.mp hx).2 hid
  · exact of_decide_eq_true (mem_filter.mp hm).2 hid

theorem run_gone (he : (∀ v ∈ s.tables.users, placeholder v.id ≠ e) → stripLower e = e)
    (hs : MailInv P s) (hg : (∀ v ∈ s.tables.users, placeholder v.id ≠ e) → Gone P s userId e) (later : List AccountOp)
    (hnew : e ∉ (Runs.run (Accounts.step P) s later).registered.drop s.registered.length)
    (hplaceholder : ∀ v ∈ (Runs.run (Accounts.step P) s later).tables.users, placeholder v.id ≠ e) :
    Gone P (Runs.run (Accounts.step P) s later) userId e := by
  let I : Accounts → Prop := fun t =>
    (∀ v ∈ t.tables.users, placeholder v.id ≠ e) → stripLower e = e ∧ Gone P t userId e
  have hI : I (Runs.run (Accounts.step P) s later) := by
    refine run_until_registered later (fun u op v hu hi h hnew hplaceholder => ?_) hs (fun h => ⟨he h, hg h⟩) hnew
    -- Accounts keep their identifiers, so no placeholder was the address before.
    have hbefore : ∀ w ∈ u.tables.users, placeholder w.id ≠ e := by
      intro w hw
      obtain ⟨w', hw', hb⟩ := (hu.advances h).kept w hw
      rw [← hb.id]
      exact hplaceholder w' hw'
    obtain ⟨he, hg⟩ := hi hbefore
    exact ⟨he, step_gone he hu hg h hnew hplaceholder⟩
  exact (hI hplaceholder).2

/-! ### The result -/

/-- The workspaces that closed with the account: closures confirmed, subscriptions ended, events reconciled, research
    over. -/
structure WoundUp (c : Customers) (userId : String) (jobs : List (String × Status)) : Prop where
  closures : ∀ k ∈ c.closures, k.requestedBy = userId → k.state = .closed
  subscriptions : ∀ k ∈ c.closures, k.requestedBy = userId → ∀ sub ∈ c.subscription? k.workspaceId,
    sub.subscriptionId ≠ none → sub.status.ended = true
  events : ∀ k ∈ c.closures, k.requestedBy = userId → ∀ customer,
    (k.customerId = some customer ∨ ∃ sub ∈ c.subscription? k.workspaceId, sub.customerId = some customer) →
    ∀ event ∈ c.billingEvents, event.customerId = some customer → event.unresolved = false
  jobs : ∀ job ∈ jobs, (∃ k ∈ c.closures, k.requestedBy = userId ∧ k.workspaceId = job.1) → job.2.terminal = true

theorem requireClosed_eq_ok {k : Closure} : requireClosed c k = .ok () ↔ k.state = .closed ∧
    (∀ sub ∈ c.subscription? k.workspaceId, sub.customerId = k.customerId ∧ sub.subscriptionId = k.subscriptionId) ∧
    (k.subscriptionId = none ∨ ∃ sub ∈ c.subscription? k.workspaceId, sub.status.ended = true) ∧
    c.reconciled k.customerId := by
  simp only [requireClosed, ok_iff]

theorem Erasable.woundUp {jobs : List (String × Status)} (h : Erasable P c user jobs) : WoundUp c user.id jobs := by
  refine ⟨fun k hk hby => ?_, fun k hk hby sub hsub hid => ?_, fun k hk hby customer hcustomer event hevent he => ?_,
    h.finished⟩ <;> obtain ⟨hclosed, hsame, hended, hreconciled⟩ := requireClosed_eq_ok.mp (h.closed k hk hby)
  · exact hclosed
  · rcases hended with hnone | ⟨sub', hsub', hended⟩
    · rw [(hsame sub hsub).2] at hid
      exact absurd hnone hid
    · cases hsub.symm.trans hsub'
      exact hended
  · refine hreconciled customer ?_ event hevent he
    rcases hcustomer with hcustomer | ⟨sub, hsub, hcustomer⟩
    · exact hcustomer
    · exact (hsame sub hsub).1.symm.trans hcustomer

/-- After an erasure nothing of the account and of its address is left until it is registered again, if the address is
    not one that erased accounts get. -/
theorem erasure_complete (P : Service) (ops : List AccountOp) {userId : String} {policy : RetentionPolicy}
    {jobs : List (String × Status)} {r : Nat → Int} {user : User} {c' : Customers}
    (huser : (after P ops).tables.user? userId = some user)
    (h : fulfilRequest P (after P ops).tables userId policy jobs r = .ok (true, c')) :
    WoundUp (after P ops).tables userId jobs ∧ ∀ later : List AccountOp,
      let t := Runs.run (Accounts.step P) { Accounts.after P ops with tables := c' } later
      user.email ∉ t.registered.drop (after P ops).registered.length →
      (∀ v ∈ t.tables.users, placeholder v.id ≠ user.email) → Forgotten P t.tables userId user.email := by
  obtain ⟨hfalse, -⟩ | ⟨-, user', huser', hrequest, herasable, rfl⟩ := fulfilRequest_eq_ok h
  · cases hfalse
  cases huser.symm.trans huser'
  obtain ⟨hmem, rfl⟩ := get?_eq_some huser
  have hs := after_erasureInv P ops
  have hstep : (after P ops).step P (.fulfilRequest user.id policy jobs r) =
      .ok { after P ops with tables := erase P (after P ops).tables user _ (r 2) } :=
    step_fulfilRequest.mpr ⟨true, _, h, rfl⟩
  -- The erased account keeps its identifier, so its placeholder is not the address either.
  have own : (∀ v ∈ (erase P (after P ops).tables user ((after P ops).tables.closures.filter fun k =>
      k.requestedBy = user.id) (r 2)).users, placeholder v.id ≠ user.email) → placeholder user.id ≠ user.email :=
    fun h => h user.erased (mem_update.mpr ⟨user, hmem, (if_pos rfl).symm⟩)
  obtain ⟨q, hq⟩ := Option.ne_none_iff_exists'.mp hrequest
  refine ⟨herasable.woundUp, fun later hnew hplaceholder => ?_⟩
  refine (run_gone (fun h => ?_) (step_mail hs.mail hstep) (fun h => ?_) later hnew hplaceholder).forgotten
  · exact (hs.mail.settled.normal user hmem).resolve_right fun herased => own h herased.1.symm
  · exact erase_gone hs hmem ⟨q, get?_eq_some hq⟩ (own h)

def promptPolicy : RetentionPolicy := ⟨"prompt", 0, "policy"⟩

def reviewed (id : String) (now : Int) : AccountOp := .review (.reviewRequest id promptPolicy "reviewer" fun _ => now)

def fulfilled (id : String) (now : Int) : AccountOp := .fulfilRequest id promptPolicy [] fun _ => now

def bobLeft : List AccountOp := bobJoined ++ [leaves "bob" bob ["key"] 9, reviewed "bob" 10]

/-- Bob is erased. Ann invites the address again, and nothing comes of it. -/
theorem bob_forgotten :
    Forgotten plainService (Runs.run (Accounts.step plainService) (Accounts.after plainService (bobLeft ++ [fulfilled "bob" 11]))
      [.workspace (.invite owner bob .member "invitation-again" "mail-again" fun _ => 12)]).tables "bob" bob.text := by
  have huser : (after plainService bobLeft).tables.user? "bob" =
      some { account "bob" bob with deletionRequestedAt := some 9, emailNotifications := false } := by decide +kernel
  have hfulfilled : fulfilRequest plainService (after plainService bobLeft).tables "bob" promptPolicy []
      (fun _ => 11) = .ok (true, (after plainService (bobLeft ++ [fulfilled "bob" 11])).tables) := by decide +kernel
  have hafter : after plainService (bobLeft ++ [fulfilled "bob" 11]) = { after plainService bobLeft with
      tables := (after plainService (bobLeft ++ [fulfilled "bob" 11])).tables } := by decide +kernel
  rw [hafter]
  exact (erasure_complete plainService bobLeft huser hfulfilled).2 _ (by decide +kernel) (by decide +kernel)

def lookalike : Address := ⟨"erased+ann@deleted.invalid", by decide +kernel⟩

def lookalikeLeft : List AccountOp :=
  joins "ann" ann ++ joins "bob" lookalike ++ [leaves "bob" lookalike [] 9, reviewed "bob" 10]

/-- Bob is erased, and then Ann: a row of the users holds Bob's address again, and nobody registered with it. -/
theorem lookalike_comes_back :
    (∃ c', fulfilRequest plainService (after plainService lookalikeLeft).tables "bob" promptPolicy [] (fun _ => 11) =
      .ok (true, c')) ∧
    lookalike.text ∉ (after plainService (lookalikeLeft ++ [fulfilled "bob" 11, leaves "ann" ann [] 12,
      reviewed "ann" 13, fulfilled "ann" 14])).registered.drop (after plainService lookalikeLeft).registered.length ∧
    ∃ v ∈ (after plainService (lookalikeLeft ++ [fulfilled "bob" 11, leaves "ann" ann [] 12, reviewed "ann" 13,
      fulfilled "ann" 14])).tables.users, v.email = lookalike.text := by
  refine ⟨⟨(after plainService (lookalikeLeft ++ [fulfilled "bob" 11])).tables, ?_⟩, ?_⟩ <;> decide +kernel

end Money
