import Money.Accounts.System

/-! What the operations of the accounts do to the tables: each lemma gives the facts that a successful operation checked
    and the tables that it leaves. -/

namespace Money
open Checked List Rows

variable {P : Service} {c c' : Customers} {userId : String} {hashed id mailId password : String} {kind : MailKind}
  {t : Nat → Int} {purpose : TokenPurpose} {now : Int} {actor : Principal}

theorem enqueueMail_eq_ok {email : String} : enqueueMail P c id userId email kind t = .ok c' ↔
      (c.suppresses P userId email kind ∧ kind ≠ .invitation ∧ c' = c) ∨
      (¬ c.suppresses P userId email kind ∧ Rows.get? Mail.id c.outbox id = none ∧
        c' = { c with outbox := c.outbox ++ [newMail P id userId email kind (t 0) (t 1)] }) := by
  unfold enqueueMail
  split
  next hs =>
    split
    next hk =>
      subst hk
      simp [hs]
    next hk => simp [hs, hk, eq_comm]
  next hs =>
    simp only [ok_iff, insert?_eq_some, newMail, hs, false_and, not_false_eq_true, true_and, false_or]
    constructor
    · rintro ⟨_, ⟨hfresh, rfl⟩, rfl⟩
      exact ⟨hfresh, rfl⟩
    · rintro ⟨hfresh, rfl⟩
      exact ⟨_, ⟨hfresh, rfl⟩, rfl⟩

def Posts (P : Service) (c : Customers) (rows : List Mail) : Prop :=
  (c.outbox.map Mail.id).Nodup → ((c.outbox ++ rows).map Mail.id).Nodup ∧
    ∀ m ∈ rows, ∃ id userId email kind a b,
      m = newMail P id userId email kind a b ∧ ¬ c.suppresses P userId email kind

theorem Posts.nil : Posts P c [] := fun hn =>
  ⟨by rwa [append_nil], fun _ hm => absurd hm not_mem_nil⟩

theorem enqueueMail_posts {email : String} (h : enqueueMail P c id userId email kind t = .ok c') :
    ∃ rows, c' = { c with outbox := c.outbox ++ rows } ∧ Posts P c rows := by
  rcases enqueueMail_eq_ok.mp h with ⟨-, -, rfl⟩ | ⟨hs, hfresh, rfl⟩
  · exact ⟨[], by rw [append_nil], .nil⟩
  · refine ⟨[_], rfl, fun hn => ⟨nodup_append_singleton hn hfresh, fun m hm => ?_⟩⟩
    exact ⟨id, userId, email, kind, t 0, t 1, mem_singleton.mp hm, hs⟩

theorem enqueueAll_posts : ∀ {users : List User} {ids : List String} {c c' : Customers},
    enqueueAll P kind t c users ids = .ok c' → ∃ rows, c' = { c with outbox := c.outbox ++ rows } ∧ Posts P c rows
  | [], ids, c, c', h => by
    cases h
    exact ⟨[], by rw [append_nil], .nil⟩
  | _ :: _, [], c, c', h => by cases h
  | u :: users, id :: ids, c, c', h => by
    simp only [enqueueAll, bind_eq_ok] at h
    obtain ⟨c₁, h₁, h⟩ := h
    obtain ⟨rows₁, rfl, hrows₁⟩ := enqueueMail_posts h₁
    obtain ⟨rows, rfl, hrows⟩ := enqueueAll_posts h
    refine ⟨rows₁ ++ rows, by rw [append_assoc], fun hn => ?_⟩
    obtain ⟨hn₁, hposts₁⟩ := hrows₁ hn
    obtain ⟨hn₂, hposts₂⟩ := hrows hn₁
    refine ⟨by rwa [← append_assoc], fun m hm => ?_⟩
    -- A new row of the outbox changes nothing that suppression reads.
    rcases mem_append.mp hm with hm | hm
    · exact hposts₁ m hm
    · exact hposts₂ m hm

variable {raw : String}

theorem action_eq_ok {email : String} (h : action P c userId email purpose raw mailId t = .ok c') : ∃ rows, c' = { c with
        tokens := c.tokens.map (·.superseded userId purpose (t 0)) ++ [newToken P userId purpose raw (t 0)]
        outbox := c.outbox ++ rows } ∧ (∀ k ∈ c.tokens, k.tokenHash ≠ P.digest raw) ∧ Posts P c rows := by
  simp only [action, demand_bind_eq_ok, insert?_eq_some] at h
  obtain ⟨_, ⟨hfresh, rfl⟩, h⟩ := h
  obtain ⟨rows, rfl, hrows⟩ := enqueueMail_posts h
  refine ⟨rows, rfl, fun k hk hkey => ?_, hrows⟩
  refine get?_eq_none.mp hfresh _ (mem_map_of_mem hk) ?_
  unfold ActionToken.superseded
  split <;> exact hkey

/-- What `consume` asks of a token: it is stored and unused, has not expired, and its account is not closing. -/
structure ActionToken.Accepted (P : Service) (c : Customers) (raw : String) (purpose : TokenPurpose) (now : Int)
    (token : ActionToken) : Prop where
  stored : token ∈ c.tokens
  hash : token.tokenHash = P.digest raw
  purpose : token.purpose = purpose
  unused : token.usedAt = none
  unexpired : now < token.expiresAt
  account : ∃ u ∈ c.user? token.userId, u.deletionRequestedAt = none

theorem consume_eq_ok {token : ActionToken} (h : consume P c raw purpose t = .ok (token, c')) :
    token.Accepted P c raw purpose (t 0) ∧ c' = { c with
      tokens := Rows.update ActionToken.tokenHash c.tokens (P.digest raw) ({ · with usedAt := some (t 1) }) } := by
  simp only [consume, ok_iff, Prod.mk.injEq] at h
  obtain ⟨k, hfind, u, hu, hdel, ⟨hused, hexp⟩, rfl, rfl⟩ := h
  have hmem := mem_of_find?_eq_some hfind
  have hkey := List.find?_some hfind
  simp only [decide_eq_true_eq] at hkey
  exact ⟨⟨hmem, hkey.1, hkey.2, hused, hexp, u, hu, hdel⟩, by rw [hkey.1]⟩

/-! ### Accounts -/

variable {email : Address} {user : User} {p : User → Bool}

theorem signup_eq_ok {displayName : String} {d : Draws} (h : signup P c email displayName hashed d t = .ok c') :
    c' = c ∨ ∃ u ∈ [newUser d.userId email.text displayName hashed (t 0)], ∃ rows,
      c.userByEmail? u.email = none ∧ c.user? u.id = none ∧
      (∀ k ∈ c.tokens, k.tokenHash ≠ P.digest d.raw) ∧ Posts P { c with users := c.users ++ [u] } rows ∧ c' = { c with
        users := c.users ++ [u]
        tokens := c.tokens.map (·.superseded u.id .verify (t 1)) ++ [newToken P u.id .verify d.raw (t 1)]
        outbox := c.outbox ++ rows } := by
  simp only [signup] at h
  split at h
  next hnew =>
    cases hr : register P c email.text displayName hashed d t with
    | error e =>
      rw [hr] at h
      cases e <;> cases h
      exact .inl rfl
    | ok c₁ =>
      rw [hr] at h
      cases h
      simp only [register, demand_bind_eq_ok, insert?_eq_some] at hr
      obtain ⟨_, ⟨hfresh, rfl⟩, ha⟩ := hr
      obtain ⟨rows, rfl, htoken, hrows⟩ := action_eq_ok ha
      exact .inr ⟨_, mem_singleton_self _, rows, hnew, hfresh, htoken, hrows, rfl⟩
  next => cases h; exact .inl rfl

theorem verifyEmail_eq_ok (h : verifyEmail P c raw t = .ok c') :
    ∃ token : ActionToken, token.Accepted P c raw .verify (t 0) ∧ c' = { c with
      tokens := Rows.update ActionToken.tokenHash c.tokens (P.digest raw) ({ · with usedAt := some (t 1) })
      users := Rows.update User.id c.users token.userId ({ · with emailVerifiedAt := some (t 2) }) } := by
  simp only [verifyEmail, ok_iff] at h
  obtain ⟨⟨token, c₁⟩, hc, rfl⟩ := h
  obtain ⟨accepted, rfl⟩ := consume_eq_ok hc
  exact ⟨token, accepted, rfl⟩

theorem resetPassword_eq_ok (h : resetPassword P c raw hashed t = .ok c') :
    ∃ token : ActionToken, token.Accepted P c raw .reset (t 0) ∧ c' = { c with
      tokens := Rows.update ActionToken.tokenHash c.tokens (P.digest raw) ({ · with usedAt := some (t 1) })
      users := Rows.update User.id c.users token.userId ({ · with passwordHash := hashed })
      sessions := c.sessions.map fun s => if s.userId = token.userId then s.revoked (t 2) else s } := by
  simp only [resetPassword, ok_iff] at h
  obtain ⟨⟨token, c₁⟩, hc, rfl⟩ := h
  obtain ⟨accepted, rfl⟩ := consume_eq_ok hc
  exact ⟨token, accepted, rfl⟩

def Issues (P : Service) (c : Customers) (email : Address) (purpose : TokenPurpose) (c' : Customers) : Prop :=
  c' = c ∨ ∃ user ∈ c.users, user.email = email.text ∧ user.deletionRequestedAt = none ∧ ∃ raw now rows,
    (∀ k ∈ c.tokens, k.tokenHash ≠ P.digest raw) ∧ Posts P c rows ∧
    c' = { c with
      tokens := c.tokens.map (·.superseded user.id purpose now) ++ [newToken P user.id purpose raw now]
      outbox := c.outbox ++ rows }

theorem Issues.of_action (hfind : c.users.find? p = some user) (hemail : user.email = email.text)
    (hdel : user.deletionRequestedAt = none) (h : action P c user.id email.text purpose raw mailId t = .ok c') :
    Issues P c email purpose c' := by
  obtain ⟨rows, rfl, hfresh, hrows⟩ := action_eq_ok h
  exact .inr ⟨user, mem_of_find?_eq_some hfind, hemail, hdel, raw, t 0, rows, hfresh, hrows, rfl⟩

theorem forgotPassword_issues (h : forgotPassword P c email raw mailId t = .ok c') : Issues P c email .reset c' := by
  simp only [forgotPassword] at h
  split at h
  next user hfind =>
    have hkey := List.find?_some hfind
    obtain ⟨hemail, hdel⟩ := of_decide_eq_true hkey
    exact .of_action hfind hemail hdel h
  next => cases h; exact .inl rfl

theorem resendVerification_issues (h : resendVerification P c email raw mailId t = .ok c') : Issues P c email .verify c' := by
  simp only [resendVerification] at h
  split at h
  next user hfind =>
    have hkey := List.find?_some hfind
    obtain ⟨hemail, -, hdel⟩ := of_decide_eq_true hkey
    exact .of_action hfind hemail hdel h
  next => cases h; exact .inl rfl

/-! ### Sessions -/

theorem openSession_eq_ok (h : openSession P c userId raw t = .ok c') : (∀ s ∈ c.sessions, s.tokenHash ≠ P.digest raw) ∧
      c' = { c with sessions := c.sessions ++ [newSession P userId raw t] } := by
  simp only [openSession, ok_iff, insert?_eq_some] at h
  obtain ⟨_, ⟨hfresh, rfl⟩, rfl⟩ := h
  exact ⟨get?_eq_none.mp hfresh, rfl⟩

theorem login_eq_ok (h : login P c user password raw t = .ok c') : P.passwordValid password user.passwordHash = true ∧
      (∃ u, c.user? user.id = some u ∧ u.passwordHash = user.passwordHash ∧ u.deletionRequestedAt = none) ∧
      (∀ s ∈ c.sessions, s.tokenHash ≠ P.digest raw) ∧
      c' = { c with sessions := c.sessions ++ [newSession P user.id raw t] } := by
  simp only [login, loginAllowed, ok_iff] at h
  obtain ⟨⟨⟨hvalid, -⟩, -⟩, u, hu, ⟨hhash, hdel⟩, h⟩ := h
  obtain ⟨hfresh, rfl⟩ := openSession_eq_ok h
  exact ⟨hvalid, ⟨u, hu, hhash, hdel⟩, hfresh, rfl⟩

theorem authenticatedUser_eq_ok (h : authenticatedUser P c raw now = .ok user) :
    (∃ s ∈ c.sessions, s.tokenHash = P.digest raw ∧ s.userId = user.id) ∧ c.user? user.id = some user ∧
      user.deletionRequestedAt = none := by
  simp only [authenticatedUser, ok_iff] at h
  obtain ⟨-, s, hs, u, hu, ⟨-, -, -, hdel⟩, rfl⟩ := h
  obtain ⟨hmem, hkey⟩ := get?_eq_some hs
  have hid := (get?_eq_some hu).2
  exact ⟨⟨s, hmem, hkey, hid.symm⟩, hid ▸ hu, hdel⟩

theorem rotate_eq_ok {fresh : String} (h : rotate P c user raw fresh t = .ok c') :
    (∃ u, c.user? user.id = some u ∧ u.passwordHash = user.passwordHash ∧ u.deletionRequestedAt = none) ∧
      (∃ old ∈ c.sessions, old.tokenHash = P.digest raw ∧ old.revokedAt = none) ∧
      (∀ s ∈ c.sessions, s.tokenHash ≠ P.digest fresh) ∧ ∃ t', c' = { c with
        sessions := Rows.update Session.tokenHash c.sessions (P.digest raw) ({ · with revokedAt := some (t 1) }) ++
          [newSession P user.id fresh t'] } := by
  simp only [rotate, ok_iff] at h
  obtain ⟨u, hu, ⟨hdel, hhash⟩, old, hold, ⟨hlive, -⟩, h⟩ := h
  obtain ⟨hfresh, rfl⟩ := openSession_eq_ok h
  obtain ⟨hmem, hkey⟩ := get?_eq_some hold
  refine ⟨⟨u, hu, hhash, hdel⟩, ⟨old, hmem, hkey, hlive⟩, fun s hs hfs => ?_, _, rfl⟩
  refine hfresh _ (mem_update.mpr ⟨s, hs, rfl⟩) ?_
  split <;> exact hfs

def Ends (c c' : Customers) : Prop :=
  ∃ tokenHash f, (∀ s : Session, (f s).tokenHash = s.tokenHash ∧ (f s).userId = s.userId ∧ (f s).revokedAt ≠ none) ∧
    c' = { c with sessions := Rows.update Session.tokenHash c.sessions tokenHash f }

theorem Session.revoked_revokedAt (now : Int) (s : Session) : (s.revoked now).tokenHash = s.tokenHash ∧
    (s.revoked now).userId = s.userId ∧ (s.revoked now).revokedAt ≠ none := by
  unfold Session.revoked
  split <;> simp_all

theorem logout_eq_ok (h : logout P c raw now = .ok c') : c' = c ∨ Ends c c' := by
  simp only [logout] at h
  split at h
  next => cases h; exact .inl rfl
  next =>
    simp only [ok_iff] at h
    obtain ⟨-, -, rfl⟩ := h
    exact .inr ⟨_, _, Session.revoked_revokedAt now, rfl⟩

theorem revokeSession_eq_ok {reference : Hash} (h : revokeSession P c userId reference t = .ok c') : Ends c c' := by
  simp only [revokeSession, ok_iff] at h
  obtain ⟨-, -, -, s, -, rfl⟩ := h
  exact ⟨s.tokenHash, ({ · with revokedAt := some (t 1) }), fun _ => ⟨rfl, rfl, Option.some_ne_none _⟩, rfl⟩

theorem subscription_tables (c : Customers) (workspace : String) (now : Int) :
    ∃ subscriptions, (subscription c workspace now).1 = { c with subscriptions } := by
  unfold subscription Customers.subscribed
  cases c.subscription? workspace <;> dsimp only <;> split <;> exact ⟨_, rfl⟩

variable {workspace : String}

theorem seatLimit_eq_ok {seats : Nat} (h : seatLimit P c workspace t = .ok (seats, c')) :
    c.organisation? workspace ≠ none ∧ ∃ subscriptions, c' = { c with subscriptions } := by
  obtain ⟨subscriptions, hsub⟩ := subscription_tables c workspace (t 0)
  simp only [seatLimit, ok_iff, Prod.mk.injEq, hsub] at h
  obtain ⟨o, ho, -, -, -, -, rfl⟩ := h
  exact ⟨by rw [Option.ne_none_iff_exists']; exact ⟨o, ho⟩, subscriptions, rfl⟩

/-! ### Workspaces -/

def Owns (c : Customers) (actor : Principal) : Prop :=
  (∃ u ∈ c.user? actor.userId, u.deletionRequestedAt = none) ∧
    ∃ m ∈ c.member? actor.workspaceId actor.userId, m.role = .owner

theorem requireOwner_eq_ok {r : Unit} : requireOwner c actor = .ok r ↔ Owns c actor := by
  simp only [requireOwner, ok_iff, Owns]

theorem createWorkspace_eq_ok {workspaceId name : String} (h : createWorkspace c userId workspaceId name t = .ok c') :
    (∃ u, c.user? userId = some u ∧ u.deletionRequestedAt = none) ∧ c.organisation? workspaceId = none ∧
      c.member? workspaceId userId = none ∧ c' = { c with
        organisations := c.organisations ++ [⟨workspaceId, name, userId, t 0⟩]
        members := c.members ++ [⟨workspaceId, userId, .owner, t 1⟩] } := by
  simp only [createWorkspace, ok_iff, insert?_eq_some] at h
  obtain ⟨u, hu, hdel, -, _, ⟨horg, rfl⟩, _, ⟨hmember, rfl⟩, rfl⟩ := h
  exact ⟨⟨u, hu, hdel⟩, horg, hmember, rfl⟩

/-- A rewriting of invitations that changes only their use, and takes none back. -/
structure Uses (f : Invitation → Invitation) : Prop where
  kept : ∀ i, ∃ usedAt, f i = { i with usedAt }
  used : ∀ i, i.usedAt ≠ none → (f i).usedAt ≠ none

theorem Uses.row {f : Invitation → Invitation} (hf : Uses f) (i : Invitation) :
    (f i).workspaceId = i.workspaceId ∧ (f i).email = i.email ∧ (f i).role = i.role := by
  obtain ⟨u, hu⟩ := hf.kept i
  simp [hu]

theorem Uses.mark (p : Invitation → Prop) [DecidablePred p] (now : Int) :
    Uses fun i => if p i then { i with usedAt := some now } else i where
  kept i := by
    split
    · exact ⟨_, rfl⟩
    · exact ⟨i.usedAt, rfl⟩
  used i hi := by
    split
    · exact Option.some_ne_none _
    · exact hi

theorem Uses.refl : Uses fun i => i := ⟨fun i => ⟨i.usedAt, rfl⟩, fun _ h => h⟩

theorem Uses.comp {f g : Invitation → Invitation} (hf : Uses f) (hg : Uses g) : Uses (g ∘ f) where
  kept i := by
    obtain ⟨u, hu⟩ := hf.kept i
    obtain ⟨v, hv⟩ := hg.kept (f i)
    exact ⟨v, by rw [Function.comp_apply, hv, hu]⟩
  used i h := hg.used _ (hf.used _ h)

theorem useInvitations_uses (c : Customers) (p : Invitation → Prop) [DecidablePred p] (now : Int) :
    ∃ f, Uses f ∧ c.useInvitations p now = { c with invitations := c.invitations.map f } ∧
      ∀ i, p i → (f i).usedAt ≠ none := by
  refine ⟨_, Uses.mark (fun i => p i ∧ i.usedAt = none) now, rfl, fun i hi => ?_⟩
  by_cases hu : i.usedAt = none <;> simp [hi, hu]

theorem invite_eq_ok {role : MemberRole} (h : invite P c actor email role raw mailId t = .ok c') :
    role ≠ .owner ∧ c.organisation? actor.workspaceId ≠ none ∧ Owns c actor ∧
      ¬ c.suppresses P actor.userId email.text .invitation ∧ (∀ i ∈ c.invitations, i.tokenHash ≠ P.digest raw) ∧
      ∃ subscriptions f now rows, Uses f ∧ Posts P c rows ∧ c' = { c with
        subscriptions
        invitations := c.invitations.map f ++ [newInvitation P actor email.text role raw now]
        outbox := c.outbox ++ rows } := by
  simp only [invite, ok_iff, requireOwner_eq_ok, insert?_eq_some] at h
  obtain ⟨hrole, ⟨seats, c₁⟩, hseats, hown, -, -, _, ⟨hfresh, rfl⟩, h⟩ := h
  obtain ⟨horg, subscriptions, rfl⟩ := seatLimit_eq_ok hseats
  obtain ⟨f, hf, huse, -⟩ := useInvitations_uses { c with subscriptions }
    (fun i => i.workspaceId = actor.workspaceId ∧ i.email = email.text) (t 3)
  rw [huse] at h hfresh
  obtain ⟨rows, rfl, hrows⟩ := enqueueMail_posts h
  refine ⟨hrole, horg, hown, ?_, fun i hi hkey => ?_, subscriptions, f, t 3, rows, hf, hrows, rfl⟩
  · rcases enqueueMail_eq_ok.mp h with ⟨-, hk, -⟩ | ⟨hs, -, -⟩
    · exact absurd rfl hk
    · exact hs
  · obtain ⟨u, hu⟩ := hf.kept i
    exact get?_eq_none.mp hfresh (f i) (mem_map_of_mem hi) (by rw [hu]; exact hkey)

theorem acceptInvitation_eq_ok (h : acceptInvitation P c user raw t = .ok c') :
    ∃ i ∈ c.invitations, i.tokenHash = P.digest raw ∧ i.email = user.email ∧ i.usedAt = none ∧
      c.organisation? i.workspaceId ≠ none ∧
      (∃ m ∈ c.member? i.workspaceId i.invitedBy, m.role = .owner) ∧ c.member? i.workspaceId user.id = none ∧
      ∃ subscriptions f, Uses f ∧ c' = { c with
        subscriptions, members := c.members ++ [⟨i.workspaceId, user.id, i.role, t 3⟩]
        invitations := c.invitations.map f } := by
  simp only [acceptInvitation, ok_iff, insert?_eq_some] at h
  obtain ⟨i, hi, hemail, ⟨seats, c₁⟩, hseats, ⟨hused, -⟩, ⟨m, hm, howner, -⟩, hmember, -, _, ⟨-, rfl⟩, rfl⟩ := h
  obtain ⟨horg, subscriptions, rfl⟩ := seatLimit_eq_ok hseats
  obtain ⟨hmem, hkey⟩ := get?_eq_some hi
  exact ⟨i, hmem, hkey, hemail, hused, horg, ⟨m, hm, howner⟩, hmember, subscriptions, _, Uses.mark _ (t 4), rfl⟩

theorem changeMember_eq_ok {role : Option MemberRole} (h : changeMember c actor userId role = .ok c') :
    Owns c actor ∧ userId ≠ actor.userId ∧ (∃ m, c.member? actor.workspaceId userId = some m ∧ m.role ≠ .owner) ∧
      (c' = { c with members := c.members.filter fun m => m.key ≠ (actor.workspaceId, userId) } ∨ ∃ r ≠ MemberRole.owner,
          c' = { c with members := Rows.update Member.key c.members (actor.workspaceId, userId) ({ · with role := r }) }) := by
  simp only [changeMember, ok_iff, requireOwner_eq_ok] at h
  obtain ⟨hrole, -, -, hown, m, hm, ⟨hne, hself⟩, h⟩ := h
  refine ⟨hown, hself, ⟨m, hm, hne⟩, ?_⟩
  cases role with
  | none => exact .inl (pure_eq_ok.mp h).symm
  | some r => exact .inr ⟨r, fun hr => hrole (by rw [hr]), (pure_eq_ok.mp h).symm⟩

theorem transferOwnership_eq_ok {successorId : String} (h : transferOwnership P c actor password successorId = .ok c') :
    successorId ≠ actor.userId ∧ (∃ u ∈ c.user? successorId, u.deletionRequestedAt = none) ∧
      c.closure? actor.workspaceId = none ∧ Owns c actor ∧ c.member? actor.workspaceId successorId ≠ none ∧ c' = { c with
        members := Rows.update Member.key
          (Rows.update Member.key c.members (actor.workspaceId, successorId) ({ · with role := .owner }))
          (actor.workspaceId, actor.userId) ({ · with role := .admin }) } := by
  simp only [transferOwnership, assertWorkspaceOpen, ok_iff, requireOwner_eq_ok] at h
  obtain ⟨hne, -, -, -, -, ⟨u, hu, hdel, -⟩, -, -, hopen, hown, hmember, rfl⟩ := h
  exact ⟨hne, ⟨u, hu, hdel⟩, hopen, hown, hmember, rfl⟩

def Customers.owner (c : Customers) (workspace userId : String) : Prop :=
  ∃ m ∈ c.member? workspace userId, m.role = .owner

/-- The closures of the workspaces of a leaving user, and the invitations as `f` leaves them. -/
structure Closes (c : Customers) (userId : String) (workspaces : List String) (closures : List Closure)
    (f : Invitation → Invitation) : Prop where
  uses : Uses f
  closed : ∀ w ∈ workspaces, c.owner w userId → (∃ m ∈ c.others w userId, m.role = .owner) ∨
    c.others w userId = [] ∧ (∃ k ∈ closures, k.workspaceId = w) ∧ ∀ i, i.workspaceId = w → (f i).usedAt ≠ none
  owned : ∀ k ∈ closures, k.workspaceId ∈ workspaces ∧ c.owner k.workspaceId userId ∧ c.others k.workspaceId userId = [] ∧
    ∀ i, i.workspaceId = k.workspaceId → (f i).usedAt ≠ none

def Closing (c : Customers) (userId : String) (workspaces : List String) (c' : Customers) : Prop :=
  ∃ subscriptions closures f, Closes c userId workspaces closures f ∧
    c' = { c with subscriptions, closures := c.closures ++ closures, invitations := c.invitations.map f }

theorem Closing.of_shared {workspaces : List String} {subscriptions : List Subscription}
    (h : ∀ w ∈ workspaces, c.owner w userId → ∃ m ∈ c.others w userId, m.role = .owner) :
    Closing c userId workspaces { c with subscriptions } :=
  ⟨subscriptions, [], fun i => i, ⟨Uses.refl, fun w hw howns => .inl (h w hw howns), forall_mem_nil _⟩,
    by rw [append_nil, map_id']⟩

theorem closeWorkspace_eq_ok {key : String} (h : closeWorkspace userId now t c workspace key = .ok c') :
    Closing c userId [workspace] c' := by
  obtain ⟨subscriptions, hsub⟩ := subscription_tables c workspace (t 0)
  simp only [closeWorkspace, hsub, demand_bind_eq_ok] at h
  obtain ⟨-, -, h⟩ := h
  split at h
  next hn =>
    rw [← pure_eq_ok.mp h]
    exact .of_shared (forall_mem_singleton.mpr fun howns => absurd howns hn)
  next hown =>
    split at h
    next hother =>
      rw [← pure_eq_ok.mp h]
      exact .of_shared (forall_mem_singleton.mpr fun _ => hother)
    next =>
      simp only [ok_iff, insert?_eq_some] at h
      obtain ⟨halone, -, -, _, ⟨-, rfl⟩, h⟩ := h
      obtain ⟨f, hf, huse, hall⟩ := useInvitations_uses
        { c with
          subscriptions, closures := c.closures ++ [newClosure (subscription c workspace (t 0)).2 workspace userId key now] }
        (·.workspaceId = workspace) now
      rw [huse] at h
      refine ⟨subscriptions, _, f, ⟨hf, forall_mem_singleton.mpr fun _ => ?_, forall_mem_singleton.mpr ?_⟩, h.symm⟩
      · exact .inr ⟨halone, ⟨_, mem_singleton_self _, rfl⟩, hall⟩
      · exact ⟨mem_singleton_self _, not_not.mp hown, halone, hall⟩

theorem closeWorkspaces_eq_ok : ∀ {workspaces keys : List String} {t : Nat → Int}
    {c c' : Customers}, closeWorkspaces userId now t c workspaces keys = .ok c' → Closing c userId workspaces c'
  | [], keys, t, c, c', h => by
    cases h
    exact .of_shared (forall_mem_nil _)
  | _ :: _, [], _, _, _, h => by cases h
  | w :: ws, key :: keys, t, c, c', h => by
    simp only [closeWorkspaces, bind_eq_ok] at h
    obtain ⟨c₁, h₁, h⟩ := h
    obtain ⟨subs₁, closures₁, f₁, hc₁, rfl⟩ := closeWorkspace_eq_ok h₁
    obtain ⟨subs, closures, f, hc, rfl⟩ := closeWorkspaces_eq_ok h
    refine ⟨subs, closures₁ ++ closures, f ∘ f₁, ⟨hc₁.uses.comp hc.uses, fun v hv howns => ?_, fun k hk => ?_⟩, ?_⟩
    · -- The rows of members and users, which the conditions read, do not change on the way.
      rcases mem_cons.mp hv with rfl | hv
      · refine (hc₁.closed v (mem_singleton_self _) howns).imp_right fun ⟨halone, ⟨k, hk, hkw⟩, hused⟩ => ?_
        exact ⟨halone, ⟨k, mem_append_left _ hk, hkw⟩, fun i hi => hc.uses.used _ (hused i hi)⟩
      · refine (hc.closed v hv howns).imp_right fun ⟨halone, ⟨k, hk, hkw⟩, hused⟩ => ?_
        refine ⟨halone, ⟨k, mem_append_right _ hk, hkw⟩, fun i hi => hused (f₁ i) ?_⟩
        exact (hc₁.uses.row i).1.trans hi
    · rcases mem_append.mp hk with hk | hk
      · obtain ⟨hw, howns, halone, hused⟩ := hc₁.owned k hk
        exact ⟨mem_cons.mpr (.inl (mem_singleton.mp hw)), howns, halone, fun i hi => hc.uses.used _ (hused i hi)⟩
      · obtain ⟨hw, howns, halone, hused⟩ := hc.owned k hk
        refine ⟨mem_cons_of_mem _ hw, howns, halone, fun i hi => hused (f₁ i) ?_⟩
        exact (hc₁.uses.row i).1.trans hi
    · simp only [append_assoc, map_map]

theorem requestDeletion_eq_ok {keys : List String} (h : requestDeletion P c user password keys t = .ok c') :
    ∃ current, c.user? user.id = some current ∧ current.deletionRequestedAt = none ∧
      (∀ r ∈ c.deletionRequests, r.userId ≠ user.id) ∧ ∃ subscriptions closures f g, Uses g ∧
      Closes c user.id ((c.members.filter fun m => m.userId = user.id).map Member.workspaceId) closures f ∧
      (∀ i : Invitation, i.invitedBy = user.id ∨ i.email = current.email → (g i).usedAt ≠ none) ∧ c' = { c with
        users := Rows.update User.id c.users user.id
          ({ · with deletionRequestedAt := some (t 0), emailNotifications := false })
        sessions := c.sessions.map (·.closed user.id (t 0)), tokens := c.tokens.map (·.closed user.id (t 0))
        members := c.members.filter fun m => m.userId ≠ user.id, invitations := (c.invitations.map f).map g
        outbox := c.outbox.map (·.withdrawn user.id (P.digest current.email)), subscriptions
        closures := c.closures ++ closures, deletionRequests := c.deletionRequests ++
          [{ userId := user.id, requestedAt := t 0, recipientHash := P.digest current.email }] } := by
  simp only [requestDeletion, beginDeletion, ok_iff] at h
  obtain ⟨-, current, hcurrent, ⟨-, hdel⟩, -, c₁, hclose, h⟩ := h
  have hid : current.id = user.id := (get?_eq_some hcurrent).2
  rw [hid] at hclose
  obtain ⟨subscriptions, closures, f, hf, rfl⟩ := closeWorkspaces_eq_ok hclose
  simp only [withdraw, ok_iff, insert?_eq_some] at h
  obtain ⟨_, ⟨hrequest, rfl⟩, h⟩ := h
  obtain ⟨g, hg, huse, hall⟩ := useInvitations_uses
    (Customers.left P { c with subscriptions, closures := c.closures ++ closures, invitations := c.invitations.map f }
      current (t 0)) (fun i => i.invitedBy = current.id ∨ i.email = current.email) (t 0)
  rw [huse] at h
  simp only [Customers.left, hid] at h hrequest hall
  refine ⟨current, hcurrent, hdel, get?_eq_none.mp hrequest, subscriptions, closures, f, g, hg, ⟨hf.uses, ?_, ?_⟩,
    hall, h.symm⟩
  · intro w hw
    exact hf.closed w ((perm_insertionSort _ _).mem_iff.mpr hw)
  · intro k hk
    obtain ⟨hw, hrest⟩ := hf.owned k hk
    exact ⟨(perm_insertionSort _ _).mem_iff.mp hw, hrest⟩

/-! ### Review and erasure -/

/-- The operators rewrite closures, subscriptions and requests, under the same workspaces, users and addresses. -/
def Reviews (c c' : Customers) : Prop :=
  ∃ subscriptions f g, (∀ k : Closure, (f k).workspaceId = k.workspaceId) ∧
    (∀ r : DeletionRequest, (g r).userId = r.userId ∧ (g r).recipientHash = r.recipientHash) ∧
    c' = { c with
      subscriptions
      closures := c.closures.map f
      deletionRequests := c.deletionRequests.map g }

theorem Reviews.of_closures {subscriptions : List Subscription} {f : Closure → Closure}
    (hf : ∀ k, (f k).workspaceId = k.workspaceId) :
    Reviews c { c with subscriptions, closures := Rows.update Closure.workspaceId c.closures workspace f } := by
  refine ⟨subscriptions, fun k => if k.workspaceId = workspace then f k else k, fun r => r, fun k => ?_,
    fun r => ⟨rfl, rfl⟩, ?_⟩
  · dsimp only
    split
    · exact hf k
    · rfl
  · rw [map_id']
    rfl

theorem closeBilling_reviews {answers : ClosureAnswers}
    (h : closeBilling P c workspace answers t = .ok c') : Reviews c c' := by
  simp only [closeBilling, ok_iff] at h
  obtain ⟨closure, -, -, -, -, h⟩ := h
  split at h
  next state status _ =>
    have hconfirmed : ∀ k : Closure, (k.confirmed state (t 1)).workspaceId = k.workspaceId := fun _ => rfl
    cases state <;> cases status <;> cases h <;> exact .of_closures hconfirmed
  next code _ =>
    cases h
    exact .of_closures fun _ => rfl
  next => cases h

theorem ReviewOp.apply_reviews {op : ReviewOp} (h : op.apply P c = .ok c') : Reviews c c' := by
  cases op with
  | closeBilling workspace answers t => exact closeBilling_reviews h
  | retryClosure workspace now =>
    simp only [ReviewOp.apply, Money.retryClosure, ok_iff] at h
    obtain ⟨-, -, -, -, -, rfl⟩ := h
    exact .of_closures fun _ => rfl
  | resolveClosure workspace reviewer t =>
    simp only [ReviewOp.apply, Money.resolveClosure, ok_iff] at h
    obtain ⟨-, -, -, -, -, -, -, rfl⟩ := h
    exact .of_closures fun _ => rfl
  | reviewRequest userId policy reviewer t =>
    simp only [ReviewOp.apply, Money.reviewRequest, bind_eq_ok] at h
    obtain ⟨⟨user, request, closures⟩, -, h⟩ := h
    split at h
    next =>
      cases h
      refine ⟨c.subscriptions, fun k => k, fun r => r, fun _ => rfl, fun _ => ⟨rfl, rfl⟩, ?_⟩
      rw [map_id', map_id']
    next =>
      simp only [ok_iff] at h
      obtain ⟨-, -, rfl⟩ := h
      refine ⟨c.subscriptions, _, _, fun k => ?_, fun r => ?_, rfl⟩
      · split <;> rfl
      · split <;> exact ⟨rfl, rfl⟩

/-- What the erasure of an account asks for. -/
structure Erasable (P : Service) (c : Customers) (user : User) (jobs : List (String × Status)) : Prop where
  closed : ∀ k ∈ c.closures, k.requestedBy = user.id → requireClosed c k = .ok ()
  finished : ∀ job ∈ jobs, (∃ k ∈ c.closures, k.requestedBy = user.id ∧ k.workspaceId = job.1) → job.2.terminal = true
  indexed : ∀ m ∈ c.outbox, m.recipientHash = none → m.payload = none
  unique : ∀ other ∈ c.users, other.email = placeholder user.id → other.id = user.id

theorem fulfilRequest_eq_ok {policy : RetentionPolicy} {jobs : List (String × Status)}
    {erased : Bool} (h : fulfilRequest P c userId policy jobs t = .ok (erased, c')) : erased = false ∧ c' = c ∨
    erased = true ∧ ∃ user, c.user? userId = some user ∧ c.deletionRequest? userId ≠ none ∧ Erasable P c user jobs ∧
      c' = erase P c user (c.closures.filter fun k => k.requestedBy = userId) (t 2) := by
  simp only [fulfilRequest, lockedRequest, ok_iff] at h
  obtain ⟨_, ⟨user, huser, request, hrequest, rfl⟩, h⟩ := h
  dsimp only at h
  split at h
  next =>
    cases h
    exact .inl ⟨rfl, rfl⟩
  next =>
    simp only [erasable, ok_iff, Prod.mk.injEq] at h
    obtain ⟨-, -, ⟨_, hclosed, hjobs, -, hindexed⟩, hunique, rfl, rfl⟩ := h
    have hid : user.id = userId := (get?_eq_some huser).2
    replace hclosed := forM_eq_ok.mp hclosed
    simp only [mem_filter, decide_eq_true_eq, and_imp, ← hid] at hclosed hjobs
    refine .inr ⟨rfl, user, huser, by rw [hrequest]; exact Option.some_ne_none _, ⟨hclosed, fun job hjob => ?_, hindexed,
      hunique⟩, rfl⟩
    rintro ⟨k, hk, hby, hw⟩
    exact hjobs job hjob ⟨k, ⟨hk, hby⟩, hw⟩

def Bills (P : Service) (c c' : Customers) : Prop :=
  ∃ subscriptions billingEvents rows, Posts P c rows ∧
    c' = { c with subscriptions, billingEvents, outbox := c.outbox ++ rows }

theorem Bills.of_rows (c : Customers) (subscriptions : List Subscription) (billingEvents : List BillingEvent) :
    Bills P c { c with subscriptions, billingEvents } :=
  ⟨subscriptions, billingEvents, [], .nil, by rw [append_nil]⟩

theorem reconcile_bills {gateway : Gateway} {notifies : Bool} {event : BillingEvent} {draws : List String}
    (h : reconcile P gateway notifies c event draws t = .ok c') : Bills P c c' := by
  simp only [reconcile, ok_iff] at h
  obtain ⟨customer, -, row, -, sub, -, s, -, row', -, -, h⟩ := h
  split at h
  · obtain ⟨rows, rfl, hrows⟩ := enqueueAll_posts h
    exact ⟨_, _, rows, hrows, rfl⟩
  · cases h
    exact .of_rows _ _ _

theorem BillingOp.apply_bills {op : BillingOp} (h : op.apply P c = .ok c') : Bills P c c' := by
  cases op with
  | readSubscription workspace now =>
    obtain ⟨subscriptions, hsub⟩ := subscription_tables c workspace now
    simp only [BillingOp.apply, hsub] at h
    cases h
    exact .of_rows _ _ _
  | linkCustomer actor customer now =>
    obtain ⟨subscriptions, hsub⟩ := subscription_tables c actor.workspaceId now
    simp only [BillingOp.apply, Money.linkCustomer, hsub, bind_eq_ok] at h
    obtain ⟨-, -, -, -, h⟩ := h
    split at h
    · simp only [ok_iff] at h
      obtain ⟨-, -, rfl⟩ := h
      exact .of_rows _ _ _
    · cases h
      exact .of_rows _ _ _
  | reserveCheckout actor t =>
    obtain ⟨subscriptions, hsub⟩ := subscription_tables c actor.workspaceId (t 0)
    simp only [BillingOp.apply, Money.reserveCheckout, hsub, bind_eq_ok] at h
    obtain ⟨-, -, -, -, -, -, h⟩ := h
    split at h <;> cases h <;> exact .of_rows _ _ _
  | webhook id kind o content t =>
    simp only [BillingOp.apply, Money.webhook, require_bind_eq_ok] at h
    obtain ⟨-, -, -, h⟩ := h
    split at h
    · simp only [ok_iff] at h
      obtain ⟨-, rfl⟩ := h
      exact .of_rows _ _ _
    · cases h
      exact .of_rows _ _ _
  | reconcileOnce gateway notifies skipped draws t =>
    simp only [BillingOp.apply, Except.ok.injEq, Money.reconcileOnce] at h
    subst h
    split
    · exact .of_rows _ _ _
    · split
      next hr => exact reconcile_bills hr
      next => exact .of_rows _ _ _
  | notifyResearch userId mailId wanted t =>
    simp only [BillingOp.apply, Money.notifyResearch, demand_bind_eq_ok] at h
    obtain ⟨user, -, h⟩ := h
    split at h
    · obtain ⟨rows, rfl, hrows⟩ := enqueueMail_posts h
      exact ⟨c.subscriptions, c.billingEvents, rows, hrows, rfl⟩
    · cases h
      exact .of_rows _ _ _

section Steps
variable {s t : Accounts}

theorem step_identity {op : IdentityOp} : s.step P (.identity op) = .ok t ↔
    (∀ row ∈ op.read P, row ∈ s.seen) ∧ ∃ c', op.apply P s.tables = .ok c' ∧ s.remember P c' op = t := by
  simp only [Accounts.step, ok_iff]

theorem step_workspace {op : WorkspaceOp} : s.step P (.workspace op) = .ok t ↔
    (∀ row ∈ op.read, row ∈ s.seen) ∧ ∃ tables, op.apply P s.tables = .ok tables ∧ { s with tables } = t := by
  simp only [Accounts.step, ok_iff]

variable {r : Nat → Int}

theorem step_requestDeletion {session : Hash} {password : String} {keys : List String} :
    s.step P (.requestDeletion session user password keys r) = .ok t ↔ ⟨some session, user⟩ ∈ s.seen ∧
      ∃ tables, requestDeletion P s.tables user password keys r = .ok tables ∧ { s with tables } = t := by
  simp only [Accounts.step, ok_iff]

theorem step_fulfilRequest {policy : RetentionPolicy} {jobs : List (String × Status)} :
    s.step P (.fulfilRequest userId policy jobs r) = .ok t ↔
      ∃ erased tables, fulfilRequest P s.tables userId policy jobs r = .ok (erased, tables) ∧ { s with tables } = t := by
  simp only [Accounts.step, ok_iff, Prod.exists]

end Steps

end Money
