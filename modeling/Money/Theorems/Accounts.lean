import Money.Theorems.Customers

/-! How the rows of the accounts change over a run: keys stay distinct, an account keeps its identity and address until
    it is erased, and a deletion request is never taken back. -/

namespace Money
open Checked List Rows IdentityOp

variable {P : Service} {c c' : Customers}

/-- The unique columns of the tables. -/
structure Customers.Keyed (c : Customers) : Prop where
  users : (c.users.map User.id).Nodup
  emails : (c.users.map User.email).Nodup
  members : (c.members.map Member.key).Nodup
  outbox : (c.outbox.map Mail.id).Nodup

variable {u : User} {f : User → User} {password userId : String} {op : AccountOp} {s t : Accounts} {keys : List String}
  {now : Int}

theorem Customers.Keyed.userByEmail (hk : c.Keyed) (hu : u ∈ c.users) : c.userByEmail? u.email = some u :=
  get?_of_mem hk.emails hu

theorem Customers.Keyed.user (hk : c.Keyed) (hu : u ∈ c.users) : c.user? u.id = some u :=
  get?_of_mem hk.users hu

theorem Posts.keyed {rows : List Mail} (hp : Posts P c rows) (h : c.Keyed) : ((c.outbox ++ rows).map Mail.id).Nodup :=
  (hp h.outbox).1

/-! ### Accounts -/

/-- A rewriting of accounts that keeps who they are. Only the account `leaving` may get a deletion request. -/
structure Preserves (leaving : Option String) (f : User → User) : Prop where
  id : ∀ u, (f u).id = u.id
  email : ∀ u, (f u).email = u.email
  deletion : ∀ u, u.deletionRequestedAt ≠ none → (f u).deletionRequestedAt ≠ none
  stays : ∀ u, leaving ≠ some u.id → (f u).deletionRequestedAt = u.deletionRequestedAt

theorem Preserves.refl : Preserves none fun u => u := ⟨fun _ => rfl, fun _ => rfl, fun _ h => h, fun _ _ => rfl⟩

theorem Preserves.update {leaving : Option String} (hid : ∀ u, (f u).id = u.id) (hemail : ∀ u, (f u).email = u.email)
    (hdel : ∀ u, (f u).deletionRequestedAt = u.deletionRequestedAt ∨
      leaving = some userId ∧ (f u).deletionRequestedAt ≠ none) :
    Preserves leaving fun u => if u.id = userId then f u else u := by
  refine ⟨fun u => ?_, fun u => ?_, fun u hu => ?_, fun u hu => ?_⟩ <;> split
  · exact hid u
  · rfl
  · exact hemail u
  · rfl
  · rcases hdel u with h | ⟨-, h⟩
    · rwa [h]
    · exact h
  · exact hu
  · next he => exact (hdel u).resolve_right fun h => hu (he ▸ h.1)
  · rfl

def Rewrites (leaving : Option String) (c c' : Customers) : Prop := ∃ f, Preserves leaving f ∧ c'.users = c.users.map f

/-- The accounts after an operation that erases none: the same ones, or with one more under a new address. -/
def Evolves (leaving : Option String) (c c' : Customers) : Prop :=
  Rewrites leaving c c' ∨
  ∃ u, c.user? u.id = none ∧ c.userByEmail? u.email = none ∧ u.deletionRequestedAt = none ∧ stripLower u.email = u.email ∧
    c'.users = c.users ++ [u]

theorem Rewrites.of_eq (h : c'.users = c.users) : Rewrites none c c' :=
  ⟨fun u => u, .refl, by rw [h, map_id']⟩

theorem Rewrites.of_update (h : c'.users = Rows.update User.id c.users userId f)
    (hid : ∀ u, (f u).id = u.id) (hemail : ∀ u, (f u).email = u.email)
    (hdel : ∀ u, (f u).deletionRequestedAt = u.deletionRequestedAt) : Rewrites none c c' :=
  ⟨_, .update hid hemail fun u => .inl (hdel u), h⟩

theorem Evolves.of_eq (h : c'.users = c.users) : Evolves none c c' := .inl (.of_eq h)

variable {leaving : Option String}

theorem Evolves.users (h : Evolves leaving c c') (hk : c.Keyed) :
    (c'.users.map User.id).Nodup ∧ (c'.users.map User.email).Nodup := by
  rcases h with ⟨f, hf, he⟩ | ⟨u, hid, hemail, -, -, he⟩
  · rw [he]
    exact ⟨nodup_map hf.id hk.users, nodup_map hf.email hk.emails⟩
  · rw [he]
    exact ⟨nodup_append_singleton hk.users hid, nodup_append_singleton hk.emails hemail⟩

theorem Evolves.user (h : Evolves leaving c c') {id : String} (hu : c.user? id = some u) :
    ∃ u', c'.user? id = some u' ∧ u'.email = u.email ∧ (u.deletionRequestedAt ≠ none → u'.deletionRequestedAt ≠ none) ∧
      (leaving ≠ some id → u'.deletionRequestedAt = u.deletionRequestedAt) := by
  rcases h with ⟨f, hf, he⟩ | ⟨v, -, -, -, -, he⟩
  · refine ⟨f u, ?_, hf.email u, hf.deletion u, fun hne => hf.stays u ?_⟩
    · rw [Customers.user?, he, get?_map hf.id]
      exact congrArg (Option.map f) hu
    · rw [(get?_eq_some hu).2]
      exact hne
  · refine ⟨u, ?_, rfl, fun hdel => hdel, fun _ => rfl⟩
    rw [Customers.user?, he]
    exact get?_append_of_some hu

theorem Evolves.left (h : Evolves leaving c c') {u' : User} (hu' : u' ∈ c'.users) (hdel : u'.deletionRequestedAt ≠ none) :
    ∃ u ∈ c.users, u.id = u'.id ∧ u.email = u'.email ∧ (leaving ≠ some u'.id → u.deletionRequestedAt ≠ none) := by
  rcases h with ⟨f, hf, he⟩ | ⟨v, -, -, hv, -, he⟩ <;> rw [he] at hu'
  · obtain ⟨u, hu, rfl⟩ := mem_map.mp hu'
    refine ⟨u, hu, (hf.id u).symm, (hf.email u).symm, fun hne => ?_⟩
    rw [hf.id] at hne
    exact hf.stays u hne ▸ hdel
  · rcases mem_snoc.mp hu' with hu' | rfl
    · exact ⟨u', hu', rfl, rfl, fun _ => hdel⟩
    · exact absurd hv hdel

/-! ### Operations -/

def AccountOp.erases : AccountOp → Bool
  | .fulfilRequest .. => true
  | _ => false

def IdentityOp.registers : IdentityOp → Customers → Customers → List String
  | signup email .., c, c' => if c'.users = c.users then [] else [email.text]
  | _, _, _ => []

theorem Accounts.remember_registered (s : Accounts) (c' : Customers) (op : IdentityOp) :
    (s.remember P c' op).registered = s.registered ++ op.registers s.tables c' := by
  cases op <;> first | rfl | exact (append_nil _).symm

/-- What an operation of the accounts leaves: the same accounts, or one more under a new address, and the mail it posts. -/
def IdentityOp.Leaves (P : Service) (op : IdentityOp) (c c' : Customers) : Prop :=
  ∃ users sessions tokens rows, c' = { c with users, sessions, tokens, outbox := c.outbox ++ rows } ∧
    Posts P { c with users } rows ∧ (Rewrites none c c' ∧ op.registers c c' = [] ∨
      ∃ u, c.user? u.id = none ∧ c.userByEmail? u.email = none ∧ u.deletionRequestedAt = none ∧
        stripLower u.email = u.email ∧ c'.users = c.users ++ [u] ∧ op.registers c c' = [u.email])

theorem IdentityOp.apply_leaves {op : IdentityOp} (h : op.apply P c = .ok c') : op.Leaves P c c' := by
  have quiet (users : List User) (sessions : List Session) (tokens : List ActionToken)
      (hc : c' = { c with users, sessions, tokens }) (hu : Rewrites none c c') (hr : op.registers c c' = []) :
      op.Leaves P c c' := ⟨users, sessions, tokens, [], by rw [hc, append_nil], .nil, .inl ⟨hu, hr⟩⟩
  cases op with
  | signup email displayName hashed d t =>
    rcases signup_eq_ok h with rfl | ⟨u, hu, rows, hemail, hid, -, hrows, rfl⟩
    · exact quiet _ _ _ rfl (.of_eq rfl) (if_pos rfl)
    · rw [mem_singleton.mp hu] at hemail hid hrows ⊢
      exact ⟨_, c.sessions, _, rows, rfl, hrows, .inr ⟨_, hid, hemail, rfl, email.normal, rfl, if_neg (by simp)⟩⟩
  | verifyEmail raw t =>
    obtain ⟨token, -, rfl⟩ := verifyEmail_eq_ok h
    exact quiet _ _ _ rfl (.of_update rfl (fun _ => rfl) (fun _ => rfl) fun _ => rfl) rfl
  | forgotPassword email raw mailId t =>
    rcases forgotPassword_issues h with rfl | ⟨user, -, -, -, raw', now, rows, -, hrows, rfl⟩
    · exact quiet _ _ _ rfl (.of_eq rfl) rfl
    · exact ⟨c.users, c.sessions, _, rows, rfl, hrows, .inl ⟨.of_eq rfl, rfl⟩⟩
  | resendVerification email raw mailId t =>
    rcases resendVerification_issues h with rfl | ⟨user, -, -, -, raw', now, rows, -, hrows, rfl⟩
    · exact quiet _ _ _ rfl (.of_eq rfl) rfl
    · exact ⟨c.users, c.sessions, _, rows, rfl, hrows, .inl ⟨.of_eq rfl, rfl⟩⟩
  | setNotifications userId wanted =>
    cases h
    exact quiet _ _ _ rfl (.of_update rfl (fun _ => rfl) (fun _ => rfl) fun _ => rfl) rfl
  | resetPassword raw hashed t =>
    obtain ⟨token, -, rfl⟩ := resetPassword_eq_ok h
    exact quiet _ _ _ rfl (.of_update rfl (fun _ => rfl) (fun _ => rfl) fun _ => rfl) rfl
  | login user password raw t =>
    obtain ⟨-, -, -, rfl⟩ := login_eq_ok h
    exact quiet _ _ _ rfl (.of_eq rfl) rfl
  | rotate user raw fresh t =>
    obtain ⟨-, -, -, t', rfl⟩ := rotate_eq_ok h
    exact quiet _ _ _ rfl (.of_eq rfl) rfl
  | logout raw now =>
    rcases logout_eq_ok h with rfl | ⟨_, _, -, rfl⟩ <;> exact quiet _ _ _ rfl (.of_eq rfl) rfl
  | revokeSession userId reference t =>
    obtain ⟨_, _, -, rfl⟩ := revokeSession_eq_ok h
    exact quiet _ _ _ rfl (.of_eq rfl) rfl

theorem IdentityOp.apply_evolves {op : IdentityOp} (h : op.apply P c = .ok c') : Evolves none c c' := by
  obtain ⟨_, _, _, _, -, -, hu⟩ := apply_leaves h
  exact hu.imp And.left fun ⟨u, hid, hemail, hdel, hnormal, hu, _⟩ => ⟨u, hid, hemail, hdel, hnormal, hu⟩

theorem WorkspaceOp.apply_cases {op : WorkspaceOp} (h : op.apply P c = .ok c') :
    ∃ organisations members invitations subscriptions rows,
      c' = { c with organisations, members, invitations, subscriptions, outbox := c.outbox ++ rows } ∧ Posts P c rows ∧
      ((c.members.map Member.key).Nodup → (members.map Member.key).Nodup) := by
  cases op with
  | createWorkspace userId workspaceId name t =>
    obtain ⟨-, -, hmember, rfl⟩ := createWorkspace_eq_ok h
    refine ⟨_, _, _, _, [], by rw [append_nil], .nil, fun hn => ?_⟩
    exact nodup_append_singleton hn hmember
  | invite actor email role raw mailId t =>
    obtain ⟨-, -, -, -, -, subscriptions, f, now, rows, -, hrows, rfl⟩ := invite_eq_ok h
    exact ⟨c.organisations, c.members, _, _, rows, rfl, hrows, id⟩
  | acceptInvitation session user raw t =>
    obtain ⟨i, -, -, -, -, -, -, hmember, subscriptions, f, -, rfl⟩ := acceptInvitation_eq_ok h
    refine ⟨_, _, _, _, [], by rw [append_nil], .nil, fun hn => ?_⟩
    exact nodup_append_singleton hn hmember
  | changeMember actor userId role =>
    obtain ⟨-, -, -, rfl | ⟨r, -, rfl⟩⟩ := changeMember_eq_ok h <;>
      refine ⟨_, _, _, _, [], by rw [append_nil], .nil, fun hn => ?_⟩
    · exact nodup_filter _ hn
    · exact nodup_update (fun _ => rfl) hn
  | transferOwnership actor password successorId =>
    obtain ⟨-, -, -, -, -, rfl⟩ := transferOwnership_eq_ok h
    refine ⟨_, _, _, _, [], by rw [append_nil], .nil, fun hn => ?_⟩
    exact nodup_update (fun _ => rfl) (nodup_update (fun _ => rfl) hn)

theorem requestDeletion_rewrites {user : User} {t : Nat → Int}
    (h : requestDeletion P c user password keys t = .ok c') : Rewrites (some user.id) c c' := by
  obtain ⟨current, -, -, -, _, _, _, _, -, -, -, rfl⟩ := requestDeletion_eq_ok h
  refine ⟨_, ?_, rfl⟩
  exact .update (fun _ => rfl) (fun _ => rfl) fun _ => .inr ⟨rfl, Option.some_ne_none _⟩

/-! ### The outbox -/

theorem Customers.swept_id (c : Customers) (now : Int) (m : Mail) : (c.swept now m).id = m.id := by
  unfold Customers.swept
  split
  · rfl
  · split <;> rfl

theorem Mail.withdrawn_id (userId : String) (recipient : Hash) (m : Mail) : (m.withdrawn userId recipient).id = m.id := by
  unfold Mail.withdrawn
  split <;> rfl

theorem Mail.settled_id (row m : Mail) (outcome : Delivery) (read : Int) : (row.settled outcome read m).id = m.id := by
  cases outcome <;> rfl

theorem claimMail_tables (c : Customers) (skipped : List String) (lease : String) (now : Int) :
    (claimMail c skipped lease now).1 = { c with outbox := (claimMail c skipped lease now).1.outbox } := by
  unfold claimMail
  dsimp only
  split <;> rfl

theorem claimMail_ids {skipped : List String} {lease : String} (h : (c.outbox.map Mail.id).Nodup) :
    ((claimMail c skipped lease now).1.outbox.map Mail.id).Nodup := by
  have hswept := nodup_map (c.swept_id now) h
  unfold claimMail
  dsimp only
  split
  · exact hswept
  · exact nodup_update (fun _ => rfl) hswept

theorem finishMail_ids {row : Mail} {outcome : Delivery} {t : Nat → Int} (h : (c.outbox.map Mail.id).Nodup) :
    ((finishMail c row outcome t).outbox.map Mail.id).Nodup := by
  refine nodup_map (fun m => ?_) h
  split
  · exact Mail.settled_id ..
  · rfl

theorem Accounts.remember_eq (s : Accounts) (c' : Customers) (op : IdentityOp) :
    { s.remember P c' op with tables := c' } = s.remember P c' op := by
  cases op <;> rfl

theorem Accounts.remember_seen (s : Accounts) (c' : Customers) (op : IdentityOp) : (s.remember P c' op).seen = s.seen := by
  cases op <;> rfl

/-- What each operation of the accounts can change, with the tables it leaves alone. -/
inductive AccountMove (P : Service) (s : Accounts) : AccountOp → Accounts → Prop
  | readUser {email : Address} {user : User} (huser : s.tables.userByEmail? email.text = some user) :
    AccountMove P s (.readUser email) { s with seen := s.seen ++ [⟨none, user⟩] }
  | authenticate {raw : String} {now : Int} {user : User} (huser : authenticatedUser P s.tables raw now = .ok user) :
    AccountMove P s (.authenticate raw now) { s with seen := s.seen ++ [⟨some (P.digest raw), user⟩] }
  | identity {op : IdentityOp} {users : List User} {sessions : List Session} {tokens : List ActionToken} {rows : List Mail}
    (hread : ∀ row ∈ op.read P, row ∈ s.seen) (hrows : Posts P { s.tables with users } rows)
    (hc : op.apply P s.tables = .ok { s.tables with users, sessions, tokens, outbox := s.tables.outbox ++ rows }) :
    AccountMove P s (.identity op)
      { s.remember P { s.tables with users, sessions, tokens, outbox := s.tables.outbox ++ rows } op with
      tables := { s.tables with users, sessions, tokens, outbox := s.tables.outbox ++ rows } }
  | workspace {op : WorkspaceOp} {organisations : List Organisation} {members : List Member}
    {invitations : List Invitation} {subscriptions : List Subscription} {rows : List Mail}
    (hread : ∀ row ∈ op.read, row ∈ s.seen) (hrows : Posts P s.tables rows) (hc : op.apply P s.tables = .ok
      { s.tables with organisations, members, invitations, subscriptions, outbox := s.tables.outbox ++ rows }) :
    AccountMove P s (.workspace op) { s with
      tables := { s.tables with organisations, members, invitations, subscriptions, outbox := s.tables.outbox ++ rows } }
  | closes {session : Hash} {user : User} {password : String} {keys : List String} {r : Nat → Int} {tables : Customers}
    (hc : requestDeletion P s.tables user password keys r = .ok tables) :
    AccountMove P s (.requestDeletion session user password keys r) { s with tables }
  | reviews {op : ReviewOp} {subscriptions : List Subscription} {f : Closure → Closure}
    {g : DeletionRequest → DeletionRequest} (hf : ∀ k, (f k).workspaceId = k.workspaceId)
    (hg : ∀ r, (g r).userId = r.userId ∧ (g r).recipientHash = r.recipientHash) :
    AccountMove P s (.review op) { s with
      tables := { s.tables with
        subscriptions
        closures := s.tables.closures.map f
        deletionRequests := s.tables.deletionRequests.map g } }
  | keeps {userId : String} {policy : RetentionPolicy} {jobs : List (String × Status)} {r : Nat → Int} :
    AccountMove P s (.fulfilRequest userId policy jobs r) s
  | erases {userId : String} {policy : RetentionPolicy} {jobs : List (String × Status)} {r : Nat → Int} {user : User}
    {closures : List Closure} (huser : s.tables.user? userId = some user)
    (hrequest : s.tables.deletionRequest? userId ≠ none) (herasable : Erasable P s.tables user jobs) :
    AccountMove P s (.fulfilRequest userId policy jobs r) { s with tables := erase P s.tables user closures (r 2) }
  | billing {op : BillingOp} {subscriptions : List Subscription} {billingEvents : List BillingEvent} {rows : List Mail}
    (hrows : Posts P s.tables rows) :
    AccountMove P s (.billing op) { s with
      tables := { s.tables with subscriptions, billingEvents, outbox := s.tables.outbox ++ rows } }
  | claimMail {skipped : List String} {lease : String} {now : Int} :
    AccountMove P s (.claimMail skipped lease now) { s with
      tables := { s.tables with outbox := (Money.claimMail s.tables skipped lease now).1.outbox }
      held := s.held ++ (Money.claimMail s.tables skipped lease now).2.toList }
  | finishMail {row : Mail} {outcome : Delivery} {r : Nat → Int} :
    AccountMove P s (.finishMail row outcome r) { s with
      tables := { s.tables with outbox := (Money.finishMail s.tables row outcome r).outbox } }

theorem step_accountMove (h : s.step P op = .ok t) : AccountMove P s op t := by
  cases op <;> simp only [Accounts.step, ok_iff, Except.ok.injEq, Prod.exists] at h
  case readUser email =>
    obtain ⟨user, huser, rfl⟩ := h
    exact .readUser huser
  case authenticate raw now =>
    obtain ⟨user, huser, rfl⟩ := h
    exact .authenticate huser
  case identity op =>
    obtain ⟨hread, c', hc, rfl⟩ := h
    rw [← s.remember_eq c' op]
    obtain ⟨users, sessions, tokens, rows, rfl, hrows, -⟩ := apply_leaves hc
    exact .identity hread hrows hc
  case workspace op =>
    obtain ⟨hread, c', hc, rfl⟩ := h
    obtain ⟨_, _, _, _, rows, rfl, hrows, -⟩ := WorkspaceOp.apply_cases hc
    exact .workspace hread hrows hc
  case requestDeletion session user password keys r =>
    obtain ⟨-, c', hc, rfl⟩ := h
    exact .closes hc
  case review op =>
    obtain ⟨c', hc, rfl⟩ := h
    obtain ⟨_, f, g, hf, hg, rfl⟩ := ReviewOp.apply_reviews hc
    exact .reviews hf hg
  case fulfilRequest userId policy jobs r =>
    obtain ⟨erased, c', hc, rfl⟩ := h
    rcases fulfilRequest_eq_ok hc with ⟨-, rfl⟩ | ⟨-, user, huser, hrequest, herasable, rfl⟩
    · exact .keeps
    · exact .erases huser hrequest herasable
  case billing op =>
    obtain ⟨c', hc, rfl⟩ := h
    obtain ⟨_, _, rows, hrows, rfl⟩ := BillingOp.apply_bills hc
    exact .billing hrows
  case claimMail skipped lease now =>
    rw [← h, claimMail_tables]
    exact .claimMail
  case finishMail row outcome r =>
    rw [← h.2]
    exact .finishMail

theorem erase_keyed {user : User} {closures : List Closure} (hk : c.Keyed)
    (hunique : ∀ other ∈ c.users, other.email = placeholder user.id → other.id = user.id) :
    (erase P c user closures now).Keyed where
  users := nodup_update (fun _ => rfl) hk.users
  emails := by
    -- Only one account gets the placeholder, and no other one has it.
    refine List.Nodup.map_on ?_ ?_
    · intro u hu v hv he
      obtain ⟨u₀, hu₀, rfl⟩ := mem_update.mp hu
      obtain ⟨v₀, hv₀, rfl⟩ := mem_update.mp hv
      have same : ∀ {a b : User}, a ∈ c.users → b ∈ c.users → a.id = b.id → a = b :=
        fun ha hb => eq_of_key hk.users ha hb
      by_cases hu₁ : u₀.id = user.id <;> by_cases hv₁ : v₀.id = user.id
      · rw [same hu₀ hv₀ (hu₁.trans hv₁.symm)]
      · simp only [hu₁, hv₁, if_true, if_false, User.erased] at he
        exact absurd (hunique v₀ hv₀ he.symm) hv₁
      · simp only [hu₁, hv₁, if_true, if_false, User.erased] at he
        exact absurd (hunique u₀ hu₀ he) hu₁
      · simp only [hu₁, hv₁, if_false] at he ⊢
        exact eq_of_key hk.emails hu₀ hv₀ he
    · exact List.Nodup.of_map User.id (nodup_update (fun _ => rfl) hk.users)
  members := nodup_filter _ hk.members
  outbox := nodup_filter _ hk.outbox

theorem step_keyed (hk : s.tables.Keyed) (h : s.step P op = .ok t) : t.tables.Keyed := by
  cases step_accountMove h with
  | readUser | authenticate | keeps => exact hk
  | identity hread hrows hc =>
    obtain ⟨hids, hemails⟩ := (apply_evolves hc).users hk
    exact ⟨hids, hemails, hk.members, (hrows hk.outbox).1⟩
  | workspace hread hrows hc =>
    obtain ⟨_, _, _, _, _, hcases, -, hmembers⟩ := WorkspaceOp.apply_cases hc
    exact ⟨hk.users, hk.emails, congrArg Customers.members hcases ▸ hmembers hk.members, hrows.keyed hk⟩
  | closes hc =>
    obtain ⟨hids, hemails⟩ := Evolves.users (.inl (requestDeletion_rewrites hc)) hk
    obtain ⟨_, -, -, -, _, _, _, _, -, -, -, rfl⟩ := requestDeletion_eq_ok hc
    exact ⟨hids, hemails, nodup_filter _ hk.members, nodup_map (Mail.withdrawn_id _ _) hk.outbox⟩
  | reviews => exact ⟨hk.users, hk.emails, hk.members, hk.outbox⟩
  | erases huser hrequest herasable => exact erase_keyed hk herasable.unique
  | billing hrows => exact ⟨hk.users, hk.emails, hk.members, hrows.keyed hk⟩
  | claimMail => exact ⟨hk.users, hk.emails, hk.members, claimMail_ids hk.outbox⟩
  | finishMail => exact ⟨hk.users, hk.emails, hk.members, finishMail_ids hk.outbox⟩

theorem after_keyed (P : Service) (ops : List AccountOp) : (Accounts.after P ops).tables.Keyed :=
  Runs.run_inv (fun _ _ _ hk h => step_keyed hk h) ops
    ⟨nodup_nil, nodup_nil, nodup_nil, nodup_nil⟩

def Customers.Requested (c : Customers) : Prop :=
  ∀ r ∈ c.deletionRequests, ∃ u, c.user? r.userId = some u ∧ u.deletionRequestedAt ≠ none

theorem Evolves.requested (h : Evolves leaving c c') (hr : c.Requested)
    (hkept : ∀ r ∈ c'.deletionRequests, ∃ r' ∈ c.deletionRequests, r'.userId = r.userId) : c'.Requested := by
  intro r hmem
  obtain ⟨r', hr', hid⟩ := hkept r hmem
  obtain ⟨u, hu, hdel⟩ := hr r' hr'
  obtain ⟨u', hu', -, hdel', -⟩ := h.user hu
  exact ⟨u', hid ▸ hu', hdel' hdel⟩

theorem erase_user? (c : Customers) (user : User) (closures : List Closure) (now : Int) (id : String) :
    (erase P c user closures now).user? id = if id = user.id then (c.user? id).map User.erased else c.user? id :=
  get?_update (f := User.erased) (fun _ => rfl) id

theorem step_requested (hr : s.tables.Requested) (h : s.step P op = .ok t) : t.tables.Requested := by
  cases step_accountMove h with
  | readUser | authenticate | keeps | workspace | billing | claimMail | finishMail => exact hr
  | identity hread hrows hc => exact (apply_evolves hc).requested hr fun r hm => ⟨r, hm, rfl⟩
  | @closes session user password keys r tables hc =>
    have hevolves : Evolves _ _ _ := .inl (requestDeletion_rewrites hc)
    obtain ⟨current, hcurrent, -, -, _, _, _, _, -, -, -, rfl⟩ := requestDeletion_eq_ok hc
    intro q hq
    rcases mem_snoc.mp hq with hq | rfl
    · obtain ⟨u, hu, hdel⟩ := hr q hq
      obtain ⟨u', hu', -, hdel', -⟩ := hevolves.user hu
      exact ⟨u', hu', hdel' hdel⟩
    · refine ⟨{ current with deletionRequestedAt := some (r 0), emailNotifications := false }, ?_, Option.some_ne_none _⟩
      refine (get?_update (f := fun u : User => { u with deletionRequestedAt := some (r 0), emailNotifications := false })
        (fun _ => rfl) user.id).trans ?_
      rw [if_pos rfl]
      exact congrArg (Option.map _) hcurrent
  | reviews hf hg =>
    intro q hq
    obtain ⟨q', hq', rfl⟩ := mem_map.mp hq
    rw [(hg q').1]
    exact hr q' hq'
  | @erases userId policy jobs r user closures =>
    intro q hq
    obtain ⟨q', hq', rfl⟩ := mem_update.mp hq
    obtain ⟨u, hu, hdel⟩ := hr q' hq'
    have hid : (if q'.userId = user.id then { q' with state := .erased, erasedAt := some (r 2) } else q').userId =
        q'.userId := by split <;> rfl
    rw [hid, erase_user?]
    split
    · exact ⟨u.erased, by rw [hu]; rfl, hdel⟩
    · exact ⟨u, hu, hdel⟩

theorem after_requested (P : Service) (ops : List AccountOp) : (Accounts.after P ops).tables.Requested :=
  Runs.run_inv (fun _ _ _ hr h => step_requested hr h) ops
    fun _ h => absurd h not_mem_nil

/-! ### The life of an account -/

/-- What an account can become: it keeps its address until it is erased, and a deletion request is never taken back. -/
structure User.Becomes (u v : User) : Prop where
  id : v.id = u.id
  deletion : u.deletionRequestedAt ≠ none → v.deletionRequestedAt ≠ none
  email : v.email = u.email ∨ v.email = placeholder u.id ∧ v.deletionRequestedAt ≠ none

theorem User.Becomes.refl (u : User) : u.Becomes u := ⟨rfl, fun h => h, .inl rfl⟩

theorem Preserves.becomes (hf : Preserves leaving f) (u : User) : u.Becomes (f u) :=
  ⟨hf.id u, hf.deletion u, .inl (hf.email u)⟩

/-- The requests for deletion are the same, of the same users with the same addresses. -/
def SameRequests (c c' : Customers) : Prop :=
  ∃ g : DeletionRequest → DeletionRequest, (∀ r, (g r).userId = r.userId ∧ (g r).recipientHash = r.recipientHash) ∧
    c'.deletionRequests = c.deletionRequests.map g

theorem SameRequests.of_eq (h : c'.deletionRequests = c.deletionRequests) : SameRequests c c' :=
  ⟨fun r => r, fun _ => ⟨rfl, rfl⟩, by rw [h, map_id']⟩

/-- A step keeps every account, adds at most fresh ones with a registered address, and drops no deletion request. -/
structure Advances (P : Service) (s t : Accounts) : Prop where
  kept : ∀ u ∈ s.tables.users, ∃ v ∈ t.tables.users, u.Becomes v
  users : ∀ v ∈ t.tables.users, (∃ u ∈ s.tables.users, u.Becomes v) ∨
    v.deletionRequestedAt = none ∧ stripLower v.email = v.email ∧ v.email ∈ t.registered.drop s.registered.length
  requests : SameRequests s.tables t.tables ∨ ∃ r, t.tables.deletionRequests = s.tables.deletionRequests ++ [r] ∧
    ∃ v ∈ t.tables.users, v.id = r.userId ∧ r.recipientHash = P.digest v.email
  registered : s.registered <+: t.registered

section Advances
variable {s t : Accounts} {op : AccountOp}

theorem Advances.of_rewrites (hu : Rewrites leaving s.tables t.tables) (hr : SameRequests s.tables t.tables ∨
      ∃ r, t.tables.deletionRequests = s.tables.deletionRequests ++ [r] ∧
        ∃ v ∈ t.tables.users, v.id = r.userId ∧ r.recipientHash = P.digest v.email)
    (hreg : t.registered = s.registered) : Advances P s t := by
  obtain ⟨f, hf, hu⟩ := hu
  refine ⟨fun u hmem => ⟨f u, hu ▸ mem_map_of_mem hmem, hf.becomes u⟩, fun v hmem => ?_, hr, hreg ▸ prefix_rfl⟩
  rw [hu] at hmem
  obtain ⟨u, hu, rfl⟩ := mem_map.mp hmem
  exact .inl ⟨u, hu, hf.becomes u⟩

theorem Advances.of_eq (hu : t.tables.users = s.tables.users)
    (hr : t.tables.deletionRequests = s.tables.deletionRequests) (hreg : t.registered = s.registered) : Advances P s t :=
  .of_rewrites (.of_eq hu) (.inl (.of_eq hr)) hreg

theorem IdentityOp.advances {op : IdentityOp} (h : op.apply P s.tables = .ok c')
    (hsame : c'.deletionRequests = s.tables.deletionRequests) : Advances P s { s.remember P c' op with tables := c' } := by
  have hregistered := s.remember_registered (P := P) c' op
  have hrequests : SameRequests s.tables c' := .of_eq hsame
  obtain ⟨_, _, _, _, -, -, hcases⟩ := apply_leaves h
  rcases hcases with ⟨hu, hreg⟩ | ⟨u, -, -, hdel, hnormal, hu, hreg⟩
  · rw [hreg, append_nil] at hregistered
    exact .of_rewrites hu (.inl hrequests) hregistered
  · rw [hreg] at hregistered
    refine ⟨fun v hv => ⟨v, hu ▸ mem_append_left _ hv, .refl v⟩, fun v hv => ?_, .inl hrequests, ?_⟩
    · rw [hu] at hv
      rcases mem_snoc.mp hv with hv | rfl
      · exact .inl ⟨v, hv, .refl v⟩
      · rw [hregistered, drop_left]
        exact .inr ⟨hdel, hnormal, mem_singleton_self _⟩
    · rw [hregistered]
      exact prefix_append ..

theorem requestDeletion_advances {user : User} {password : String} {keys : List String} {r : Nat → Int}
    (hc : requestDeletion P s.tables user password keys r = .ok c') : Advances P s { s with tables := c' } := by
  have hrewrites := requestDeletion_rewrites hc
  obtain ⟨current, hcurrent, -, -, _, _, _, _, -, -, -, rfl⟩ := requestDeletion_eq_ok hc
  obtain ⟨hmem, hid⟩ := get?_eq_some hcurrent
  refine .of_rewrites hrewrites (.inr ⟨_, rfl, _, mem_update.mpr ⟨current, hmem, rfl⟩, ?_⟩) rfl
  rw [if_pos hid]
  exact ⟨hid, rfl⟩

theorem erase_advances {user : User} {closures : List Closure} {now : Int} (hk : s.tables.Keyed)
    (huser : user ∈ s.tables.users) (hdel : user.deletionRequestedAt ≠ none)
    (ht : t.tables = erase P s.tables user closures now) (hreg : t.registered = s.registered) : Advances P s t := by
  have becomes : ∀ u ∈ s.tables.users, u.Becomes (if u.id = user.id then u.erased else u) := by
    intro u hu
    split
    next hid =>
      have hleft : u.deletionRequestedAt ≠ none := by
        rw [eq_of_key hk.users hu huser hid]
        exact hdel
      exact ⟨rfl, fun h => h, .inr ⟨rfl, hleft⟩⟩
    next => exact .refl u
  refine ⟨fun u hu => ?_, fun v hv => ?_, .inl ⟨_, fun r => ?_, by rw [ht]; rfl⟩, hreg ▸ prefix_rfl⟩
  · rw [ht]
    exact ⟨_, mem_update.mpr ⟨u, hu, rfl⟩, becomes u hu⟩
  · rw [ht] at hv
    obtain ⟨u, hu, rfl⟩ := mem_update.mp hv
    exact .inl ⟨u, hu, becomes u hu⟩
  · split <;> exact ⟨rfl, rfl⟩

theorem step_advances (hk : s.tables.Keyed) (hr : s.tables.Requested) (h : s.step P op = .ok t) : Advances P s t := by
  cases step_accountMove h with
  | readUser | authenticate | keeps | workspace | billing | claimMail | finishMail => exact .of_eq rfl rfl rfl
  | identity hread hrows hc => exact advances hc rfl
  | closes hc => exact requestDeletion_advances hc
  | @reviews _ _ _ g _ hg => exact .of_rewrites (.of_eq rfl) (.inl ⟨g, hg, rfl⟩) rfl
  | erases huser hrequest =>
    obtain ⟨q, hq⟩ := Option.ne_none_iff_exists'.mp hrequest
    obtain ⟨hqmem, hqid⟩ := get?_eq_some hq
    obtain ⟨u, hu, hdel⟩ := hr q hqmem
    rw [hqid, huser] at hu
    cases hu
    exact erase_advances hk (get?_eq_some huser).1 hdel rfl rfl

theorem Advances.request (h : Advances P s t) {r : DeletionRequest} (hr : r ∈ s.tables.deletionRequests) :
    ∃ r' ∈ t.tables.deletionRequests, r'.recipientHash = r.recipientHash := by
  rcases h.requests with ⟨g, hg, he⟩ | ⟨r', he, -⟩
  · exact ⟨g r, he ▸ mem_map_of_mem hr, (hg r).2⟩
  · exact ⟨r, he ▸ mem_append_left _ hr, rfl⟩

theorem Advances.closing (h : Advances P s t) {userId : String} (hc : s.tables.closing userId) : t.tables.closing userId := by
  obtain ⟨u, hu, rfl, hdel⟩ := hc
  obtain ⟨v, hv, hb⟩ := h.kept u hu
  exact ⟨v, hv, hb.id, hb.deletion hdel⟩

/-- Every account has an address as the API normalises it, until it is erased. -/
def Customers.Normal (c : Customers) : Prop :=
  ∀ u ∈ c.users, stripLower u.email = u.email ∨ u.email = placeholder u.id ∧ u.deletionRequestedAt ≠ none

theorem Advances.normal (h : Advances P s t) (hn : s.tables.Normal) : t.tables.Normal := by
  intro v hv
  rcases h.users v hv with ⟨u, hu, hb⟩ | ⟨-, hnormal, -⟩
  · rcases hb.email with hemail | herased
    · rw [hemail, hb.id]
      exact (hn u hu).imp_right fun ⟨herased, hdel⟩ => ⟨herased, hb.deletion hdel⟩
    · exact .inr (hb.id ▸ herased)
  · exact .inl hnormal

end Advances

/-- The invariants of the tables that the results about leaving accounts rest on. -/
structure Customers.Settled (c : Customers) : Prop where
  keyed : c.Keyed
  requested : c.Requested
  normal : c.Normal

theorem step_settled (hs : s.tables.Settled) (h : s.step P op = .ok t) : t.tables.Settled :=
  ⟨step_keyed hs.keyed h, step_requested hs.requested h, (step_advances hs.keyed hs.requested h).normal hs.normal⟩

theorem after_settled (P : Service) (ops : List AccountOp) : (Accounts.after P ops).tables.Settled := by
  refine Runs.run_inv (fun _ _ _ hs h => step_settled hs h) ops
    ⟨after_keyed P [], after_requested P [], forall_mem_nil _⟩

/-! ### A team

Ann opens a workspace, subscribes to the team plan and invites Bob, who joins. -/

def ann : Address := ⟨"ann@example.com", by decide +kernel⟩

def bob : Address := ⟨"bob@example.com", by decide +kernel⟩

def sessionOf (id : String) : String := "the-session-token-of-the-account-of-" ++ id

/-- The row of an account that is verified. Its password is its identifier. -/
def account (id : String) (email : Address) : User where
  id
  email := email.text
  displayName := id
  passwordHash := id
  emailVerifiedAt := some 1
  createdAt := 0

def joins (id : String) (email : Address) : List AccountOp := [
  .identity (.signup email id id ⟨id, "verify-" ++ id, "mail-" ++ id⟩ fun _ => 0),
  .identity (.verifyEmail ("verify-" ++ id) fun _ => 1),
  .readUser email,
  .identity (.login (account id email) id (sessionOf id) fun _ => 2),
  .authenticate (sessionOf id) 3]

def owner : Principal := ⟨"ann", "desk", .owner⟩

def teamSubscription : ProviderSubscription where
  id := some "sub_team"
  customer := some "cus_team"
  livemode := some false
  workspaceId := some "desk"
  status := some .active
  items := [{ quantity := some 1, price := some "price_team" }]
  currentPeriodStart := some 0
  currentPeriodEnd := some 2592000

def gatewayOf (id : String) (s : ProviderSubscription) : Gateway := fun asked =>
  if asked = id then .ok s else .error (.billingUnavailable "BILLING_PROVIDER_UNAVAILABLE")

def teamOfAnn : List AccountOp := joins "ann" ann ++ [
  .workspace (.createWorkspace "ann" "desk" "Desk" fun _ => 4),
  .billing (.linkCustomer owner "cus_team" 4),
  .billing (.webhook "evt_team" "customer.subscription.created" { id := some "sub_team", customer := some "cus_team" }
    "content" fun _ => 5),
  .billing (.reconcileOnce (gatewayOf "sub_team" teamSubscription) true [] ["mail-team"] fun _ => 6)]

def bobInvited : List AccountOp := teamOfAnn ++ joins "bob" bob ++ [
  .workspace (.invite owner bob .member "invitation-of-bob" "mail-invitation" fun _ => 7)]

def bobJoined : List AccountOp := bobInvited ++ [
  .workspace (.acceptInvitation (sessionOf "bob") (account "bob" bob) "invitation-of-bob" fun _ => 8)]

def leaves (id : String) (email : Address) (keys : List String) (now : Int) : AccountOp :=
  .requestDeletion (sessionOf id) (account id email) id keys fun _ => now

example : ((Accounts.after plainService bobJoined).tables.members.map fun m => (m.key, m.role)) =
    [(("desk", "ann"), .owner), (("desk", "bob"), .member)] := by decide +kernel

end Money
