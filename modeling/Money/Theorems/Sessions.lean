import Money.Theorems.Accounts

/-! A login and a rotation read the row again under its lock, and a reset and a deletion request revoke every session
    under the same lock, so a live session descends from a login with the current password. -/

namespace Money
open Checked List Rows

variable {P : Service} {s t : Accounts}

/-- The session with the digest was opened by the login or descends from its session by rotations. -/
inductive Issued (s : Accounts) (l : Login) : Hash → Prop where
  | login : Issued s l l.tokenHash
  | rotated {r : Rotation} : r ∈ s.rotations → Issued s l r.old → Issued s l r.new

theorem Issued.mono {l : Login} {h : Hash} (hi : Issued s l h) (hr : ∀ r ∈ s.rotations, r ∈ t.rotations) : Issued t l h := by
  induction hi with
  | login => exact .login
  | rotated hmem _ ih => exact .rotated (hr _ hmem) ih

/-- The session rests on a login of its user with the password that is in force, and the user stays. -/
def Session.Grounded (P : Service) (s : Accounts) (x : Session) : Prop :=
  ∃ l ∈ s.logins, Issued s l x.tokenHash ∧ l.userId = x.userId ∧ P.passwordValid l.password l.passwordHash = true ∧
    ∃ u, s.tables.user? x.userId = some u ∧ u.passwordHash = l.passwordHash ∧ u.deletionRequestedAt = none

/-- A request that came with a session came with one of its user, unless that user leaves. -/
def Seen.Backed (s : Accounts) (row : Seen) : Prop :=
  ∀ h ∈ row.session, ∃ u, s.tables.user? row.user.id = some u ∧
    (u.deletionRequestedAt = none → ∃ x ∈ s.tables.sessions, x.tokenHash = h ∧ x.userId = row.user.id)

/-- Every live session is grounded in a login, and every authenticated reading in a session. -/
structure SessionsValid (P : Service) (s : Accounts) : Prop where
  keys : (s.tables.sessions.map Session.tokenHash).Nodup
  live : ∀ x ∈ s.tables.sessions, x.revokedAt = none → x.Grounded P s
  seen : ∀ row ∈ s.seen, row.Backed s

/-! ### Rewritten sessions -/

/-- A rewriting of sessions that revives none. -/
structure Winds (f : Session → Session) : Prop where
  key : ∀ x, (f x).tokenHash = x.tokenHash
  user : ∀ x, (f x).userId = x.userId
  live : ∀ x, (f x).revokedAt = none → x.revokedAt = none

theorem Winds.refl : Winds fun x => x := ⟨fun _ => rfl, fun _ => rfl, fun _ h => h⟩

theorem Winds.revoking {p : Session → Prop} [DecidablePred p] {f : Session → Session}
    (hf : ∀ x, (f x).tokenHash = x.tokenHash ∧ (f x).userId = x.userId ∧ (f x).revokedAt ≠ none) :
    Winds fun x => if p x then f x else x := by
  refine ⟨fun x => ?_, fun x => ?_, fun x hx => ?_⟩
  · split
    · exact (hf x).1
    · rfl
  · split
    · exact (hf x).2.1
    · rfl
  · split at hx
    · exact absurd hx (hf x).2.2
    · exact hx

/-- What a rewriting has to keep of the accounts: those of live sessions as they are, and all deletion requests. -/
structure Accompanies (c c' : Customers) (f : Session → Session) : Prop where
  live : ∀ x ∈ c.sessions, (f x).revokedAt = none → ∀ u, c.user? x.userId = some u → u.deletionRequestedAt = none →
    ∃ u', c'.user? x.userId = some u' ∧ u'.passwordHash = u.passwordHash ∧ u'.deletionRequestedAt = none
  kept : ∀ id u, c.user? id = some u →
    ∃ u', c'.user? id = some u' ∧ (u'.deletionRequestedAt = none → u.deletionRequestedAt = none)

variable {c' : Customers} {c : Customers} {f : Session → Session} {user : User} {password raw : String} {r : Nat → Int}

theorem Accompanies.of_eq (f : Session → Session) (h : c'.users = c.users) : Accompanies c c' f := by
  have huser : ∀ id, c'.user? id = c.user? id := fun id => by rw [Customers.user?, Customers.user?, h]
  exact ⟨fun x _ _ u hu hdel => ⟨u, (huser _).trans hu, rfl, hdel⟩, fun id u hu => ⟨u, (huser _).trans hu, fun hd => hd⟩⟩

theorem Accompanies.of_update {g : User → User} {userId : String}
    (h : c'.users = Rows.update User.id c.users userId g) (hid : ∀ u, (g u).id = u.id)
    (hdel : ∀ u, (g u).deletionRequestedAt = none → u.deletionRequestedAt = none)
    (hlive : ∀ x ∈ c.sessions, x.userId = userId → (f x).revokedAt = none →
      ∀ u, (g u).passwordHash = u.passwordHash ∧ (g u).deletionRequestedAt = u.deletionRequestedAt) : Accompanies c c' f := by
  have huser : ∀ id, c'.user? id = if id = userId then (c.user? id).map g else c.user? id := fun id => by
    rw [Customers.user?, h]
    exact get?_update hid id
  constructor
  · intro x hx hf u hu hnone
    rw [huser]
    split
    next he =>
      obtain ⟨hpass, hsame⟩ := hlive x hx he hf u
      exact ⟨g u, by rw [hu]; rfl, hpass, hsame.trans hnone⟩
    next => exact ⟨u, hu, rfl, hnone⟩
  · intro id u hu
    rw [huser]
    split
    · exact ⟨g u, by rw [hu]; rfl, hdel u⟩
    · exact ⟨u, hu, fun hd => hd⟩

theorem Accompanies.of_append (f : Session → Session) {u : User} (h : c'.users = c.users ++ [u]) : Accompanies c c' f := by
  have huser : ∀ id v, c.user? id = some v → c'.user? id = some v := fun id v hv => by
    rw [Customers.user?, h]
    exact get?_append_of_some hv
  exact ⟨fun x _ _ v hv hdel => ⟨v, huser _ v hv, rfl, hdel⟩, fun id v hv => ⟨v, huser id v hv, fun hd => hd⟩⟩

section
variable (h : SessionsValid P s)
include h

theorem SessionsValid.rewrite (hf : Winds f)
    (hlogins : t.logins = s.logins) (hrotations : t.rotations = s.rotations) (hseen : t.seen = s.seen)
    (hsessions : t.tables.sessions = s.tables.sessions.map f) (hu : Accompanies s.tables t.tables f) : SessionsValid P t := by
  refine ⟨?_, fun y hy hlive => ?_, fun row hrow hash hh => ?_⟩
  · rw [hsessions]
    exact nodup_map hf.key h.keys
  · rw [hsessions] at hy
    obtain ⟨x, hx, rfl⟩ := mem_map.mp hy
    obtain ⟨l, hl, hissued, huser, hvalid, u, hfound, hpass, hdel⟩ := h.live x hx (hf.live x hlive)
    obtain ⟨u', hfound', hpass', hdel'⟩ := hu.live x hx hlive u hfound hdel
    refine ⟨l, hlogins ▸ hl, ?_, huser.trans (hf.user x).symm, hvalid, u', by rwa [hf.user], hpass'.trans hpass, hdel'⟩
    rw [hf.key]
    exact hissued.mono fun r hr => hrotations ▸ hr
  · rw [hseen] at hrow
    obtain ⟨u, hfound, hback⟩ := h.seen row hrow hash hh
    obtain ⟨u', hfound', hdel⟩ := hu.kept _ u hfound
    refine ⟨u', hfound', fun hnone => ?_⟩
    obtain ⟨x, hx, hkey, huser⟩ := hback (hdel hnone)
    exact ⟨f x, hsessions ▸ mem_map_of_mem hx, (hf.key x).trans hkey, (hf.user x).trans huser⟩

theorem SessionsValid.frame (hlogins : t.logins = s.logins) (hrotations : t.rotations = s.rotations)
    (hseen : t.seen = s.seen) (hsessions : t.tables.sessions = s.tables.sessions)
    (hu : Accompanies s.tables t.tables fun x => x) : SessionsValid P t :=
  h.rewrite .refl hlogins hrotations hseen (by rw [hsessions, map_id']) hu

theorem SessionsValid.extend {x : Session} (hfresh : ∀ y ∈ s.tables.sessions, y.tokenHash ≠ x.tokenHash)
    (hlogins : ∀ l ∈ s.logins, l ∈ t.logins) (hrotations : ∀ r ∈ s.rotations, r ∈ t.rotations) (hseen : t.seen = s.seen)
    (hsessions : t.tables.sessions = s.tables.sessions ++ [x]) (husers : t.tables.users = s.tables.users)
    (hx : x.Grounded P t) : SessionsValid P t := by
  have huser : ∀ id, t.tables.user? id = s.tables.user? id := fun id => by
    rw [Customers.user?, Customers.user?, husers]
  refine ⟨?_, fun y hy hlive => ?_, fun row hrow hash hh => ?_⟩
  · rw [hsessions]
    exact nodup_append_singleton h.keys (get?_eq_none.mpr hfresh)
  · rw [hsessions] at hy
    rcases mem_snoc.mp hy with hy | rfl
    · obtain ⟨l, hl, hissued, hrest⟩ := h.live y hy hlive
      rw [← huser] at hrest
      exact ⟨l, hlogins l hl, hissued.mono hrotations, hrest⟩
    · exact hx
  · rw [hseen] at hrow
    obtain ⟨u, hfound, hback⟩ := h.seen row hrow hash hh
    refine ⟨u, (huser _).trans hfound, fun hnone => ?_⟩
    obtain ⟨y, hy, hrest⟩ := hback hnone
    exact ⟨y, hsessions ▸ mem_append_left _ hy, hrest⟩

/-! ### Steps -/

theorem SessionsValid.login (hc : login P s.tables user password raw r = .ok c') :
    SessionsValid P (s.remember P c' (.login user password raw r)) := by
  obtain ⟨hvalid, ⟨u, hu, hpass, hdel⟩, hfresh, rfl⟩ := login_eq_ok hc
  refine h.extend hfresh (fun l hl => mem_append_left _ hl) (fun _ hr => hr) rfl rfl rfl ?_
  exact ⟨_, mem_append_right _ (mem_singleton_self _), .login, rfl, hvalid, u, hu, hpass, hdel⟩

theorem SessionsValid.rotate {fresh : String}
    (hread : ⟨some (P.digest raw), user⟩ ∈ s.seen) (hc : rotate P s.tables user raw fresh r = .ok c') :
    SessionsValid P (s.remember P c' (.rotate user raw fresh r)) := by
  obtain ⟨⟨u, hu, hpass, hdel⟩, ⟨old, hold, hkey, hlive⟩, hfresh, t', rfl⟩ := rotate_eq_ok hc
  -- The session that is replaced belongs to the user whom the request was authenticated for.
  have hsame : old.userId = user.id := by
    obtain ⟨u', hu', hback⟩ := h.seen _ hread _ rfl
    cases hu.symm.trans hu'
    obtain ⟨x, hx, hxkey, hxuser⟩ := hback hdel
    rw [← hxuser, eq_of_key h.keys hold hx (hkey.trans hxkey.symm)]
  obtain ⟨l, hl, hissued, hluser, hvalid, v, hv, hvpass, -⟩ := h.live old hold hlive
  rw [hsame, hu] at hv
  cases hv
  set revoke : Session → Session := fun x => if x.tokenHash = P.digest raw then { x with revokedAt := some (r 1) } else x
  have hwinds : Winds revoke := .revoking fun _ => ⟨rfl, rfl, Option.some_ne_none _⟩
  have hrevoked := h.rewrite (t := { s with tables := { s.tables with sessions := s.tables.sessions.map revoke } }) hwinds rfl rfl
    rfl rfl (.of_eq _ rfl)
  refine hrevoked.extend (x := newSession P user.id fresh t') (fun y hy => ?_) (fun _ hl => hl)
    (fun _ hr => mem_append_left _ hr) rfl rfl rfl ?_
  · obtain ⟨x, hx, rfl⟩ := mem_map.mp hy
    rw [hwinds.key]
    exact hfresh x hx
  · have hnew : (⟨P.digest raw, P.digest fresh⟩ : Rotation) ∈
        (s.remember P { s.tables with sessions := s.tables.sessions.map revoke ++ [newSession P user.id fresh t'] }
          (.rotate user raw fresh r)).rotations := mem_append_right _ (mem_singleton_self _)
    refine ⟨l, hl, ?_, hluser.trans hsame, hvalid, u, hu, hvpass, hdel⟩
    refine .rotated hnew ?_
    rw [← hkey]
    exact hissued.mono fun _ hr => mem_append_left _ hr

theorem Ends.sessionsValid (he : Ends s.tables c') : SessionsValid P { s with tables := c' } := by
  obtain ⟨tokenHash, f, hf, rfl⟩ := he
  exact h.rewrite (.revoking hf) rfl rfl rfl rfl (.of_eq _ rfl)

theorem SessionsValid.identity {op : IdentityOp}
    (hread : ∀ row ∈ op.read P, row ∈ s.seen) (hc : op.apply P s.tables = .ok c') : SessionsValid P (s.remember P c' op) := by
  cases op with
  | signup email displayName hashed d r =>
    rcases signup_eq_ok hc with rfl | ⟨u, -, rows, -, -, -, -, rfl⟩
    · exact h.frame rfl rfl rfl rfl (.of_eq _ rfl)
    · exact h.frame rfl rfl rfl rfl (.of_append _ rfl)
  | verifyEmail raw r =>
    obtain ⟨token, -, rfl⟩ := verifyEmail_eq_ok hc
    exact h.frame rfl rfl rfl rfl (.of_update rfl (fun _ => rfl) (fun _ hd => hd) fun _ _ _ _ _ => ⟨rfl, rfl⟩)
  | forgotPassword email raw mailId r =>
    rcases forgotPassword_issues hc with rfl | ⟨user, -, -, -, raw', now, rows, -, -, rfl⟩ <;>
      exact h.frame rfl rfl rfl rfl (.of_eq _ rfl)
  | resendVerification email raw mailId r =>
    rcases resendVerification_issues hc with rfl | ⟨user, -, -, -, raw', now, rows, -, -, rfl⟩ <;>
      exact h.frame rfl rfl rfl rfl (.of_eq _ rfl)
  | setNotifications userId wanted =>
    cases hc
    exact h.frame rfl rfl rfl rfl (.of_update rfl (fun _ => rfl) (fun _ hd => hd) fun _ _ _ _ _ => ⟨rfl, rfl⟩)
  | resetPassword raw hashed r =>
    obtain ⟨token, -, rfl⟩ := resetPassword_eq_ok hc
    refine h.rewrite (.revoking (Session.revoked_revokedAt (r 2))) rfl rfl rfl rfl
      (.of_update rfl (fun _ => rfl) (fun _ hd => hd) fun x _ hx hlive => ?_)
    -- No session of the user outlives the old password.
    rw [if_pos hx] at hlive
    exact absurd hlive (x.revoked_revokedAt (r 2)).2.2
  | login user password raw r => exact h.login hc
  | rotate user raw fresh r => exact h.rotate (hread _ rfl) hc
  | logout raw now =>
    rcases logout_eq_ok hc with rfl | he
    · exact h
    · exact he.sessionsValid h
  | revokeSession userId reference r => exact (revokeSession_eq_ok hc).sessionsValid h

theorem SessionsValid.requestDeletion {keys : List String}
    (hc : requestDeletion P s.tables user password keys r = .ok c') : SessionsValid P { s with tables := c' } := by
  obtain ⟨_, -, -, -, _, _, _, _, -, -, -, rfl⟩ := requestDeletion_eq_ok hc
  refine h.rewrite (f := (·.closed user.id (r 0))) ?_ rfl rfl rfl rfl
    (.of_update rfl (fun _ => rfl) (fun _ hd => absurd hd (Option.some_ne_none _)) fun x _ hx hlive => ?_)
  · refine ⟨fun x => ?_, fun x => ?_, fun x hx => ?_⟩ <;> simp only [Session.closed] at * <;> split at * <;> simp_all
  · simp only [Session.closed, if_pos hx] at hlive
    exact absurd hlive (Option.some_ne_none _)

theorem SessionsValid.erase {closures : List Closure} {now : Int}
    (hdel : ∃ u, s.tables.user? user.id = some u ∧ u.deletionRequestedAt ≠ none) :
    SessionsValid P { s with tables := Money.erase P s.tables user closures now } := by
  refine ⟨nodup_filter _ h.keys, fun x hx hlive => ?_, fun row hrow hash hh => ?_⟩
  · obtain ⟨hx, hne⟩ := mem_filter.mp hx
    obtain ⟨l, hl, hissued, hluser, hvalid, u, hu, hrest⟩ := h.live x hx hlive
    refine ⟨l, hl, hissued.mono fun _ hr => hr, hluser, hvalid, u, ?_, hrest⟩
    rw [erase_user?, if_neg (by simpa using hne)]
    exact hu
  · obtain ⟨u, hu, hback⟩ := h.seen row hrow hash hh
    rw [erase_user?]
    split
    next he =>
      -- The erased account has asked for its deletion.
      obtain ⟨v, hv, hvdel⟩ := hdel
      rw [← he, hu] at hv
      cases hv
      exact ⟨u.erased, by rw [hu]; rfl, fun hnone => absurd hnone hvdel⟩
    next he =>
      refine ⟨u, hu, fun hnone => ?_⟩
      obtain ⟨x, hx, hkey, hxuser⟩ := hback hnone
      refine ⟨x, mem_filter.mpr ⟨hx, ?_⟩, hkey, hxuser⟩
      simpa [hxuser] using he

theorem SessionsValid.read {row : Seen} (hrow : row.Backed s) :
    SessionsValid P { s with seen := s.seen ++ [row] } := by
  refine ⟨h.keys, fun x hx hlive => ?_, fun row' hrow' => ?_⟩
  · obtain ⟨l, hl, hissued, hrest⟩ := h.live x hx hlive
    exact ⟨l, hl, hissued.mono fun _ hr => hr, hrest⟩
  · rcases mem_snoc.mp hrow' with hrow' | rfl
    · exact h.seen row' hrow'
    · exact hrow

end

theorem step_sessionsValid {op : AccountOp} (hr : s.tables.Requested) (hv : SessionsValid P s) (h : s.step P op = .ok t) :
    SessionsValid P t := by
  cases step_accountMove h with
  | readUser => exact hv.read fun _ hnone => absurd hnone (by simp)
  | authenticate huser =>
    obtain ⟨⟨x, hx, hkey, hid⟩, hfound, -⟩ := authenticatedUser_eq_ok huser
    refine hv.read fun hash hh => ⟨_, hfound, fun _ => ⟨x, hx, ?_, hid⟩⟩
    cases hh
    exact hkey
  | identity hread hrows hc =>
    rw [Accounts.remember_eq]
    exact hv.identity hread hc
  | workspace | reviews | billing | claimMail | finishMail => exact hv.frame rfl rfl rfl rfl (.of_eq _ rfl)
  | closes hc => exact hv.requestDeletion hc
  | keeps => exact hv
  | erases huser hrequest =>
    obtain ⟨q, hq⟩ := Option.ne_none_iff_exists'.mp hrequest
    obtain ⟨hmem, hid⟩ := get?_eq_some hq
    refine hv.erase ?_
    rw [(get?_eq_some huser).2, ← hid]
    exact hr q hmem

theorem after_sessionsValid (P : Service) (ops : List AccountOp) : SessionsValid P (Accounts.after P ops) := by
  have hstart : SessionsValid P {} :=
    ⟨nodup_nil, forall_mem_nil _, forall_mem_nil _⟩
  refine (Runs.run_inv (P := fun s : Accounts => s.tables.Requested ∧ SessionsValid P s) (fun s op t hs h => ?_) ops
    ⟨fun _ h => absurd h not_mem_nil, hstart⟩).2
  exact ⟨step_requested hs.1 h, step_sessionsValid hs.1 hs.2 h⟩

/-- A live session was issued by a login that verified a password against the hash that the user still has, and no
    session of a leaving user is live. -/
theorem sessions_grounded (P : Service) (ops : List AccountOp) :
    (∀ x ∈ (Accounts.after P ops).tables.sessions, x.revokedAt = none → x.Grounded P (Accounts.after P ops)) ∧
      ∀ u ∈ (Accounts.after P ops).tables.users, u.deletionRequestedAt ≠ none →
        ∀ x ∈ (Accounts.after P ops).tables.sessions, x.userId = u.id → x.revokedAt ≠ none := by
  have hlive := (after_sessionsValid P ops).live
  refine ⟨hlive, fun u hu hdel x hx hid hnone => ?_⟩
  obtain ⟨_, -, -, -, -, v, hv, -, hvdel⟩ := hlive x hx hnone
  rw [hid, Customers.user?, get?_of_mem (after_keyed P ops).users hu] at hv
  cases hv
  exact hdel hvdel

end Money
