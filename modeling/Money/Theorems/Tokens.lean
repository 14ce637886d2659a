import Money.Theorems.Accounts

/-! Action tokens are only appended and used up, and the issue of one uses up the older ones of its user and purpose. So
    a token that is accepted is the newest one, and none is accepted twice. -/

namespace Money
open Checked List Rows

variable {P : Service} {c c' : Customers} {s t : Accounts}

/-- A rewriting of tokens that changes only their use, and takes none back. -/
structure Spends (f : ActionToken → ActionToken) : Prop where
  kept : ∀ k, ∃ usedAt, f k = { k with usedAt }
  used : ∀ k, k.usedAt ≠ none → (f k).usedAt ≠ none

namespace Spends
variable {f g : ActionToken → ActionToken}

theorem key (h : Spends f) (k : ActionToken) : (f k).tokenHash = k.tokenHash := by
  obtain ⟨u, hu⟩ := h.kept k
  rw [hu]

theorem user (h : Spends f) (k : ActionToken) : (f k).userId = k.userId := by
  obtain ⟨u, hu⟩ := h.kept k
  rw [hu]

theorem purpose (h : Spends f) (k : ActionToken) : (f k).purpose = k.purpose := by
  obtain ⟨u, hu⟩ := h.kept k
  rw [hu]

theorem refl : Spends fun k => k := ⟨fun k => ⟨k.usedAt, rfl⟩, fun _ h => h⟩

theorem comp (hf : Spends f) (hg : Spends g) : Spends (g ∘ f) where
  kept k := by
    obtain ⟨u, hu⟩ := hf.kept k
    obtain ⟨v, hv⟩ := hg.kept (f k)
    exact ⟨v, by rw [Function.comp_apply, hv, hu]⟩
  used k h := hg.used _ (hf.used _ h)

theorem select (p : ActionToken → Prop) [DecidablePred p] (now : Int) :
    Spends fun k => if p k then { k with usedAt := some now } else k := by
  refine ⟨fun k => ?_, fun k hk => ?_⟩ <;> split
  · exact ⟨_, rfl⟩
  · exact ⟨k.usedAt, rfl⟩
  · exact Option.some_ne_none _
  · exact hk

theorem superseded (userId : String) (purpose : TokenPurpose) (now : Int) :
    Spends (ActionToken.superseded userId purpose now) :=
  select (fun k => k.userId = userId ∧ k.purpose = purpose ∧ k.usedAt = none) now

end Spends

/-- The tokens after an operation that erases none: some are used up, and perhaps one is issued. -/
def TokensChange (P : Service) (c c' : Customers) : Prop :=
  (∃ f, Spends f ∧ c'.tokens = c.tokens.map f) ∨
  ∃ userId purpose raw now, (∀ k ∈ c.tokens, k.tokenHash ≠ P.digest raw) ∧
    c'.tokens = c.tokens.map (·.superseded userId purpose now) ++ [newToken P userId purpose raw now]

theorem TokensChange.of_eq (h : c'.tokens = c.tokens) : TokensChange P c c' :=
  .inl ⟨fun k => k, .refl, by rw [h, map_id']⟩

theorem Issues.tokensChange {email : Address} {purpose : TokenPurpose} (h : Issues P c email purpose c') :
    TokensChange P c c' := by
  rcases h with rfl | ⟨user, -, -, -, raw, now, rows, hfresh, -, rfl⟩
  · exact .of_eq rfl
  · exact .inr ⟨_, _, _, _, hfresh, rfl⟩

theorem IdentityOp.apply_tokens {op : IdentityOp} (h : op.apply P c = .ok c') : TokensChange P c c' := by
  cases op with
  | signup email displayName hashed d r =>
    rcases signup_eq_ok h with rfl | ⟨u, -, rows, -, -, hfresh, -, rfl⟩
    · exact .of_eq rfl
    · exact .inr ⟨_, _, _, _, hfresh, rfl⟩
  | verifyEmail raw r =>
    obtain ⟨token, -, rfl⟩ := verifyEmail_eq_ok h
    exact .inl ⟨_, .select _ _, rfl⟩
  | forgotPassword email raw mailId r => exact (forgotPassword_issues h).tokensChange
  | resendVerification email raw mailId r => exact (resendVerification_issues h).tokensChange
  | setNotifications userId wanted =>
    cases h
    exact .of_eq rfl
  | resetPassword raw hashed r =>
    obtain ⟨token, -, rfl⟩ := resetPassword_eq_ok h
    exact .inl ⟨_, .select _ _, rfl⟩
  | login user password raw r =>
    obtain ⟨-, -, -, rfl⟩ := login_eq_ok h
    exact .of_eq rfl
  | rotate user raw fresh r =>
    obtain ⟨-, -, -, t', rfl⟩ := rotate_eq_ok h
    exact .of_eq rfl
  | logout raw now =>
    rcases logout_eq_ok h with rfl | ⟨_, _, -, rfl⟩ <;> exact .of_eq rfl
  | revokeSession userId reference r =>
    obtain ⟨_, _, -, rfl⟩ := revokeSession_eq_ok h
    exact .of_eq rfl

theorem step_tokens {op : AccountOp} (hop : op.erases = false) (h : s.step P op = .ok t) :
    TokensChange P s.tables t.tables := by
  cases step_accountMove h with
  | readUser | authenticate | workspace | reviews | billing | claimMail | finishMail => exact .of_eq rfl
  | identity hread hrows hc => exact IdentityOp.apply_tokens hc
  | @closes session user password keys r tables hc =>
    obtain ⟨_, -, -, -, _, _, _, _, -, -, -, rfl⟩ := requestDeletion_eq_ok hc
    exact .inl ⟨_, .select (fun k => k.userId = user.id) _, rfl⟩
  | keeps | erases => cases hop

/-! ### Invariants -/

/-- Digests are distinct, and a token that is older than another one of its user and purpose is used up. -/
structure TokensOrdered (c : Customers) : Prop where
  keys : (c.tokens.map ActionToken.tokenHash).Nodup
  older : c.tokens.Pairwise fun k k' => k.userId = k'.userId → k.purpose = k'.purpose → k.usedAt ≠ none

theorem TokensChange.ordered (h : TokensChange P c c') (ho : TokensOrdered c) : TokensOrdered c' := by
  have mapped : ∀ {f}, Spends f → (c.tokens.map f).Pairwise fun k k' =>
      k.userId = k'.userId → k.purpose = k'.purpose → k.usedAt ≠ none := by
    intro f hf
    refine pairwise_map.mpr (ho.older.imp fun {k k'} hkk' => ?_)
    rw [hf.user, hf.user, hf.purpose, hf.purpose]
    exact fun hu hp => hf.used k (hkk' hu hp)
  rcases h with ⟨f, hf, he⟩ | ⟨userId, purpose, raw, now, hfresh, he⟩
  · exact ⟨he ▸ nodup_map hf.key ho.keys, he ▸ mapped hf⟩
  · have hf := Spends.superseded userId purpose now
    refine ⟨he ▸ nodup_append_singleton (nodup_map hf.key ho.keys) (get?_eq_none.mpr fun k hk => ?_), ?_⟩
    · obtain ⟨k₀, hk₀, rfl⟩ := mem_map.mp hk
      rw [hf.key]
      exact hfresh k₀ hk₀
    · rw [he]
      refine pairwise_append.mpr ⟨mapped hf, pairwise_singleton _ _, fun k hk k' hk' => ?_⟩
      obtain ⟨k₀, hk₀, rfl⟩ := mem_map.mp hk
      rw [mem_singleton.mp hk', hf.user, hf.purpose]
      -- The older tokens of the user and purpose are used up with the issue.
      intro hu hp
      change k₀.userId = userId at hu
      change k₀.purpose = purpose at hp
      by_cases hused : k₀.usedAt = none <;> simp [ActionToken.superseded, hu, hp, hused]

theorem run_tokensOrdered {ops : List AccountOp} (hops : ∀ op ∈ ops, op.erases = false) (ho : TokensOrdered s.tables) :
    TokensOrdered (Runs.run (Accounts.step P) s ops).tables :=
  Runs.run_inv_of
    (fun _ _ _ hop ho h => (step_tokens hop h).ordered ho) ops hops ho

/-- Later tables hold the tokens of the earlier ones, perhaps used up, and after them the ones that were issued since. -/
def TokensGrow (s t : Accounts) : Prop := ∃ f issued, Spends f ∧ t.tables.tokens = s.tables.tokens.map f ++ issued

theorem TokensChange.grow (h : TokensChange P s.tables t.tables) : TokensGrow s t := by
  rcases h with ⟨f, hf, he⟩ | ⟨userId, purpose, raw, now, -, he⟩
  · exact ⟨f, [], hf, by rw [he, append_nil]⟩
  · exact ⟨_, _, .superseded userId purpose now, he⟩

theorem TokensGrow.trans {u : Accounts} (h : TokensGrow s t) (h' : TokensGrow t u) : TokensGrow s u := by
  obtain ⟨f, issued, hf, he⟩ := h
  obtain ⟨g, issued', hg, he'⟩ := h'
  exact ⟨g ∘ f, issued.map g ++ issued', hf.comp hg, by rw [he', he, map_append, map_map, append_assoc]⟩

theorem run_tokensGrow (later : List AccountOp) (hlater : ∀ op ∈ later, op.erases = false) (s : Accounts) :
    TokensGrow s (Runs.run (Accounts.step P) s later) := by
  refine Runs.run_inv_of (fun u op v hop hu h => ?_) later hlater
    ⟨fun k => k, [], .refl, by rw [map_id', append_nil]⟩
  exact hu.trans (step_tokens hop h).grow

/-! ### Acceptance -/

/-- The raw token that an operation wants to consume, with the purpose and the read of the clock for its check. -/
def AccountOp.consumes : AccountOp → Option (String × TokenPurpose × Int)
  | .identity (.verifyEmail raw r) => some (raw, .verify, r 0)
  | .identity (.resetPassword raw _ r) => some (raw, .reset, r 0)
  | _ => none

theorem step_consumes {op : AccountOp} {raw : String} {purpose : TokenPurpose} {now : Int}
    (hop : op.consumes = some (raw, purpose, now)) (h : s.step P op = .ok t) :
    (∃ k ∈ s.tables.tokens, k.tokenHash = P.digest raw ∧ k.purpose = purpose ∧ k.usedAt = none ∧ now < k.expiresAt ∧
      ∃ u, s.tables.user? k.userId = some u ∧ u.deletionRequestedAt = none) ∧
    ∃ k ∈ t.tables.tokens, k.tokenHash = P.digest raw ∧ k.usedAt ≠ none := by
  have spent : ∀ {k : ActionToken} {at_ : Int}, k ∈ s.tables.tokens → k.tokenHash = P.digest raw →
      ∃ k' ∈ Rows.update ActionToken.tokenHash s.tables.tokens (P.digest raw) ({ · with usedAt := some at_ }),
        k'.tokenHash = P.digest raw ∧ k'.usedAt ≠ none := by
    intro k at_ hk hkey
    refine ⟨{ k with usedAt := some at_ }, mem_update.mpr ⟨k, hk, ?_⟩, hkey, Option.some_ne_none _⟩
    rw [if_pos hkey]
  unfold AccountOp.consumes at hop
  split at hop <;> cases hop
  · obtain ⟨-, c', hc, rfl⟩ := step_identity.mp h
    obtain ⟨k, ⟨hk, hkey, hpurpose, hused, hexp, u, hu, hdel⟩, rfl⟩ := verifyEmail_eq_ok hc
    exact ⟨⟨k, hk, hkey, hpurpose, hused, hexp, u, hu, hdel⟩, spent hk hkey⟩
  · obtain ⟨-, c', hc, rfl⟩ := step_identity.mp h
    obtain ⟨k, ⟨hk, hkey, hpurpose, hused, hexp, u, hu, hdel⟩, rfl⟩ := resetPassword_eq_ok hc
    exact ⟨⟨k, hk, hkey, hpurpose, hused, hexp, u, hu, hdel⟩, spent hk hkey⟩

def Refuses (P : Service) (s : Accounts) (raw : String) : Prop :=
  ∀ op purpose now, op.consumes = some (raw, purpose, now) → ∀ t, s.step P op ≠ .ok t

theorem refuses_of_used (ho : TokensOrdered s.tables) {raw : String} {k : ActionToken} (hk : k ∈ s.tables.tokens)
    (hkey : k.tokenHash = P.digest raw) (hused : k.usedAt ≠ none) : Refuses P s raw := by
  intro op purpose now hop t h
  obtain ⟨⟨k', hk', hkey', -, hnone, -⟩, -⟩ := step_consumes hop h
  rw [eq_of_key ho.keys hk hk' (hkey.trans hkey'.symm)] at hused
  exact hused hnone

/-- What holds of action tokens in a reachable state. -/
structure TokensSafe (P : Service) (s : Accounts) : Prop where
  /-- At most one unused token per user and purpose. -/
  single : ∀ userId purpose,
    (s.tables.tokens.filter fun k => k.userId = userId ∧ k.purpose = purpose ∧ k.usedAt = none).length ≤ 1
  /-- An accepted token is one of its purpose, before its expiry, of a user who has not asked for deletion. -/
  accepted : ∀ op raw purpose now t, op.consumes = some (raw, purpose, now) → s.step P op = .ok t →
    ∃ k ∈ s.tables.tokens, k.tokenHash = P.digest raw ∧ k.purpose = purpose ∧ k.usedAt = none ∧ now < k.expiresAt ∧
      ∃ u, s.tables.user? k.userId = some u ∧ u.deletionRequestedAt = none
  /-- A raw token that was accepted is refused ever after, for any purpose. -/
  once : ∀ op raw purpose now t, op.consumes = some (raw, purpose, now) → s.step P op = .ok t →
    ∀ later, (∀ o ∈ later, o.erases = false) → Refuses P (Runs.run (Accounts.step P) t later) raw
  /-- A token is refused ever after the issue of another one for its user and purpose. -/
  superseded : ∀ later, (∀ o ∈ later, o.erases = false) → ∀ k ∈ s.tables.tokens,
    ∀ k' ∈ (Runs.run (Accounts.step P) s later).tables.tokens, k'.userId = k.userId → k'.purpose = k.purpose →
    (∀ k₀ ∈ s.tables.tokens, k₀.tokenHash ≠ k'.tokenHash) →
    ∀ raw, k.tokenHash = P.digest raw → Refuses P (Runs.run (Accounts.step P) s later) raw

theorem TokensOrdered.single (ho : TokensOrdered c) (userId : String) (purpose : TokenPurpose) :
    (c.tokens.filter fun k => k.userId = userId ∧ k.purpose = purpose ∧ k.usedAt = none).length ≤ 1 := by
  refine length_le_one ((ho.older.filter _).imp_of_mem fun {k k'} hk hk' hkk' => ?_)
  have hk := (mem_filter.mp hk).2
  have hk' := (mem_filter.mp hk').2
  simp only [decide_eq_true_eq] at hk hk'
  exact hkk' (hk.1.trans hk'.1.symm) (hk.2.1.trans hk'.2.1.symm) hk.2.2

/-- Action tokens are single-use and only the newest one of a user and purpose works, without an erasure. -/
theorem action_tokens_safe (P : Service) (ops : List AccountOp) (hops : ∀ op ∈ ops, op.erases = false) :
    TokensSafe P (Accounts.after P ops) := by
  have ho : TokensOrdered (Accounts.after P ops).tables := run_tokensOrdered hops ⟨nodup_nil, List.Pairwise.nil⟩
  refine ⟨ho.single, fun op raw purpose now t hop h => (step_consumes hop h).1, ?_, ?_⟩
  · intro op raw purpose now t hop h later hlater
    have hop' : op.erases = false := by
      cases op <;> first | rfl | cases hop
    obtain ⟨k, hk, hkey, hused⟩ := (step_consumes hop h).2
    obtain ⟨f, issued, hf, he⟩ := run_tokensGrow (P := P) later hlater t
    refine refuses_of_used (run_tokensOrdered hlater ((step_tokens hop' h).ordered ho)) (k := f k) ?_ ?_ (hf.used k hused)
    · rw [he]
      exact mem_append_left _ (mem_map_of_mem hk)
    · rw [hf.key, hkey]
  · intro later hlater k hk k' hk' huser hpurpose hnew raw hkey
    have holater := run_tokensOrdered (P := P) hlater ho
    obtain ⟨f, issued, hf, he⟩ := run_tokensGrow (P := P) later hlater (Accounts.after P ops)
    -- The other token was issued since, so it stands after the older one.
    have hissued : k' ∈ issued := by
      rw [he] at hk'
      refine (mem_append.mp hk').resolve_left fun hold => ?_
      obtain ⟨k₀, hk₀, rfl⟩ := mem_map.mp hold
      exact hnew k₀ hk₀ (hf.key k₀).symm
    have hpairs := holater.older
    rw [he] at hpairs
    have hused := (pairwise_append.mp hpairs).2.2 (f k) (mem_map_of_mem hk) k' hissued
      ((hf.user k).trans huser.symm) ((hf.purpose k).trans hpurpose.symm)
    refine refuses_of_used holater ?_ ((hf.key k).trans hkey) hused
    rw [he]
    exact mem_append_left _ (mem_map_of_mem hk)

def resentVerification : List AccountOp :=
  (joins "ann" ann).take 1 ++ [.identity (.resendVerification ann "verify-again" "mail-again" fun _ => 1)]

/-- After a second mail the first token is refused, and the second accepted. -/
theorem action_tokens_safe_signup :
    ((Accounts.after plainService resentVerification).step plainService
        (.identity (.verifyEmail "verify-ann" fun _ => 2))).toOption.isSome = false ∧
      ((Accounts.after plainService resentVerification).step plainService
        (.identity (.verifyEmail "verify-again" fun _ => 2))).toOption.isSome = true ∧
      TokensSafe plainService (Accounts.after plainService resentVerification) :=
  ⟨by decide +kernel, by decide +kernel, action_tokens_safe plainService _ (by decide)⟩

end Money
