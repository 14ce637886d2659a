import Money.Theorems.Accounts
import Money.Theorems.Allowance

/-! The members of a workspace and its live invitations together never need more seats than its plan has, as long as the
    plan loses none. -/

namespace Money
open Checked List Rows Customers Accounts Invitation

theorem length_map_filter_le {α : Type} {l : List α} {q q' : α → Bool} {f : α → α} (h : ∀ a ∈ l, q' (f a) → q a) :
    ((l.map f).filter q').length ≤ (l.filter q).length := by
  rw [← countP_eq_length_filter, ← countP_eq_length_filter, countP_map]
  exact countP_mono_left h

theorem length_filter_filter_le {α : Type} (l : List α) (p q : α → Bool) :
    ((l.filter p).filter q).length ≤ (l.filter q).length := by
  rw [filter_comm]
  exact length_filter_le _ _

theorem length_filter_lt {α : Type} {l : List α} {p q : α → Bool} (h : ∀ a ∈ l, q a → p a) {a : α} (ha : a ∈ l)
    (hp : p a) (hq : ¬ q a) : (l.filter q).length < (l.filter p).length := by
  have same : l.filter q = (l.filter p).filter q := by
    rw [filter_filter]
    refine filter_congr fun b hb => ?_
    cases hqb : q b <;> simp [hqb, h b hb]
  rw [same, length_filter_lt_length_iff_exists]
  exact ⟨a, mem_filter.mpr ⟨ha, hp⟩, hq⟩

variable {P : Service} {c c' : Customers} {w : String} {now next : Int}

/-! ### Commitments -/

def Customers.live (c : Customers) (workspace : String) (now : Int) : List Invitation :=
  c.invitations.filter fun i => i.workspaceId = workspace ∧ i.pending now

def Customers.seats (P : Service) (c : Customers) (workspace : String) : Nat :=
  ((P.plan (c.planOf workspace)).map Plan.seats).getD 0

def Invitation.Replaced (i j : Invitation) : Prop :=
  i.workspaceId = j.workspaceId → i.email = j.email → i.usedAt ≠ none ∨ j.usedAt ≠ none

/-- The members and the live invitations of a workspace find room in its seats. -/
structure Customers.Committed (P : Service) (c : Customers) (workspace : String) (now : Int) : Prop where
  housed : ∀ m ∈ c.members, c.organisation? m.workspaceId ≠ none
  offered : ∀ i ∈ c.invitations, c.organisation? i.workspaceId ≠ none
  replaced : c.invitations.Pairwise Invitation.Replaced
  within : (c.membersOf workspace).length + (c.live workspace now).length ≤ c.seats P workspace

variable {i : Invitation}

theorem Invitation.pending.earlier (h : i.pending next) (le : now ≤ next) : i.pending now :=
  ⟨h.1, lt_of_le_of_lt le h.2⟩

theorem Customers.live_anti (c : Customers) (w : String) (le : now ≤ next) :
    (c.live w next).length ≤ (c.live w now).length := by
  rw [live, live, ← countP_eq_length_filter, ← countP_eq_length_filter]
  refine countP_mono_left fun i _ h => ?_
  simp only [decide_eq_true_eq] at h ⊢
  exact ⟨h.1, h.2.earlier le⟩

theorem Customers.Committed.later (h : c.Committed P w now) (le : now ≤ next) : c.Committed P w next :=
  { h with within := (Nat.add_le_add_left (c.live_anti w le) _).trans h.within }

/-! ### Operations that only free seats -/

/-- Members and invitations are dropped or rewritten under the same keys, and no invitation is opened again. -/
structure Frees (c c' : Customers) : Prop where
  organisations : ∀ id, c.organisation? id ≠ none → c'.organisation? id ≠ none
  members : ∃ p f, (∀ m : Member, (f m).key = m.key) ∧ c'.members = (c.members.filter p).map f
  invitations : ∃ p f, Uses f ∧ c'.invitations = (c.invitations.filter p).map f

theorem Frees.of_uses {f : Invitation → Invitation} (hf : Uses f) (ho : c'.organisations = c.organisations)
    (hm : c'.members = c.members) (hi : c'.invitations = c.invitations.map f) : Frees c c' where
  organisations id h := by rwa [organisation?, ho]
  members := ⟨fun _ => true, id, fun _ => rfl, by simp [hm]⟩
  invitations := ⟨fun _ => true, f, hf, by rw [hi, filter_true]⟩

theorem Frees.of_eq (ho : c'.organisations = c.organisations) (hm : c'.members = c.members)
    (hi : c'.invitations = c.invitations) : Frees c c' :=
  .of_uses .refl ho hm (by rw [hi, map_id'])

variable {f : Invitation → Invitation}

theorem Uses.pending (hf : Uses f) (h : (f i).pending now) :
    (f i).workspaceId = i.workspaceId ∧ (f i).email = i.email ∧ i.pending now := by
  obtain ⟨u, hu⟩ := hf.kept i
  refine ⟨(hf.row i).1, (hf.row i).2.1, ?_, by simpa [hu] using h.2⟩
  by_contra used
  exact hf.used i used h.1

theorem Uses.replaced (hf : Uses f) {j : Invitation} (h : i.Replaced j) : (f i).Replaced (f j) := by
  intro workspace email
  rw [(hf.row i).1, (hf.row j).1] at workspace
  rw [(hf.row i).2.1, (hf.row j).2.1] at email
  rcases h workspace email with used | used
  · exact .inl (hf.used i used)
  · exact .inr (hf.used j used)

theorem Uses.live_le (hf : Uses f) (rows : List Invitation) :
    ((rows.map f).filter fun i => i.workspaceId = w ∧ i.pending now).length ≤
      (rows.filter fun i => i.workspaceId = w ∧ i.pending now).length := by
  refine length_map_filter_le fun i _ h => ?_
  simp only [decide_eq_true_eq] at h ⊢
  obtain ⟨workspace, -, pending⟩ := hf.pending h.2
  exact ⟨workspace ▸ h.1, pending⟩

theorem Frees.committed (h : Frees c c') (hc : c.Committed P w now) (hs : c.seats P w ≤ c'.seats P w) :
    c'.Committed P w now := by
  obtain ⟨p, f, hf, members⟩ := h.members
  obtain ⟨q, g, hg, invitations⟩ := h.invitations
  refine ⟨?_, ?_, ?_, ?_⟩
  · rw [members]
    simp only [forall_mem_map, mem_filter, and_imp]
    intro m hm _
    rw [show (f m).workspaceId = m.workspaceId from congrArg Prod.fst (hf m)]
    exact h.organisations _ (hc.housed m hm)
  · rw [invitations]
    simp only [forall_mem_map, mem_filter, and_imp]
    intro i hi _
    rw [(hg.row i).1]
    exact h.organisations _ (hc.offered i hi)
  · rw [invitations]
    exact (hc.replaced.filter _).map g fun i j => hg.replaced
  · have fewer : (c'.membersOf w).length ≤ (c.membersOf w).length := by
      rw [membersOf, members]
      refine (length_map_filter_le fun m _ hw => ?_).trans (length_filter_filter_le c.members p _)
      simp only [decide_eq_true_eq] at hw ⊢
      rw [← hw]
      exact (congrArg Prod.fst (hf m)).symm
    have closed : (c'.live w now).length ≤ (c.live w now).length := by
      rw [live, invitations]
      exact (hg.live_le _).trans (length_filter_filter_le c.invitations q _)
    exact (Nat.add_le_add fewer closed).trans (hc.within.trans hs)

theorem Customers.Committed.uses (hc : c.Committed P w now) (hf : Uses f) :
    Customers.Committed P { c with invitations := c.invitations.map f } w now := by
  refine Frees.committed (.of_uses hf ?_ ?_ ?_) hc (le_refl (c.seats P w)) <;> rfl

def AccountOp.fills : AccountOp → Bool
  | .workspace (.createWorkspace ..) | .workspace (.invite ..) | .workspace (.acceptInvitation ..) => true
  | _ => false

theorem Frees.of_update {k : String × String} {f : Member → Member} (hf : ∀ m, (f m).key = m.key) :
    Frees c { c with members := Rows.update Member.key c.members k f } where
  organisations _ h := h
  members := by
    refine ⟨fun _ => true, fun m => if m.key = k then f m else m, fun m => ?_, by simp [Rows.update]⟩
    dsimp only
    split
    · exact hf m
    · rfl
  invitations := ⟨fun _ => true, fun i => i, .refl, by simp⟩

theorem Frees.trans {c₁ c₂ c₃ : Customers} (h : Frees c₁ c₂) (h' : Frees c₂ c₃) : Frees c₁ c₃ := by
  obtain ⟨p, f, hf, members⟩ := h.members
  obtain ⟨p', f', hf', members'⟩ := h'.members
  obtain ⟨q, g, hg, invitations⟩ := h.invitations
  obtain ⟨q', g', hg', invitations'⟩ := h'.invitations
  refine ⟨fun id hid => h'.organisations id (h.organisations id hid), ⟨fun m => p' (f m) && p m, f' ∘ f, ?_, ?_⟩,
    ⟨fun i => q' (g i) && q i, g' ∘ g, hg.comp hg', ?_⟩⟩
  · intro m
    exact (hf' (f m)).trans (hf m)
  · rw [members', members, filter_map, filter_filter, map_map]
    rfl
  · rw [invitations', invitations, filter_map, filter_filter, map_map]
    rfl

variable {actor : Principal} {mailId raw userId workspace : String} {role : MemberRole} {email : Address} {s : Accounts}
  {op : AccountOp} {user : User} {ops : List AccountOp}

theorem changeMember_frees {role : Option MemberRole} (h : changeMember c actor userId role = .ok c') : Frees c c' := by
  obtain ⟨-, -, -, rfl | ⟨r, -, rfl⟩⟩ := changeMember_eq_ok h
  · exact ⟨fun _ h => h, ⟨_, id, fun _ => rfl, (map_id _).symm⟩, ⟨fun _ => true, fun i => i, .refl, by simp⟩⟩
  · exact .of_update fun _ => rfl

theorem transferOwnership_frees {password successorId : String}
    (h : transferOwnership P c actor password successorId = .ok c') : Frees c c' := by
  obtain ⟨-, -, -, -, -, rfl⟩ := transferOwnership_eq_ok h
  have promoted : Frees c { c with
      members := Rows.update Member.key c.members (actor.workspaceId, successorId) ({ · with role := .owner }) } :=
    .of_update fun _ => rfl
  exact promoted.trans (.of_update fun _ => rfl)

theorem erase_frees (user : User) (closures : List Closure) : Frees c (erase P c user closures now) where
  organisations id h := by
    simp only [organisation?, erase] at h ⊢
    rw [get?_map (fun o => by split <;> rfl)]
    simpa using h
  members := ⟨_, id, fun _ => rfl, (map_id _).symm⟩
  invitations := ⟨fun i => ¬ (i.invitedBy = user.id ∨ i.email = user.email), fun i => i, .refl, by simp [erase]⟩

theorem step_frees {t : Accounts} (hop : op.fills = false) (h : s.step P op = .ok t) : Frees s.tables t.tables := by
  cases step_accountMove h with
  | readUser | authenticate | identity | reviews | keeps | billing | claimMail | finishMail => exact .of_eq rfl rfl rfl
  | @workspace op _ _ _ _ _ hread hrows hc =>
    cases op with
    | createWorkspace | invite | acceptInvitation => cases hop
    | changeMember actor userId role => exact changeMember_frees hc
    | transferOwnership actor password successorId => exact transferOwnership_frees hc
  | closes hc =>
    obtain ⟨_, -, -, -, _, _, f, g, hg, hf, -, rfl⟩ := requestDeletion_eq_ok hc
    exact ⟨fun _ h => h, ⟨_, id, fun _ => rfl, (map_id _).symm⟩,
      ⟨fun _ => true, _, hf.uses.comp hg, by rw [filter_true, map_map]⟩⟩
  | erases => exact erase_frees _ _

/-! ### Operations that take seats -/

variable {t : Nat → Int}

theorem seatLimit_seats {allowance : Nat}
    (h : seatLimit P c workspace t = .ok (allowance, c')) : allowance = c.seats P workspace := by
  obtain ⟨plan_eq, -⟩ := subscription_plan c workspace (t 0)
  simp only [seatLimit, ok_iff, Prod.mk.injEq] at h
  obtain ⟨-, -, -, plan, found, rfl, -⟩ := h
  rw [seats, ← plan_eq, found]
  rfl

theorem createWorkspace_committed {workspaceId name : String}
    (h : createWorkspace c userId workspaceId name t = .ok c') (hc : c.Committed P w now)
    (hs : c.seats P w ≤ c'.seats P w) (one : 1 ≤ c'.seats P w) : c'.Committed P w now := by
  obtain ⟨-, new, -, rfl⟩ := createWorkspace_eq_ok h
  refine ⟨fun m hm => ?_, fun i hi => get?_append_ne_none (hc.offered i hi), hc.replaced, ?_⟩
  · rcases mem_snoc.mp hm with hm | rfl
    · exact get?_append_ne_none (hc.housed m hm)
    · simp [organisation?, Rows.get?]
  · by_cases same : workspaceId = w
    · -- a workspace without a row has neither members nor invitations
      subst same
      have none_seated : c.membersOf workspaceId = [] := by
        refine filter_eq_nil_iff.mpr fun m hm hw => hc.housed m hm ?_
        rw [of_decide_eq_true hw, new]
      have none_invited : c.live workspaceId now = [] := by
        refine filter_eq_nil_iff.mpr fun i hi hw => hc.offered i hi ?_
        rw [(of_decide_eq_true hw).1, new]
      change (List.filter _ (c.members ++ [_])).length + (c.live workspaceId now).length ≤ _
      rw [none_invited, filter_append, ← membersOf, none_seated]
      simpa using one
    · have within := hc.within.trans hs
      simpa [membersOf, live, same] using within

def Invitation.retired (workspace email : String) (now : Int) (i : Invitation) : Invitation :=
  if (i.workspaceId = workspace ∧ i.email = email) ∧ i.usedAt = none then { i with usedAt := some now } else i

theorem Invitation.retired_uses (workspace email : String) (now : Int) : Uses (retired workspace email now) :=
  .mark (fun i => (i.workspaceId = workspace ∧ i.email = email) ∧ i.usedAt = none) now

theorem Invitation.retired_used {email : String} (hw : i.workspaceId = workspace)
    (he : i.email = email) : (i.retired workspace email now).usedAt ≠ none := by
  by_cases used : i.usedAt = none <;> simp [retired, hw, he, used]

theorem invite_seats (h : invite P c actor email role raw mailId t = .ok c') : c.organisation? actor.workspaceId ≠ none ∧
      (c.membersOf actor.workspaceId).length + (c.invitations.filter fun i =>
        i.workspaceId = actor.workspaceId ∧ i.pending (t 2) ∧ i.email ≠ email.text).length < c.seats P actor.workspaceId ∧
      c'.organisations = c.organisations ∧ c'.members = c.members ∧
      c'.invitations = c.invitations.map (·.retired actor.workspaceId email.text (t 3)) ++
        [newInvitation P actor email.text role raw (t 3)] := by
  simp only [invite, ok_iff, requireOwner_eq_ok, insert?_eq_some] at h
  obtain ⟨-, ⟨allowance, c₁⟩, seats, -, -, room, _, ⟨-, rfl⟩, h⟩ := h
  obtain rfl := seatLimit_seats seats
  obtain ⟨org, subscriptions, rfl⟩ := seatLimit_eq_ok seats
  obtain ⟨rows, rfl, -⟩ := enqueueMail_posts h
  exact ⟨org, room, rfl, rfl, rfl⟩

theorem invite_committed
    (h : invite P c actor email role raw mailId t = .ok c') (hc : c.Committed P w now) (hs : c.seats P w ≤ c'.seats P w)
    (order : actor.workspaceId = w → t 2 ≤ next) (le : now ≤ next) : c'.Committed P w next := by
  obtain ⟨org, room, organisations, members, invitations⟩ := invite_seats h
  have uses := retired_uses actor.workspaceId email.text (t 3)
  have retired := hc.uses uses
  refine ⟨fun m hm => ?_, fun i hi => ?_, ?_, ?_⟩
  · rw [members] at hm
    rw [organisation?, organisations]
    exact hc.housed m hm
  · rw [invitations] at hi
    rw [organisation?, organisations]
    rcases mem_snoc.mp hi with hi | rfl
    · exact retired.offered i hi
    · exact org
  · rw [invitations]
    refine pairwise_append.mpr ⟨retired.replaced, pairwise_singleton _ _, ?_⟩
    -- the invitation that is replaced was used up
    intro i hi j hj workspace mail
    obtain ⟨i₀, -, rfl⟩ := mem_map.mp hi
    obtain rfl := mem_singleton.mp hj
    rw [(uses.row i₀).1] at workspace
    rw [(uses.row i₀).2.1] at mail
    exact .inl (retired_used workspace mail)
  · by_cases other : actor.workspaceId = w
    · subst other
      have fewer : (c'.live actor.workspaceId next).length ≤ (c.invitations.filter fun i =>
          i.workspaceId = actor.workspaceId ∧ i.pending (t 2) ∧ i.email ≠ email.text).length + 1 := by
        rw [live, invitations, filter_append, length_append]
        refine Nat.add_le_add ?_ (length_filter_le _ _)
        refine length_map_filter_le fun i _ live => ?_
        simp only [decide_eq_true_eq] at live ⊢
        obtain ⟨workspace, -, pending⟩ := uses.pending live.2
        have here : i.workspaceId = actor.workspaceId := workspace ▸ live.1
        exact ⟨here, pending.earlier (order rfl), fun same => retired_used here same live.2.1⟩
      rw [membersOf, members, ← membersOf]
      omega
    · have closed : (c'.live w next).length ≤ (c.live w next).length := by
        rw [live, invitations, filter_append, length_append]
        have none_new : [newInvitation P actor email.text role raw (t 3)].filter
            (fun i => i.workspaceId = w ∧ i.pending next) = [] := by
          simp [newInvitation, other]
        rw [none_new]
        exact uses.live_le c.invitations
      have within := (hc.later le).within
      rw [membersOf, members, ← membersOf]
      omega

def Invitation.accepted (hash : Hash) (now : Int) (i : Invitation) : Invitation :=
  if i.tokenHash = hash then { i with usedAt := some now } else i

theorem Invitation.accepted_uses (hash : Hash) (now : Int) : Uses (accepted hash now) :=
  .mark (·.tokenHash = hash) now

def Customers.invitation? (P : Service) (c : Customers) (raw : String) : Option Invitation :=
  Rows.get? tokenHash c.invitations (P.digest raw)

theorem acceptInvitation_seats (h : acceptInvitation P c user raw t = .ok c') :
    ∃ i, c.invitation? P raw = some i ∧ i.pending (t 2) ∧ c.organisation? i.workspaceId ≠ none ∧
      c'.organisations = c.organisations ∧ c'.members = c.members ++ [⟨i.workspaceId, user.id, i.role, t 3⟩] ∧
      c'.invitations = c.invitations.map (·.accepted (P.digest raw) (t 4)) := by
  simp only [acceptInvitation, ok_iff, insert?_eq_some] at h
  obtain ⟨i, found, -, ⟨allowance, c₁⟩, seats, pending, -, -, -, _, ⟨-, rfl⟩, rfl⟩ := h
  obtain ⟨org, subscriptions, rfl⟩ := seatLimit_eq_ok seats
  exact ⟨i, found, pending, org, rfl, rfl, rfl⟩

theorem acceptInvitation_committed
    (h : acceptInvitation P c user raw t = .ok c') (hc : c.Committed P w now) (hs : c.seats P w ≤ c'.seats P w)
    (order : (∃ i ∈ c.invitation? P raw, i.workspaceId = w) → now ≤ t 2 ∧ t 2 ≤ next) (le : now ≤ next) :
    c'.Committed P w next := by
  obtain ⟨i, found, pending, org, organisations, members, invitations⟩ := acceptInvitation_seats h
  have uses := accepted_uses (P.digest raw) (t 4)
  have accepted := hc.uses uses
  refine ⟨fun m hm => ?_, fun j hj => ?_, ?_, ?_⟩
  · rw [members] at hm
    rw [organisation?, organisations]
    rcases mem_snoc.mp hm with hm | rfl
    · exact hc.housed m hm
    · exact org
  · rw [invitations] at hj
    rw [organisation?, organisations]
    exact accepted.offered j hj
  · rw [invitations]
    exact accepted.replaced
  · by_cases here : i.workspaceId = w
    · -- the new member takes the seat of the invitation
      obtain ⟨after, before⟩ := order ⟨i, found, here⟩
      have room := (hc.later after).within
      obtain ⟨hi, hkey⟩ := get?_eq_some found
      have freed : (c'.live w next).length < (c.live w (t 2)).length := by
        rw [live, invitations]
        refine lt_of_le_of_lt (length_map_filter_le (q := fun j => j.tokenHash ≠ P.digest raw ∧ j.workspaceId = w ∧
          j.pending (t 2)) fun j _ live => ?_) (length_filter_lt (fun j _ live => ?_) hi ?_ ?_)
        · simp only [decide_eq_true_eq] at live ⊢
          obtain ⟨workspace, -, open_⟩ := uses.pending live.2
          refine ⟨fun taken => ?_, workspace ▸ live.1, open_.earlier before⟩
          have used := live.2.1
          rw [Invitation.accepted, if_pos taken] at used
          cases used
        · simp only [decide_eq_true_eq] at live ⊢
          exact live.2
        · simpa using ⟨here, pending⟩
        · simp [hkey]
      have seated : (c'.membersOf w).length = (c.membersOf w).length + 1 := by
        rw [membersOf, members, filter_append, ← membersOf]
        simp [here]
      omega
    · have closed : (c'.live w next).length ≤ (c.live w next).length := by
        rw [live, invitations]
        exact uses.live_le c.invitations
      have seated : (c'.membersOf w).length = (c.membersOf w).length := by
        rw [membersOf, members, filter_append, ← membersOf]
        simp [here]
      have within := (hc.later le).within
      omega

/-! ### Runs -/

/-- The reads of the clock under the lock of a workspace that decide about its seats. -/
def AccountOp.seatReads (P : Service) (workspace : String) (c : Customers) : AccountOp → List Int
  | .workspace (.invite actor _ _ _ _ t) => if actor.workspaceId = workspace then [t 2, t 3] else []
  | .workspace (.acceptInvitation _ _ raw t) =>
    if ∃ i ∈ c.invitation? P raw, i.workspaceId = workspace then [t 2] else []
  | _ => []

/-- A run in which the plan of a workspace loses no seat, and the clock does not go back while the workspace is locked.
    -/
inductive Sustained (P : Service) (workspace : String) : List AccountOp → Int → Prop
  | start (now : Int) : Sustained P workspace [] now
  | step {ops : List AccountOp} {op : AccountOp} {now next : Int} (before : Sustained P workspace ops now)
    (order : (now :: op.seatReads P workspace (after P ops).tables ++ [next]).Pairwise (· ≤ ·))
    (plan : (after P ops).tables.seats P workspace ≤ (after P (ops ++ [op])).tables.seats P workspace) :
    Sustained P workspace (ops ++ [op]) next

theorem step_committed {t : Accounts} (h : s.step P op = .ok t) (hc : s.tables.Committed P w now)
    (order : (now :: op.seatReads P w s.tables ++ [next]).Pairwise (· ≤ ·)) (one : 1 ≤ s.tables.seats P w)
    (hs : s.tables.seats P w ≤ t.tables.seats P w) : t.tables.Committed P w next := by
  have le : now ≤ next := (pairwise_cons.mp order).1 next (by simp)
  by_cases hop : op.fills = true
  · unfold AccountOp.fills at hop
    split at hop
    · obtain ⟨-, c', hc', rfl⟩ := step_workspace.mp h
      exact (createWorkspace_committed hc' hc hs (one.trans hs)).later le
    · obtain ⟨-, c', hc', rfl⟩ := step_workspace.mp h
      refine invite_committed hc' hc hs (fun here => ?_) le
      simp only [AccountOp.seatReads, if_pos here] at order
      simp at order
      exact order.2.1.2
    · obtain ⟨-, c', hc', rfl⟩ := step_workspace.mp h
      refine acceptInvitation_committed hc' hc hs (fun here => ?_) le
      simp only [AccountOp.seatReads, if_pos here] at order
      simp at order
      exact ⟨order.1.1, order.2⟩
    · cases hop
  · exact ((step_frees (by simpa using hop) h).committed hc hs).later le

theorem after_concat (P : Service) (ops : List AccountOp) (op : AccountOp) :
    Accounts.after P (ops ++ [op]) = Runs.next (Accounts.step P) (Accounts.after P ops) op := by
  rw [Accounts.after, Runs.run_append]
  rfl

theorem Sustained.seats (run : Sustained P w ops now) : seats P {} w ≤ (after P ops).tables.seats P w := by
  induction run with
  | start => exact le_refl _
  | step _ _ plan ih => exact ih.trans plan

theorem Sustained.committed (run : Sustained P w ops now) (one : 1 ≤ Customers.seats P {} w) :
    (after P ops).tables.Committed P w now := by
  induction run with
  | start =>
    exact ⟨forall_mem_nil _, forall_mem_nil _, .nil, Nat.zero_le _⟩
  | @step ops op now next before order plan ih =>
    rw [after_concat] at plan ⊢
    rcases Runs.next_cases (Accounts.step P) (Accounts.after P ops) op with same | stepped
    · rw [same]
      exact ih.later ((pairwise_cons.mp order).1 next (by simp))
    · exact step_committed stepped ih order (one.trans before.seats) plan

theorem Sustained.of_clock (clock : Nat → Int) (h : ∀ k, (hk : k < ops.length) →
      (clock k :: (ops.get ⟨k, hk⟩).seatReads P w (after P (ops.take k)).tables ++ [clock (k + 1)]).Pairwise (· ≤ ·) ∧
      (after P (ops.take k)).tables.seats P w ≤ (after P (ops.take (k + 1))).tables.seats P w) :
    Sustained P w ops (clock ops.length) := by
  suffices all : ∀ n, n ≤ ops.length → Sustained P w (ops.take n) (clock n) by
    simpa using all ops.length (le_refl _)
  intro n
  induction n with
  | zero => exact fun _ => .start _
  | succ n ih =>
    intro hn
    obtain ⟨order, plan⟩ := h n hn
    rw [← take_append_getElem hn] at plan ⊢
    exact .step (ih (Nat.le_of_succ_le hn)) order plan

theorem seatLimit_refusal {detail : String} {status : Nat} :
    seatLimit P c workspace t ≠ .error (.account "SEAT_ALLOWANCE_EXHAUSTED" detail status) := by
  intro h
  simp only [seatLimit, bind_eq_error, demand_eq_error, require_eq_error, pure_eq_error] at h
  simp at h

theorem Customers.Committed.not_exhausted (hc : c.Committed P w now) (found : c.invitation? P raw = some i)
    (here : i.workspaceId = w) (live : i.pending (t 2))
    (le : now ≤ t 2) (detail : String) (status : Nat) :
    acceptInvitation P c user raw t ≠ .error (.account "SEAT_ALLOWANCE_EXHAUSTED" detail status) := by
  intro h
  have taken : 0 < (c.live w (t 2)).length := by
    refine length_pos_of_mem (mem_filter.mpr ⟨(get?_eq_some found).1, ?_⟩)
    simpa using ⟨here, live⟩
  have room := (hc.later le).within
  -- the only check with this code compares the members with the seats
  subst here
  rw [invitation?] at found
  simp only [acceptInvitation, bind_eq_error, found] at h
  simp [pure_eq_error, seatLimit_refusal] at h
  obtain ⟨-, allowance, c₁, seats, -, -, -, full, -⟩ := h
  obtain rfl := seatLimit_seats seats
  obtain ⟨-, subscriptions, rfl⟩ := seatLimit_eq_ok seats
  change c.seats P i.workspaceId ≤ (c.membersOf i.workspaceId).length at full
  omega

/-- What the seats of a workspace promise from `now` on. -/
structure SeatsCommitted (P : Service) (c : Customers) (workspace : String) (now : Int) : Prop where
  /-- Members and live invitations find room in the seats of the plan. -/
  within : (c.membersOf workspace).length + (c.live workspace now).length ≤ c.seats P workspace
  /-- An address has at most one live invitation. -/
  single : ∀ email, ((c.live workspace now).filter fun i => i.email = email).length ≤ 1
  /-- A live invitation is never refused for want of a seat. -/
  seated : ∀ user raw t i, c.invitation? P raw = some i → i.workspaceId = workspace → i.email = user.email →
    i.pending (t 2) → now ≤ t 2 → c.member? workspace user.id = none → ∀ detail status,
    acceptInvitation P c user raw t ≠ .error (.account "SEAT_ALLOWANCE_EXHAUSTED" detail status)

/-- In every state of a run in which the plan of a workspace loses no seat, its seats are committed. -/
theorem seats_committed (P : Service) (workspace : String) (one : 1 ≤ seats P {} workspace)
    (ops : List AccountOp) (now : Int) (run : Sustained P workspace ops now) :
    SeatsCommitted P (after P ops).tables workspace now := by
  have committed := run.committed one
  refine ⟨committed.within, fun email => ?_, ?_⟩
  · refine length_le_one ?_
    have pairs : ((after P ops).tables.live workspace now).Pairwise Invitation.Replaced := committed.replaced.filter _
    refine (pairs.filter _).imp_of_mem fun {i j} hi hj replaced => ?_
    simp only [live, mem_filter, decide_eq_true_eq] at hi hj
    rcases replaced (hi.1.2.1.trans hj.1.2.1.symm) (hi.2.trans hj.2.symm) with used | used
    · exact used hi.1.2.2.1
    · exact used hj.1.2.2.1
  · intro user raw t i found here _ live le _ detail status
    exact committed.not_exhausted found here live le detail status

/-- Bob takes the seat that the invitation held. -/
theorem seats_committed_bobJoined :
    (after plainService bobJoined).tables.seats plainService "desk" = 5 ∧
      SeatsCommitted plainService (after plainService bobJoined).tables "desk" 8 := by
  refine ⟨by decide +kernel, seats_committed plainService "desk" (by decide +kernel) bobJoined 8 ?_⟩
  exact Sustained.of_clock (fun k => if k < 15 then 0 else if k < 16 then 7 else 8) (by decide +kernel)

end Money
