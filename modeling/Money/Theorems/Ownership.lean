import Money.Theorems.Accounts

/-! An open workspace has exactly one owner, who stays; a closed one has no members and no open invitation; and nobody
    who leaves is a member, or can become one. -/

namespace Money
open Checked List Rows Member

variable {P : Service} {c c' : Customers} {s t : Accounts}

def SoleOwner (c : Customers) (workspace : String) (m : Member) : Prop :=
  m ∈ c.members ∧ m.workspaceId = workspace ∧ m.role = .owner ∧
    ∀ m' ∈ c.members, m'.workspaceId = workspace → m'.role = .owner → m' = m

/-- The invariant of the membership tables: an open workspace has its one owner, a closed one is empty for good. -/
structure Customers.Owned (c : Customers) : Prop where
  staying : ∀ m ∈ c.members, ∃ u, c.user? m.userId = some u ∧ u.deletionRequestedAt = none
  placed : ∀ m ∈ c.members, c.organisation? m.workspaceId ≠ none
  owner : ∀ o ∈ c.organisations, (∀ k ∈ c.closures, k.workspaceId ≠ o.id) → ∃ m, SoleOwner c o.id m
  existing : ∀ k ∈ c.closures, c.organisation? k.workspaceId ≠ none
  empty : ∀ k ∈ c.closures, ∀ m ∈ c.members, m.workspaceId ≠ k.workspaceId
  settled : ∀ k ∈ c.closures, ∀ i ∈ c.invitations, i.workspaceId = k.workspaceId → i.usedAt ≠ none
  invited : ∀ i ∈ c.invitations, i.role ≠ .owner
  addressed : ∀ u ∈ c.users, u.deletionRequestedAt ≠ none → ∀ i ∈ c.invitations, i.email = u.email → i.usedAt ≠ none

theorem Customers.Owned.uses {f : Invitation → Invitation} (h : c.Owned) (hf : Uses f) :
    Customers.Owned { c with invitations := c.invitations.map f } := by
  refine { h with settled := fun k hk => ?_, invited := ?_, addressed := fun u hu hdel => ?_ } <;>
    refine forall_mem_map.mpr fun i hi => ?_
  · rw [(hf.row i).1]
    exact fun hw => hf.used i (h.settled k hk i hi hw)
  · rw [(hf.row i).2.2]
    exact h.invited i hi
  · rw [(hf.row i).2.1]
    exact fun hemail => hf.used i (h.addressed u hu hdel i hi hemail)

theorem organisation?_ne_none {id : String} : c.organisation? id ≠ none ↔ ∃ o ∈ c.organisations, o.id = id := by
  rw [Customers.organisation?, Ne, get?_eq_none]
  simp

theorem Customers.Owned.evolve (h : c.Owned) (he : Evolves none c c') (hm : c'.members = c.members)
    (ho : c'.organisations = c.organisations) (hcl : c'.closures = c.closures) (hi : c'.invitations = c.invitations) :
    c'.Owned where
  staying m hmem := by
    obtain ⟨u, hu, hdel⟩ := h.staying m (hm ▸ hmem)
    obtain ⟨u', hu', -, -, hsame⟩ := he.user hu
    exact ⟨u', hu', (hsame nofun).trans hdel⟩
  placed m hmem := by
    rw [Customers.organisation?, ho]
    exact h.placed m (hm ▸ hmem)
  owner o hmem hopen := by
    obtain ⟨m, hsole⟩ := h.owner o (ho ▸ hmem) (hcl ▸ hopen)
    exact ⟨m, by rwa [SoleOwner, hm]⟩
  existing k hk := by
    rw [Customers.organisation?, ho]
    exact h.existing k (hcl ▸ hk)
  empty k hk m hmem := h.empty k (hcl ▸ hk) m (hm ▸ hmem)
  settled k hk i hmem := h.settled k (hcl ▸ hk) i (hi ▸ hmem)
  invited i hmem := h.invited i (hi ▸ hmem)
  addressed u' hu' hdel i hmem hemail := by
    obtain ⟨u, hu, -, hsame, hleft⟩ := he.left hu' hdel
    exact h.addressed u hu (hleft nofun) i (hi ▸ hmem) (hemail.trans hsame.symm)

/-! ### Workspaces -/

variable {actor : Principal}

theorem Owns.sole (h : c.Owned) (ho : Owns c actor) : ∃ m, SoleOwner c actor.workspaceId m ∧ m.userId = actor.userId := by
  obtain ⟨m, hm, hrole⟩ := ho.2
  obtain ⟨hmem, hkey⟩ := get?_eq_some hm
  obtain ⟨hw, hu⟩ := Prod.mk.inj hkey
  obtain ⟨o, horg, hid⟩ := organisation?_ne_none.mp (h.placed m hmem)
  have hopen : ∀ k ∈ c.closures, k.workspaceId ≠ o.id := fun k hk he => h.empty k hk m hmem (hid.symm.trans he.symm)
  obtain ⟨m', hsole⟩ := h.owner o horg hopen
  rw [hid, hw] at hsole
  rw [← hsole.2.2.2 m hmem hw hrole] at hsole
  exact ⟨m, hsole, hu⟩

theorem Owns.open (h : c.Owned) (ho : Owns c actor) : ∀ k ∈ c.closures, k.workspaceId ≠ actor.workspaceId := by
  obtain ⟨m, hm, -⟩ := ho.2
  obtain ⟨hmem, hkey⟩ := get?_eq_some hm
  exact fun k hk he => h.empty k hk m hmem ((Prod.mk.inj hkey).1.trans he.symm)

variable {password raw userId : String} {r : Nat → Int} {user : User} {op : AccountOp} {m : Member}

theorem createWorkspace_owned {workspaceId name : String} (h : c.Owned)
    (hc : createWorkspace c userId workspaceId name r = .ok c') : c'.Owned := by
  obtain ⟨⟨u, hu, hdel⟩, hnew, -, rfl⟩ := createWorkspace_eq_ok hc
  have hfresh : ∀ o ∈ c.organisations, o.id ≠ workspaceId := get?_eq_none.mp hnew
  have hkept : ∀ {id}, c.organisation? id ≠ none → id ≠ workspaceId := fun hid he => hid (he ▸ hnew)
  refine { h with staying := ?_, placed := ?_, owner := ?_, existing := ?_, empty := ?_ }
  · intro m hm
    rcases mem_snoc.mp hm with hm | rfl
    · exact h.staying m hm
    · exact ⟨u, hu, hdel⟩
  · intro m hm
    rcases mem_snoc.mp hm with hm | rfl
    · exact get?_append_ne_none (h.placed m hm)
    · exact organisation?_ne_none.mpr ⟨_, mem_append_right _ (mem_singleton_self _), rfl⟩
  · intro o ho hopen
    rcases mem_snoc.mp ho with ho | rfl
    · obtain ⟨m, hm, hw, hrole, hsole⟩ := h.owner o ho hopen
      refine ⟨m, mem_append_left _ hm, hw, hrole, fun m' hm' hw' hrole' => ?_⟩
      rcases mem_snoc.mp hm' with hm' | rfl
      · exact hsole m' hm' hw' hrole'
      · exact absurd hw'.symm (hfresh o ho)
    · refine ⟨_, mem_append_right _ (mem_singleton_self _), rfl, rfl, fun m' hm' hw' _ => ?_⟩
      rcases mem_append.mp hm' with hm' | hm'
      · exact absurd hw' (hkept (h.placed m' hm'))
      · exact mem_singleton.mp hm'
  · exact fun k hk => get?_append_ne_none (h.existing k hk)
  · intro k hk m hm
    rcases mem_snoc.mp hm with hm | rfl
    · exact h.empty k hk m hm
    · exact (hkept (h.existing k hk)).symm

theorem invite_owned {email : Address} {role : MemberRole} {mailId : String}
    (h : c.Owned) (hk : c.Keyed) (hc : invite P c actor email role raw mailId r = .ok c') : c'.Owned := by
  obtain ⟨hrole, -, hown, hsend, -, subscriptions, f, now, rows, hf, -, rfl⟩ := invite_eq_ok hc
  refine { h with settled := ?_, invited := ?_, addressed := ?_ }
  · intro k hk' i hi hw
    rcases mem_snoc.mp hi with hi | rfl
    · exact (h.uses hf).settled k hk' i hi hw
    · exact absurd hw.symm (hown.open h k hk')
  · intro i hi
    rcases mem_snoc.mp hi with hi | rfl
    · exact (h.uses hf).invited i hi
    · exact hrole
  · intro u hu hdel i hi hemail
    rcases mem_append.mp hi with hi | hi
    · exact (h.uses hf).addressed u hu hdel i hi hemail
    · -- An invitation to the address of a leaving account is not sent, and so not made.
      rw [mem_singleton.mp hi] at hemail
      refine absurd (.inr (.inr (.inr (.inl ⟨u, ?_, hdel⟩)))) hsend
      change email.text = u.email at hemail
      rw [hemail]
      exact hk.userByEmail hu

theorem acceptInvitation_owned (h : c.Owned) (hseen : ∃ u, c.user? user.id = some u ∧ u.email = user.email)
    (hc : acceptInvitation P c user raw r = .ok c') : c'.Owned := by
  obtain ⟨i, hi, -, hemail, hunused, horg, ⟨m, hm, hrole⟩, -, subscriptions, f, hf, rfl⟩ := acceptInvitation_eq_ok hc
  obtain ⟨u, hu, hsame⟩ := hseen
  -- The invitation is open, so its addressee has not asked for deletion.
  have hdel : u.deletionRequestedAt = none := by
    by_contra hdel
    exact h.addressed u (get?_eq_some hu).1 hdel i hi (hemail.trans hsame.symm) hunused
  have hopen : ∀ k ∈ c.closures, k.workspaceId ≠ i.workspaceId := by
    obtain ⟨hmem, hkey⟩ := get?_eq_some hm
    exact fun k hk he => h.empty k hk m hmem ((Prod.mk.inj hkey).1.trans he.symm)
  refine { h.uses hf with staying := ?_, placed := ?_, owner := ?_, empty := ?_ }
  · intro m' hm'
    rcases mem_snoc.mp hm' with hm' | rfl
    · exact h.staying m' hm'
    · exact ⟨u, hu, hdel⟩
  · intro m' hm'
    rcases mem_snoc.mp hm' with hm' | rfl
    · exact h.placed m' hm'
    · exact horg
  · intro o ho hclosed
    obtain ⟨m', hmem, hw, hrole', hsole⟩ := h.owner o ho hclosed
    refine ⟨m', mem_append_left _ hmem, hw, hrole', fun n hn hnw hnrole => ?_⟩
    rcases mem_snoc.mp hn with hn | rfl
    · exact hsole n hn hnw hnrole
    · exact absurd hnrole (h.invited i hi)
  · intro k hk m' hm'
    rcases mem_snoc.mp hm' with hm' | rfl
    · exact h.empty k hk m' hm'
    · exact (hopen k hk).symm

theorem Customers.Owned.members (h : c.Owned) {members : List Member}
    (hkept : ∀ m ∈ members, ∃ m₀ ∈ c.members, m₀.key = m.key)
    (howner : ∀ o ∈ c.organisations, (∀ k ∈ c.closures, k.workspaceId ≠ o.id) →
      ∃ m, SoleOwner { c with members } o.id m) : Customers.Owned { c with members } := by
  refine { h with staying := ?_, placed := ?_, owner := howner, empty := ?_ } <;> intro a ha
  · obtain ⟨m₀, hm₀, hkey⟩ := hkept a ha
    rw [← (Prod.mk.inj hkey).2]
    exact h.staying m₀ hm₀
  · obtain ⟨m₀, hm₀, hkey⟩ := hkept a ha
    rw [← (Prod.mk.inj hkey).1]
    exact h.placed m₀ hm₀
  · intro m hm
    obtain ⟨m₀, hm₀, hkey⟩ := hkept m hm
    rw [← (Prod.mk.inj hkey).1]
    exact h.empty a ha m₀ hm₀

theorem changeMember_owned {role : Option MemberRole} (h : c.Owned) (hk : c.Keyed)
    (hc : changeMember c actor userId role = .ok c') : c'.Owned := by
  obtain ⟨-, -, ⟨target, htarget, hnot⟩, hc'⟩ := changeMember_eq_ok hc
  -- The member who changes is not an owner, so every owner is another one.
  have hother : ∀ m ∈ c.members, m.role = .owner → m.key ≠ (actor.workspaceId, userId) := by
    intro m hm hrole hkey
    obtain ⟨hmem, hkey'⟩ := get?_eq_some htarget
    rw [eq_of_key hk.members hm hmem (hkey.trans hkey'.symm)] at hrole
    exact hnot hrole
  rcases hc' with rfl | ⟨r, hr, rfl⟩
  · refine h.members (fun m hm => ⟨m, (mem_filter.mp hm).1, rfl⟩) fun o ho hopen => ?_
    obtain ⟨m, hm, hw, hrole, hsole⟩ := h.owner o ho hopen
    refine ⟨m, mem_filter.mpr ⟨hm, decide_eq_true (hother m hm hrole)⟩, hw, hrole, fun m' hm' => ?_⟩
    exact hsole m' (mem_filter.mp hm').1
  · refine h.members (fun m hm => ?_) fun o ho hopen => ?_
    · obtain ⟨m₀, hm₀, rfl⟩ := mem_update.mp hm
      refine ⟨m₀, hm₀, ?_⟩
      split <;> rfl
    · obtain ⟨m, hm, hw, hrole, hsole⟩ := h.owner o ho hopen
      refine ⟨m, mem_update.mpr ⟨m, hm, (if_neg (hother m hm hrole)).symm⟩, hw, hrole, fun m' hm' hw' hrole' => ?_⟩
      obtain ⟨m₀, hm₀, rfl⟩ := mem_update.mp hm'
      by_cases hkey : m₀.key = (actor.workspaceId, userId)
      · rw [if_pos hkey] at hrole'
        exact absurd hrole' hr
      · rw [if_neg hkey] at hw' hrole' ⊢
        exact hsole m₀ hm₀ hw' hrole'

def Member.transferred (workspace actor successor : String) (m : Member) : Member :=
  if m.key = (workspace, actor) then { m with role := .admin }
  else if m.key = (workspace, successor) then { m with role := .owner }
  else m

theorem Member.transferred_key (workspace actor successor : String) (m : Member) :
    (m.transferred workspace actor successor).key = m.key := by
  unfold transferred
  split
  · rfl
  · split <;> rfl

variable {workspace : String}

theorem transferred_eq {actor successor : String} (hne : successor ≠ actor) (members : List Member) :
    Rows.update key (Rows.update key members (workspace, successor) ({ · with role := .owner }))
      (workspace, actor) ({ · with role := .admin }) = members.map (·.transferred workspace actor successor) := by
  simp only [Rows.update, map_map]
  refine map_congr_left fun m _ => ?_
  have hkeys : (workspace, successor) ≠ (workspace, actor) := fun he => hne (Prod.mk.inj he).2
  by_cases hs : m.key = (workspace, successor)
  · have hrole : key { m with role := .owner } = m.key := rfl
    simp [transferred, hs, hkeys, hrole]
  · simp [transferred, hs]

theorem transferOwnership_owned {successorId : String} (h : c.Owned) (hk : c.Keyed)
    (hc : transferOwnership P c actor password successorId = .ok c') : c'.Owned := by
  obtain ⟨hne, -, -, hown, hsuccessor, rfl⟩ := transferOwnership_eq_ok hc
  obtain ⟨old, ⟨-, -, -, holdsole⟩, holdu⟩ := hown.sole h
  obtain ⟨next, hnext⟩ := Option.ne_none_iff_exists'.mp hsuccessor
  obtain ⟨hnextmem, hnextkey⟩ := get?_eq_some hnext
  have hkeys : (actor.workspaceId, successorId) ≠ (actor.workspaceId, actor.userId) := fun he => hne (Prod.mk.inj he).2
  rw [transferred_eq hne]
  refine h.members (fun m hm => ?_) fun o ho hopen => ?_
  · obtain ⟨m₀, hm₀, rfl⟩ := mem_map.mp hm
    exact ⟨m₀, hm₀, (transferred_key ..).symm⟩
  · by_cases hw : o.id = actor.workspaceId
    · -- The successor owns the workspace; the old owner, who was the only one, no longer does.
      have hbecomes : next.transferred actor.workspaceId actor.userId successorId = { next with role := .owner } := by
        simp [transferred, hnextkey, hkeys]
      refine ⟨{ next with role := .owner }, mem_map.mpr ⟨next, hnextmem, hbecomes⟩,
        (Prod.mk.inj hnextkey).1.trans hw.symm, rfl, fun m' hm' hw' hrole' => ?_⟩
      obtain ⟨m₀, hm₀, rfl⟩ := mem_map.mp hm'
      by_cases hactor : m₀.key = (actor.workspaceId, actor.userId)
      · simp [transferred, hactor] at hrole'
      · by_cases hnew : m₀.key = (actor.workspaceId, successorId)
        · rw [eq_of_key hk.members hm₀ hnextmem (hnew.trans hnextkey.symm)]
          exact hbecomes
        · have hsame : m₀.transferred actor.workspaceId actor.userId successorId = m₀ := by
            simp [transferred, hactor, hnew]
          rw [hsame] at hw' hrole'
          have hold := holdsole m₀ hm₀ (hw'.trans hw) hrole'
          exact absurd (Prod.ext (hw'.trans hw) (hold ▸ holdu)) hactor
    · obtain ⟨m, hm, hmw, hrole, hsole⟩ := h.owner o ho hopen
      have hkept : ∀ m' : Member, m'.workspaceId = o.id → m'.transferred actor.workspaceId actor.userId successorId = m' := by
        intro m' hm'
        have hother : ∀ u, m'.key ≠ (actor.workspaceId, u) := fun u he => hw (hm'.symm.trans (Prod.mk.inj he).1)
        simp [transferred, hother]
      refine ⟨m, mem_map.mpr ⟨m, hm, hkept m hmw⟩, hmw, hrole, fun m' hm' hw' hrole' => ?_⟩
      obtain ⟨m₀, hm₀, rfl⟩ := mem_map.mp hm'
      have hkey := Prod.mk.inj (transferred_key actor.workspaceId actor.userId successorId m₀)
      have hsame := hkept m₀ (hkey.1.symm.trans hw')
      rw [hsame] at hw' hrole' ⊢
      exact hsole m₀ hm₀ hw' hrole'

theorem requestDeletion_owned {keys : List String} (h : c.Owned) (hk : c.Keyed)
    (hc : requestDeletion P c user password keys r = .ok c') : c'.Owned := by
  have hevolves : Evolves _ _ _ := .inl (requestDeletion_rewrites hc)
  obtain ⟨current, hcurrent, -, -, subscriptions, closures, f, g, hg, hcloses, hall, rfl⟩ := requestDeletion_eq_ok hc
  have hinvitations := (h.uses hcloses.uses).uses hg
  have hmember : ∀ m ∈ c.members.filter fun m => m.userId ≠ user.id, m ∈ c.members ∧ m.userId ≠ user.id := fun m hm =>
    ⟨(mem_filter.mp hm).1, of_decide_eq_true (mem_filter.mp hm).2⟩
  constructor
  · -- The others stay.
    intro m hm
    obtain ⟨hm, hne⟩ := hmember m hm
    obtain ⟨u, hu, hdel⟩ := h.staying m hm
    obtain ⟨u', hu', -, -, hsame⟩ := hevolves.user hu
    exact ⟨u', hu', (hsame fun he => hne (Option.some.inj he).symm).trans hdel⟩
  · exact fun m hm => h.placed m (hmember m hm).1
  · intro o ho hopen
    obtain ⟨m, hm, hw, hrole, hsole⟩ := h.owner o ho fun k hk => hopen k (mem_append_left _ hk)
    -- The owner of an open workspace is not the one who leaves: that one's workspace would be closed.
    have hne : m.userId ≠ user.id := by
      intro he
      have howns : c.owner o.id user.id := by
        refine ⟨m, ?_, hrole⟩
        rw [← hw, ← he]
        exact get?_of_mem hk.members hm
      rcases hcloses.closed o.id (mem_map.mpr ⟨m, mem_filter.mpr ⟨hm, decide_eq_true he⟩, hw⟩) howns with
        ⟨m', hm', hrole'⟩ | ⟨-, ⟨k, hk, hkw⟩, -⟩
      · obtain ⟨hm', hother, -⟩ : m' ∈ c.membersOf o.id ∧ m'.userId ≠ user.id ∧ _ := by
          obtain ⟨hm', hp⟩ := mem_filter.mp hm'
          exact ⟨hm', of_decide_eq_true hp⟩
        obtain ⟨hmem, hw'⟩ := mem_filter.mp hm'
        rw [hsole m' hmem (of_decide_eq_true hw') hrole'] at hother
        exact hother he
      · exact hopen k (mem_append_right _ hk) hkw
    exact ⟨m, mem_filter.mpr ⟨hm, decide_eq_true hne⟩, hw, hrole, fun m' hm' => hsole m' (hmember m' hm').1⟩
  · intro k hk
    rcases mem_append.mp hk with hk | hk
    · exact h.existing k hk
    · obtain ⟨hw, -⟩ := hcloses.owned k hk
      obtain ⟨m, hm, hw⟩ := mem_map.mp hw
      rw [← hw]
      exact h.placed m (mem_filter.mp hm).1
  · intro k hk m hm
    obtain ⟨hm, hne⟩ := hmember m hm
    rcases mem_append.mp hk with hk | hk
    · exact h.empty k hk m hm
    · -- All other members would have stayed, and there are none.
      intro hw
      obtain ⟨-, -, halone, -⟩ := hcloses.owned k hk
      obtain ⟨u, hu, hdel⟩ := h.staying m hm
      have hother : m ∈ c.others k.workspaceId user.id :=
        mem_filter.mpr ⟨mem_filter.mpr ⟨hm, decide_eq_true hw⟩, decide_eq_true ⟨hne, u, hu, hdel⟩⟩
      rw [halone] at hother
      exact not_mem_nil hother
  · intro k hk j hj hw
    rcases mem_append.mp hk with hk | hk
    · exact hinvitations.settled k hk j hj hw
    · obtain ⟨_, hi, rfl⟩ := mem_map.mp hj
      obtain ⟨i, -, rfl⟩ := mem_map.mp hi
      rw [(hg.row _).1, (hcloses.uses.row i).1] at hw
      exact hg.used _ ((hcloses.owned k hk).2.2.2 i hw)
  · exact hinvitations.invited
  · intro u' hu' hdel j hj hemail
    obtain ⟨u, hu, hid, hsame, hleft⟩ := hevolves.left hu' hdel
    by_cases hwho : user.id = u'.id
    · -- The invitations to the address that leaves are used up.
      have hsame' : u = current := by
        rw [hwho, ← hid, hk.user hu] at hcurrent
        exact Option.some.inj hcurrent
      obtain ⟨i, -, rfl⟩ := mem_map.mp hj
      refine hall i (.inr ?_)
      rw [← hsame', hsame, ← hemail, (hg.row i).2.1]
    · refine hinvitations.addressed u hu (hleft fun he => hwho (Option.some.inj he)) j hj ?_
      rw [hemail, hsame]

/-! ### Runs -/

theorem Reviews.owned (h : c.Owned) (hr : Reviews c c') : c'.Owned := by
  obtain ⟨_, f, g, hf, -, rfl⟩ := hr
  have hclosure : ∀ k ∈ c.closures.map f, ∃ k₀ ∈ c.closures, k₀.workspaceId = k.workspaceId := by
    intro k hk
    obtain ⟨k₀, hk₀, rfl⟩ := mem_map.mp hk
    exact ⟨k₀, hk₀, (hf k₀).symm⟩
  refine { h with owner := ?_, existing := ?_, empty := ?_, settled := ?_ }
  · intro o ho hopen
    refine h.owner o ho fun k hk he => hopen (f k) (mem_map_of_mem hk) ?_
    rw [hf, he]
  all_goals
    intro k hk
    obtain ⟨k₀, hk₀, hw⟩ := hclosure k hk
    rw [← hw]
  · exact h.existing k₀ hk₀
  · exact h.empty k₀ hk₀
  · exact h.settled k₀ hk₀

theorem WorkspaceOp.apply_owned {op : WorkspaceOp} (h : c.Owned) (hk : c.Keyed)
    (hread : ∀ row ∈ op.read, ∃ u, c.user? row.user.id = some u ∧ u.email = row.user.email)
    (hc : op.apply P c = .ok c') : c'.Owned := by
  cases op with
  | createWorkspace userId workspaceId name r => exact createWorkspace_owned h hc
  | invite actor email role raw mailId r => exact invite_owned h hk hc
  | acceptInvitation session user raw r => exact acceptInvitation_owned h (hread _ rfl) hc
  | changeMember actor userId role => exact changeMember_owned h hk hc
  | transferOwnership actor password successorId => exact transferOwnership_owned h hk hc

/-- The tables are in order, and the rows that requests have read still name the accounts under their addresses. -/
structure OwnershipInv (s : Accounts) : Prop where
  keyed : s.tables.Keyed
  owned : s.tables.Owned
  seen : ∀ row ∈ s.seen, ∃ u, s.tables.user? row.user.id = some u ∧ u.email = row.user.email

theorem OwnershipInv.evolve (h : OwnershipInv s) {leaving : Option String} (he : Evolves leaving s.tables t.tables)
    (hk : t.tables.Keyed) (ho : t.tables.Owned) (hs : t.seen = s.seen) : OwnershipInv t := by
  refine ⟨hk, ho, fun row hrow => ?_⟩
  obtain ⟨u, hu, hemail⟩ := h.seen row (hs ▸ hrow)
  obtain ⟨u', hu', hsame, -, -⟩ := he.user hu
  exact ⟨u', hu', hsame.trans hemail⟩

theorem OwnershipInv.read (h : OwnershipInv s) {row : Seen} (hrow : s.tables.user? row.user.id = some row.user) :
    OwnershipInv { s with seen := s.seen ++ [row] } := by
  refine ⟨h.keyed, h.owned, fun row' hrow' => ?_⟩
  rcases mem_snoc.mp hrow' with hrow' | rfl
  · exact h.seen row' hrow'
  · exact ⟨_, hrow, rfl⟩

theorem step_ownership (hop : op.erases = false) (hs : OwnershipInv s) (h : s.step P op = .ok t) : OwnershipInv t := by
  have hk := step_keyed hs.keyed h
  cases step_accountMove h with
  | readUser huser => exact hs.read (hs.keyed.user (get?_eq_some huser).1)
  | authenticate huser => exact hs.read (authenticatedUser_eq_ok huser).2.1
  | identity hread hrows hc =>
    have he := IdentityOp.apply_evolves hc
    exact hs.evolve he hk (hs.owned.evolve he rfl rfl rfl rfl) (s.remember_seen ..)
  | workspace hread hrows hc =>
    have howned := WorkspaceOp.apply_owned hs.owned hs.keyed (fun row hrow => hs.seen row (hread row hrow)) hc
    exact hs.evolve (.of_eq rfl) hk howned rfl
  | closes hc => exact hs.evolve (.inl (requestDeletion_rewrites hc)) hk (requestDeletion_owned hs.owned hs.keyed hc) rfl
  | reviews hf hg => exact hs.evolve (.of_eq rfl) hk (Reviews.owned hs.owned ⟨_, _, _, hf, hg, rfl⟩) rfl
  | keeps | erases => cases hop
  | billing | claimMail | finishMail => exact hs.evolve (.of_eq rfl) hk (hs.owned.evolve (.of_eq rfl) rfl rfl rfl rfl) rfl

theorem run_ownership {ops : List AccountOp} (hops : ∀ op ∈ ops, op.erases = false) (hs : OwnershipInv s) :
    OwnershipInv (Runs.run (Accounts.step P) s ops) :=
  Runs.run_inv_of (fun _ _ _ hop hs h => step_ownership hop hs h) ops
    hops hs

theorem ownershipInv_empty : OwnershipInv {} :=
  ⟨⟨nodup_nil, nodup_nil, nodup_nil, nodup_nil⟩,
    ⟨forall_mem_nil _, forall_mem_nil _, forall_mem_nil _, forall_mem_nil _, forall_mem_nil _,
      forall_mem_nil _, forall_mem_nil _, forall_mem_nil _⟩, forall_mem_nil _⟩

/-! ### What follows -/

def Customers.owners (c : Customers) (workspace : String) : List String :=
  ((c.membersOf workspace).filter fun m => m.role = .owner).map Member.userId

theorem mem_owners : userId ∈ c.owners workspace ↔
    ∃ m ∈ c.members, m.workspaceId = workspace ∧ m.role = .owner ∧ m.userId = userId := by
  simp only [Customers.owners, Customers.membersOf, mem_map, mem_filter, decide_eq_true_eq, and_assoc]

theorem SoleOwner.owners (h : SoleOwner c workspace m) (hk : c.Keyed) : c.owners workspace = [m.userId] := by
  obtain ⟨hm, hw, hrole, hsole⟩ := h
  have hnodup : ((c.membersOf workspace).filter fun m => m.role = .owner).Nodup :=
    ((List.Nodup.of_map _ hk.members).filter _).filter _
  have hall : ∀ m' ∈ (c.membersOf workspace).filter fun m => m.role = .owner, m' = m := by
    intro m' hm'
    simp only [Customers.membersOf, mem_filter, decide_eq_true_eq] at hm'
    exact hsole m' hm'.1.1 hm'.1.2 hm'.2
  have hmem : m ∈ (c.membersOf workspace).filter fun m => m.role = .owner := by
    simp [Customers.membersOf, hm, hw, hrole]
  rw [Customers.owners]
  rw [eq_replicate_of_mem hall] at hnodup hmem ⊢
  have hle := nodup_replicate.mp hnodup
  have hpos := length_pos_of_mem hmem
  rw [length_replicate] at hpos
  rw [Nat.le_antisymm hle hpos]
  rfl

def AccountOp.confers (workspace userId : String) : AccountOp → Prop
  | .workspace (.createWorkspace creator created _ _) => creator = userId ∧ created = workspace
  | .workspace (.transferOwnership actor _ successor) => actor.workspaceId = workspace ∧ successor = userId
  | _ => False

theorem WorkspaceOp.apply_owners {op : WorkspaceOp} (h : c.Owned) (hc : op.apply P c = .ok c')
    (hm : m ∈ c'.members) (hrole : m.role = .owner) :
    m.userId ∈ c.owners m.workspaceId ∨ AccountOp.confers m.workspaceId m.userId (.workspace op) := by
  have before : ∀ m ∈ c.members, m.role = .owner → m.userId ∈ c.owners m.workspaceId := fun m hm hrole =>
    mem_owners.mpr ⟨m, hm, rfl, hrole, rfl⟩
  cases op with
  | createWorkspace userId workspaceId name r =>
    obtain ⟨-, -, -, rfl⟩ := createWorkspace_eq_ok hc
    rcases mem_snoc.mp hm with hm | rfl
    · exact .inl (before m hm hrole)
    · exact .inr ⟨rfl, rfl⟩
  | invite actor email role raw mailId r =>
    obtain ⟨-, -, -, -, -, _, _, _, _, -, -, rfl⟩ := invite_eq_ok hc
    exact .inl (before m hm hrole)
  | acceptInvitation session user raw r =>
    obtain ⟨i, hi, -, -, -, -, -, -, _, _, -, rfl⟩ := acceptInvitation_eq_ok hc
    rcases mem_snoc.mp hm with hm | rfl
    · exact .inl (before m hm hrole)
    · exact absurd hrole (h.invited i hi)
  | changeMember actor userId role =>
    obtain ⟨-, -, -, rfl | ⟨r, hr, rfl⟩⟩ := changeMember_eq_ok hc
    · exact .inl (before m (mem_filter.mp hm).1 hrole)
    · obtain ⟨m₀, hm₀, rfl⟩ := mem_update.mp hm
      by_cases hkey : m₀.key = (actor.workspaceId, userId)
      · rw [if_pos hkey] at hrole
        exact absurd hrole hr
      · rw [if_neg hkey] at hrole ⊢
        exact .inl (before m₀ hm₀ hrole)
  | transferOwnership actor password successorId =>
    obtain ⟨hne, -, -, -, -, rfl⟩ := transferOwnership_eq_ok hc
    rw [transferred_eq hne] at hm
    obtain ⟨m₀, hm₀, rfl⟩ := mem_map.mp hm
    obtain ⟨hw, hu⟩ := Prod.mk.inj (transferred_key actor.workspaceId actor.userId successorId m₀)
    rw [hw, hu]
    by_cases hnew : m₀.key = (actor.workspaceId, successorId)
    · exact .inr ⟨(Prod.mk.inj hnew).1.symm, (Prod.mk.inj hnew).2.symm⟩
    · by_cases hactor : m₀.key = (actor.workspaceId, actor.userId)
      · simp [transferred, hactor] at hrole
      · refine .inl (before m₀ hm₀ ?_)
        simpa [transferred, hactor, hnew] using hrole

theorem step_owners (hs : OwnershipInv s) (h : s.step P op = .ok t) (hm : m ∈ t.tables.members) (hrole : m.role = .owner) :
    m.userId ∈ s.tables.owners m.workspaceId ∨ op.confers m.workspaceId m.userId := by
  have before (hm : m ∈ s.tables.members) : m.userId ∈ s.tables.owners m.workspaceId :=
    mem_owners.mpr ⟨m, hm, rfl, hrole, rfl⟩
  cases step_accountMove h with
  | readUser | authenticate | identity | reviews | keeps | billing | claimMail | finishMail => exact .inl (before hm)
  | workspace hread hrows hc => exact WorkspaceOp.apply_owners hs.owned hc hm hrole
  | closes hc =>
    obtain ⟨_, -, -, -, _, _, _, _, -, -, -, rfl⟩ := requestDeletion_eq_ok hc
    exact .inl (before (mem_filter.mp hm).1)
  | erases => exact .inl (before (mem_filter.mp hm).1)

theorem step_closures (h : s.step P op = .ok t)
    (hk : ∃ k ∈ s.tables.closures, k.workspaceId = workspace) : ∃ k ∈ t.tables.closures, k.workspaceId = workspace := by
  cases step_accountMove h with
  | readUser | authenticate | identity | workspace | keeps | erases | billing | claimMail | finishMail => exact hk
  | closes hc =>
    obtain ⟨_, -, -, -, _, _, _, _, -, -, -, rfl⟩ := requestDeletion_eq_ok hc
    obtain ⟨k, hk, hw⟩ := hk
    exact ⟨k, mem_append_left _ hk, hw⟩
  | @reviews _ _ f _ hf =>
    obtain ⟨k, hk, hw⟩ := hk
    exact ⟨f k, mem_map_of_mem hk, (hf k).trans hw⟩

/-- What holds of the ownership of workspaces in a reachable state. -/
structure WorkspacesOwned (P : Service) (s : Accounts) : Prop where
  /-- An open workspace has exactly one owner, who has not asked for deletion. -/
  opened : ∀ o ∈ s.tables.organisations, s.tables.closure? o.id = none →
    ∃ u ∈ s.tables.users, s.tables.owners o.id = [u.id] ∧ u.deletionRequestedAt = none
  /-- A closed workspace has no members and no open invitation. -/
  closed : ∀ k ∈ s.tables.closures, s.tables.membersOf k.workspaceId = [] ∧
    ∀ i ∈ s.tables.invitations, i.workspaceId = k.workspaceId → i.usedAt ≠ none
  /-- A closed workspace never gains a member again. -/
  forever : ∀ k ∈ s.tables.closures, ∀ later, (∀ op ∈ later, op.erases = false) →
    (Runs.run (Accounts.step P) s later).tables.membersOf k.workspaceId = []
  /-- Nobody who asked for deletion is a member of a workspace. -/
  leaving : ∀ u ∈ s.tables.users, u.deletionRequestedAt ≠ none → ∀ m ∈ s.tables.members, m.userId ≠ u.id
  /-- Nobody becomes an owner but by creating the workspace or by a transfer. -/
  conferred : ∀ op workspace userId, userId ∈ (Runs.next (Accounts.step P) s op).tables.owners workspace →
    userId ∈ s.tables.owners workspace ∨ op.confers workspace userId

theorem OwnershipInv.membersOf (h : OwnershipInv s)
    (hk : ∃ k ∈ s.tables.closures, k.workspaceId = workspace) : s.tables.membersOf workspace = [] := by
  obtain ⟨k, hk, rfl⟩ := hk
  refine filter_eq_nil_iff.mpr fun m hm hw => ?_
  exact h.owned.empty k hk m hm (of_decide_eq_true hw)

/-- In every state that is reachable without an erasure, ownership is in order. -/
theorem workspace_ownership (P : Service) (ops : List AccountOp) (hops : ∀ op ∈ ops, op.erases = false) :
    WorkspacesOwned P (Accounts.after P ops) := by
  have hs : OwnershipInv (Accounts.after P ops) := run_ownership hops ownershipInv_empty
  refine ⟨fun o ho hopen => ?_, fun k hk => ⟨hs.membersOf ⟨k, hk, rfl⟩, hs.owned.settled k hk⟩, ?_, ?_, ?_⟩
  · obtain ⟨m, hsole⟩ := hs.owned.owner o ho (get?_eq_none.mp hopen)
    obtain ⟨u, hu, hdel⟩ := hs.owned.staying m hsole.1
    obtain ⟨hmem, hid⟩ := get?_eq_some hu
    exact ⟨u, hmem, by rw [hsole.owners hs.keyed, hid], hdel⟩
  · intro k hk later hlater
    refine (run_ownership hlater hs).membersOf ?_
    exact Runs.run_inv
      (fun _ _ _ hk h => step_closures h hk) later ⟨k, hk, rfl⟩
  · intro u hu hdel m hm hid
    obtain ⟨v, hv, hvdel⟩ := hs.owned.staying m hm
    rw [hid, hs.keyed.user hu] at hv
    cases hv
    exact hdel hvdel
  · intro op workspace userId howner
    rcases Runs.next_cases (Accounts.step P) (Accounts.after P ops) op with hn | hn
    · exact .inl (hn ▸ howner)
    · obtain ⟨m, hm, rfl, hrole, rfl⟩ := mem_owners.mp howner
      exact step_owners hs hn hm hrole

/-- Ann hands the workspace over to Bob and leaves, and then Bob does: it closes. -/
theorem workspace_ownership_handover :
    let ops := bobJoined ++ [.workspace (.transferOwnership owner "ann" "bob"), leaves "ann" ann ["key"] 9,
      leaves "bob" bob ["key"] 10]
    (Accounts.after plainService ops).tables.closures.map (·.workspaceId) = ["desk"] ∧
      WorkspacesOwned plainService (Accounts.after plainService ops) :=
  ⟨by decide +kernel, workspace_ownership plainService _ (by decide)⟩

end Money
