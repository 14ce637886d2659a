import Money.Accounts.Identity
import Money.Product

/-! Workspaces and their members, as in `accounts/service.py`. The authority of a request is read again in the
    transaction. -/

namespace Money
open Checked

variable (P : Service) (c : Customers)

/-- `_seat_limit`: the seats of the plan of a workspace. -/
def seatLimit (workspace : String) (t : Nat → Int) : Except Err (Nat × Customers) := do
  let (c, sub) := subscription c workspace (t 0)
  let _ ← demand (c.organisation? workspace) .noResult
  require (sub.status.entitles = true ∧ t 1 < sub.periodEnd)
    (.account "SUBSCRIPTION_INACTIVE" "An active subscription is required" 402)
  let plan ← demand (P.plan sub.plan) (.referenceTable "UNKNOWN_PLAN")
  pure (plan.seats, c)

variable (actor : Principal)

/-- `_owner`: the actor is the owner of the workspace and stays. -/
def requireOwner : Except Err Unit := do
  require (∃ user ∈ c.user? actor.userId, user.deletionRequestedAt = none)
    (.account "ROLE_FORBIDDEN" "Workspace ownership is required" 403)
  require (∃ m ∈ c.member? actor.workspaceId actor.userId, m.role = .owner)
    (.account "ROLE_FORBIDDEN" "Only the workspace owner can manage membership" 403)

def createWorkspace (userId workspaceId name : String) (t : Nat → Int) : Except Err Customers := do
  let active ← demand (c.user? userId) .noResult
  require (active.deletionRequestedAt = none) sessionExpired
  require ((c.organisations.filter fun o => o.createdBy = userId).length < 5)
    (.account "WORKSPACE_LIMIT" "Workspace creation limit reached" 409)
  let organisations ← demand (Rows.insert? Organisation.id c.organisations ⟨workspaceId, name, userId, t 0⟩) .integrity
  let members ← demand (Rows.insert? Member.key c.members ⟨workspaceId, userId, .owner, t 1⟩) .integrity
  pure { c with organisations, members }

def Invitation.pending (i : Invitation) (now : Int) : Prop := i.usedAt = none ∧ now < i.expiresAt
  deriving Decidable

def Customers.useInvitations (p : Invitation → Prop) [DecidablePred p] (now : Int) : Customers :=
  { c with invitations := c.invitations.map fun i => if p i ∧ i.usedAt = none then { i with usedAt := some now } else i }

def newInvitation (email : String) (role : MemberRole) (raw : String) (now : Int) : Invitation where
  tokenHash := P.digest raw
  workspaceId := actor.workspaceId
  invitedBy := actor.userId
  email
  role
  createdAt := now
  expiresAt := now + days 7

def invite (email : Address) (role : MemberRole) (raw mailId : String) (t : Nat → Int) : Except Err Customers := do
  require (role ≠ .owner) (.account "ROLE_FORBIDDEN" "This role cannot be invited" 403)
  let (allowance, c) ← seatLimit P c actor.workspaceId t
  requireOwner c actor
  require (¬ ∃ m ∈ c.membersOf actor.workspaceId, ∃ u ∈ c.user? m.userId, u.email = email.text)
    (.account "ALREADY_MEMBER" "This customer is already a member" 409)
  let pending := c.invitations.filter fun i =>
    i.workspaceId = actor.workspaceId ∧ i.pending (t 2) ∧ i.email ≠ email.text
  require ((c.membersOf actor.workspaceId).length + pending.length < allowance)
    (.account "SEAT_ALLOWANCE_EXHAUSTED" "Your workspace has no available seats" 402)
  let c := c.useInvitations (fun i => i.workspaceId = actor.workspaceId ∧ i.email = email.text) (t 3)
  let invitations ← demand (Rows.insert? Invitation.tokenHash c.invitations
    (newInvitation P actor email.text role raw (t 3))) .integrity
  enqueueMail P { c with invitations } mailId actor.userId email.text .invitation fun i => t (i + 4)

/-- `accept_invitation` by the account that the request was authenticated for. -/
def acceptInvitation (user : User) (raw : String) (t : Nat → Int) : Except Err Customers := do
  let invitation ← demand (Rows.get? Invitation.tokenHash c.invitations (P.digest raw))
    (.account "TOKEN_INVALID" "This invitation is invalid or has expired" 400)
  require (invitation.email = user.email) (.account "TOKEN_INVALID" "This invitation is invalid or has expired" 400)
  let (allowance, c) ← seatLimit P c invitation.workspaceId t
  require (invitation.pending (t 2)) (.account "TOKEN_INVALID" "This invitation is invalid or has expired" 400)
  require (∃ m ∈ c.member? invitation.workspaceId invitation.invitedBy, m.role = .owner ∧
      ∃ u ∈ c.user? invitation.invitedBy, u.deletionRequestedAt = none)
    (.account "INVITATION_REVOKED" "The invitation is no longer authorised" 403)
  require (c.member? invitation.workspaceId user.id = none)
    (.account "ALREADY_MEMBER" "You already belong to this workspace" 409)
  require ((c.membersOf invitation.workspaceId).length < allowance)
    (.account "SEAT_ALLOWANCE_EXHAUSTED" "The workspace has no available seats" 402)
  let members ← demand (Rows.insert? Member.key c.members
    ⟨invitation.workspaceId, user.id, invitation.role, t 3⟩) .integrity
  let invitations := Rows.update Invitation.tokenHash c.invitations (P.digest raw) ({ · with usedAt := some (t 4) })
  pure { c with members, invitations }

/-- `change_member`: another role for a member, or none. -/
def changeMember (userId : String) (role : Option MemberRole) : Except Err Customers := do
  require (role ≠ some .owner) (.account "ROLE_FORBIDDEN" "This role cannot be assigned" 403)
  let _ ← demand (c.organisation? actor.workspaceId) .noResult
  requireOwner c actor
  let target ← demand (c.member? actor.workspaceId userId) (.account "MEMBER_NOT_FOUND" "Member not found" 404)
  require (target.role ≠ .owner ∧ userId ≠ actor.userId)
    (.account "OWNER_PROTECTED" "Workspace ownership cannot be removed here" 409)
  match role with
  | none => pure { c with members := c.members.filter fun m => m.key ≠ (actor.workspaceId, userId) }
  | some role =>
    pure { c with members := Rows.update Member.key c.members (actor.workspaceId, userId) ({ · with role }) }

/-- `transfer_ownership`: the owner becomes an administrator and an existing verified member the owner. -/
def transferOwnership (password successorId : String) : Except Err Customers := do
  require (successorId ≠ actor.userId)
    (.account "SUCCESSOR_INVALID" "Choose another existing workspace member" 409)
  let current ← demand (c.user? actor.userId) sessionExpired
  require (current.deletionRequestedAt = none) sessionExpired
  require (P.passwordValid password current.passwordHash = true)
    (.account "PASSWORD_INVALID" "Password is incorrect" 401)
  require (∃ successor ∈ c.user? successorId, successor.deletionRequestedAt = none ∧ successor.emailVerifiedAt ≠ none)
    (.account "SUCCESSOR_INVALID" "Choose an active verified workspace member" 409)
  let _ ← demand (c.organisation? actor.workspaceId) .noResult
  assertWorkspaceOpen c actor.workspaceId
  requireOwner c actor
  require (c.member? actor.workspaceId successorId ≠ none)
    (.account "SUCCESSOR_INVALID" "Choose an existing workspace member" 409)
  let members := Rows.update Member.key c.members (actor.workspaceId, successorId) ({ · with role := .owner })
  pure { c with members := Rows.update Member.key members (actor.workspaceId, actor.userId) ({ · with role := .admin }) }

end Money
