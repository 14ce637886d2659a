import Money.Accounts.Offboarding

/-! The accounts as one system. Any service takes any operation at any time. A request reads the row of its user without
    a lock before its transaction. -/

namespace Money
open Checked

/-! ### Operations -/

/-- A row of a user that a request has read: by a login, or by the digest of the session that it came with. -/
structure Seen where
  session : Option Hash
  user : User
  deriving DecidableEq

inductive IdentityOp where
  | signup (email : Address) (displayName hashed : String) (d : Draws) (t : Nat → Int)
  | verifyEmail (raw : String) (t : Nat → Int)
  | forgotPassword (email : Address) (raw mailId : String) (t : Nat → Int)
  | resendVerification (email : Address) (raw mailId : String) (t : Nat → Int)
  | setNotifications (userId : String) (wanted : Bool)
  | resetPassword (raw hashed : String) (t : Nat → Int)
  | login (user : User) (password raw : String) (t : Nat → Int)
  | rotate (user : User) (raw fresh : String) (t : Nat → Int)
  | logout (raw : String) (now : Int)
  | revokeSession (userId : String) (reference : Hash) (t : Nat → Int)

inductive WorkspaceOp where
  | createWorkspace (userId workspaceId name : String) (t : Nat → Int)
  | invite (actor : Principal) (email : Address) (role : MemberRole) (raw mailId : String) (t : Nat → Int)
  | acceptInvitation (session : Hash) (user : User) (raw : String) (t : Nat → Int)
  | changeMember (actor : Principal) (userId : String) (role : Option MemberRole)
  | transferOwnership (actor : Principal) (password successorId : String)

/-- What operators do about a deletion request before it is fulfilled. -/
inductive ReviewOp where
  | closeBilling (workspace : String) (answers : ClosureAnswers) (t : Nat → Int)
  | retryClosure (workspace : String) (now : Int)
  | resolveClosure (workspace reviewer : String) (t : Nat → Int)
  | reviewRequest (userId : String) (policy : RetentionPolicy) (reviewer : String) (t : Nat → Int)

inductive BillingOp where
  | readSubscription (workspace : String) (now : Int)
  | linkCustomer (actor : Principal) (customer : String) (now : Int)
  | reserveCheckout (actor : Principal) (t : Nat → Int)
  | webhook (id kind : String) (o : BillingObject) (content : Hash) (t : Nat → Int)
  | reconcileOnce (gateway : Gateway) (notifies : Bool) (skipped draws : List String) (t : Nat → Int)
  | notifyResearch (userId mailId : String) (wanted : Bool) (t : Nat → Int)

inductive AccountOp where
  | readUser (email : Address)
  | authenticate (raw : String) (now : Int)
  | identity (op : IdentityOp)
  | workspace (op : WorkspaceOp)
  | requestDeletion (session : Hash) (user : User) (password : String) (keys : List String) (t : Nat → Int)
  | review (op : ReviewOp)
  | fulfilRequest (userId : String) (policy : RetentionPolicy) (jobs : List (String × Status)) (t : Nat → Int)
  | billing (op : BillingOp)
  | claimMail (skipped : List String) (lease : String) (now : Int)
  | finishMail (row : Mail) (outcome : Delivery) (t : Nat → Int)

variable (P : Service) (c : Customers)

def IdentityOp.apply : IdentityOp → Except Err Customers
  | signup email displayName hashed d t => Money.signup P c email displayName hashed d t
  | verifyEmail raw t => Money.verifyEmail P c raw t
  | forgotPassword email raw mailId t => Money.forgotPassword P c email raw mailId t
  | resendVerification email raw mailId t => Money.resendVerification P c email raw mailId t
  | setNotifications userId wanted => .ok (Money.setNotifications c userId wanted)
  | resetPassword raw hashed t => Money.resetPassword P c raw hashed t
  | login user password raw t => Money.login P c user password raw t
  | rotate user raw fresh t => Money.rotate P c user raw fresh t
  | logout raw now => Money.logout P c raw now
  | revokeSession userId reference t => Money.revokeSession P c userId reference t

def WorkspaceOp.apply : WorkspaceOp → Except Err Customers
  | createWorkspace userId workspaceId name t => Money.createWorkspace c userId workspaceId name t
  | invite actor email role raw mailId t => Money.invite P c actor email role raw mailId t
  | acceptInvitation _ user raw t => Money.acceptInvitation P c user raw t
  | changeMember actor userId role => Money.changeMember c actor userId role
  | transferOwnership actor password successorId => Money.transferOwnership P c actor password successorId

def ReviewOp.apply : ReviewOp → Except Err Customers
  | closeBilling workspace answers t => Money.closeBilling P c workspace answers t
  | retryClosure workspace now => Money.retryClosure c workspace now
  | resolveClosure workspace reviewer t => Money.resolveClosure c workspace reviewer t
  | reviewRequest userId policy reviewer t => Money.reviewRequest c userId policy reviewer t

def BillingOp.apply : BillingOp → Except Err Customers
  | readSubscription workspace now => .ok (subscription c workspace now).1
  | linkCustomer actor customer now => Money.linkCustomer c actor customer now
  | reserveCheckout actor t => Money.reserveCheckout c actor t
  | webhook id kind o content t => Money.webhook c id kind o content t
  | reconcileOnce gateway notifies skipped draws t => .ok (Money.reconcileOnce P gateway notifies c skipped draws t)
  | notifyResearch userId mailId wanted t => Money.notifyResearch P c userId mailId wanted t

/-! ### The system -/

/-- A session that a login opened, with the password that it verified and the hash that it verified it against. -/
structure Login where
  tokenHash : Hash
  userId : String
  password : String
  passwordHash : String
  deriving DecidableEq

structure Rotation where
  old : Hash
  new : Hash
  deriving DecidableEq

/-- The tables, the rows that requests have read, the mails that workers hold, the logins, the rotations and the
    registered addresses. -/
structure Accounts where
  tables : Customers := {}
  seen : List Seen := []
  held : List Mail := []
  logins : List Login := []
  rotations : List Rotation := []
  registered : List String := []
  deriving DecidableEq

def IdentityOp.read : IdentityOp → Option Seen
  | login user .. => some ⟨none, user⟩
  | rotate user raw .. => some ⟨some (P.digest raw), user⟩
  | _ => none

def WorkspaceOp.read : WorkspaceOp → Option Seen
  | acceptInvitation session user .. => some ⟨some session, user⟩
  | _ => none

/-- What is remembered of an operation on an identity that left the tables `c'`. -/
def Accounts.remember (s : Accounts) (c' : Customers) : IdentityOp → Accounts
  | .signup email .. =>
    { s with tables := c', registered := s.registered ++ if c'.users = s.tables.users then [] else [email.text] }
  | .login user password raw _ =>
    { s with tables := c', logins := s.logins ++ [⟨P.digest raw, user.id, password, user.passwordHash⟩] }
  | .rotate _ raw fresh _ => { s with tables := c', rotations := s.rotations ++ [⟨P.digest raw, P.digest fresh⟩] }
  | _ => { s with tables := c' }

def Accounts.step (s : Accounts) : AccountOp → Except Err Accounts
  | .readUser email => do
    let user ← demand (s.tables.userByEmail? email.text) loginInvalid
    pure { s with seen := s.seen ++ [⟨none, user⟩] }
  | .authenticate raw now => do
    let user ← authenticatedUser P s.tables raw now
    pure { s with seen := s.seen ++ [⟨some (P.digest raw), user⟩] }
  | .identity op => do
    require (∀ row ∈ op.read P, row ∈ s.seen) .absent
    let c' ← op.apply P s.tables
    pure (s.remember P c' op)
  | .workspace op => do
    require (∀ row ∈ op.read, row ∈ s.seen) .absent
    let tables ← op.apply P s.tables
    pure { s with tables }
  | .requestDeletion session user password keys t => do
    require (⟨some session, user⟩ ∈ s.seen) .absent
    let tables ← requestDeletion P s.tables user password keys t
    pure { s with tables }
  | .review op => do
    let tables ← op.apply P s.tables
    pure { s with tables }
  | .fulfilRequest userId policy jobs t => do
    let (_, tables) ← fulfilRequest P s.tables userId policy jobs t
    pure { s with tables }
  | .billing op => do
    let tables ← op.apply P s.tables
    pure { s with tables }
  | .claimMail skipped lease now =>
    let (tables, row) := claimMail s.tables skipped lease now
    .ok { s with tables, held := s.held ++ row.toList }
  | .finishMail row outcome t => do
    require (row ∈ s.held) .absent
    pure { s with tables := finishMail s.tables row outcome t }

def Accounts.after (ops : List AccountOp) : Accounts := Runs.run (Accounts.step P) {} ops

end Money
