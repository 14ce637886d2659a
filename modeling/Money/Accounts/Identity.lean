import Money.Accounts.Mail

/-! Identities and their sessions, as in `accounts/service.py`. Only the digest of a token is stored. `t` are the clock
    reads of an operation, in their order. -/

namespace Money
open Checked

/-! ### Action tokens -/

def tokenInvalid : Err := .account "TOKEN_INVALID" "This link is invalid or has expired" 400

def TokenPurpose.lifetime : TokenPurpose → Int
  | .reset => minutes 30
  | .verify => minutes 1440

def TokenPurpose.mail : TokenPurpose → MailKind
  | .reset => .reset
  | .verify => .verify

variable (userId : String)

/-- The token is superseded by a newer one of the same user and purpose. -/
def ActionToken.superseded (purpose : TokenPurpose) (now : Int) (k : ActionToken) : ActionToken :=
  if k.userId = userId ∧ k.purpose = purpose ∧ k.usedAt = none then { k with usedAt := some now } else k

variable (P : Service)

def newToken (userId : String) (purpose : TokenPurpose) (raw : String) (now : Int) : ActionToken where
  tokenHash := P.digest raw
  userId
  purpose
  createdAt := now
  expiresAt := now + purpose.lifetime

variable (c : Customers)

/-- `_action`: the older tokens are used up, and the new one is mailed. -/
def action (userId email : String) (purpose : TokenPurpose) (raw mailId : String) (t : Nat → Int) : Except Err Customers := do
  let tokens ← demand (Rows.insert? ActionToken.tokenHash (c.tokens.map (·.superseded userId purpose (t 0)))
    (newToken P userId purpose raw (t 0))) .integrity
  enqueueMail P { c with tokens } mailId userId email purpose.mail fun i => t (i + 1)

variable (raw : String)

/-- `_consume`: the token of a raw value, which is used up. -/
def consume (purpose : TokenPurpose) (t : Nat → Int) : Except Err (ActionToken × Customers) := do
  let token ← demand (c.tokens.find? fun k => k.tokenHash = P.digest raw ∧ k.purpose = purpose) tokenInvalid
  let user ← demand (c.user? token.userId) tokenInvalid
  require (user.deletionRequestedAt = none) tokenInvalid
  require (token.usedAt = none ∧ t 0 < token.expiresAt) tokenInvalid
  let tokens := Rows.update ActionToken.tokenHash c.tokens token.tokenHash ({ · with usedAt := some (t 1) })
  pure (token, { c with tokens })

/-! ### Accounts -/

structure Draws where
  userId : String
  raw : String
  mailId : String
  deriving DecidableEq

def newUser (id email displayName hashed : String) (now : Int) : User where
  id
  email
  displayName
  passwordHash := hashed
  createdAt := now

def register (email displayName hashed : String) (d : Draws) (t : Nat → Int) : Except Err Customers := do
  let users ← demand (Rows.insert? User.id c.users (newUser d.userId email displayName hashed (t 0))) .integrity
  action P { c with users } d.userId email .verify d.raw d.mailId fun i => t (i + 1)

/-- `signup`. An address that is taken, now or by a concurrent signup, leaves everything as it is. -/
def signup (email : Address) (displayName hashed : String) (d : Draws) (t : Nat → Int) : Except Err Customers :=
  if c.userByEmail? email.text = none then
    match register P c email.text displayName hashed d t with
    | .error .integrity => .ok c
    | result => result
  else .ok c

def verifyEmail (t : Nat → Int) : Except Err Customers := do
  let (token, c) ← consume P c raw .verify t
  pure { c with users := Rows.update User.id c.users token.userId ({ · with emailVerifiedAt := some (t 2) }) }

def forgotPassword (email : Address) (raw mailId : String) (t : Nat → Int) : Except Err Customers :=
  match c.users.find? fun u => u.email = email.text ∧ u.deletionRequestedAt = none with
  | some user => action P c user.id email.text .reset raw mailId t
  | none => .ok c

def resendVerification (email : Address) (raw mailId : String) (t : Nat → Int) : Except Err Customers :=
  match c.users.find? fun u => u.email = email.text ∧ u.emailVerifiedAt = none ∧ u.deletionRequestedAt = none with
  | some user => action P c user.id email.text .verify raw mailId t
  | none => .ok c

def setNotifications (userId : String) (wanted : Bool) : Customers :=
  { c with users := Rows.update User.id c.users userId ({ · with emailNotifications := wanted }) }

/-! ### Sessions -/

def sessionExpired : Err := .account "SESSION_EXPIRED" "Please sign in" 401

def loginInvalid : Err := .account "LOGIN_INVALID" "Email or password is incorrect" 401

def Session.revoked (now : Int) (s : Session) : Session :=
  if s.revokedAt = none then { s with revokedAt := some now } else s

def newSession (userId raw : String) (t : Nat → Int) : Session where
  tokenHash := P.digest raw
  userId
  createdAt := t 1
  expiresAt := t 0 + hours P.sessionHours

def openSession (userId raw : String) (t : Nat → Int) : Except Err Customers := do
  let sessions ← demand (Rows.insert? Session.tokenHash c.sessions (newSession P userId raw t)) .integrity
  pure { c with sessions }

/-- What `login` checks of the row that it read without a lock. -/
def loginAllowed (user : User) (password : String) : Except Err Unit := do
  require (P.passwordValid password user.passwordHash = true ∧ user.deletionRequestedAt = none) loginInvalid
  require (user.emailVerifiedAt ≠ none)
    (.account "EMAIL_VERIFICATION_REQUIRED" "Verify your email before signing in" 403)

/-- The second half of `login`: the row is read again under its lock. -/
def login (user : User) (password raw : String) (t : Nat → Int) : Except Err Customers := do
  loginAllowed P user password
  let current ← demand (c.user? user.id) .noResult
  require (current.passwordHash = user.passwordHash ∧ current.deletionRequestedAt = none) loginInvalid
  openSession P c user.id raw t

/-- `authenticated_user`: the account of a live session. -/
def authenticatedUser (now : Int) : Except Err User := do
  require (32 ≤ raw.length ∧ raw.length ≤ 128) (.account "AUTH_REQUIRED" "Please sign in to continue" 401)
  let session ← demand (Rows.get? Session.tokenHash c.sessions (P.digest raw))
    (.account "SESSION_EXPIRED" "Your session has expired. Please sign in" 401)
  let user ← demand (c.user? session.userId)
    (.account "SESSION_EXPIRED" "Your session has expired. Please sign in" 401)
  require (session.revokedAt = none ∧ now < session.expiresAt ∧ user.emailVerifiedAt ≠ none ∧
      user.deletionRequestedAt = none)
    (.account "SESSION_EXPIRED" "Your session has expired. Please sign in" 401)
  pure user

/-- The second half of `rotate`: the session is replaced, if neither it nor its password was withdrawn meanwhile. -/
def rotate (user : User) (raw fresh : String) (t : Nat → Int) : Except Err Customers := do
  let current ← demand (c.user? user.id) .noResult
  require (current.deletionRequestedAt = none ∧ current.passwordHash = user.passwordHash) sessionExpired
  let old ← demand (Rows.get? Session.tokenHash c.sessions (P.digest raw)) .noResult
  require (old.revokedAt = none ∧ t 0 < old.expiresAt) sessionExpired
  let sessions := Rows.update Session.tokenHash c.sessions (P.digest raw) ({ · with revokedAt := some (t 1) })
  openSession P { c with sessions } user.id fresh fun i => t (i + 2)

/-- `reset_password`: every session of the user ends with the old password. -/
def resetPassword (hashed : String) (t : Nat → Int) : Except Err Customers := do
  let (token, c) ← consume P c raw .reset t
  pure { c with
    users := Rows.update User.id c.users token.userId ({ · with passwordHash := hashed })
    sessions := c.sessions.map fun s => if s.userId = token.userId then s.revoked (t 2) else s }

def logout (now : Int) : Except Err Customers :=
  match Rows.get? Session.tokenHash c.sessions (P.digest raw) with
  | none => .ok c
  | some session => do
    let _ ← demand (c.user? session.userId) .noResult
    pure { c with sessions := Rows.update Session.tokenHash c.sessions (P.digest raw) (·.revoked now) }

def sessionReference (tokenHash : Hash) : Hash := P.digest ("session-reference:" ++ tokenHash)

def revokeSession (userId : String) (reference : Hash) (t : Nat → Int) : Except Err Customers := do
  let current ← demand (c.user? userId) .noResult
  require (current.deletionRequestedAt = none) sessionExpired
  let live := c.sessions.filter fun s => s.userId = userId ∧ s.revokedAt = none ∧ t 0 < s.expiresAt
  let session ← demand ((live.take 100).find? fun s => sessionReference P s.tokenHash = reference)
    (.account "SESSION_NOT_FOUND" "Session not found" 404)
  let sessions := Rows.update Session.tokenHash c.sessions session.tokenHash ({ · with revokedAt := some (t 1) })
  pure { c with sessions }

end Money
