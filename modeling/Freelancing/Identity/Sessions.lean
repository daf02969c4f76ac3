import Freelancing.Table
import Freelancing.Money.Types
import Freelancing.Txn.Service

/-!
# Login sessions

`app/identity/service.py` and `security.py`: a login opens a session and issues a pair of tokens, a
refresh exchanges the refresh token for another pair, a logout revokes the session. The table of the
sessions has the hash of the one refresh token that each of them accepts.

A uuid is a number. Each function takes as arguments the uuids that it draws and the times that its
clock reads. Argon2, the email cipher and the JSON web tokens are parameters of the `Settings`.
-/

namespace Identity

open Money (UserId Err ApiError)
open Txn.Service

abbrev SessionId := Nat
abbrev DeviceId := Nat

/-! ## Rows -/

structure User where
  id : UserId
  emailCiphertext : String
  emailLookupHash : String
  passwordHash : String
  isActive : Bool
  failedLoginAttempts : Nat
  lockedUntil : Option Nat
  roles : List String

structure UserDevice where
  id : DeviceId
  user : UserId
  fingerprintHash : String
  userAgentHash : String
  firstSeenAt : Nat
  lastSeenAt : Nat

structure UserSession where
  id : SessionId
  user : UserId
  device : Option DeviceId
  refreshJtiHash : String
  ipHash : Option String
  userAgentHash : Option String
  expiresAt : Nat
  revokedAt : Option Nat
  lastSeenAt : Nat

structure Db where
  users : List User
  devices : List UserDevice
  sessions : List UserSession

def Db.user? (d : Db) (id : UserId) : Option User := Table.get User.id id d.users

def Db.userByEmail? (d : Db) (lookupHash : String) : Option User :=
  Table.get User.emailLookupHash lookupHash d.users

def Db.device? (d : Db) (user : UserId) (fingerprintHash : String) : Option UserDevice :=
  Table.get (fun x => (x.user, x.fingerprintHash)) (user, fingerprintHash) d.devices

def Db.session? (d : Db) (id : SessionId) : Option UserSession :=
  Table.get UserSession.id id d.sessions

def Db.modifyUser (d : Db) (id : UserId) (f : User → User) : Db :=
  { d with users := Table.modify User.id id f d.users }

def Db.modifyDevice (d : Db) (id : DeviceId) (f : UserDevice → UserDevice) : Db :=
  { d with devices := Table.modify UserDevice.id id f d.devices }

def Db.modifySession (d : Db) (id : SessionId) (f : UserSession → UserSession) : Db :=
  { d with sessions := Table.modify UserSession.id id f d.sessions }

def Db.addDevice (d : Db) (x : UserDevice) : Db := { d with devices := d.devices ++ [x] }

def Db.addSession (d : Db) (x : UserSession) : Db := { d with sessions := d.sessions ++ [x] }

/-! ## Tokens -/

/-- The text of a uuid, or another one. -/
inductive UuidText
  | uuid (n : Nat)
  | other (s : String)
  deriving DecidableEq

def UuidText.parse : UuidText → Option Nat
  | uuid n => some n
  | other _ => none

structure Claims where
  sub : UuidText
  sid : UuidText
  iat : Nat
  exp : Nat
  jti : String
  type : String
  roles : Option (List String)

structure Settings where
  sha256 : String → String
  /-- `_email_lookup_hash` of the stripped and lowercased address. -/
  emailLookupHash : String → String
  needsRotation : String → Bool
  rewrap : String → String
  verifyPassword : String → String → Bool
  dummyPasswordHash : String
  accessTokenTtlSeconds : Nat
  refreshTokenTtlSeconds : Nat
  authMaxFailedAttempts : Nat
  authLockSeconds : Nat
  jwtEncode : Claims → String
  /-- The claims of a token that is valid at the time. -/
  jwtDecode : Nat → String → Option Claims

def Settings.hashJti (cfg : Settings) (jti : String) : String := cfg.sha256 jti

structure TokenPair where
  access : String
  refresh : String

/-- The uuids of a new token pair, as texts. -/
structure NewTokens where
  accessJti : String
  refreshJti : String

def issueTokenPair (cfg : Settings) (user : User) (session : SessionId) (now : Nat)
    (ids : NewTokens) : TokenPair × String × Nat :=
  let refreshExpiry := now + cfg.refreshTokenTtlSeconds
  let access := cfg.jwtEncode ⟨.uuid user.id, .uuid session, now, now + cfg.accessTokenTtlSeconds,
    ids.accessJti, "access", some user.roles⟩
  let refresh := cfg.jwtEncode ⟨.uuid user.id, .uuid session, now, refreshExpiry, ids.refreshJti,
    "refresh", none⟩
  (⟨access, refresh⟩, ids.refreshJti, refreshExpiry)

/-- `none` is a `ValueError`. -/
def decodeToken (cfg : Settings) (now : Nat) (token expectedType : String) : Option Claims :=
  (cfg.jwtDecode now token).filter fun c => c.type = expectedType

/-! ## Database sessions -/

inductive LockName
  | user (id : UserId)
  | device (id : DeviceId)
  | deviceOf (user : UserId) (fingerprintHash : String)
  | session (id : SessionId)
  | jtiHash (h : String)
  deriving DecidableEq

/-- The commits of the services, with the copy of the session that a refresh has loaded. -/
inductive CommitPoint
  | loginRejected (user : UserId)
  | loggedIn (x : UserSession)
  | refreshed (loaded : UserSession) (hash : String)
  | revoked (id : SessionId)

abbrev Tx := Txn.Prog Db LockName (Txn.Point CommitPoint) Empty Empty Err

def raiseApi {β : Type} (type title : String) (status : Nat) (detail : String) : Tx β :=
  raise (.api ⟨type, title, status, detail⟩)

def invalidCredentials : Err :=
  .api ⟨"invalid_credentials", "Invalid credentials", 401, "Email or password is incorrect"⟩

def sessionUnavailable : Err :=
  .api ⟨"unauthorized", "Unauthorized", 401, "Refresh session is unavailable"⟩

/-! ## Login -/

structure ClientContext where
  ipHash : Option String
  userAgentHash : String
  fingerprintHash : String

/-- The uuids that a login draws. -/
structure NewSession where
  session : SessionId
  device : DeviceId
  tokens : NewTokens

/-- The device that a session is opened on. -/
def sessionDevice (user : User) (context : ClientContext) (now : Nat) (id : DeviceId) :
    Tx DeviceId := do
  let device ← select fun d => d.device? user.id context.fingerprintHash
  match device with
  | none =>
    reserve .integrity (.deviceOf user.id context.fingerprintHash)
      fun d => (d.device? user.id context.fingerprintHash).isSome
    write fun d => d.addDevice
      ⟨id, user.id, context.fingerprintHash, context.userAgentHash, now, now⟩
    pure id
  | some device =>
    update (.device device.id) fun d => d.modifyDevice device.id fun x =>
      { x with lastSeenAt := now }
    pure device.id

def createSession (cfg : Settings) (user : User) (context : Option ClientContext) (now : Nat)
    (ids : NewSession) : Tx (TokenPair × UserSession) := do
  let (tokens, refreshJti, refreshExpiry) := issueTokenPair cfg user ids.session now ids.tokens
  let device ← match context with
    | none => pure none
    | some context => some <$> sessionDevice user context now ids.device
  let session : UserSession := {
    id := ids.session
    user := user.id
    device := device
    refreshJtiHash := cfg.hashJti refreshJti
    ipHash := context.bind ClientContext.ipHash
    userAgentHash := context.map ClientContext.userAgentHash
    expiresAt := refreshExpiry
    revokedAt := none
    lastSeenAt := now }
  reserve .integrity (.session session.id) fun d => (d.session? session.id).isSome
  reserve .integrity (.jtiHash session.refreshJtiHash)
    fun d => d.sessions.any fun x => x.refreshJtiHash = session.refreshJtiHash
  write fun d => d.addSession session
  pure (tokens, session)

def User.failLogin (cfg : Settings) (now : Nat) (user : User) : User :=
  let failed := user.failedLoginAttempts + 1
  if failed ≥ cfg.authMaxFailedAttempts then
    { user with lockedUntil := some (now + cfg.authLockSeconds), failedLoginAttempts := 0 }
  else { user with failedLoginAttempts := failed }

def User.succeedLogin (cfg : Settings) (user : User) : User :=
  { user with
    failedLoginAttempts := 0
    lockedUntil := none
    emailCiphertext :=
      if cfg.needsRotation user.emailCiphertext then cfg.rewrap user.emailCiphertext
      else user.emailCiphertext }

def loginUser (cfg : Settings) (email password : String) (context : Option ClientContext)
    (now : Nat) (ids : NewSession) : Tx (User × TokenPair) := do
  let user ← selectForUpdate (fun u => .user u.id) fun d =>
    d.userByEmail? (cfg.emailLookupHash email)
  let passwordOk := cfg.verifyPassword
    ((user.map User.passwordHash).getD cfg.dummyPasswordHash) password
  match user with
  | none => raise invalidCredentials
  | some user =>
    require user.isActive invalidCredentials
    if user.lockedUntil.any fun t => t > now then
      commit (.loginRejected user.id)
      raise invalidCredentials
    else if !passwordOk then
      write fun d => d.modifyUser user.id fun _ => user.failLogin cfg now
      commit (.loginRejected user.id)
      raise invalidCredentials
    else
      write fun d => d.modifyUser user.id fun _ => user.succeedLogin cfg
      let (tokens, session) ← createSession cfg (user.succeedLogin cfg) context now ids
      commit (.loggedIn session)
      pure (user.succeedLogin cfg, tokens)

/-! ## Refresh and logout -/

/-- The session, the user and the hash of the token's id, when the token is a valid refresh
token. -/
def Settings.presented (cfg : Settings) (now : Nat) (refreshToken : String) :
    Option (SessionId × UserId × String) := do
  let payload ← decodeToken cfg now refreshToken "refresh"
  let sessionId ← payload.sid.parse
  let userId ← payload.sub.parse
  some (sessionId, userId, cfg.hashJti payload.jti)

/-- The clock is read when the token is decoded, when the session is checked and when the new tokens
are issued. -/
structure Clock where
  decoded : Nat
  now : Nat
  issued : Nat

def UserSession.rotate (hash : String) (expiry now : Nat) (x : UserSession) : UserSession :=
  { x with refreshJtiHash := hash, expiresAt := expiry, lastSeenAt := now }

/-- The `SELECT` takes no lock; the `UPDATE` at the commit does. -/
def refreshSession (cfg : Settings) (refreshToken : String) (clock : Clock) (ids : NewTokens) :
    Tx TokenPair :=
  match cfg.presented clock.decoded refreshToken with
  | none => raiseApi "unauthorized" "Unauthorized" 401 "Invalid refresh token"
  | some (sessionId, userId, jtiHash) => do
    let session ← select fun d => d.session? sessionId
    match session with
    | none => raise sessionUnavailable
    | some session =>
      require (!(session.user ≠ userId || session.revokedAt.isSome
        || session.expiresAt ≤ clock.now || session.refreshJtiHash ≠ jtiHash)) sessionUnavailable
      let user ← select fun d => d.user? session.user
      match user with
      | none => raise (.runtime "'NoneType' object has no attribute 'roles'")
      | some user =>
        let (tokens, refreshJti, refreshExpiry) :=
          issueTokenPair cfg user session.id clock.issued ids
        update (.session session.id) fun d =>
          d.modifySession session.id (.rotate (cfg.hashJti refreshJti) refreshExpiry clock.now)
        reserve .integrity (.jtiHash (cfg.hashJti refreshJti)) fun d =>
          d.sessions.any fun x => x.id ≠ session.id ∧ x.refreshJtiHash = cfg.hashJti refreshJti
        commit (.refreshed session (cfg.hashJti refreshJti))
        pure tokens

def UserSession.revoke (now : Nat) (x : UserSession) :
    UserSession := { x with revokedAt := some now }

/-- A request that has loaded the session before, as the logout does, goes on with that copy. -/
def revokeSession (sessionId : SessionId) (actor : UserId) (now : Nat) : Tx Unit := do
  let session ← select fun d => d.session? sessionId
  match session with
  | none => pure ()
  | some session =>
    if session.user = actor ∧ session.revokedAt = none then
      update (.session session.id) fun d =>
        d.modifySession session.id (.revoke now)
      commit (.revoked session.id)
    else pure ()

end Identity
