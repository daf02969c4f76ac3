import Freelancing.Identity.Steps
import Freelancing.Redis
import Freelancing.Txn.Beside

/-!
# Sockets and their sessions

`app/realtime/auth.py`, `presence.py` and `socket.py`, and `require_access_token` of
`app/identity/auth.py`: how a request, a connection and the events of a connected socket find the
user and the session that they act for. A connection leaves its principal in Redis, where the later
events of the socket find it, and the sockets of a user are kept in a set that expires when none of
them gives a sign.

A principal is the pair of its ids, not their JSON text.
-/

namespace Realtime

open Money (UserId Err)
open Identity (Settings User UserSession SessionId Db LockName CommitPoint decodeToken)
open Txn.Service

inductive Key
  | presence (user : UserId)
  | socket (sid : String)
  deriving DecidableEq

abbrev Principal := UserId × SessionId

abbrev Store := Redis.Store Key Principal

abbrev Command := Redis.Command Key Principal

abbrev Answer := Redis.Reply Principal

abbrev Tx := Txn.Prog Db LockName (Txn.Point CommitPoint) Command Answer Err

abbrev Move := Txn.Move Db (Txn.Point CommitPoint) Command Answer Store

def presenceTtlSeconds : Nat := 75

/-- What the clock shows when the token is decoded, when the session is checked and when the socket
is bound. -/
structure Clock where
  decoded : Nat
  now : Nat
  bound : Nat

/-! ## Authentication -/

structure SocketPrincipal where
  user : User
  sessionId : SessionId
  accessExpiresAt : Nat

def decodeSocketToken (cfg : Settings) (now : Nat) (token : String) : Option Identity.Claims :=
  (decodeToken cfg now token "realtime").or (decodeToken cfg now token "access")

/-- The ids, the expiry and the type of a token. -/
def socketClaims (cfg : Settings) (now : Nat) (token : String) :
    Option (UserId × SessionId × Nat × String) := do
  let payload ← decodeSocketToken cfg now token
  let userId ← payload.sub.parse
  let sessionId ← payload.sid.parse
  some (userId, sessionId, payload.exp, payload.type)

def authenticateSocketToken (cfg : Settings) (token : String) (clock : Clock) :
    Tx (Option SocketPrincipal) :=
  match socketClaims cfg clock.decoded token with
  | none => pure none
  | some (userId, sessionId, tokenExpiresAt, tokenType) => do
    let user ← select fun d => d.user? userId
    let session ← select fun d => d.session? sessionId
    match user, session with
    | some user, some session =>
      if !user.isActive || session.user ≠ user.id then pure none
      else if session.revokedAt.isSome || session.expiresAt ≤ clock.now
          || tokenExpiresAt ≤ clock.now then pure none
      else pure (some ⟨user, sessionId,
        if tokenType = "realtime" then session.expiresAt else tokenExpiresAt⟩)
    | _, _ => pure none

def loadSocketUser (userId : UserId) (sessionId : SessionId) (now : Nat) : Tx (Option User) := do
  let user ← select fun d => d.user? userId
  let session ← select fun d => d.session? sessionId
  match user, session with
  | some user, some session =>
    if !user.isActive || session.user ≠ user.id then pure none
    else if session.revokedAt.isSome || session.expiresAt ≤ now then pure none
    else pure (some user)
  | _, _ => pure none

def unauthorized {β : Type} (detail : String) : Tx β :=
  raise (.api ⟨"unauthorized", "Unauthorized", 401, detail⟩)

/-- The user and the session of an HTTP request. -/
def requireAccessToken (cfg : Settings) (token : String) (clock : Clock) : Tx Principal := do
  let claims := do
    let payload ← decodeToken cfg clock.decoded token "access"
    let userId ← payload.sub.parse
    let sessionId ← payload.sid.parse
    some (userId, sessionId)
  match claims with
  | none => unauthorized "Invalid access token"
  | some (userId, sessionId) =>
    let user ← select fun d => d.user? userId
    let session ← select fun d => d.session? sessionId
    match user, session with
    | some user, some session =>
      if !user.isActive || session.user ≠ userId || session.revokedAt.isSome
          || session.expiresAt ≤ clock.now then
        unauthorized "User session is unavailable"
      else pure (user.id, sessionId)
    | _, _ => unauthorized "User session is unavailable"

/-! ## Presence -/

def markConnected (user : UserId) (sid : String) : Tx Unit := do
  let _ ← ask (.sadd (.presence user) sid)
  let _ ← ask (.expire (.presence user) presenceTtlSeconds)

def bindSocket (principal : SocketPrincipal) (sid : String) (now : Nat) : Tx Unit := do
  let expiresIn := max 1 (principal.accessExpiresAt - now)
  let _ ← ask (.set (.socket sid) (principal.user.id, principal.sessionId) expiresIn)
  markConnected principal.user.id sid

def socketIdentity (sid : String) : Tx (Option Principal) := do
  match ← ask (.get (.socket sid)) with
  | .text p => pure (some p)
  | .wrongType => raise (.runtime "WRONGTYPE")
  | _ => pure none

def heartbeat (user : UserId) (sid : String) : Tx Unit := do
  let _ ← ask (.sadd (.presence user) sid)
  let _ ← ask (.expire (.presence user) presenceTtlSeconds)

def unbindSocket (user : UserId) (sid : String) : Tx Unit := do
  let _ ← ask (.delete (.socket sid))
  let _ ← ask (.srem (.presence user) sid)
  match ← ask (.scard (.presence user)) with
  | .int 0 => do
    let _ ← ask (.delete (.presence user))
  | _ => pure ()

def isOnline (user : UserId) : Tx Bool := do
  match ← ask (.present (.presence user)) with
  | .int 1 => pure true
  | _ => pure false

/-! ## Handlers -/

inductive Reply
  | served (p : Principal)
  | connected (p : Principal)
  | refused
  | disconnected
  | online (b : Bool)
  | identity (r : Identity.Reply)

def connect (cfg : Settings) (token sid : String) (clock : Clock) : Tx Reply := do
  match ← authenticateSocketToken cfg token clock with
  | none => pure .refused
  | some principal =>
    bindSocket principal sid clock.bound
    pure (.connected (principal.user.id, principal.sessionId))

def disconnect (sid : String) : Tx Reply := do
  match ← socketIdentity sid with
  | none => pure .disconnected
  | some (userId, _) =>
    unbindSocket userId sid
    pure .disconnected

/-- The user and the session that an event of a socket is served for. -/
def requireSocketUser (sid : String) (now : Nat) : Tx Principal := do
  match ← socketIdentity sid with
  | none => raise (.runtime "Socket is not authenticated")
  | some (userId, sessionId) =>
    match ← loadSocketUser userId sessionId now with
    | none => raise (.runtime "Socket session is unavailable")
    | some user => pure (user.id, sessionId)

def presenceHeartbeat (sid : String) (now : Nat) : Tx Reply := do
  let p ← requireSocketUser sid now
  heartbeat p.1 sid
  pure (.served p)

/-- The parties of the socket layer: HTTP requests, the handlers of a socket, the question whether a
user is online, and the login services. -/
inductive Service
  | http (token : String) (clock : Clock)
  | connect (token sid : String) (clock : Clock)
  | event (sid : String) (now : Nat)
  | heartbeat (sid : String) (now : Nat)
  | disconnect (sid : String)
  | online (user : UserId)
  | identity (x : Identity.Service)

def Service.program (cfg : Settings) : Service → Tx Reply
  | .http token clock => .served <$> requireAccessToken cfg token clock
  | .connect token sid clock => Realtime.connect cfg token sid clock
  | .event sid now => .served <$> requireSocketUser sid now
  | .heartbeat sid now => presenceHeartbeat sid now
  | .disconnect sid => Realtime.disconnect sid
  | .online user => .online <$> isOnline user
  | .identity x => .identity <$> (x.program cfg).closed

abbrev Server := Txn.Sys Db LockName (Txn.Point CommitPoint) Command Answer Err Reply Store

def server (cfg : Settings) (d : Db) (e : Store) (services : Nat → Service) : Server :=
  Txn.Sys.init d e fun i => (services i).program cfg

/-- Redis answers as it does, some time after the command before. -/
def redisAnswers : Move → Prop
  | .call _ q a e e' => ∃ ms, (e', a) = Redis.exec q (e.wait ms)
  | _ => True

end Realtime
