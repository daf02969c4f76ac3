import Freelancing.Identity.Sessions
import Freelancing.Text

/-!
# Multi-factor authentication

`app/identity/service.py` and `mfa.py`: a user starts the enrollment of an authenticator, confirms
it with a code of it, which yields eight recovery codes, and answers challenges with a code of the
authenticator or with a recovery code.

A request takes what it draws and the times that its clock reads as arguments. The keyed hashes are
parameters of the `Settings`.
-/

namespace Identity.Mfa

open Money (UserId Err strip)
open Txn.Service

abbrev VerificationId := Nat

/-! ## Rows -/

structure Account extends User where
  mfaSeed : Option String
  mfaEnabledAt : Option Nat

structure LoginSession extends UserSession where
  mfaVerifiedAt : Option Nat

/-- A row of `user_verifications`. -/
structure Verification where
  id : VerificationId
  user : UserId
  kind : String
  tokenHash : String
  consumedAt : Option Nat
  deriving DecidableEq

structure Db where
  users : List Account
  sessions : List LoginSession
  verifications : List Verification

def Db.user? (d : Db) (id : UserId) : Option Account := Table.get (fun u => u.id) id d.users

def Db.session? (d : Db) (id : SessionId) :
    Option LoginSession := Table.get (fun x => x.id) id d.sessions

def Db.verification? (d : Db) (id : VerificationId) : Option Verification :=
  Table.get Verification.id id d.verifications

def Db.modifyUser (d : Db) (id : UserId) (f : Account → Account) : Db :=
  { d with users := Table.modify (fun u => u.id) id f d.users }

def Db.modifySession (d : Db) (id : SessionId) (f : LoginSession → LoginSession) : Db :=
  { d with sessions := Table.modify (fun x => x.id) id f d.sessions }

def Db.modifyVerification (d : Db) (id : VerificationId) (f : Verification → Verification) : Db :=
  { d with verifications := Table.modify Verification.id id f d.verifications }

def Db.addVerification (d : Db) (x : Verification) : Db :=
  { d with verifications := d.verifications ++ [x] }

def Db.deleteVerification (d : Db) (id : VerificationId) : Db :=
  { d with verifications := d.verifications.filter fun x => x.id ≠ id }

/-! ## Codes -/

structure Settings extends Identity.Settings where
  /-- `totp_secret` of a user's id and seed. -/
  totpSecret : UserId → String → String
  totpCodeForSecret : String → Int → String
  /-- The digits beyond ASCII. -/
  otherDigit : Char → Bool
  /-- The keyed hash of a user's id and a normalized recovery code. -/
  recoveryHash : UserId → String → String
  mfaStepUpTtlSeconds : Nat

def totpPeriodSeconds : Nat := 30

def totpDigits : Nat := 6

def totpWindow : List Int := [-1, 0, 1]

def recoveryCodeCount : Nat := 8

def mfaRecoveryKind : String := "mfa_recovery"

/-- `str.replace(c, "")`. -/
def without (c : Char) (s : String) : String := String.ofList (s.toList.filter fun x => x ≠ c)

def Settings.isDigit (cfg : Settings) (c : Char) : Bool :=
  c.isDigit || (128 ≤ c.toNat && cfg.otherDigit c)

/-- `hmac.compare_digest` refuses texts that are not ASCII. -/
def verifyTotp (cfg : Settings) (user : UserId) (seed code : String) (moment : Nat) :
    Except Err Bool :=
  let normalized := without ' ' (strip code)
  if normalized.length ≠ totpDigits || !normalized.toList.all cfg.isDigit then .ok false
  else if normalized.toList.any fun c => 128 ≤ c.toNat then .error (.runtime "TypeError")
  else
    let counter : Int := (moment / totpPeriodSeconds : Nat)
    .ok (totpWindow.any fun offset =>
      normalized = cfg.totpCodeForSecret (cfg.totpSecret user seed) (counter + offset))

def normalizeRecoveryCode (code : String) : String :=
  Text.upper (without ' ' (without '-' (strip code)))

def hashRecoveryCode (cfg : Settings) (user : UserId) (code : String) : String :=
  cfg.recoveryHash user (normalizeRecoveryCode code)

/-- A column that is neither `NULL` nor empty. -/
def nonempty (s : Option String) : Option String := s.filter fun s => s ≠ ""

/-! ## Database sessions -/

inductive LockName
  | user (id : UserId)
  | session (id : SessionId)
  | verification (id : VerificationId)
  | tokenHash (h : String)
  deriving DecidableEq

inductive CommitPoint
  | started (user : UserId)
  | confirmed (user : UserId) (codes : List Verification)
  | challengeFailed
  | verified
  | recovered (loaded : Verification)

abbrev Tx := Txn.Prog Db LockName (Txn.Point CommitPoint) Empty Empty Err

def apiError (type title : String) (status : Nat) (detail : String) : Err :=
  .api ⟨type, title, status, detail⟩

def ofExcept {β : Type} : Except Err β → Tx β
  | .ok x => pure x
  | .error e => raise e

/-- The user and the session of an access token, and when it is checked. -/
structure Bearer where
  user : UserId
  session : SessionId
  checkedAt : Nat

/-- `require_access_token`, once the token is decoded. What it loads is what the request has of the
user and the session until it commits. -/
def requireAccessToken (bearer : Bearer) : Tx (Account × LoginSession) := do
  let user ← select fun d => d.user? bearer.user
  let session ← select fun d => d.session? bearer.session
  match user, session with
  | some user, some session =>
    require (user.isActive && session.user = bearer.user && session.revokedAt.isNone
      && bearer.checkedAt < session.expiresAt)
      (apiError "unauthorized" "Unauthorized" 401 "User session is unavailable")
    pure (user, session)
  | _, _ => raise (apiError "unauthorized" "Unauthorized" 401 "User session is unavailable")

/-! ## Enrollment -/

def mfaAlreadyEnabled : Err :=
  apiError "mfa_already_enabled" "MFA already enabled" 409 "MFA is already enabled"

/-- What `secrets.token_hex` draws. -/
structure HexToken where
  text : String
  nonempty : text ≠ ""

/-- The secret. After the commit the user is loaded again. -/
def startTotpEnrollment (cfg : Settings) (user : Account) (password : String) (newSeed : HexToken) :
    Tx String := do
  require (cfg.verifyPassword user.passwordHash password)
    (apiError "invalid_credentials" "Invalid credentials" 401 "Current password is incorrect")
  require user.mfaEnabledAt.isNone mfaAlreadyEnabled
  match nonempty user.mfaSeed with
  | some seed => pure (cfg.totpSecret user.id seed)
  | none =>
    update (.user user.id) fun d => d.modifyUser user.id ({ · with mfaSeed := some newSeed.text })
    commit (.started user.id)
    let seed ← select fun d => (d.user? user.id).bind fun u => nonempty u.mfaSeed
    match seed with
    | some seed => pure (cfg.totpSecret user.id seed)
    | none => raise (.value "MFA enrollment has not started")

def deleteAll : List VerificationId → Tx Unit
  | [] => pure ()
  | id :: ids => do
    update (.verification id) fun d => d.deleteVerification id
    deleteAll ids

def insertAll : List Verification → Tx Unit
  | [] => pure ()
  | x :: xs => do
    reserve .integrity (.verification x.id) fun d => (d.verification? x.id).isSome
    reserve .integrity (.tokenHash x.tokenHash) fun d => d.verifications.any fun y =>
      y.tokenHash = x.tokenHash
    write fun d => d.addVerification x
    insertAll xs

def Db.recoveryCodes (d : Db) (user : UserId) : List Verification :=
  d.verifications.filter fun x => x.user = user && x.kind = mfaRecoveryKind

/-- The recovery codes that a confirmation draws, and the ids of their rows. -/
structure NewCodes where
  code : Fin recoveryCodeCount → String
  row : Fin recoveryCodeCount → VerificationId

def NewCodes.codes (x : NewCodes) : List String := List.ofFn x.code

def NewCodes.rows (cfg : Settings) (user : UserId) (x : NewCodes) : List Verification :=
  List.ofFn fun i => ⟨x.row i, user, mfaRecoveryKind, hashRecoveryCode cfg user (x.code i), none⟩

structure ConfirmReply where
  recoveryCodes : List String
  verifiedUntil : Option Nat

/-- `mfa_verified_until` of the session, loaded again after the commit. -/
def verifiedUntil (cfg : Settings) (session : SessionId) : Tx (Option Nat) :=
  select fun d => (d.session? session).bind fun x =>
    x.mfaVerifiedAt.map (· + cfg.mfaStepUpTtlSeconds)

/-- The code is checked at one reading of the clock, the enrollment is dated by the next. -/
def confirmTotpEnrollment (cfg : Settings) (user : Account) (session : LoginSession) (code : String)
    (checkedAt now : Nat) (new : NewCodes) : Tx ConfirmReply := do
  require user.mfaEnabledAt.isNone mfaAlreadyEnabled
  match nonempty user.mfaSeed with
  | none => raise (apiError "mfa_enrollment_required" "MFA enrollment required" 409
      "Start MFA enrollment before confirming it")
  | some seed =>
    let totp ← ofExcept (verifyTotp cfg user.id seed code checkedAt)
    require totp (apiError "invalid_mfa_code" "Invalid MFA code" 422 "The MFA code is invalid")
    update (.user user.id) fun d => d.modifyUser user.id ({ · with mfaEnabledAt := some now })
    update (.session session.id) fun d =>
      d.modifySession session.id ({ · with mfaVerifiedAt := some now })
    let old ← select fun d => (d.recoveryCodes user.id).map Verification.id
    deleteAll old
    insertAll (new.rows cfg user.id)
    commit (.confirmed user.id (new.rows cfg user.id))
    let expiry ← verifiedUntil cfg session.id
    pure ⟨new.codes, expiry⟩

/-! ## Challenges -/

structure ChallengeReply where
  verifiedUntil : Option Nat
  recoveryCodeUsed : Bool

/-- The code that is neither a code of the authenticator: the row of it, locked and consumed. -/
def useRecoveryCode (cfg : Settings) (user : UserId) (code : String) (now : Nat) :
    Tx Verification := do
  let recoveryHash := hashRecoveryCode cfg user code
  let recovery ← selectForUpdate (fun x => .verification x.id) fun d =>
    d.verifications.find? fun x => x.user = user && x.kind = mfaRecoveryKind &&
      x.tokenHash = recoveryHash && x.consumedAt.isNone
  match recovery with
  | none =>
    commit .challengeFailed
    raise (apiError "invalid_mfa_code" "Invalid MFA code" 401 "The MFA code is invalid")
  | some recovery =>
    write fun d => d.modifyVerification recovery.id ({ · with consumedAt := some now })
    pure recovery

def acceptChallenge (cfg : Settings) (session : SessionId) (now : Nat) (p : CommitPoint)
    (recoveryUsed : Bool) : Tx ChallengeReply := do
  update (.session session) fun d => d.modifySession session ({ · with mfaVerifiedAt := some now })
  commit p
  let expiry ← verifiedUntil cfg session
  pure ⟨expiry, recoveryUsed⟩

def verifyMfaChallenge (cfg : Settings) (user : Account) (session : LoginSession) (code : String)
    (now : Nat) : Tx ChallengeReply := do
  match user.mfaEnabledAt, nonempty user.mfaSeed with
  | some _, some seed =>
    let totp ← ofExcept (verifyTotp cfg user.id seed code now)
    if totp then acceptChallenge cfg session.id now .verified false
    else
      let recovery ← useRecoveryCode cfg user.id code now
      acceptChallenge cfg session.id now (.recovered recovery) true
  | _, _ => raise (apiError "mfa_enrollment_required" "MFA enrollment required" 403
      "Enroll MFA before attempting a challenge")

end Identity.Mfa
