import Freelancing.Aead
import Freelancing.Base64
import Freelancing.CodePoints
import Mathlib.Data.List.DropRight

/-!
# Encrypted personal data

`app/identity/pii.py`: the keyring that is parsed from the configuration, and the envelopes of
values that are encrypted under its active key, `v1:key-id:payload`.
-/

namespace Pii

open CodePoints (text partition)

abbrev Bytes := List UInt8

/-! ## Parsing -/

def NONCE_BYTES : Nat := 12

def KEY_BYTES : Nat := 32

def VERSION : CodePoints := text "v1"

/-- `string.ascii_letters + string.digits + "._-"`. -/
def KEY_ID_CHARS : CodePoints :=
  text "abcdefghijklmnopqrstuvwxyzABCDEFGHIJKLMNOPQRSTUVWXYZ0123456789._-"

/-- All of them are a `ValueError` but the `KeyError`. -/
inductive PiiError
  | value (message : CodePoints)
  | binascii
  | unicode
  | key
  deriving DecidableEq

/-- The URL-safe alphabet. `altchars` puts its digits in place of `+` and `/`, which still are
digits. -/
def urlSafe : Base64 Nat where
  digit n :=
    if n < 26 then 65 + n else if n < 52 then 71 + n else if n < 62 then n - 4
      else if n = 62 then 45 else 95
  value c :=
    if 65 ≤ c ∧ c ≤ 90 then some (c - 65)
    else if 97 ≤ c ∧ c ≤ 122 then some (c - 71)
    else if 48 ≤ c ∧ c ≤ 57 then some (c + 4)
    else if c = 45 ∨ c = 43 then some 62
    else if c = 95 ∨ c = 47 then some 63
    else none
  pad := 61
  value_digit := by decide
  value_pad := rfl

def decodeBase64 (value : CodePoints) : Except PiiError Bytes :=
  let padded := urlSafe.padded value
  if padded.any (128 ≤ ·) then .error .unicode
  else match urlSafe.decode padded with
    | none => .error .binascii
    | some decoded => .ok decoded

def decodeKey (value name : CodePoints) : Except PiiError Bytes :=
  match decodeBase64 value with
  | .error _ => .error (.value (name ++ text " must be URL-safe base64"))
  | .ok decoded =>
    if decoded.length ≠ KEY_BYTES then .error
      (.value (name ++ text " must decode to exactly 32 bytes"))
    else .ok decoded

def validKeyId (value : CodePoints) : Bool :=
  1 ≤ value.length && value.length ≤ 40 && value.all KEY_ID_CHARS.contains

/-! ## The keyring -/

abbrev Keys := List (CodePoints × Bytes)

structure PiiCipher where
  activeKeyId : CodePoints
  keys : Keys
  lookupKey : Bytes
  deriving DecidableEq

/-- The loop of `from_config` over the parts between commas. -/
def parseEntries :
    List CodePoints → Keys → Option CodePoints → Except PiiError (Keys × Option CodePoints)
  | [], parsed, active => .ok (parsed, active)
  | rawEntry :: rest, parsed, active =>
    let entry := CodePoints.strip rawEntry
    if entry = [] then parseEntries rest parsed active
    else
      let (keyId, separator, encodedKey) := partition 58 entry
      if !separator || !validKeyId keyId then
        .error (.value (text "PII encryption key entries must use key-id:base64-key format"))
      else if (parsed.lookup keyId).isSome then
        .error (.value (text "Duplicate PII encryption key id: " ++ keyId))
      else
        match decodeKey encodedKey (text "PII encryption key " ++ keyId) with
        | .error e => .error e
        | .ok key => parseEntries rest (parsed ++ [(keyId, key)]) (active.or (some keyId))

def fromConfig (encryptionKeys lookupKey : CodePoints) : Except PiiError PiiCipher := do
  let (parsed, active) ← parseEntries (encryptionKeys.splitOnP (· == 44)) [] none
  match active with
  | none => .error (.value (text "At least one PII encryption key is required"))
  | some activeKeyId =>
    let lookupKey ← decodeKey lookupKey (text "PII lookup key")
    return ⟨activeKeyId, parsed, lookupKey⟩

/-! ## Envelopes -/

/-- What `os.urandom` returns. -/
abbrev Nonce := { n : Bytes // n.length = NONCE_BYTES }

def aad (context : CodePoints) : Option Bytes :=
  CodePoints.encode (text "freelancing-platform:pii:" ++ context ++ text ":" ++ VERSION)

def envelope (keyId : CodePoints) (payload : Bytes) : CodePoints :=
  VERSION ++ 58 :: (keyId ++ 58 :: (urlSafe.encode payload).rdropWhile (· == 61))

variable (A : Aead) (ring : PiiCipher)

def encrypt (nonce : Nonce) (value context : CodePoints) : Except PiiError CodePoints :=
  match ring.keys.lookup ring.activeKeyId with
  | none => .error .key
  | some key =>
    match CodePoints.encode value, aad context with
    | some plaintext, some aad =>
      .ok (envelope ring.activeKeyId (nonce.1 ++ A.encrypt key nonce.1 aad plaintext))
    | _, _ => .error .unicode

/-- The `try` of `decrypt`: whatever fails in it, the ciphertext is invalid. -/
def openPayload (key : Bytes) (encodedPayload context : CodePoints) : Option Bytes :=
  match decodeBase64 encodedPayload with
  | .error _ => none
  | .ok payload =>
    if payload.length ≤ NONCE_BYTES then none
    else match aad context with
      | none => none
      | some aad => A.decrypt key (payload.take NONCE_BYTES) aad (payload.drop NONCE_BYTES)

def decrypt (value context : CodePoints) : Except PiiError CodePoints :=
  let (version, separator, remainder) := partition 58 value
  let (keyId, secondSeparator, encodedPayload) := partition 58 remainder
  if version ≠ VERSION || !separator || !secondSeparator then
    .error (.value (text "Unsupported PII ciphertext envelope"))
  else match ring.keys.lookup keyId with
    | none => .error (.value (text "PII ciphertext references unavailable key id: " ++ keyId))
    | some key =>
      match openPayload A key encodedPayload context with
      | none => .error (.value (text "Invalid PII ciphertext"))
      | some plaintext =>
        match CodePoints.decode plaintext with
        | none => .error .unicode
        | some value => .ok value

def needsRotation (value : CodePoints) : Except PiiError Bool :=
  let (version, separator, remainder) := partition 58 value
  let (keyId, secondSeparator, _) := partition 58 remainder
  if version ≠ VERSION || !separator || !secondSeparator then
    .error (.value (text "Unsupported PII ciphertext envelope"))
  else .ok (keyId ≠ ring.activeKeyId)

def rewrap (nonce : Nonce) (value context : CodePoints) : Except PiiError CodePoints := do
  let needed ← needsRotation ring value
  if !needed then return value
  else
    let plaintext ← decrypt A ring value context
    encrypt A ring nonce plaintext context

def EMAIL_CONTEXT : CodePoints := text "user.email"

/-- Whether the ciphertext of a user's address was replaced, and the one that is stored then. -/
def rotateEmailEncryptionIfNeeded (nonce : Nonce) (ciphertext : CodePoints) :
    Except PiiError (Bool × CodePoints) := do
  let needed ← needsRotation ring ciphertext
  if !needed then return (false, ciphertext)
  else
    let rewrapped ← rewrap A ring nonce ciphertext EMAIL_CONTEXT
    return (true, rewrapped)

/-! ## What is parsed -/

/-- A part that is an entry: its key, under an id that is new. -/
structure IsEntry (parsed : Keys) (entry keyId encodedKey : CodePoints) (key : Bytes) : Prop where
  nonempty : entry ≠ []
  parts : partition 58 entry = (keyId, true, encodedKey)
  id : validKeyId keyId = true
  new : parsed.lookup keyId = none
  key : decodeKey encodedKey (text "PII encryption key " ++ keyId) = .ok key

/-- The parts are blank or entries. -/
theorem parseEntries_cons_iff {rawEntry : CodePoints} {rest : List CodePoints} {parsed : Keys}
    {active : Option CodePoints} {r : Keys × Option CodePoints} :
    parseEntries (rawEntry :: rest) parsed active = .ok r ↔
      (CodePoints.strip rawEntry = [] ∧ parseEntries rest parsed active = .ok r) ∨
      ∃ keyId encodedKey key, IsEntry parsed (CodePoints.strip rawEntry) keyId encodedKey key ∧
        parseEntries rest (parsed ++ [(keyId, key)]) (active.or (some keyId)) = .ok r := by
  rw [parseEntries]
  by_cases hblank : CodePoints.strip rawEntry = []
  · simp only [hblank, if_true, true_and]
    constructor
    · exact .inl
    · intro h
      rcases h with h | ⟨_, _, _, he, _⟩
      · exact h
      · exact absurd rfl he.nonempty
  rcases hparts : partition 58 (CodePoints.strip rawEntry) with ⟨keyId, separator, encodedKey⟩
  simp only [hblank, if_false, false_and, false_or]
  constructor
  · intro h
    by_cases hid : (!separator || !validKeyId keyId) = true
    · simp [hid] at h
    rw [if_neg hid] at h
    by_cases hnew : (parsed.lookup keyId).isSome = true
    · simp [hnew] at h
    rw [if_neg hnew] at h
    simp only [Bool.or_eq_true, Bool.not_eq_true', not_or, Bool.not_eq_false] at hid
    obtain ⟨rfl, hid⟩ := hid
    cases hkey : decodeKey encodedKey (text "PII encryption key " ++ keyId) with
    | error _ => simp [hkey] at h
    | ok key =>
      rw [hkey] at h
      have hnone : parsed.lookup keyId = none := by
        rwa [Bool.not_eq_true, Option.isSome_eq_false_iff, Option.isNone_iff_eq_none] at hnew
      exact ⟨keyId, encodedKey, key, ⟨hblank, hparts, hid, hnone, hkey⟩, h⟩
  · intro h
    obtain ⟨keyId', encodedKey', key, he, h⟩ := h
    have hsame := he.parts
    rw [hparts] at hsame
    cases hsame
    simp only [he.id, he.new, he.key, Bool.not_true, Bool.or_self, Option.isSome_none, if_false,
      Bool.false_eq_true]
    exact h

theorem fromConfig_eq_ok_iff {encryptionKeys lookupKey : CodePoints} {ring : PiiCipher} :
    fromConfig encryptionKeys lookupKey = .ok ring ↔
      parseEntries (encryptionKeys.splitOnP (· == 44))
        [] none = .ok (ring.keys, some ring.activeKeyId) ∧
      decodeKey lookupKey (text "PII lookup key") = .ok ring.lookupKey := by
  unfold fromConfig
  cases hparse : parseEntries (encryptionKeys.splitOnP (· == 44)) [] none with
  | error e => simp [bind, Except.bind]
  | ok r =>
    obtain ⟨keys, active⟩ := r
    cases active with
    | none => simp [bind, Except.bind]
    | some activeKeyId =>
      cases hkey : decodeKey lookupKey (text "PII lookup key") with
      | error e => simp [bind, Except.bind]
      | ok key =>
        simp only [bind, Except.bind, pure, Except.pure, Except.ok.injEq, Prod.mk.injEq,
          Option.some.injEq]
        constructor
        · intro h
          rw [← h]
          exact ⟨⟨rfl, rfl⟩, rfl⟩
        · intro h
          obtain ⟨⟨rfl, rfl⟩, rfl⟩ := h
          rfl

end Pii
