import Freelancing.Pii.Cipher

/-!
# Start-up validation of the keys

`app/config.py` checks the keyring and the lookup key with parsers of its own. They accept what
`PiiCipher.from_config` accepts (`startup_agrees`): a key id of ASCII letters and digits is the same
by `str.isalnum` as by its set of characters, and a duplicate is found in a set of ids as in the
keys.
-/

namespace Pii

open CodePoints (text partition)

/-- What the validation uses of Unicode. -/
structure Alnum where
  isalnum : Nat → Bool
  ascii : ∀ c < 128, isalnum c =
    ((48 ≤ c && c ≤ 57) || (65 ≤ c && c ≤ 90) || (97 ≤ c && c ≤ 122))

variable (U : Alnum)

/-- `_comma_list`. -/
def commaList (value : CodePoints) : List CodePoints :=
  ((value.splitOnP (· == 44)).map CodePoints.strip).filter (· ≠ [])

/-- The message of the `RuntimeError`. -/
def validateBase64Key (name value : CodePoints) : Except CodePoints Unit :=
  match decodeBase64 value with
  | .error _ => .error (name ++ text " must be URL-safe base64")
  | .ok decoded => if decoded.length ≠ 32 then .error
      (name ++ text " must decode to exactly 32 bytes") else .ok ()

/-- The test of the id of an entry. -/
def malformedId (separator : Bool) (keyId : CodePoints) : Bool :=
  !separator || keyId = [] || 40 < keyId.length || !keyId.all (· < 128) ||
    keyId.any fun c => !(U.isalnum c || (text "._-").contains c)

/-- The loop of `_validate_pii_encryption_keys`. -/
def validateEntries : List CodePoints → List CodePoints → Except CodePoints Unit
  | [], _ => .ok ()
  | entry :: entries, seen =>
    let (keyId, separator, encodedKey) := partition 58 entry
    if malformedId U separator keyId then
      .error (text "PII_ENCRYPTION_KEYS entries must use ASCII key-id:base64-key format")
    else if seen.contains keyId then
      .error (text "PII_ENCRYPTION_KEYS contains duplicate key id: " ++ keyId)
    else
      match validateBase64Key (text "PII encryption key " ++ keyId) encodedKey with
      | .error e => .error e
      | .ok () => validateEntries entries (keyId :: seen)

def validatePiiEncryptionKeys (value : CodePoints) : Except CodePoints Unit :=
  let entries := commaList value
  if entries = [] then .error (text "PII_ENCRYPTION_KEYS must contain at least one key")
  else validateEntries U entries []

/-- What the settings do with the two values. -/
def validatePii (encryptionKeys lookupKey : CodePoints) : Except CodePoints Unit := do
  validatePiiEncryptionKeys U encryptionKeys
  validateBase64Key (text "PII_LOOKUP_KEY") lookupKey

/-! ## Keys and ids -/

variable {U} {value name name' keyId : CodePoints} {separator : Bool}

theorem validateBase64Key_iff :
    validateBase64Key name value = .ok () ↔ ∃ key, decodeKey value name' = .ok key := by
  unfold validateBase64Key decodeKey
  cases decodeBase64 value with
  | error _ => simp
  | ok decoded =>
    by_cases hlen : decoded.length = 32
    · simp [hlen, KEY_BYTES]
    · simp [hlen, KEY_BYTES]

theorem keyIdChars_iff (c : Nat) : KEY_ID_CHARS.contains c = true ↔
    c < 128 ∧ (U.isalnum c || (text "._-").contains c) = true := by
  have hascii : ∀ c ∈ KEY_ID_CHARS, c < 128 := by decide
  have hsame : ∀ c < 128, KEY_ID_CHARS.contains c =
      ((48 ≤ c && c ≤ 57) || (65 ≤ c && c ≤ 90) || (97 ≤ c && c ≤ 122) ||
        (text "._-").contains c) := by
    decide +kernel
  constructor
  · intro h
    have hc : c < 128 := hascii c (List.contains_iff_mem.1 h)
    rw [hsame c hc, ← U.ascii c hc] at h
    exact ⟨hc, h⟩
  · intro h
    rw [hsame c h.1, ← U.ascii c h.1]
    exact h.2

/-- The two tests of an id agree. -/
theorem malformedId_iff : ¬ malformedId U separator keyId = true ↔
    separator = true ∧ validKeyId keyId = true := by
  have hlen : 1 ≤ keyId.length ↔ keyId ≠ [] := List.length_pos_iff
  have hchars : keyId.all KEY_ID_CHARS.contains = true ↔ keyId.all (· < 128) = true ∧
      ¬ keyId.any (fun c => !(U.isalnum c || (text "._-").contains c)) = true := by
    simp only [List.all_eq_true, List.any_eq_true, keyIdChars_iff (U := U), not_exists, not_and,
      Bool.not_eq_true', Bool.not_eq_false, decide_eq_true_eq]
    constructor
    · exact fun h => ⟨fun c hc => (h c hc).1, fun c hc => (h c hc).2⟩
    · exact fun h c hc => ⟨h.1 c hc, h.2 c hc⟩
  unfold validKeyId
  rw [Bool.and_eq_true, Bool.and_eq_true, hchars, decide_eq_true_eq, decide_eq_true_eq, hlen]
  simp only [malformedId, Bool.or_eq_true, Bool.not_eq_true', not_or, Bool.not_eq_false,
    decide_eq_true_eq, Nat.not_lt]
  constructor
  · intro h
    exact ⟨h.1.1.1.1, ⟨h.1.1.1.2, h.1.1.2⟩, h.1.2, h.2⟩
  · intro h
    exact ⟨⟨⟨⟨h.1, h.2.1.1⟩, h.2.1.2⟩, h.2.2.1⟩, h.2.2.2⟩

/-! ## The loops -/

theorem validateEntries_cons_iff {entry : CodePoints} {entries seen : List CodePoints} :
    validateEntries U (entry :: entries) seen = .ok () ↔ ∃ keyId encodedKey key,
      partition 58 entry = (keyId, true, encodedKey) ∧ validKeyId keyId = true ∧
      seen.contains keyId = false ∧
        decodeKey encodedKey (text "PII encryption key " ++ keyId) = .ok key ∧
      validateEntries U entries (keyId :: seen) = .ok () := by
  rcases hparts : partition 58 entry with ⟨keyId, separator, encodedKey⟩
  simp only [validateEntries, hparts]
  constructor
  · intro h
    by_cases hid : malformedId U separator keyId = true
    · simp [hid] at h
    rw [if_neg hid] at h
    by_cases hdup : seen.contains keyId = true
    · simp only [hdup, if_true] at h
      cases h
    rw [if_neg hdup] at h
    obtain ⟨hsep, hvalid⟩ := malformedId_iff.1 hid
    cases hkey : validateBase64Key (text "PII encryption key " ++ keyId) encodedKey with
    | error _ => simp [hkey] at h
    | ok _ =>
      rw [hkey] at h
      have hdecode : ∃ key, decodeKey encodedKey (text "PII encryption key " ++ keyId) = .ok key :=
        validateBase64Key_iff.1 hkey
      obtain ⟨key, hdecode⟩ := hdecode
      rw [hsep]
      exact ⟨keyId, encodedKey, key, rfl, hvalid, by simpa using hdup, hdecode, h⟩
  · intro h
    obtain ⟨keyId', encodedKey', key, hsame, hvalid, hdup, hdecode, h⟩ := h
    cases hsame
    have hid : ¬ malformedId U true keyId = true := malformedId_iff.2 ⟨rfl, hvalid⟩
    have hkey : validateBase64Key (text "PII encryption key " ++ keyId) encodedKey = .ok () :=
      validateBase64Key_iff.2 ⟨key, hdecode⟩
    rw [if_neg hid, hdup, hkey]
    exact h

/-- The parts are accepted by both loops or by none, where they have seen the same ids. -/
theorem validateEntries_iff {rawEntries seen : List CodePoints} {parsed : Keys}
    {active : Option CodePoints} (hseen : ∀ id, seen.contains id = (parsed.lookup id).isSome) :
    validateEntries U ((rawEntries.map CodePoints.strip).filter (· ≠ [])) seen = .ok () ↔
      ∃ r, parseEntries rawEntries parsed active = .ok r := by
  induction rawEntries generalizing seen parsed active with
  | nil => simp [validateEntries, parseEntries]
  | cons rawEntry rawEntries ih =>
    simp only [parseEntries_cons_iff]
    by_cases hblank : CodePoints.strip rawEntry = []
    · have hskip : ((rawEntry :: rawEntries).map CodePoints.strip).filter (· ≠ []) =
          (rawEntries.map CodePoints.strip).filter (· ≠ []) := by simp [hblank]
      rw [hskip, @ih seen parsed active hseen]
      constructor
      · intro h
        obtain ⟨r, h⟩ := h
        exact ⟨r, .inl ⟨hblank, h⟩⟩
      · intro h
        obtain ⟨r, ⟨_, h⟩ | ⟨_, _, _, he, _⟩⟩ := h
        · exact ⟨r, h⟩
        · exact absurd hblank he.nonempty
    have hkeep : ((rawEntry :: rawEntries).map CodePoints.strip).filter (· ≠ []) =
        CodePoints.strip rawEntry :: (rawEntries.map CodePoints.strip).filter (· ≠ []) := by
          simp [hblank]
    have hstep : ∀ keyId key id,
        (keyId :: seen).contains id = ((parsed ++ [(keyId, key)]).lookup id).isSome := by
      intro keyId key id
      have hsingle : (id == keyId) = ([(keyId, key)].lookup id).isSome := by
        by_cases h : id = keyId
        · subst h
          rw [List.lookup_cons_self, beq_self_eq_true, Option.isSome_some]
        · have hnone : [(keyId, key)].lookup id = none := by simp [List.lookup_eq_none_iff, h]
          rw [hnone, Option.isSome_none, beq_eq_false_iff_ne]
          exact h
      rw [List.lookup_append, Option.isSome_or, ← hseen id, List.contains_cons,
        Bool.or_comm, hsingle]
    rw [hkeep, validateEntries_cons_iff]
    constructor
    · intro h
      obtain ⟨keyId, encodedKey, key, hparts, hvalid, hnew, hkey, h⟩ := h
      obtain ⟨r, h⟩ := (@ih (keyId :: seen) (parsed ++ [(keyId, key)]) (active.or (some keyId))
        (hstep keyId key)).1 h
      have hnone : parsed.lookup keyId = none := by
        rwa [hseen, Option.isSome_eq_false_iff, Option.isNone_iff_eq_none] at hnew
      exact ⟨r, .inr ⟨keyId, encodedKey, key, ⟨hblank, hparts, hvalid, hnone, hkey⟩, h⟩⟩
    · intro h
      obtain ⟨r, ⟨hb, _⟩ | ⟨keyId, encodedKey, key, he, h⟩⟩ := h
      · exact absurd hb hblank
      · have hnew : seen.contains keyId = false := by rw [hseen, he.new, Option.isSome_none]
        exact ⟨keyId, encodedKey, key, he.parts, he.id, hnew, he.key,
          (ih (hstep keyId key)).2 ⟨r, h⟩⟩

/-- A key is active once there is an entry. -/
theorem active_of_parseEntries {rawEntries : List CodePoints} {parsed keys : Keys}
    {active active' : Option CodePoints}
    (h : parseEntries rawEntries parsed active = .ok (keys, active')) :
    active' = none ↔ active = none ∧ (rawEntries.map CodePoints.strip).filter (· ≠ []) = [] := by
  induction rawEntries generalizing parsed active with
  | nil =>
    cases h
    simp
  | cons rawEntry rawEntries ih =>
    rcases parseEntries_cons_iff.1 h with ⟨hblank, h⟩ | ⟨keyId, encodedKey, key, he, h⟩
    · rw [ih h]
      simp [hblank]
    · rw [ih h]
      simp [he.nonempty]

/-- **Start-up accepts exactly the pairs that a keyring can be built from.** -/
theorem startup_agrees (U : Alnum) (encryptionKeys lookupKey : CodePoints) :
    validatePii U encryptionKeys lookupKey = .ok () ↔
      ∃ ring, fromConfig encryptionKeys lookupKey = .ok ring := by
  have hboth : validatePii U encryptionKeys lookupKey = .ok () ↔
      validatePiiEncryptionKeys U encryptionKeys = .ok () ∧
        validateBase64Key (text "PII_LOOKUP_KEY") lookupKey = .ok () := by
    unfold validatePii
    cases validatePiiEncryptionKeys U encryptionKeys <;> simp [bind, Except.bind]
  have hentries : validatePiiEncryptionKeys U encryptionKeys = .ok () ↔
      commaList encryptionKeys ≠ [] ∧ validateEntries U (commaList encryptionKeys) [] = .ok () := by
    unfold validatePiiEncryptionKeys
    by_cases hnil : commaList encryptionKeys = [] <;> simp [hnil]
  have hparse : validateEntries U (commaList encryptionKeys) [] = .ok () ↔
      ∃ r, parseEntries (encryptionKeys.splitOnP (· == 44)) [] none = .ok r :=
    validateEntries_iff (by simp)
  have hlookup : validateBase64Key (text "PII_LOOKUP_KEY") lookupKey = .ok () ↔
      ∃ key, decodeKey lookupKey (text "PII lookup key") = .ok key := validateBase64Key_iff
  rw [hboth, hentries, hparse, hlookup]
  simp only [fromConfig_eq_ok_iff]
  constructor
  · intro h
    obtain ⟨⟨hne, ⟨keys, active⟩, hr⟩, key, hkey⟩ := h
    cases hactive : active with
    | none =>
      have hnone := (active_of_parseEntries hr).1 hactive
      exact absurd hnone.2 hne
    | some activeKeyId =>
      rw [hactive] at hr
      exact ⟨⟨activeKeyId, keys, key⟩, hr, hkey⟩
  · intro h
    obtain ⟨ring, hr, hkey⟩ := h
    refine ⟨⟨fun hnil => ?_, _, hr⟩, _, hkey⟩
    have hnone := (active_of_parseEntries hr).2 ⟨rfl, hnil⟩
    cases hnone

/-- Of letters and digits, those of ASCII. -/
def asciiAlnum : Alnum where
  isalnum c := (48 ≤ c && c ≤ 57) || (65 ≤ c && c ≤ 90) || (97 ≤ c && c ≤ 122)
  ascii := fun _ _ => rfl

theorem startup_agrees_blanks :
    ∃ ring, fromConfig (text " , k1:AAAAAAAAAAAAAAAAAAAAAAAAAAAAAAAAAAAAAAAAAAA ,")
    (text "AAAAAAAAAAAAAAAAAAAAAAAAAAAAAAAAAAAAAAAAAAA") = .ok ring :=
  (startup_agrees asciiAlnum _ _).1 (by decide +kernel)

end Pii
