import Freelancing.Pii.Cipher

/-!
# Rotation of keys

An envelope is read by every keyring that has its key under its id, whatever else changes:
`IsEnvelope` is kept by new keyrings that keep the key and by rewrapping, and it is all that
reading, rotating and rewrapping rest on. Nothing but an envelope is read (`encrypted_of_decrypt`).
-/

namespace Pii

open CodePoints (text partition)

variable {A : Aead} {ring : PiiCipher} {keyId value context e : CodePoints} {payload key : Bytes}

/-! ## Payloads -/

theorem digit_spec : ∀ n < 64, urlSafe.digit n ≠ 58 ∧ urlSafe.digit n < 128 := by decide

theorem mem_body_spec {c : Nat} (h : c ∈ urlSafe.body payload) : c ≠ 58 ∧ c ≠ 61 ∧ c < 128 := by
  obtain ⟨n, hn, rfl⟩ := urlSafe.mem_body h
  exact ⟨(digit_spec n hn).1, urlSafe.digit_ne_pad hn, (digit_spec n hn).2⟩

/-- Stripping the padding leaves the digits. -/
theorem rdropWhile_encode (payload : Bytes) :
    (urlSafe.encode payload).rdropWhile (· == 61) = urlSafe.body payload := by
  have hdigits : ∀ l : CodePoints, (∀ c ∈ l, c ≠ 61) →
      l.reverse.dropWhile (· == 61) = l.reverse := by
    intro l hl
    cases hr : l.reverse with
    | nil => rfl
    | cons c cs =>
      have hc : c ∈ l := List.mem_reverse.1 (hr ▸ List.mem_cons_self)
      exact List.dropWhile_cons_of_neg (by simpa using hl c hc)
  have hpad : ∀ c ∈ List.replicate (Base64.missing (urlSafe.body payload).length) 61,
      (c == 61) = true := by
    intro c hc
    rw [List.eq_of_mem_replicate hc]
    rfl
  have hrev : (urlSafe.encode payload).reverse =
      List.replicate (Base64.missing (urlSafe.body payload).length) 61 ++
      (urlSafe.body payload).reverse := by
    rw [Base64.encode, Base64.padded, List.reverse_append, List.reverse_replicate]
    rfl
  rw [List.rdropWhile, hrev, List.dropWhile_append_of_pos hpad,
    hdigits _ fun c hc => (mem_body_spec hc).2.1, List.reverse_reverse]

theorem decodeBase64_body (payload : Bytes) :
    decodeBase64 (urlSafe.body payload) = .ok payload := by
  have hascii : (urlSafe.encode payload).any (128 ≤ ·) = false := by
    rw [List.any_eq_false]
    intro c hc
    rcases List.mem_append.1 hc with hc | hc
    · simpa using (mem_body_spec hc).2.2
    · rw [List.eq_of_mem_replicate hc]
      decide
  have hdecode := urlSafe.decode_encode payload
  unfold Base64.encode at hascii hdecode
  simp [decodeBase64, hascii, hdecode]

theorem openPayload_body {nonce : Nonce} {ciphertext : Bytes} (hc : ciphertext ≠ []) :
    openPayload A key (urlSafe.body (nonce.1 ++ ciphertext)) context =
      (aad context).bind fun aad => A.decrypt key nonce.1 aad ciphertext := by
  have hlen : ¬ (nonce.1 ++ ciphertext).length ≤ NONCE_BYTES := by
    have hpos := List.length_pos_iff.2 hc
    have hnonce := nonce.2
    rw [List.length_append]
    omega
  have htake : (nonce.1 ++ ciphertext).take NONCE_BYTES = nonce.1 := List.take_left' nonce.2
  have hdrop : (nonce.1 ++ ciphertext).drop NONCE_BYTES = ciphertext := List.drop_left' nonce.2
  simp only [openPayload, decodeBase64_body, if_neg hlen, htake, hdrop]
  cases aad context <;> rfl

/-! ## Contexts -/

/-- Contexts with the same associated data are the same. -/
theorem aad_inj {context' : CodePoints} {a : Bytes} (h : aad context = some a)
    (h' : aad context' = some a) : context = context' := by
  have heq := CodePoints.decode_encode h
  rw [CodePoints.decode_encode h', Option.some.injEq] at heq
  simpa using heq.symm

/-! ## Envelopes -/

/-- The id that an envelope names. -/
def keyIdOf (e : CodePoints) : CodePoints := (partition 58 (partition 58 e).2.2).1

/-- The envelope of a value in a context, under a key that the ring has. -/
structure IsEnvelope (A : Aead) (ring : PiiCipher) (value context e : CodePoints) : Prop where
  exists_envelope : ∃ keyId key plaintext aad', ∃ nonce : Nonce, validKeyId keyId = true ∧
    ring.keys.lookup keyId = some key ∧ CodePoints.encode value = some plaintext ∧
    aad context = some aad' ∧ e = envelope keyId (nonce.1 ++ A.encrypt key nonce.1 aad' plaintext)

theorem not_mem_of_validKeyId (h : validKeyId keyId = true) : 58 ∉ keyId := by
  intro hmem
  simp only [validKeyId, Bool.and_eq_true, List.all_eq_true] at h
  exact absurd (h.2 58 hmem) (by decide)

theorem partition_envelope (payload : Bytes) :
    partition 58 (envelope keyId payload) =
      (VERSION, true, keyId ++ 58 :: urlSafe.body payload) := by
  rw [envelope, rdropWhile_encode]
  exact CodePoints.partition_append (by decide) _

theorem partition_remainder (h : validKeyId keyId = true) (payload : Bytes) :
    partition 58 (keyId ++ 58 :: urlSafe.body payload) = (keyId, true, urlSafe.body payload) :=
  CodePoints.partition_append (not_mem_of_validKeyId h) _

theorem keyIdOf_envelope (h : validKeyId keyId = true) (payload : Bytes) :
    keyIdOf (envelope keyId payload) = keyId := by
  rw [keyIdOf, partition_envelope, partition_remainder h]

theorem needsRotation_envelope (h : validKeyId keyId = true) (payload : Bytes) :
    needsRotation ring (envelope keyId payload) = .ok (keyId ≠ ring.activeKeyId) := by
  simp [needsRotation, partition_envelope, partition_remainder h]

theorem decrypt_envelope {nonce : Nonce} {ciphertext : Bytes} (h : validKeyId keyId = true)
    (hkey : ring.keys.lookup keyId = some key) (hc : ciphertext ≠ []) :
    decrypt A ring (envelope keyId (nonce.1 ++ ciphertext)) context =
      match (aad context).bind fun aad => A.decrypt key nonce.1 aad ciphertext with
      | none => .error (.value (text "Invalid PII ciphertext"))
      | some plaintext =>
        match CodePoints.decode plaintext with
        | none => .error .unicode
        | some value => .ok value := by
  simp only [decrypt, partition_envelope, partition_remainder h, hkey, openPayload_body hc]
  cases (aad context).bind fun aad => A.decrypt key nonce.1 aad ciphertext with
  | none => rfl
  | some plaintext => cases CodePoints.decode plaintext <;> rfl

/-! ## Reading -/

theorem IsEnvelope.decrypt (h : IsEnvelope A ring value context e) :
    decrypt A ring e context = .ok value := by
  obtain ⟨keyId, key, plaintext, aad', nonce, hid, hkey, hvalue, haad, rfl⟩ := h.exists_envelope
  rw [decrypt_envelope hid hkey (A.encrypt_ne_nil _ _ _ _), haad, Option.bind_some,
    A.decrypt_encrypt]
  simp [CodePoints.decode_encode hvalue]

theorem IsEnvelope.decrypt_of_ne {context' : CodePoints} (h : IsEnvelope A ring value context e)
    (hne : context' ≠ context) :
    Pii.decrypt A ring e context' = .error (.value (text "Invalid PII ciphertext")) := by
  obtain ⟨keyId, key, plaintext, aad', nonce, hid, hkey, hvalue, haad, rfl⟩ := h.exists_envelope
  rw [decrypt_envelope hid hkey (A.encrypt_ne_nil _ _ _ _)]
  cases haad' : aad context' with
  | none => rfl
  | some b =>
    have hb : b ≠ aad' := by
      intro heq
      rw [heq] at haad'
      exact hne (aad_inj haad' haad)
    rw [Option.bind_some, A.decrypt_of_ne hb]

/-- What was encrypted in a context: the payload holds the value, sealed with the context under a
key of the ring. -/
structure Encrypted (A : Aead) (ring : PiiCipher) (value context e : CodePoints) : Prop where
  exists_payload : ∃ keyId key plaintext aad' encodedPayload, ∃ nonce : Bytes,
    ring.keys.lookup keyId = some key ∧ CodePoints.encode value = some plaintext ∧
    aad context = some aad' ∧ e = VERSION ++ 58 :: (keyId ++ 58 :: encodedPayload) ∧
    decodeBase64 encodedPayload = .ok (nonce ++ A.encrypt key nonce aad' plaintext)

theorem exists_of_openPayload {encodedPayload : CodePoints} {plaintext : Bytes}
    (h : openPayload A key encodedPayload context = some plaintext) :
    ∃ aad' nonce, aad context = some aad' ∧
      decodeBase64 encodedPayload = .ok (nonce ++ A.encrypt key nonce aad' plaintext) := by
  unfold openPayload at h
  cases hpayload : decodeBase64 encodedPayload with
  | error _ => simp [hpayload] at h
  | ok payload =>
    cases haad : aad context with
    | none => simp [hpayload, haad] at h
    | some aad' =>
      simp only [hpayload, haad] at h
      by_cases hlen : payload.length ≤ NONCE_BYTES
      · simp [hlen] at h
      · rw [if_neg hlen] at h
        have hcipher := (A.decrypt_eq_some _ _ _ _ _).1 h
        exact ⟨aad', payload.take NONCE_BYTES, rfl, by rw [← hcipher, List.take_append_drop]⟩

/-- Nothing is read but what was encrypted in that context. -/
theorem encrypted_of_decrypt (h : decrypt A ring e context = .ok value) :
    Encrypted A ring value context e := by
  rcases hp : partition 58 e with ⟨version, separator, remainder⟩
  rcases hq : partition 58 remainder with ⟨keyId, secondSeparator, encodedPayload⟩
  simp only [decrypt, hp, hq] at h
  by_cases hform : (version ≠ VERSION || !separator || !secondSeparator) = true
  · rw [if_pos hform] at h
    cases h
  rw [if_neg hform] at h
  simp only [Bool.or_eq_true, decide_eq_true_eq, Bool.not_eq_true', not_or, not_not, ne_eq,
    Bool.not_eq_false] at hform
  obtain ⟨⟨rfl, rfl⟩, rfl⟩ := hform
  cases hkey : ring.keys.lookup keyId with
  | none => simp [hkey] at h
  | some key =>
    cases hopen : openPayload A key encodedPayload context with
    | none => simp [hkey, hopen] at h
    | some plaintext =>
      cases hdecode : CodePoints.decode plaintext with
      | none => simp [hkey, hopen, hdecode] at h
      | some v =>
        simp only [hkey, hopen, hdecode, Except.ok.injEq] at h
        subst h
        obtain ⟨aad', nonce, haad, hpayload⟩ := exists_of_openPayload hopen
        have he := (CodePoints.eq_of_partition hp).1
        rw [(CodePoints.eq_of_partition hq).1] at he
        exact ⟨keyId, key, plaintext, aad', encodedPayload, nonce, hkey,
          CodePoints.encode_decode hdecode, haad, he, hpayload⟩

/-! ## Keyrings -/

/-- A keyring that was read from a configuration. -/
structure PiiCipher.Valid (ring : PiiCipher) : Prop where
  ids : ∀ entry ∈ ring.keys, validKeyId entry.1 = true
  active : ∃ key, ring.keys.lookup ring.activeKeyId = some key

theorem parseEntries_valid {entries : List CodePoints} {parsed keys : Keys}
    {active active' : Option CodePoints}
    (h : parseEntries entries parsed active = .ok (keys, active'))
    (hids : ∀ entry ∈ parsed, validKeyId entry.1 = true)
    (hactive : ∀ id, active = some id → ∃ key, parsed.lookup id = some key) :
    (∀ entry ∈ keys, validKeyId entry.1 = true) ∧ ∀ id, active' = some id →
      ∃ key, keys.lookup id = some key := by
  induction entries generalizing parsed active with
  | nil =>
    cases h
    exact ⟨hids, hactive⟩
  | cons rawEntry entries ih =>
    rcases parseEntries_cons_iff.1 h with ⟨_, h⟩ | ⟨keyId, encodedKey, key, he, h⟩
    · exact ih h hids hactive
    refine ih h ?_ ?_
    · intro entry hentry
      rcases List.mem_append.1 hentry with hold | hnew
      · exact hids entry hold
      · rw [List.mem_singleton.1 hnew]
        exact he.id
    · intro id hid
      rw [List.lookup_append]
      cases active with
      | none =>
        cases hid
        exact ⟨key, by simp [he.new]⟩
      | some id' =>
        cases hid
        obtain ⟨key', hkey'⟩ := hactive id rfl
        exact ⟨key', by simp [hkey']⟩

theorem valid_of_fromConfig {encryptionKeys lookupKey : CodePoints}
    (h : fromConfig encryptionKeys lookupKey = .ok ring) : ring.Valid := by
  have hparse := (fromConfig_eq_ok_iff.1 h).1
  obtain ⟨hids, hactive⟩ := parseEntries_valid hparse (by simp) (by simp)
  exact ⟨hids, hactive ring.activeKeyId rfl⟩

theorem encrypt_isEnvelope {nonce : Nonce} (hring : ring.Valid)
    (h : encrypt A ring nonce value context = .ok e) :
    IsEnvelope A ring value context e ∧ keyIdOf e = ring.activeKeyId := by
  obtain ⟨key, hkey⟩ := hring.active
  have hid : validKeyId ring.activeKeyId = true := by
    obtain ⟨before, after, hkeys, _⟩ := List.lookup_eq_some_iff.1 hkey
    exact hring.ids (ring.activeKeyId, key) (by simp [hkeys])
  cases hvalue : CodePoints.encode value with
  | none => simp [encrypt, hkey, hvalue] at h
  | some plaintext =>
    cases haad : aad context with
    | none => simp [encrypt, hkey, hvalue, haad] at h
    | some aad' =>
      simp only [encrypt, hkey, hvalue, haad, Except.ok.injEq] at h
      subst h
      exact ⟨⟨ring.activeKeyId, key, plaintext, aad', nonce, hid, hkey, hvalue, haad, rfl⟩,
        keyIdOf_envelope hid _⟩

/-- Text that can be encoded is encrypted. -/
theorem exists_encrypt (hring : ring.Valid) (hvalue : (CodePoints.encode value).isSome = true)
    (haad : (aad context).isSome = true) (nonce : Nonce) :
    ∃ e, encrypt A ring nonce value context = .ok e := by
  obtain ⟨key, hkey⟩ := hring.active
  obtain ⟨plaintext, hvalue⟩ := Option.isSome_iff_exists.1 hvalue
  obtain ⟨aad', haad⟩ := Option.isSome_iff_exists.1 haad
  refine ⟨envelope ring.activeKeyId (nonce.1 ++ A.encrypt key nonce.1 aad' plaintext), ?_⟩
  simp only [encrypt, hkey, hvalue, haad]

/-- A context that can be encoded can be bound. -/
theorem aad_isSome (h : (CodePoints.encode context).isSome = true) :
    (aad context).isSome = true := by
  have hall : ∀ {s : CodePoints}, (CodePoints.encode s).isSome = true ↔ ∀ c ∈ s, c.isValidChar := by
    intro s
    unfold CodePoints.encode
    by_cases hs : ∀ c ∈ s, c.isValidChar
    · rw [if_pos hs]
      simpa using hs
    · rw [if_neg hs]
      simpa using hs
  rw [aad, hall]
  intro c hc
  simp only [List.mem_append] at hc
  rcases hc with ((hc | hc) | hc) | hc
  · revert c
    decide
  · exact hall.1 h c hc
  · revert c
    decide
  · revert c
    decide

theorem IsEnvelope.needsRotation (h : IsEnvelope A ring value context e) :
    needsRotation ring e = .ok (keyIdOf e ≠ ring.activeKeyId) := by
  obtain ⟨keyId, key, plaintext, aad', nonce, hid, _, _, _, rfl⟩ := h.exists_envelope
  rw [needsRotation_envelope hid, keyIdOf_envelope hid]

/-- Rewrapping puts the value into an envelope of the active key, and then leaves it alone. -/
theorem IsEnvelope.rewrap (h : IsEnvelope A ring value context e) (hring : ring.Valid)
    (nonce : Nonce) :
    ∃ e', Pii.rewrap A ring nonce e context = .ok e' ∧ IsEnvelope A ring value context e' ∧
      keyIdOf e' = ring.activeKeyId := by
  by_cases hactive : keyIdOf e = ring.activeKeyId
  · refine ⟨e, ?_, h, hactive⟩
    simp [Pii.rewrap, h.needsRotation, hactive, bind, Except.bind, pure, Except.pure]
  · obtain ⟨keyId, key, plaintext, aad', nonce', _, _, hvalue, haad, _⟩ := h.exists_envelope
    obtain ⟨e', he'⟩ := exists_encrypt (A := A) hring
      (Option.isSome_iff_exists.2 ⟨plaintext, hvalue⟩)
      (Option.isSome_iff_exists.2 ⟨aad', haad⟩) nonce
    refine ⟨e', ?_, encrypt_isEnvelope hring he'⟩
    simp [Pii.rewrap, h.needsRotation, hactive, h.decrypt, he', bind, Except.bind]

/-! ## Histories -/

/-- The key of the envelope is still there under its id. -/
def KeepsKey (ring ring' : PiiCipher) (e : CodePoints) : Prop :=
  ∀ key, ring.keys.lookup (keyIdOf e) = some key → ring'.keys.lookup (keyIdOf e) = some key

/-- An envelope that is stored: it was encrypted once, keyrings came and went that kept its key, and
it may have been rewrapped. -/
inductive Stored (A : Aead) (value context : CodePoints) : PiiCipher → CodePoints → Prop
  | encrypt {encryptionKeys lookupKey : CodePoints} {ring : PiiCipher} {nonce : Nonce}
      {e : CodePoints} (hring : fromConfig encryptionKeys lookupKey = .ok ring)
      (h : encrypt A ring nonce value context = .ok e) : Stored A value context ring e
  | rekey {ring : PiiCipher} {e encryptionKeys lookupKey : CodePoints} {ring' : PiiCipher}
      (h : Stored A value context ring e) (hring : fromConfig encryptionKeys lookupKey = .ok ring')
      (hkeep : KeepsKey ring ring' e) : Stored A value context ring' e
  | rewrap {ring : PiiCipher} {e : CodePoints} {nonce : Nonce} {e' : CodePoints}
      (h : Stored A value context ring e) (he : rewrap A ring nonce e context = .ok e') :
      Stored A value context ring e'

/-- What a stored envelope is good for. -/
structure Survives (A : Aead) (ring : PiiCipher) (value context e : CodePoints) : Prop where
  reads : decrypt A ring e context = .ok value
  bound : ∀ context', context' ≠ context → ∃ m, decrypt A ring e context' = .error (.value m)
  needed : needsRotation ring e = .ok (keyIdOf e ≠ ring.activeKeyId)
  rewraps : ∀ nonce, ∃ e', rewrap A ring nonce e context = .ok e' ∧
    decrypt A ring e' context = .ok value ∧
    (∀ context', context' ≠ context → ∃ m, decrypt A ring e' context' = .error (.value m)) ∧
    needsRotation ring e' = .ok false ∧ ∀ nonce', rewrap A ring nonce' e' context = .ok e'

theorem Stored.isEnvelope (h : Stored A value context ring e) :
    IsEnvelope A ring value context e ∧ ring.Valid := by
  induction h with
  | encrypt hring h =>
    have hvalid := valid_of_fromConfig hring
    exact ⟨(encrypt_isEnvelope hvalid h).1, hvalid⟩
  | rekey _ hring hkeep ih =>
    obtain ⟨keyId, key, plaintext, aad', nonce, hid, hkey, hvalue, haad, rfl⟩ :=
      ih.1.exists_envelope
    rw [← keyIdOf_envelope hid (nonce.1 ++ A.encrypt key nonce.1 aad' plaintext)] at hkey
    have hkey' := hkeep key hkey
    rw [keyIdOf_envelope hid] at hkey'
    exact ⟨⟨keyId, key, plaintext, aad', nonce, hid, hkey', hvalue, haad, rfl⟩,
      valid_of_fromConfig hring⟩
  | rewrap _ he ih =>
    obtain ⟨e₁, he₁, henv, _⟩ := ih.1.rewrap ih.2 _
    rw [he] at he₁
    cases he₁
    exact ⟨henv, ih.2⟩

theorem Stored.survives (h : Stored A value context ring e) : Survives A ring value context e := by
  obtain ⟨henv, hring⟩ := h.isEnvelope
  refine ⟨henv.decrypt, fun _ hne => ⟨_, henv.decrypt_of_ne hne⟩, henv.needsRotation,
    fun nonce => ?_⟩
  obtain ⟨e', he', henv', hactive⟩ := henv.rewrap hring nonce
  have hneeded := henv'.needsRotation
  simp only [hactive, ne_eq, not_true_eq_false, decide_false] at hneeded
  refine ⟨e', he', henv'.decrypt, fun _ hne => ⟨_, henv'.decrypt_of_ne hne⟩, hneeded,
    fun nonce' => ?_⟩
  simp [Pii.rewrap, hneeded, bind, Except.bind, pure, Except.pure]

/-- The address of a user is rewrapped exactly where its envelope does not name the active key. -/
theorem Stored.rotate (h : Stored A value EMAIL_CONTEXT ring e) (nonce : Nonce) :
    ∃ e', rotateEmailEncryptionIfNeeded A ring nonce e = .ok (keyIdOf e ≠ ring.activeKeyId, e') ∧
      Pii.rewrap A ring nonce e EMAIL_CONTEXT = .ok e' := by
  obtain ⟨henv, hring⟩ := h.isEnvelope
  obtain ⟨e', he', _⟩ := henv.rewrap hring nonce
  refine ⟨e', ?_, he'⟩
  by_cases hactive : keyIdOf e = ring.activeKeyId
  · have hsame : e = e' := by
      simpa [Pii.rewrap, henv.needsRotation, hactive, bind, Except.bind, pure, Except.pure]
        using he'
    subst hsame
    simp [rotateEmailEncryptionIfNeeded, henv.needsRotation, hactive, bind, Except.bind,
      pure, Except.pure]
  · simp [rotateEmailEncryptionIfNeeded, henv.needsRotation, hactive, he', bind, Except.bind, pure,
      Except.pure]

/-- **Envelopes survive every history of keyrings that keep their key, and nothing else is
read.** -/
theorem envelopes_survive (A : Aead) :
    (∀ encryptionKeys lookupKey ring value context, fromConfig encryptionKeys lookupKey = .ok ring →
      (CodePoints.encode value).isSome = true → (CodePoints.encode context).isSome = true →
      ∀ nonce, ∃ e, encrypt A ring nonce value context = .ok e) ∧
    (∀ ring value context e, Stored A value context ring e → Survives A ring value context e) ∧
    (∀ ring value e, Stored A value EMAIL_CONTEXT ring e → ∀ nonce, ∃ e',
      rotateEmailEncryptionIfNeeded A ring nonce e = .ok (keyIdOf e ≠ ring.activeKeyId, e') ∧
        rewrap A ring nonce e EMAIL_CONTEXT = .ok e') ∧
    ∀ ring value context e, decrypt A ring e context = .ok value →
      Encrypted A ring value context e := by
  refine ⟨?_, fun _ _ _ _ h => h.survives, fun _ _ _ h => h.rotate, fun _ _ _ _ h =>
    encrypted_of_decrypt h⟩
  intro encryptionKeys lookupKey ring value context hring hvalue hcontext nonce
  exact exists_encrypt (valid_of_fromConfig hring) hvalue (aad_isSome hcontext) nonce

/-- A keyring of one key of zeros. -/
def zeroRing : PiiCipher := ⟨text "k1", [(text "k1", List.replicate 32 0)], List.replicate 32 0⟩

theorem fromConfig_zeroRing : fromConfig (text "k1:AAAAAAAAAAAAAAAAAAAAAAAAAAAAAAAAAAAAAAAAAAA")
    (text "AAAAAAAAAAAAAAAAAAAAAAAAAAAAAAAAAAAAAAAAAAA") = .ok zeroRing := by
  decide +kernel

theorem envelopes_survive_transparent : ∃ e,
    encrypt Aead.transparent zeroRing ⟨List.replicate 12 7, rfl⟩
      (text "ann@example.org") EMAIL_CONTEXT = .ok e ∧
      Survives Aead.transparent zeroRing (text "ann@example.org") EMAIL_CONTEXT e := by
  obtain ⟨hencrypt, hsurvive, _⟩ := envelopes_survive Aead.transparent
  have hex : ∃ e, encrypt Aead.transparent zeroRing ⟨List.replicate 12 7, rfl⟩
      (text "ann@example.org")
      EMAIL_CONTEXT = .ok e :=
    hencrypt _ _ _ _ _ fromConfig_zeroRing (by decide +kernel) (by decide +kernel) _
  obtain ⟨e, he⟩ := hex
  exact ⟨e, he, hsurvive _ _ _ _ (.encrypt fromConfig_zeroRing he)⟩

end Pii
