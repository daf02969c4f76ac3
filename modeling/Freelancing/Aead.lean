import Mathlib.Data.List.Basic

/-!
# Authenticated encryption

An ideal cipher: what was encrypted is opened under the same key, nonce and associated data, and
nothing else is opened at all.
-/

structure Aead where
  encrypt : (key nonce aad plaintext : List UInt8) → List UInt8
  decrypt : (key nonce aad ciphertext : List UInt8) → Option (List UInt8)
  decrypt_eq_some : ∀ key nonce aad c p, decrypt key nonce aad c = some p ↔
    c = encrypt key nonce aad p
  encrypt_inj : ∀ {key nonce aad p key' nonce' aad' p'}, encrypt key nonce aad p =
    encrypt key' nonce' aad' p' → key = key' ∧ nonce = nonce' ∧ aad = aad' ∧ p = p'
  encrypt_ne_nil : ∀ key nonce aad p, encrypt key nonce aad p ≠ []

namespace Aead

variable (A : Aead) {key nonce aad aad' p : List UInt8}

theorem decrypt_encrypt : A.decrypt key nonce aad (A.encrypt key nonce aad p) = some p :=
  (A.decrypt_eq_some _ _ _ _ _).2 rfl

/-- Other associated data do not open what was encrypted. -/
theorem decrypt_of_ne (h : aad' ≠ aad) :
    A.decrypt key nonce aad' (A.encrypt key nonce aad p) = none := by
  cases hopen : A.decrypt key nonce aad' (A.encrypt key nonce aad p) with
  | none => rfl
  | some p' =>
    have heq := (A.decrypt_eq_some _ _ _ _ _).1 hopen
    exact absurd (A.encrypt_inj heq).2.2.1.symm h

/-! ## A transparent cipher -/

/-- The bytes, each behind a one, and a zero at the end. -/
def frame (s : List UInt8) : List UInt8 := s.flatMap (fun b => [1, b]) ++ [0]

theorem frame_append_inj {s s' t t' : List UInt8} (h : frame s ++ t = frame s' ++ t') :
    s = s' ∧ t = t' := by
  induction s generalizing s' with
  | nil =>
    cases s' with
    | nil => simpa [frame] using h
    | cons b s' => simp [frame] at h
  | cons a s ih =>
    cases s' with
    | nil => simp [frame] at h
    | cons b s' =>
      simp only [frame, List.flatMap_cons, List.cons_append, List.nil_append, List.cons.injEq,
        true_and] at h
      obtain ⟨rfl, h⟩ := h
      obtain ⟨rfl, rfl⟩ := ih h
      exact ⟨rfl, rfl⟩

/-- A cipher that hides nothing, with the laws of one that is ideal. -/
def transparent : Aead where
  encrypt key nonce aad p := frame key ++ (frame nonce ++ (frame aad ++ p))
  decrypt key nonce aad c :=
    let header := frame key ++ (frame nonce ++ frame aad)
    if header.isPrefixOf c then some (c.drop header.length) else none
  decrypt_eq_some := by
    intro key nonce aad c p
    have happ : frame key ++ (frame nonce ++ (frame aad ++ p)) = frame key ++
        (frame nonce ++ frame aad) ++ p := by
      simp
    rw [happ]
    generalize frame key ++ (frame nonce ++ frame aad) = header
    constructor
    · intro h
      by_cases hpre : header.isPrefixOf c = true
      · obtain ⟨t, rfl⟩ := List.isPrefixOf_iff_prefix.1 hpre
        simpa using h
      · simp [hpre] at h
    · intro h
      simp [h]
  encrypt_inj := by
    intro key nonce aad p key' nonce' aad' p' h
    obtain ⟨hk, h⟩ := frame_append_inj h
    obtain ⟨hn, h⟩ := frame_append_inj h
    obtain ⟨ha, hp⟩ := frame_append_inj h
    exact ⟨hk, hn, ha, hp⟩
  encrypt_ne_nil := by
    intro key nonce aad p
    simp [frame]

end Aead
