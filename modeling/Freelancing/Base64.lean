import Mathlib.Data.List.Basic

/-!
# Base64

Three bytes are four digits of an alphabet, and the last digits are filled up to four with the
padding. `decode` is the strict reading: digits, and padding behind them that ends with a group of
four. The bits of the last digit that stand for no byte are not looked at, and padding behind a full
group is let through.
-/

/-- The digits, and how characters are read: more than one character may stand for a digit. -/
structure Base64 (δ : Type) where
  digit : Nat → δ
  value : δ → Option Nat
  pad : δ
  value_digit : ∀ n < 64, value (digit n) = some n
  value_pad : value pad = none

namespace Base64

variable {δ : Type} (A : Base64 δ)

/-- The digits of the bytes, without padding. -/
def body : List UInt8 → List δ
  | [] => []
  | [x] => [A.digit (x.toNat / 4), A.digit (x.toNat % 4 * 16)]
  | [x, y] =>
    [A.digit (x.toNat / 4), A.digit (x.toNat % 4 * 16 + y.toNat / 16), A.digit (y.toNat % 16 * 4)]
  | x :: y :: z :: rest =>
    A.digit (x.toNat / 4) :: A.digit (x.toNat % 4 * 16 + y.toNat / 16) ::
      A.digit (y.toNat % 16 * 4 + z.toNat / 64) :: A.digit (z.toNat % 64) :: body rest

/-- How many characters are missing to a multiple of four. -/
def missing (n : Nat) : Nat := (4 - n % 4) % 4

/-- The characters, filled up to a multiple of four. -/
def padded (l : List δ) : List δ := l ++ List.replicate (missing l.length) A.pad

def encode (bytes : List UInt8) : List δ := A.padded (A.body bytes)

/-- The bytes of four digits. -/
def bytes (a b c d : Nat) : List UInt8 :=
  [UInt8.ofNat (a * 4 + b / 16), UInt8.ofNat (b % 16 * 16 + c / 4), UInt8.ofNat (c % 4 * 64 + d)]

section
variable [DecidableEq δ]

/-- Groups of four characters. Behind the digits of a full group, any padding is left out. -/
def decodeGroups : List δ → Option (List UInt8)
  | a :: b :: c :: d :: rest =>
    match A.value a, A.value b, A.value c, A.value d with
    | some x, some y, some z, some w => (decodeGroups rest).map fun l => bytes x y z w ++ l
    | some x, some y, some z, none =>
        if d = A.pad ∧ rest = [] then some ((bytes x y z 0).take 2) else none
    | some x, some y, none, none =>
      if c = A.pad ∧ d = A.pad ∧ rest = [] then some ((bytes x y 0 0).take 1) else none
    | none, _, _, _ => if ∀ e ∈ a :: b :: c :: d :: rest, e = A.pad then some [] else none
    | _, _, _, _ => none
  | rest => if ∀ e ∈ rest, e = A.pad then some [] else none

def decode (l : List δ) : Option (List UInt8) :=
  if l.head? = some A.pad then none else A.decodeGroups l

end

/-! ## Round trip -/

theorem value_of_lt {n : Nat} (h : n < 64) : A.value (A.digit n) = some n := A.value_digit n h

theorem digit_ne_pad {n : Nat} (h : n < 64) : A.digit n ≠ A.pad := by
  intro he
  have hv := A.value_digit n h
  rw [he, A.value_pad] at hv
  cases hv

theorem mem_body {l : List UInt8} {c : δ} (h : c ∈ A.body l) : ∃ n < 64, c = A.digit n := by
  fun_induction body A l with
  | case1 => cases h
  | case2 x =>
    have hx := x.toNat_lt
    simp only [List.mem_cons, List.not_mem_nil, or_false] at h
    rcases h with rfl | rfl
    · exact ⟨_, by omega, rfl⟩
    · exact ⟨_, by omega, rfl⟩
  | case3 x y =>
    have hx := x.toNat_lt
    have hy := y.toNat_lt
    simp only [List.mem_cons, List.not_mem_nil, or_false] at h
    rcases h with rfl | rfl | rfl
    · exact ⟨_, by omega, rfl⟩
    · exact ⟨_, by omega, rfl⟩
    · exact ⟨_, by omega, rfl⟩
  | case4 x y z rest ih =>
    have hx := x.toNat_lt
    have hy := y.toNat_lt
    have hz := z.toNat_lt
    simp only [List.mem_cons] at h
    rcases h with rfl | rfl | rfl | rfl | h
    · exact ⟨_, by omega, rfl⟩
    · exact ⟨_, by omega, rfl⟩
    · exact ⟨_, by omega, rfl⟩
    · exact ⟨_, by omega, rfl⟩
    · exact ih h

theorem pad_not_mem_body (l : List UInt8) : A.pad ∉ A.body l := by
  intro h
  obtain ⟨n, hn, he⟩ := A.mem_body h
  exact A.digit_ne_pad hn he.symm

/-- Four digits more leave the padding as it is. -/
theorem padded_cons (a b c d : δ) (l : List δ) :
    A.padded (a :: b :: c :: d :: l) = a :: b :: c :: d :: A.padded l := by
  have : missing (l.length + 4) = missing l.length := by
    unfold missing
    omega
  simp [padded, this]

/-- The bytes are those that the digits were made of. -/
theorem bytes_digits (x y z : UInt8) :
    bytes (x.toNat / 4) (x.toNat % 4 * 16 + y.toNat / 16) (y.toNat % 16 * 4 + z.toNat / 64)
      (z.toNat % 64) = [x, y, z] := by
  have hx := x.toNat_lt
  have hy := y.toNat_lt
  have hz := z.toNat_lt
  have h1 : x.toNat / 4 * 4 + (x.toNat % 4 * 16 + y.toNat / 16) / 16 = x.toNat := by omega
  have h2 : (x.toNat % 4 * 16 + y.toNat / 16) % 16 * 16 + (y.toNat % 16 * 4 + z.toNat / 64) / 4 =
      y.toNat := by omega
  have h3 : (y.toNat % 16 * 4 + z.toNat / 64) % 4 * 64 + z.toNat % 64 = z.toNat := by omega
  unfold bytes
  rw [h1, h2, h3]
  simp

variable [DecidableEq δ]

theorem decodeGroups_cons {a b c d : Nat} (ha : a < 64) (hb : b < 64) (hc : c < 64) (hd : d < 64)
    (l : List δ) : A.decodeGroups (A.digit a :: A.digit b :: A.digit c :: A.digit d :: l) =
      (A.decodeGroups l).map fun r => bytes a b c d ++ r := by
  simp [decodeGroups, A.value_of_lt, ha, hb, hc, hd]

theorem decodeGroups_encode (l : List UInt8) : A.decodeGroups (A.encode l) = some l := by
  unfold encode
  fun_induction body A l with
  | case1 => simp [padded, missing, decodeGroups]
  | case2 x =>
    have hx := x.toNat_lt
    have h := bytes_digits x 0 0
    have ha : x.toNat / 4 < 64 := by omega
    have hb : x.toNat % 4 * 16 < 64 := by omega
    simp [padded, missing, decodeGroups, A.value_of_lt ha, A.value_of_lt hb, A.value_pad]
    simpa using congrArg (List.take 1) h
  | case3 x y =>
    have hx := x.toNat_lt
    have hy := y.toNat_lt
    have h := bytes_digits x y 0
    have ha : x.toNat / 4 < 64 := by omega
    have hb : x.toNat % 4 * 16 + y.toNat / 16 < 64 := by omega
    have hc : y.toNat % 16 * 4 < 64 := by omega
    simp [padded, missing, decodeGroups, A.value_of_lt ha, A.value_of_lt hb, A.value_of_lt hc,
      A.value_pad]
    simpa using congrArg (List.take 2) h
  | case4 x y z rest ih =>
    have hx := x.toNat_lt
    have hy := y.toNat_lt
    have hz := z.toNat_lt
    rw [padded_cons, A.decodeGroups_cons (by omega) (by omega) (by omega) (by omega),
      ih, bytes_digits]
    rfl

/-- **What was encoded is read back.** -/
theorem decode_encode (l : List UInt8) : A.decode (A.encode l) = some l := by
  unfold decode
  rw [if_neg, decodeGroups_encode]
  intro hhead
  have hmem : A.pad ∈ A.body l := by
    cases hbody : A.body l with
    | nil =>
      have hnil : A.padded [] = [] := by simp [padded, missing]
      rw [encode, hbody, hnil] at hhead
      cases hhead
    | cons c cs =>
      rw [encode, hbody] at hhead
      have hc : c = A.pad := Option.some.inj hhead
      rw [hc]
      exact List.mem_cons_self
  exact A.pad_not_mem_body l hmem

end Base64
