import Mathlib.Data.List.Induction
import Mathlib.Data.Nat.Digits.Lemmas

/-!
# Strings of code units

The strings of JavaScript are lists of 16-bit code units. Here are those of their methods that
amounts and paths are read with, and the decimal numerals.
-/

abbrev JsString := List UInt16

namespace JsString

/-! ## Methods -/

/-- White space and line terminators. -/
def isSpace (c : UInt16) : Bool :=
  (9 ≤ c && c ≤ 13) || c == 0x20 || c == 0xa0 || c == 0x1680 || (0x2000 ≤ c && c ≤ 0x200a) ||
    c == 0x2028 || c == 0x2029 || c == 0x202f || c == 0x205f || c == 0x3000 || c == 0xfeff

def trim (s : JsString) : JsString := ((s.dropWhile isSpace).reverse.dropWhile isSpace).reverse

def padStart (n : Nat) (c : UInt16) (s : JsString) :
    JsString := List.replicate (n - s.length) c ++ s

def padEnd (n : Nat) (c : UInt16) (s : JsString) : JsString := s ++ List.replicate (n - s.length) c

/-- `s.split(sep)`, for a separator of one code unit. -/
def split (sep : UInt16) : JsString → List JsString
  | [] => [[]]
  | c :: s =>
    if c = sep then [] :: split sep s
    else match split sep s with
      | [] => [[c]]
      | w :: ws => (c :: w) :: ws

theorem split_of_not_mem {sep : UInt16} {s : JsString} (h : sep ∉ s) : split sep s = [s] := by
  induction s with
  | nil => rfl
  | cons c s ih =>
    rw [List.mem_cons, not_or] at h
    unfold split
    rw [if_neg (Ne.symm h.1), ih h.2]

theorem split_append {sep : UInt16} {s t : JsString} (h : sep ∉ s) :
    split sep (s ++ sep :: t) = s :: split sep t := by
  induction s with
  | nil => simp [split]
  | cons c s ih =>
    rw [List.mem_cons, not_or] at h
    rw [List.cons_append, split, if_neg (Ne.symm h.1), ih h.2]

/-! ## Characters -/

/-- The code units of a text without surrogates. -/
def text (s : String) : JsString := s.toList.map fun c => UInt16.ofNat c.toNat

def isHighSurrogate (c : UInt16) : Bool := 0xd800 ≤ c && c ≤ 0xdbff

def isLowSurrogate (c : UInt16) : Bool := 0xdc00 ≤ c && c ≤ 0xdfff

/-- The character of a code unit that is not in a pair. -/
def scalar (c : UInt16) : Char :=
  if isHighSurrogate c || isLowSurrogate c then '\uFFFD' else Char.ofNat c.toNat

/-- The characters of a string. Surrogates without a partner are replaced. -/
def scalars : JsString → List Char
  | [] => []
  | [c] => [scalar c]
  | c :: d :: s =>
    if isHighSurrogate c && isLowSurrogate d then
      Char.ofNat (0x10000 + (c.toNat - 0xd800) * 0x400 + (d.toNat - 0xdc00)) :: scalars s
    else scalar c :: scalars (d :: s)

theorem scalars_cons {c : UInt16} (h : isHighSurrogate c = false) (s : JsString) :
    scalars (c :: s) = scalar c :: scalars s := by
  cases s with
  | nil => rfl
  | cons d s => simp [scalars, h]

theorem scalars_append {s : JsString} (h : ∀ c ∈ s, isHighSurrogate c = false) (t : JsString) :
    scalars (s ++ t) = s.map scalar ++ scalars t := by
  induction s with
  | nil => rfl
  | cons c s ih =>
    rw [List.cons_append, scalars_cons (h c List.mem_cons_self), ih fun d hd =>
      h d (List.mem_cons_of_mem c hd)]
    rfl

/-! ## Numerals -/

def isDigit (c : UInt16) : Bool := 48 ≤ c && c ≤ 57

def digit (d : Nat) : UInt16 := UInt16.ofNat (48 + d)

/-- `String(n)`, for an integer that is written without an exponent. -/
def ofNat (n : Nat) : JsString := if n = 0 then [digit 0] else (Nat.digits 10 n).reverse.map digit

/-- `BigInt(s)`, for a string of digits. -/
def toNat (s : JsString) : Nat := s.foldl (fun v c => 10 * v + (c.toNat - 48)) 0

/-- A numeral: digits, and at least one. -/
def Digits (s : JsString) : Prop := s ≠ [] ∧ ∀ c ∈ s, isDigit c = true

@[simp] theorem toNat_nil : toNat [] = 0 := rfl

theorem toNat_append_singleton (s : JsString) (c : UInt16) :
    toNat (s ++ [c]) = 10 * toNat s + (c.toNat - 48) := by
  simp [toNat]

theorem toNat_append (s t : JsString) : toNat (s ++ t) = toNat s * 10 ^ t.length + toNat t := by
  induction t using List.reverseRecOn with
  | nil => simp
  | append_singleton t c ih =>
    rw [← List.append_assoc, toNat_append_singleton, toNat_append_singleton, ih, List.length_append,
      List.length_singleton, pow_succ]
    ring

@[simp] theorem toNat_zeros (n : Nat) : toNat (List.replicate n (digit 0)) = 0 := by
  induction n with
  | zero => rfl
  | succ n ih =>
    rw [List.replicate_succ', toNat_append_singleton, ih]
    rfl

theorem toNat_padStart (n : Nat) (s : JsString) : toNat (padStart n (digit 0) s) = toNat s := by
  rw [padStart, toNat_append, toNat_zeros]
  simp

/-- Zeros behind the digits of a fraction are powers of ten. -/
theorem toNat_padEnd {n : Nat} {s : JsString} (h : s.length ≤ n) :
    toNat (padEnd n (digit 0) s) * 10 ^ s.length = toNat s * 10 ^ n := by
  rw [padEnd, toNat_append, toNat_zeros, List.length_replicate, Nat.add_zero,
    Nat.mul_assoc, ← pow_add, Nat.sub_add_cancel h]

theorem toNat_digit {d : Nat} (h : d < 10) : (digit d).toNat = 48 + d := by
  unfold digit
  rw [UInt16.toNat_ofNat']
  omega

theorem isDigit_digit {d : Nat} (h : d < 10) : isDigit (digit d) = true := by
  have hd := toNat_digit h
  simp only [isDigit, Bool.and_eq_true, decide_eq_true_eq, UInt16.le_iff_toNat_le, hd]
  simp
  omega

theorem toNat_ofNat (n : Nat) : toNat (ofNat n) = n := by
  by_cases h0 : n = 0
  · rw [ofNat, if_pos h0, h0]
    rfl
  rw [ofNat, if_neg h0]
  clear h0
  induction n using Nat.strong_induction_on with
  | _ n ih =>
    by_cases h0 : n = 0
    · rw [h0]
      rfl
    · rw [Nat.digits_def' (by decide) (Nat.pos_of_ne_zero h0), List.reverse_cons, List.map_append,
        List.map_singleton, toNat_append_singleton, ih (n / 10) (by omega), toNat_digit (by omega)]
      omega

theorem digits_ofNat (n : Nat) : Digits (ofNat n) := by
  unfold ofNat
  by_cases h0 : n = 0
  · rw [if_pos h0]
    exact ⟨by simp, by simp [isDigit_digit]⟩
  · rw [if_neg h0]
    refine ⟨?_, ?_⟩
    · simpa using Nat.digits_ne_nil_iff_ne_zero.2 h0
    · intro c hc
      obtain ⟨d, hd, rfl⟩ := List.mem_map.1 hc
      exact isDigit_digit (Nat.digits_lt_base (by decide) (List.mem_reverse.1 hd))

theorem length_ofNat {n k : Nat} (hk : 0 < k) (h : n < 10 ^ k) : (ofNat n).length ≤ k := by
  unfold ofNat
  by_cases h0 : n = 0
  · rw [if_pos h0]
    change 1 ≤ k
    omega
  · rw [if_neg h0]
    simpa using (Nat.digits_length_le_iff (by decide) n).2 h

theorem isDigit_not_mem {c : UInt16} {s : JsString} (hc : isDigit c = false)
    (h : ∀ d ∈ s, isDigit d = true) : c ∉ s := by
  intro hm
  rw [h c hm] at hc
  cases hc

theorem trim_digits {s : JsString} (h : ∀ c ∈ s, isSpace c = false) : trim s = s := by
  have hdrop : ∀ t : JsString, (∀ c ∈ t, isSpace c = false) → t.dropWhile isSpace = t := by
    intro t ht
    cases t with
    | nil => rfl
    | cons c t => exact List.dropWhile_cons_of_neg (by simp [ht c])
  unfold trim
  rw [hdrop s h, hdrop s.reverse (fun c hc => h c (List.mem_reverse.1 hc)), List.reverse_reverse]

end JsString
