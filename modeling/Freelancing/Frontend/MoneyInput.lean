import Freelancing.JsString
import Mathlib.Data.List.TakeWhile
import Mathlib.Data.Rat.Defs
import Mathlib.Tactic.FieldSimp
import Mathlib.Tactic.Positivity
import Mathlib.Tactic.Ring

/-!
# Money inputs

`frontend/src/lib/intl.ts`: an amount in minor units is written into an input field in major units,
and what the field holds is read back. The writer divides numbers and pads the rest with zeros; the
reader splits a string and puts the digits together as integers of any size.
-/

namespace Frontend

open JsString (trim split padStart padEnd digit isDigit isSpace toNat ofNat Digits)

/-- A currency code in upper case, and its `maximumFractionDigits`. -/
structure Currency where
  code : String
  fractionDigits : Nat

inductive JsError
  | typeError (message : String)
  | rangeError (message : String)
  deriving DecidableEq

def MAX_SAFE_INTEGER : Nat := 2 ^ 53 - 1

def dot : UInt16 := 46

def zero : UInt16 := digit 0

def minorMoneyInputValue (amountMinor : Int) (currency : Currency) : Except JsError JsString :=
  if amountMinor.natAbs > MAX_SAFE_INTEGER ∨ amountMinor < 0 then
    .error (.typeError "amountMinor must be a non-negative safe integer")
  else
    let fractionDigits := currency.fractionDigits
    let scale := 10 ^ fractionDigits
    let whole := amountMinor.toNat / scale
    if fractionDigits = 0 then .ok (ofNat whole)
    else .ok (ofNat whole ++ dot :: padStart fractionDigits zero
      (ofNat (amountMinor.toNat % scale)))

/-- The test of `^\d+(?:\.\d+)?$`. -/
def isAmount (s : JsString) : Bool :=
  !(s.takeWhile isDigit).isEmpty &&
    match s.dropWhile isDigit with
    | [] => true
    | c :: fraction => c == dot && !fraction.isEmpty && fraction.all isDigit

def majorMoneyInputToMinor (value : JsString) (currency : Currency) : Except JsError Nat :=
  let normalized := trim value
  if !isAmount normalized then
    .error (.rangeError "Enter a non-negative amount using digits and an optional decimal point.")
  else
    let fractionDigits := currency.fractionDigits
    let parts := split dot normalized
    let wholePart := parts[0]?.getD [zero]
    let fractionPart := parts[1]?.getD []
    if fractionPart.length > fractionDigits then
      .error (.rangeError (currency.code ++ " supports at most " ++ toString fractionDigits ++
        " decimal places."))
    else
      let scale := 10 ^ fractionDigits
      let padded := padEnd fractionDigits zero fractionPart
      let paddedFraction := if padded = [] then [zero] else padded
      let minor := toNat wholePart * scale + toNat paddedFraction
      if minor > MAX_SAFE_INTEGER then .error (.rangeError "Amount is too large.")
      else .ok minor

/-! ## What an amount is -/

/-- `s` is a decimal numeral of the value `v`, with at most `d` digits behind the point. -/
inductive Amount (d : Nat) : JsString → ℚ → Prop
  | whole {w : JsString} (hw : Digits w) : Amount d w (toNat w)
  | fraction {w f : JsString} (hw : Digits w) (hf : Digits f) (hd : f.length ≤ d) :
      Amount d (w ++ dot :: f) (toNat w + toNat f / 10 ^ f.length)

variable {s w f : JsString} {currency : Currency} {n d : Nat} {v : ℚ}

theorem dot_not_mem (h : ∀ c ∈ w, isDigit c = true) : dot ∉ w :=
  JsString.isDigit_not_mem (by decide) h

theorem isAmount_iff :
    isAmount s = true ↔ Digits s ∨ ∃ w f, s = w ++ dot :: f ∧ Digits w ∧ Digits f := by
  unfold isAmount
  constructor
  · intro h
    rw [Bool.and_eq_true, Bool.not_eq_true', List.isEmpty_eq_false_iff] at h
    have hw : Digits (s.takeWhile isDigit) := ⟨h.1, fun c hc => List.mem_takeWhile_imp hc⟩
    have hs := List.takeWhile_append_dropWhile (p := isDigit) (l := s)
    cases hrest : s.dropWhile isDigit with
    | nil =>
      rw [hrest, List.append_nil] at hs
      rw [hs] at hw
      exact .inl hw
    | cons c fraction =>
      rw [hrest] at h hs
      simp only [Bool.and_eq_true, beq_iff_eq, Bool.not_eq_true', List.isEmpty_eq_false_iff,
        List.all_eq_true] at h
      obtain ⟨-, ⟨rfl, hne⟩, hall⟩ := h
      exact .inr ⟨_, fraction, hs.symm, hw, hne, hall⟩
  · intro h
    rcases h with ⟨hne, hall⟩ | ⟨w, f, rfl, ⟨hne, hall⟩, hnef, hallf⟩
    · rw [List.takeWhile_eq_self_iff.2 hall, List.dropWhile_eq_nil_iff.2 hall]
      simpa using hne
    · rw [List.takeWhile_append_of_pos hall, List.dropWhile_append_of_pos hall]
      rw [List.takeWhile_cons_of_neg (by decide), List.dropWhile_cons_of_neg (by decide)]
      simp [hne, hnef]
      exact hallf

/-! ## Reading -/

/-- What the reader computes from the digits before and behind the point. -/
def minorOf (d : Nat) (w f : JsString) : Nat := toNat w * 10 ^ d + toNat (padEnd d zero f)

theorem minorOf_value (h : f.length ≤ d) :
    (minorOf d w f : ℚ) = (toNat w + toNat f / 10 ^ f.length) * 10 ^ d := by
  have hpad : (toNat (padEnd d zero f) : ℚ) * 10 ^ f.length = toNat f * 10 ^ d := by
    exact_mod_cast JsString.toNat_padEnd h
  have hne : (10 : ℚ) ^ f.length ≠ 0 := by positivity
  unfold minorOf
  push_cast
  field_simp
  rw [add_mul, hpad]
  ring

/-- The padded fraction may be empty, and counts as zero then. -/
theorem toNat_padded (s : JsString) : toNat (if s = [] then [zero] else s) = toNat s := by
  by_cases h : s = []
  · rw [if_pos h, h]
    rfl
  · rw [if_neg h]

/-- The reader, from the parts that it splits. -/
theorem read_parts (hs : isAmount (trim s) = true) {ps : List JsString}
    (hsplit : split dot (trim s) = w :: ps) (hf : ps[0]?.getD [] = f) :
    majorMoneyInputToMinor s currency = .ok n ↔ f.length ≤ currency.fractionDigits ∧
      minorOf currency.fractionDigits w f = n ∧ n ≤ MAX_SAFE_INTEGER := by
  unfold majorMoneyInputToMinor
  simp only [hs, Bool.not_true, Bool.false_eq_true, if_false, hsplit, List.getElem?_cons_zero,
    List.getElem?_cons_succ, Option.getD_some, hf, toNat_padded]
  change (if f.length > currency.fractionDigits then _ else
    if minorOf currency.fractionDigits w f > MAX_SAFE_INTEGER then _ else _) = _ ↔ _
  by_cases hlen : f.length > currency.fractionDigits
  · rw [if_pos hlen]
    refine iff_of_false (by simp) ?_
    omega
  rw [if_neg hlen]
  rw [gt_iff_lt, not_lt] at hlen
  by_cases hbig : minorOf currency.fractionDigits w f > MAX_SAFE_INTEGER
  · rw [if_pos hbig]
    refine iff_of_false (by simp) ?_
    intro h
    rw [h.2.1] at hbig
    exact absurd h.2.2 (not_le.2 hbig)
  · rw [if_neg hbig, Except.ok.injEq]
    constructor
    · intro h
      exact ⟨hlen, h, h ▸ not_lt.1 hbig⟩
    · intro h
      exact h.2.1

theorem read_whole (hw : Digits (trim s)) : majorMoneyInputToMinor s currency = .ok n ↔
    minorOf currency.fractionDigits (trim s) [] = n ∧ n ≤ MAX_SAFE_INTEGER := by
  rw [read_parts (f := []) (isAmount_iff.2 (.inl hw))
    (JsString.split_of_not_mem (dot_not_mem hw.2)) rfl]
  exact and_iff_right (Nat.zero_le _)

theorem read_fraction (hs : trim s = w ++ dot :: f) (hw : Digits w) (hf : Digits f) :
    majorMoneyInputToMinor s currency = .ok n ↔ f.length ≤ currency.fractionDigits ∧
      minorOf currency.fractionDigits w f = n ∧ n ≤ MAX_SAFE_INTEGER := by
  have hsplit : split dot (trim s) = [w, f] := by
    rw [hs, JsString.split_append (dot_not_mem hw.2), JsString.split_of_not_mem (dot_not_mem hf.2)]
  exact read_parts (isAmount_iff.2 (.inr ⟨w, f, hs, hw, hf⟩)) hsplit rfl

theorem amount_whole (hw : Digits w) : Amount d w v ↔ v = toNat w := by
  constructor
  · intro h
    cases h with
    | whole => rfl
    | fraction => exact absurd (by simp) (dot_not_mem hw.2)
  · intro h
    rw [h]
    exact .whole hw

theorem amount_fraction (hw : Digits w) (hf : Digits f) : Amount d (w ++ dot :: f) v ↔
    f.length ≤ d ∧ v = toNat w + toNat f / 10 ^ f.length := by
  constructor
  · intro h
    generalize ht : w ++ dot :: f = t at h
    cases h with
    | whole hw' => exact absurd (by rw [← ht]; simp) (dot_not_mem hw'.2)
    | @fraction w' f' hw' hf' hd =>
      -- there is one way to split at the point
      have hsplit := congrArg (split dot) ht
      rw [JsString.split_append (dot_not_mem hw.2), JsString.split_append (dot_not_mem hw'.2),
        JsString.split_of_not_mem (dot_not_mem hf.2), JsString.split_of_not_mem (dot_not_mem hf'.2)]
        at hsplit
      obtain ⟨rfl, hrest⟩ := List.cons.inj hsplit
      obtain ⟨rfl, -⟩ := List.cons.inj hrest
      exact ⟨hd, rfl⟩
  · intro h
    rw [h.2]
    exact .fraction hw hf h.1

theorem isAmount_of_amount (h : Amount d s v) : isAmount s = true := by
  cases h with
  | whole hw => exact isAmount_iff.2 (.inl hw)
  | fraction hw hf => exact isAmount_iff.2 (.inr ⟨_, _, rfl, hw, hf⟩)

/-- The bound of safe integers, for the number that the digits stand for. -/
theorem safe_iff {m : Nat} (h : (m : ℚ) = v) :
    m = n ∧ n ≤ MAX_SAFE_INTEGER ↔ v ≤ 2 ^ 53 - 1 ∧ (n : ℚ) = v := by
  subst h
  have hmax : (2 ^ 53 - 1 : ℚ) = (MAX_SAFE_INTEGER : Nat) := by norm_num [MAX_SAFE_INTEGER]
  rw [hmax, Nat.cast_le, Nat.cast_inj]
  omega

/-- **What the reader accepts, and what it returns**: a decimal numeral in white space, with no more
digits behind the point than the currency has, whose value in minor units is a safe integer. -/
theorem read_iff : majorMoneyInputToMinor s currency = .ok n ↔
    ∃ v, Amount currency.fractionDigits (trim s) v ∧ v * 10 ^ currency.fractionDigits ≤ 2 ^ 53 - 1 ∧
      (n : ℚ) = v * 10 ^ currency.fractionDigits := by
  by_cases hs : isAmount (trim s) = true
  · rcases isAmount_iff.1 hs with hw | ⟨w, f, heq, hw, hf⟩
    · have hvalue := minorOf_value (w := trim s) (f := []) (Nat.zero_le currency.fractionDigits)
      rw [read_whole hw, safe_iff hvalue]
      simp [amount_whole hw]
    · rw [read_fraction heq hw hf, heq]
      simp only [amount_fraction hw hf]
      by_cases hlen : f.length ≤ currency.fractionDigits
      · rw [safe_iff (minorOf_value hlen)]
        simp [hlen]
      · simp [hlen]
  · refine iff_of_false ?_ ?_
    · simp [majorMoneyInputToMinor, hs]
    · intro h
      obtain ⟨v, ha, -⟩ := h
      exact hs (isAmount_of_amount ha)

/-! ## Writing -/

/-- The digits of a rest and the zeros before them. -/
theorem digits_padStart {n : Nat} (hd : 0 < d) (h : n < 10 ^ d) :
    Digits (padStart d zero (ofNat n)) ∧ (padStart d zero (ofNat n)).length = d := by
  have hlen := JsString.length_ofNat hd h
  obtain ⟨hne, hall⟩ := JsString.digits_ofNat n
  refine ⟨⟨?_, ?_⟩, ?_⟩
  · simp [padStart, hne]
  · intro c hc
    rcases List.mem_append.1 hc with hc | hc
    · rw [(List.mem_replicate.1 hc).2]
      rfl
    · exact hall c hc
  · rw [padStart, List.length_append, List.length_replicate]
    omega

theorem not_isSpace {c : UInt16} (h : isDigit c = true ∨ c = dot) : isSpace c = false := by
  rcases h with h | rfl
  · simp only [isDigit, Bool.and_eq_true, decide_eq_true_eq, UInt16.le_iff_toNat_le] at h
    simp [isSpace, UInt16.le_iff_toNat_le, ← UInt16.toNat_inj] at h ⊢
    omega
  · rfl

/-- What the writer has written is read back. -/
theorem read_write (n : Nat) (hn : n ≤ MAX_SAFE_INTEGER) (currency : Currency) :
    ∃ s, minorMoneyInputValue n currency = .ok s ∧ majorMoneyInputToMinor s currency = .ok n := by
  have hcond : ¬ ((n : Int).natAbs > MAX_SAFE_INTEGER ∨ (n : Int) < 0) := by omega
  unfold minorMoneyInputValue
  rw [if_neg hcond, Int.toNat_natCast]
  have hw := JsString.digits_ofNat (n / 10 ^ currency.fractionDigits)
  by_cases hd : currency.fractionDigits = 0
  · have htrim : trim (ofNat (n / 10 ^ currency.fractionDigits)) =
        ofNat (n / 10 ^ currency.fractionDigits) :=
      JsString.trim_digits fun c hc => not_isSpace (.inl (hw.2 c hc))
    refine ⟨_, if_pos hd, (read_whole (by rw [htrim]; exact hw)).2 ⟨?_, hn⟩⟩
    rw [htrim, hd]
    simp [minorOf, padEnd, JsString.toNat_ofNat]
  · obtain ⟨hf, hlen⟩ := digits_padStart (Nat.pos_of_ne_zero hd)
      (Nat.mod_lt n (Nat.pow_pos (by decide) : 0 < 10 ^ currency.fractionDigits))
    generalize hrest :
      padStart currency.fractionDigits zero (ofNat (n % 10 ^ currency.fractionDigits)) = f
      at hf hlen
    have htrim : trim (ofNat (n / 10 ^ currency.fractionDigits) ++ dot :: f) =
        ofNat (n / 10 ^ currency.fractionDigits) ++ dot :: f := by
      refine JsString.trim_digits fun c hc => not_isSpace ?_
      rcases List.mem_append.1 hc with hc | hc
      · exact .inl (hw.2 c hc)
      · rcases List.mem_cons.1 hc with hc | hc
        · exact .inr hc
        · exact .inl (hf.2 c hc)
    refine ⟨_, if_neg hd, ?_⟩
    rw [hrest]
    refine (read_fraction htrim hw hf).2 ⟨hlen.le, ?_, hn⟩
    have hvalue : toNat f = n % 10 ^ currency.fractionDigits := by
      rw [← hrest]
      exact (JsString.toNat_padStart _ _).trans (JsString.toNat_ofNat _)
    rw [minorOf, padEnd, hlen, Nat.sub_self, List.replicate_zero, List.append_nil, hvalue,
      JsString.toNat_ofNat]
    exact Nat.div_add_mod' n _

/-- **Money inputs round-trip**, and the reader accepts exactly the amounts of the currency. -/
theorem money_inputs (currency : Currency) :
    (∀ n : Fin (2 ^ 53), ∃ s, minorMoneyInputValue n.val currency = .ok s ∧
      majorMoneyInputToMinor s currency = .ok n.val) ∧
    ∀ s n, majorMoneyInputToMinor s currency = .ok n ↔
      ∃ v, Amount currency.fractionDigits (trim s) v ∧
        v * 10 ^ currency.fractionDigits ≤ 2 ^ 53 - 1 ∧
        (n : ℚ) = v * 10 ^ currency.fractionDigits := by
  constructor
  · intro n
    exact read_write n.val (Nat.le_sub_one_of_lt n.isLt) currency
  · intro s n
    exact read_iff

end Frontend
