import Mathlib.Algebra.Order.Floor.Semiring
import Mathlib.Algebra.Order.Field.Basic

/-!
# Lockouts

A counter of wrong guesses and a lock: the guess that brings the counter to `N` locks for the time
`L`, and a guess while locked is not evaluated. In a time of length `T` without a success at most
`N * ⌈T / L⌉` wrong guesses are evaluated (`Runs.wrong_le`), whatever the counter and the lock
were before.
-/

namespace Lockout

variable {τ : Type}

structure State (τ : Type) where
  failed : Nat
  lockedUntil : Option τ

/-- What becomes of a guess; `void` is one that is not about the lock at all. -/
inductive Verdict
  | locked
  | wrong
  | success
  | void
  deriving DecidableEq

section
variable [LinearOrder τ] {a b : τ} {es : List (τ × Verdict)}

def State.Locked (s : State τ) (t : τ) : Prop := ∃ u, s.lockedUntil = some u ∧ t < u

/-- A wrong guess that is evaluated at a time in `[a, b)`. -/
def wrongIn (a b : τ) (e : τ × Verdict) : Bool := e.2 = .wrong && a ≤ e.1 && e.1 < b

def Ordered (es : List (τ × Verdict)) : Prop := es.Pairwise fun e e' => e.1 ≤ e'.1

/-- No guess in `[a, b)` succeeds. -/
def Unsuccessful (a b : τ) (es : List (τ × Verdict)) : Prop :=
  ∀ e ∈ es, a ≤ e.1 → e.1 < b → e.2 ≠ .success

theorem countP_of_le (h : ∀ e ∈ es, b ≤ e.1) : es.countP (wrongIn a b) = 0 := by
  rw [List.countP_eq_zero]
  intro e he
  simp [wrongIn, (h e he).not_gt]

end

section
variable [Field τ] [LinearOrder τ]

def State.fail (N : Nat) (L t : τ) (s : State τ) : State τ :=
  if N ≤ s.failed + 1 then ⟨0, some (t + L)⟩ else ⟨s.failed + 1, s.lockedUntil⟩

/-- A guess at the time `e.1`. -/
inductive Step (N : Nat) (L : τ) (s : State τ) (e : τ × Verdict) : State τ → Prop
  | locked (he : e.2 = .locked) (h : s.Locked e.1) : Step N L s e s
  | wrong (he : e.2 = .wrong) (h : ¬ s.Locked e.1) : Step N L s e (s.fail N L e.1)
  | success (he : e.2 = .success) (h : ¬ s.Locked e.1) : Step N L s e ⟨0, none⟩
  | void (he : e.2 = .void) : Step N L s e s

inductive Runs (N : Nat) (L : τ) : State τ → List (τ × Verdict) → Prop
  | nil {s : State τ} : Runs N L s []
  | cons {s s' : State τ} {e : τ × Verdict} {es : List (τ × Verdict)} (h : Step N L s e s')
      (hs : Runs N L s' es) : Runs N L s (e :: es)

variable [IsStrictOrderedRing τ] [FloorSemiring τ] {N : Nat} {L a b t u : τ} {s s' : State τ}
  {e : τ × Verdict} {es : List (τ × Verdict)}

/-- A period of `L` less. -/
theorem ceil_sub (hL : 0 < L) (h : u < b) (ht : u ≤ t) :
    ⌈(b - (t + L)) / L⌉₊ + 1 ≤ ⌈(b - u) / L⌉₊ := by
  have hone : 0 < ⌈(b - u) / L⌉₊ := Nat.ceil_pos.2 (div_pos (sub_pos.2 h) hL)
  have hle : ⌈(b - (t + L)) / L⌉₊ ≤ ⌈(b - u) / L⌉₊ - 1 := by
    rw [Nat.ceil_le, Nat.cast_sub hone, Nat.cast_one, le_sub_iff_add_le]
    calc (b - (t + L)) / L + 1
        = (b - t) / L := by rw [← sub_sub, sub_div, div_self hL.ne', sub_add_cancel]
      _ ≤ (b - u) / L := by gcongr
      _ ≤ ⌈(b - u) / L⌉₊ := Nat.le_ceil _
  omega

/-- From a state whose lock, if it is one, lasts until `u` at least: the wrong guesses evaluated
before `b`, with those that the counter has already. -/
theorem Runs.wrong_from (hN : 1 ≤ N) (hL : 0 < L) (hr : Runs N L s es) (ho : Ordered es)
    (hge : ∀ e ∈ es, a ≤ e.1) (hno : Unsuccessful a b es)
    (hu : ∀ e ∈ es, ¬ s.Locked e.1 → u ≤ e.1) :
    es.countP (wrongIn a b) = 0 ∨
      es.countP (wrongIn a b) + min s.failed (N - 1) ≤ N * ⌈(b - u) / L⌉₊ := by
  induction hr generalizing u with
  | nil => exact .inl rfl
  | @cons s s' e es h hs ih =>
    rw [Ordered, List.pairwise_cons] at ho
    have hge' : ∀ e ∈ es, a ≤ e.1 := fun x hx => hge x (List.mem_cons_of_mem _ hx)
    have hno' : Unsuccessful a b es := fun x hx => hno x (List.mem_cons_of_mem _ hx)
    by_cases hb : e.1 < b
    case neg =>
      -- the clock has passed `b`
      refine .inl (countP_of_le fun x hx => ?_)
      rcases List.mem_cons.1 hx with rfl | hx
      · exact not_lt.1 hb
      · exact (not_lt.1 hb).trans (ho.1 x hx)
    case pos =>
    have ha := hge e (by simp)
    have hsame : e.2 ≠ .wrong → s' = s → es.countP (wrongIn a b) = 0 ∨
        es.countP (wrongIn a b) + min s.failed (N - 1) ≤ N * ⌈(b - u) / L⌉₊ := by
      rintro - rfl
      exact ih ho.2 hge' hno' fun x hx => hu x (List.mem_cons_of_mem _ hx)
    have hskip : e.2 ≠ .wrong →
        (e :: es).countP (wrongIn a b) = es.countP (wrongIn a b) := by
      intro hne
      rw [List.countP_cons, if_neg, Nat.add_zero]
      simp [wrongIn, hne]
    cases h with
    | locked he _ => rw [hskip (by simp [he])]; exact hsame (by simp [he]) rfl
    | void he => rw [hskip (by simp [he])]; exact hsame (by simp [he]) rfl
    | success he _ => exact absurd he (hno e (by simp) ha hb)
    | wrong he hfree =>
      have hue : u ≤ e.1 := hu e (by simp) hfree
      have hcount : (e :: es).countP (wrongIn a b) = es.countP (wrongIn a b) + 1 := by
        rw [List.countP_cons, if_pos]
        simp [wrongIn, he, ha, hb]
      have hpos : 1 ≤ ⌈(b - u) / L⌉₊ :=
        Nat.ceil_pos.2 (div_pos (sub_pos.2 (hue.trans_lt hb)) hL)
      have hNle : N ≤ N * ⌈(b - u) / L⌉₊ := Nat.le_mul_of_pos_right N hpos
      rw [hcount]
      right
      by_cases hlock : N ≤ s.failed + 1
      · -- the lock begins
        have hs' : s.fail N L e.1 = ⟨0, some (e.1 + L)⟩ := if_pos hlock
        have hnext : ∀ x ∈ es, ¬ (s.fail N L e.1).Locked x.1 → e.1 + L ≤ x.1 := by
          intro x _ hx
          rw [hs'] at hx
          by_contra hlt
          exact hx ⟨_, rfl, not_le.1 hlt⟩
        have hrest := ih ho.2 hge' hno' hnext
        rw [hs', Nat.zero_min, Nat.add_zero] at hrest
        have hperiod : N * ⌈(b - (e.1 + L)) / L⌉₊ + N ≤ N * ⌈(b - u) / L⌉₊ :=
          Nat.mul_le_mul_left N (ceil_sub hL (hue.trans_lt hb) hue)
        omega
      · have hs' : s.fail N L e.1 = ⟨s.failed + 1, s.lockedUntil⟩ := if_neg hlock
        have hnext : ∀ x ∈ es, ¬ (s.fail N L e.1).Locked x.1 → u ≤ x.1 := by
          intro x hx hxl
          rw [hs'] at hxl
          exact hu x (List.mem_cons_of_mem _ hx) hxl
        have hrest := ih ho.2 hge' hno' hnext
        rw [hs'] at hrest
        change _ = 0 ∨ _ + min (s.failed + 1) (N - 1) ≤ _ at hrest
        omega

/-- **A lockout bounds guessing.** -/
theorem Runs.wrong_le (hN : 1 ≤ N) (hL : 0 < L) (hr : Runs N L s es) (ho : Ordered es)
    (hno : Unsuccessful a b es) : es.countP (wrongIn a b) ≤ N * ⌈(b - a) / L⌉₊ := by
  induction hr with
  | nil => exact Nat.zero_le _
  | @cons s s' e es h hs ih =>
    by_cases ha : a ≤ e.1
    · have hge : ∀ x ∈ e :: es, a ≤ x.1 := by
        rw [Ordered, List.pairwise_cons] at ho
        intro x hx
        rcases List.mem_cons.1 hx with rfl | hx
        · exact ha
        · exact ha.trans (ho.1 x hx)
      have := (Runs.cons h hs).wrong_from hN hL ho hge hno fun x hx _ => hge x hx
      omega
    · rw [List.countP_cons, if_neg (by simp [wrongIn, ha]), Nat.add_zero]
      rw [Ordered, List.pairwise_cons] at ho
      exact ih ho.2 fun x hx => hno x (List.mem_cons_of_mem _ hx)

end

end Lockout
