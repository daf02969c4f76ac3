import Mathlib.Algebra.BigOperators.Group.List.Basic
import Mathlib.Algebra.Order.Ring.Int

/-!
# Double-entry bookkeeping

Entries debit or credit an account `A` with an amount in a currency `C`. `balance es a`: what the
entries `es` leave on account `a`, credits counted positively. `Balanced es`: the entries of one
proper journal. A ledger made of balanced journals leaves a total of zero on the accounts of each
currency (`total_eq_zero`).
-/

namespace DoubleEntry

inductive Direction
  | debit
  | credit
  deriving DecidableEq, Repr

structure Entry (A C : Type) where
  account : A
  direction : Direction
  amount : Int
  currency : C
  deriving DecidableEq, Repr

variable {A C : Type}

def Entry.signed (e : Entry A C) : Int :=
  match e.direction with
  | .credit => e.amount
  | .debit => -e.amount

/-- The sum of the amounts entered in direction `dir`. -/
def total (dir : Direction) (es : List (Entry A C)) : Int :=
  (es.map fun e => if e.direction = dir then e.amount else 0).sum

theorem total_cons (dir : Direction) (e : Entry A C) (es : List (Entry A C)) :
    total dir (e :: es) = (if e.direction = dir then e.amount else 0) + total dir es := by
  simp [total]

theorem total_append (dir : Direction) (es es' : List (Entry A C)) :
    total dir (es ++ es') = total dir es + total dir es' := by
  simp [total]

theorem sum_signed (es : List (Entry A C)) :
    (es.map Entry.signed).sum = total .credit es - total .debit es := by
  induction es with
  | nil => rfl
  | cons e es ih =>
    simp only [total, List.map_cons, List.sum_cons] at ih ⊢
    rw [ih]
    cases h : e.direction <;> simp [Entry.signed, h] <;> omega

section
variable [DecidableEq A]

def balance (es : List (Entry A C)) (a : A) : Int :=
  (es.map fun e => if e.account = a then e.signed else 0).sum

@[simp] theorem balance_nil (a : A) : balance ([] : List (Entry A C)) a = 0 := rfl

@[simp] theorem balance_cons (e : Entry A C) (es : List (Entry A C)) (a : A) :
    balance (e :: es) a = (if e.account = a then e.signed else 0) + balance es a := by
  simp [balance]

@[simp] theorem balance_append (es es' : List (Entry A C)) (a : A) :
    balance (es ++ es') a = balance es a + balance es' a := by
  simp [balance]

theorem balance_eq_zero {es : List (Entry A C)} {a : A} (h : ∀ e ∈ es, e.account ≠ a) :
    balance es a = 0 := by
  induction es with
  | nil => rfl
  | cons e es ih =>
    rw [balance_cons, if_neg (h e (by simp)), ih fun x hx => h x (List.mem_cons_of_mem _ hx)]
    rfl

/-- A transfer back negates the transfer. -/
theorem balance_swap (a b k : A) (n : Int) (c : C) :
    balance [⟨b, .debit, n, c⟩, ⟨a, .credit, n, c⟩] k =
      -balance [⟨a, .debit, n, c⟩, ⟨b, .credit, n, c⟩] k := by
  simp only [balance_cons, balance_nil, Entry.signed]
  split <;> split <;> omega

/-- An account that is only credited. -/
theorem balance_nonneg {es : List (Entry A C)} {a : A}
    (h : ∀ e ∈ es, e.account = a → e.direction = .credit ∧ 0 < e.amount) : 0 ≤ balance es a := by
  induction es with
  | nil => exact Int.le_refl _
  | cons e es ih =>
    rw [balance_cons]
    have := ih fun x hx => h x (List.mem_cons_of_mem _ hx)
    split
    · rename_i he
      obtain ⟨hd, hp⟩ := h e (by simp) he
      simp only [Entry.signed, hd]
      omega
    · omega

end

/-- The entries of a proper journal. -/
structure Balanced (es : List (Entry A C)) : Prop where
  two : 2 ≤ es.length
  positive : ∀ e ∈ es, 0 < e.amount
  oneCurrency : ∀ e ∈ es, ∀ e' ∈ es, e.currency = e'.currency
  balanced : total .debit es = total .credit es

theorem Balanced.sum_signed {es : List (Entry A C)} (h : Balanced es) :
    (es.map Entry.signed).sum = 0 := by
  rw [DoubleEntry.sum_signed, h.balanced]
  omega

/-- Positive entries whose debits and credits agree are at least two, unless there are none. -/
theorem two_le_length {es : List (Entry A C)} (hne : es ≠ []) (h : ∀ e ∈ es, 0 < e.amount)
    (hb : total .debit es = total .credit es) : 2 ≤ es.length := by
  match es, hne with
  | [e], _ =>
    have := h e (by simp)
    cases hd : e.direction <;> simp [total, hd] at hb <;> omega
  | _ :: _ :: _, _ => simp

/-! ## A ledger of journals -/

section
variable [DecidableEq C]

/-- The amounts that the entries of currency `c` leave, over all accounts. -/
def currencySum (es : List (Entry A C)) (c : C) : Int :=
  (es.map fun e => if e.currency = c then e.signed else 0).sum

theorem Balanced.currencySum_eq_zero {es : List (Entry A C)} (h : Balanced es) (c : C) :
    currencySum es c = 0 := by
  by_cases hc : ∃ e ∈ es, e.currency = c
  · obtain ⟨e, he, rfl⟩ := hc
    rw [← h.sum_signed, currencySum]
    congr 1
    exact List.map_congr_left fun e' he' => if_pos (h.oneCurrency e' he' e he)
  · refine List.sum_eq_zero fun x hx => ?_
    obtain ⟨e, he, rfl⟩ := List.mem_map.1 hx
    exact if_neg fun h => hc ⟨e, he, h⟩

theorem currencySum_flatten {js : List (List (Entry A C))} (h : ∀ es ∈ js, Balanced es) (c : C) :
    currencySum js.flatten c = 0 := by
  induction js with
  | nil => rfl
  | cons es js ih =>
    have h1 := (h es (by simp)).currencySum_eq_zero c
    have h2 := ih fun x hx => h x (List.mem_cons_of_mem _ hx)
    simp only [currencySum, List.flatten_cons, List.map_append, List.sum_append] at h1 h2 ⊢
    rw [h1, h2]
    rfl

end

/-- Summing the balances of distinct accounts counts each entry on one of them once. -/
theorem sum_balance [DecidableEq A] {accounts : List A} (hnd : accounts.Nodup)
    (es : List (Entry A C)) : (accounts.map (balance es)).sum =
      (es.map fun e => if e.account ∈ accounts then e.signed else 0).sum := by
  induction accounts with
  | nil => simp
  | cons a accounts ih =>
    obtain ⟨ha, hnd⟩ := List.nodup_cons.1 hnd
    rw [List.map_cons, List.sum_cons, ih hnd, balance, ← List.sum_map_add]
    congr 1
    refine List.map_congr_left fun e _ => ?_
    by_cases he : e.account = a
    · subst he; simp [ha]
    · simp [he]

/-- **The books balance.** Where every journal is balanced and every entry is on a listed account
of its own currency, the balances of the accounts of each currency sum to zero. -/
theorem total_eq_zero [DecidableEq A] [DecidableEq C] (accounts : List A) (cur : A → C)
    (js : List (List (Entry A C))) (hnd : accounts.Nodup) (hb : ∀ es ∈ js, Balanced es)
    (hacc : ∀ es ∈ js, ∀ e ∈ es, e.account ∈ accounts ∧ e.currency = cur e.account) (c : C) :
    ((accounts.filter fun a => cur a = c).map (balance js.flatten)).sum = 0 := by
  rw [sum_balance (hnd.filter _)]
  refine Eq.trans (congrArg List.sum (List.map_congr_left fun e he => ?_))
    (currencySum_flatten hb c)
  obtain ⟨es, hes, he⟩ := List.mem_flatten.1 he
  obtain ⟨h1, h2⟩ := hacc es hes e he
  simp [h1, h2]

end DoubleEntry
