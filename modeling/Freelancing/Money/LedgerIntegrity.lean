import Freelancing.Money.Alone
import Freelancing.Money.PayoutLife

/-!
# The ledger over whole runs

The journals of every state of every run are proper ones, of one currency that is the one of their
accounts, each of its own key; journals stay as they were posted; a posting that finds its journal
there finds the one it was about to post; a reversal negates the journal it names (`ledger_kept`).
Wallets do not go negative (`wallets_covered`). Both hold whatever requests overlap.
-/

namespace Money

open Text (upper)
open Txn (Sys)
open Txn.Sys (goes)
open DoubleEntry (Balanced)

/-! ## The books -/

structure LedgerKept (d : Db) : Prop where
  journals : ∀ j ∈ d.journals, Balanced j.entries
  accounts : ∀ j ∈ d.journals, ∀ x ∈ j.entries, ∃ a, d.account? x.account = some a ∧
    x.currency = a.currency
  balances : ∀ cur, ((d.accounts.filter fun a => a.currency = cur).map fun a =>
    d.balance a.key).sum = 0
  keys : (d.journals.map JournalTransaction.key).Nodup
  reversals : ∀ j ∈ d.journals, j.key.operation = .reversal → ∃ k j', j.reversalOf = some k ∧
    d.journal? k = some j' ∧
    ∀ a, DoubleEntry.balance j.entries a = -DoubleEntry.balance j'.entries a

variable {d : Db}

theorem refund_reversal_negates (r : Refund) (a : AccountKey) :
    DoubleEntry.balance r.reversal a = -DoubleEntry.balance r.reservation a :=
  DoubleEntry.balance_swap ..

theorem payout_reversal_negates (p : Payout) (a : AccountKey) :
    DoubleEntry.balance p.reversalEntries a = -DoubleEntry.balance p.reservation a :=
  DoubleEntry.balance_swap ..

/-- A reversal negates the journal it names. -/
theorem Consistent.reversal (hd : Consistent d) {j : JournalTransaction} (hj : j ∈ d.journals)
    (hop : j.key.operation = .reversal) : ∃ k j', j.reversalOf = some k ∧ d.journal? k = some j' ∧
      ∀ a, DoubleEntry.balance j.entries a = -DoubleEntry.balance j'.entries a := by
  have hknown := (hd.journals j hj).known
  unfold Known at hknown
  split at hknown
  case h_5 hk =>
    obtain ⟨r, hr, he, hrev, hsome⟩ := hknown
    obtain ⟨j', hj'⟩ := Option.isSome_iff_exists.1 hsome
    refine ⟨_, j', hrev, hj', fun a => ?_⟩
    obtain rfl : r.id = _ := Table.get_key hr
    rw [he, refund_reversal_negates, entries_of_row (P := fun _ => True) hr
      ((hd.known hj').imp fun _ h => ⟨h.1, h.2, trivial⟩)]
  case h_7 hk =>
    obtain ⟨p, hp, he, hrev, hsome⟩ := hknown
    obtain ⟨j', hj'⟩ := Option.isSome_iff_exists.1 hsome
    refine ⟨_, j', hrev, hj', fun a => ?_⟩
    obtain rfl : p.id = _ := Table.get_key hp
    rw [he, payout_reversal_negates, entries_of_row (P := fun _ => True) hp
      ((hd.known hj').imp fun _ h => ⟨h.1, h.2, trivial⟩)]
  all_goals simp_all

/-- The currencies of the accounts are those of their keys. -/
def AccountKey.currency (k : AccountKey) : Currency := k.account.currency

theorem Consistent.ledgerKept (hd : Consistent d) : LedgerKept d where
  journals j hj := (hd.journals j hj).balanced
  accounts j hj x hx := ⟨_, (hd.journals j hj).accounts x hx⟩
  balances cur := by
    have h := DoubleEntry.total_eq_zero (d.accounts.map LedgerAccount.key) AccountKey.currency
      (d.journals.map (·.entries)) hd.keyed.accounts
      (fun es hes => by
        obtain ⟨j, hj, rfl⟩ := List.mem_map.1 hes
        exact (hd.journals j hj).balanced)
      (fun es hes x hx => by
        obtain ⟨j, hj, rfl⟩ := List.mem_map.1 hes
        obtain ⟨ha, hc⟩ := (hd.journals j hj).accounts x hx
        exact ⟨List.mem_map.2 ⟨_, Table.get_mem ha, AccountKey.account_key _⟩, hc⟩) cur
    rw [← h, List.filter_map, List.map_map]
    refine congrArg List.sum (congrArg₂ List.map (funext fun a => ?_)
      (List.filter_congr fun a ha => ?_))
    · rw [Function.comp, Db.balance, Db.entries, List.flatMap_def]
    · rw [Function.comp, AccountKey.currency, ← hd.accounts a ha]
  keys := hd.keyed.journals
  reversals j hj hop := hd.reversal hj hop

/-- A posting that finds its journal there finds what it was about to post. -/
def FindsItsPostings : Move → Prop
  | .stmt _ (.journalLookup k postings) _ view _ =>
    ∀ j, view.journal? k = some j → j.entries = postings
  | _ => True

variable {mode : Txn.Mode} {cfg : Config} {e : Providers} {ops : Nat → Operation} {s : System}

theorem holds_of_reaches (hd : Consistent d) (hr : Reaches mode (system cfg d e ops) s) :
    (moneyLaw (anyRules mode)).Holds s :=
  holds_of_run (R := anyRules mode) hd (fun i => (ops i).keyed_any) hr

theorem finds_of_holds (h : (moneyLaw (anyRules mode)).Holds s) {i : Nat}
    {c : Txn.Choice Answer Err Providers} {s' : System} {mv : Move}
    (hs : s.step? mode i c = some (s', mv)) : FindsItsPostings mv := by
  have hm := (h.step hs trivial).2
  cases mv with
  | stmt j p d view e =>
    cases p with
    | journalLookup k postings => exact hm.2.2.1 k postings rfl
    | _ => trivial
  | _ => trivial

/-- **The ledger keeps its integrity over whole runs**: its journals are proper, stay as they were
posted, and a posting only ever finds its own. -/
theorem ledger_kept (hd : Activated d) (hr : Reaches mode (system cfg d e ops) s) :
    LedgerKept s.db ∧
    (∀ s', Reaches mode s s' → ∀ j ∈ s.db.journals, j ∈ s'.db.journals) ∧
    ∀ i c s' mv, s.step? mode i c = some (s', mv) → FindsItsPostings mv := by
  have hs := holds_of_reaches hd.consistent hr
  refine ⟨Consistent.ledgerKept hs.inv, fun s' hr' j hj => ?_, fun i c s' mv => finds_of_holds hs⟩
  have hrow : s.db.journal? j.key = some j := Table.get_of_mem hs.inv.keyed.journals hj
  exact Table.get_mem (keeps_of_run (P := fun d _ => d.journal? j.key = some j) hs hr'
    (fun _ _ _ _ _ _ hc hP => hc.frame.journals.eq_of_eq hP) (fun _ _ _ _ _ _ _ _ _ hP => hP) hrow)

theorem ledger_kept_of_release : ∃ s : System, 2 ≤ s.db.journals.length ∧ LedgerKept s.db := by
  obtain ⟨s, hr, hp⟩ := Sys.exists_free_run .readCommitted
    (system sandboxConfig oneMilestone noTransfers releasingOps) releasedRun
    (fun s => decide (2 ≤ s.db.journals.length)) (by decide +kernel)
  exact ⟨s, of_decide_eq_true hp, (ledger_kept oneMilestone_activated hr).1⟩

/-! ## Wallets -/

theorem resolvePayoutDestination_refused {u : UserId} {providerName : String} {pend : Db → Db}
    {f : Destination → Tx Response} (h : ∀ x, RefusedFrom (f x) d pend) :
    RefusedFrom (resolvePayoutDestination u providerName >>= f) d pend := by
  unfold resolvePayoutDestination
  dsimp only
  split
  · exact h _
  · rw [bind_assoc]
    refine .select rfl ?_
    split
    · exact .raise_bind _ _
    · exact h _

/-- A payout of more than is in the wallet. -/
theorem payout_refused {user : User} {amountMinor : Int} {currency providerName key : String}
    {id : PayoutId} (hfresh : d.record? ⟨user.id, .payoutCreate, strip key⟩ = none)
    (hnone : d.payoutOfRecord? ⟨user.id, .payoutCreate, strip key⟩ = none)
    (hshort : d.balance (.userWallet user.id (upper (strip currency))) < amountMinor) :
    Refused (createPayout cfg user amountMinor currency providerName key id) d := by
  unfold createPayout
  refine .require fun _ => .require fun _ => .claimIdempotency hfresh ?_
  refine .selectForUpdate hnone ?_
  unfold reservePayout
  simp only [bind_assoc]
  refine resolvePayoutDestination_refused fun destination => ?_
  unfold lockedWallet
  rw [bind_assoc]
  refine .selectForUpdate rfl ?_
  split
  · exact .raise_bind _ _
  · rename_i wallet hw
    have hkey : wallet.key = .userWallet user.id (upper (strip currency)) :=
      Table.get_key (Option.filter_eq_some_iff.1 hw).1
    unfold requireSufficientBalance accountBalanceMinor
    rw [pure_bind, bind_assoc]
    refine .select rfl (.require fun henough => ?_)
    have hle := of_decide_eq_true henough
    rw [hkey] at hle
    exact absurd (show amountMinor ≤ d.balance _ from hle) (by omega)

/-- **Wallets never go negative**, and a payout that its wallet does not cover is refused: no step
records it, and served alone it changes nothing. -/
theorem wallets_covered (hd : Activated d) (hr : Reaches mode (system cfg d e ops) s) :
    (∀ u c, 0 ≤ s.db.balance (.userWallet u c)) ∧
    (∀ s', Sys.Step mode (fun _ => True) s s' → ∀ id p, s.db.payout? id = none →
      s'.db.payout? id = some p →
      p.amountMinor ≤ s.db.balance (.userWallet p.freelancer p.currency)) ∧
    ∀ (user : User) (amountMinor : Int) (currency providerName key : String) (id : PayoutId),
      s.db.record? ⟨user.id, .payoutCreate, strip key⟩ = none →
      s.db.payoutOfRecord? ⟨user.id, .payoutCreate, strip key⟩ = none →
      s.db.balance (.userWallet user.id (upper (strip currency))) < amountMinor →
      Refused (createPayout cfg user amountMinor currency providerName key id) s.db := by
  have hs := holds_of_reaches hd.consistent hr
  refine ⟨hs.inv.wallets, fun s' hstep id p hnone hp => ?_, fun _ _ _ _ _ _ => payout_refused⟩
  obtain ⟨i, c, mv, hstep, -⟩ := hstep
  have hm := (hs.step hstep trivial).2
  have hsame : s'.db ≠ s.db := fun h => by simp [h, hnone] at hp
  cases mv with
  | stmt j q d₁ d₂ e₁ =>
    obtain ⟨rfl, rfl, -, -, hdb | ⟨hdb, -, c, rfl, heff⟩⟩ := hm
    · exact absurd hdb hsame
    · rw [← hdb] at heff
      exact (heff.payout.move id).covered hp hnone
  | call j q a e₁ e₂ => exact absurd hm.1 hsame
  | silent j => exact absurd hm.1 hsame

/-- The wallet that a release has credited pays out no more than it holds. -/
theorem wallets_covered_of_release : ∃ s : System, s.db.balance (.userWallet 2 "USD") = 100 ∧
    Refused (createPayout sandboxConfig aFreelancer 101 "usd" "sandbox" "k3" 1) s.db := by
  obtain ⟨s, hr, hp⟩ := Sys.exists_free_run .readCommitted
    (system sandboxConfig oneMilestone noTransfers releasingOps) releasedRun
    (fun s => decide (s.db.balance (.userWallet 2 "USD") = 100) &&
      (s.db.record? ⟨2, .payoutCreate, strip "k3"⟩).isNone &&
      (s.db.payoutOfRecord? ⟨2, .payoutCreate, strip "k3"⟩).isNone &&
      decide (s.db.balance (.userWallet 2 (upper (strip "usd"))) < 101)) (by decide +kernel)
  simp only [Bool.and_eq_true, decide_eq_true_eq, Option.isNone_iff_eq_none] at hp
  obtain ⟨⟨⟨hbal, hrec⟩, hpay⟩, hshort⟩ := hp
  exact ⟨s, hbal, (wallets_covered oneMilestone_activated hr).2.2 aFreelancer 101 "usd" "sandbox"
    "k3" 1 hrec hpay hshort⟩

end Money
