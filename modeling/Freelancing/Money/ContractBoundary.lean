import Freelancing.Money.IntentLife
import Freelancing.Money.RefundLife

/-!
# Cancelled contracts and money

A contract that is not active has no payment under way, no milestone that has left `CREATED` and
nothing in escrow (`Excluded`). This holds in every run in which no session works on a copy of a
contract that is out of date, a cancellation finds the escrows of the contract empty, and a refund
does not fail after the cancellation (`cancelled_excludes_money`); without these conditions it does
not (`cancelled_with_money`).
-/

namespace Money

open Txn (Sys)
open Txn.Sys (goes)

/-- No money has to do with the contract. -/
structure Excluded (d : Db) (k : ContractId) : Prop where
  payments : ∀ i ∈ d.intents, i.status = .pending → ∀ m, d.milestone? i.milestone = some m →
    m.contract ≠ k
  work : ∀ j m, d.milestone? j = some m → m.contract = k → m.status = .created
  escrow : ∀ j m, d.milestone? j = some m → m.contract = k → d.balance m.escrowKey = 0

/-- The conditions on a run. -/
def MoneyExcluded : Move → Prop
  | .stmt i (.relockContract loaded) d view e =>
    Rules.ContractNotStale (.stmt i (.relockContract loaded) d view e)
  | .stmt _ (.commit (.contractCancelled k)) d _ _ =>
    ∀ j m, d.milestone? j = some m → m.contract = k → d.balance m.escrowKey = 0
  | .stmt _ (.commit (.refundFailed id)) d _ _ =>
    ∀ r, d.refund? id = some r → ∀ m, d.milestone? r.milestone = some m →
      ∀ c, d.contract? m.contract = some c → c.status ≠ .cancelled
  | _ => True

def excluding (mode : Txn.Mode) : Rules := ⟨mode, MoneyExcluded, fun _ _ => True⟩

theorem excluding_keyed {mode : Txn.Mode} (o : Operation) : o.Keyed (excluding mode).keys := by
  cases o <;> trivial

theorem excluding_fresh {mode : Txn.Mode} : (excluding mode).ContractsFresh := by
  refine .inr fun mv h => ?_
  cases mv with
  | stmt i p d view e =>
    cases p with
    | relockContract loaded => exact h
    | _ => trivial
  | _ => trivial

/-- Contracts that are not active are kept from money, and a refund is one of a contract that has
been active. -/
structure Bounded (d : Db) : Prop where
  excluded : ∀ k c, d.contract? k = some c → c.status ≠ .active → Excluded d k
  refunds : ∀ r ∈ d.refunds, ∀ m, d.milestone? r.milestone = some m → ∀ c,
    d.contract? m.contract = some c → c.status ≠ .pendingSignatures

variable {mode : Txn.Mode} {d d' : Db} {e : Providers} {c : CommitPoint} {k : ContractId}

/-- What touches a milestone that is `CREATED`. -/
theorem MilestoneEffect.of_created {R : Rules} {m : Milestone}
    {l : List (MilestoneStatus × MilestoneStatus)} {s : MilestoneStatus} {n : Int}
    (h : MilestoneEffect R d d' m c l s n) (hs : m.status = .created) :
    (R.ContractsFresh → ∃ x, d.contract? m.contract = some x ∧ x.status = .active) ∨
      ∃ r : Refund, c = .refundFailed r.id ∧ d.refund? r.id = some r ∧ r.milestone = m.id := by
  cases h with
  | captured k i l s intent same open_ status fits escrow active => exact .inl active
  | refundFailed r post refund same => exact .inr ⟨r, rfl, refund, same⟩
  | moved action allowed => cases action <;> simp [userTransitions, hs] at allowed
  | disputed open_ => simp [openableMilestoneStates, hs] at open_
  | released status => simp [hs] at status
  | refundReserved r status => simp [hs] at status
  | refundSucceeded r status => simp [hs] at status
  | resolved x status => simp [hs] at status

/-- The payments under way after a commit: they were before, or their contract is active. -/
theorem IntentEffect.pending {R : Rules} (h : IntentEffect R d d' c) {i : PaymentIntent}
    (hi : i ∈ d'.intents) (hs : i.status = .pending) : i ∈ d.intents ∨
      ∃ m, d.milestone? i.milestone = some m ∧
        (R.ContractsFresh → ∃ x, d.contract? m.contract = some x ∧ x.status = .active) := by
  cases h with
  | untouched c rows => exact .inl (rows ▸ hi)
  | started j m fresh status milestone amount active rows =>
    rw [rows] at hi
    rcases List.mem_cons.1 hi with rfl | hi
    · exact .inr ⟨m, milestone, active⟩
    · exact .inl hi
  | failed k j intent status rows =>
    rw [rows] at hi
    obtain ⟨x, hx, rfl⟩ := Table.mem_modify.1 hi
    split at hs
    · cases hs
    · rename_i hne
      rw [if_neg hne]
      exact .inl hx
  | captured k j m intent status milestone same active clock rows =>
    rw [rows] at hi
    obtain ⟨x, hx, rfl⟩ := Table.mem_modify.1 hi
    split at hs
    · cases hs
    · rename_i hne
      rw [if_neg hne]
      exact .inl hx

/-- A commit that leaves the contract `k` as it is keeps it from money. -/
theorem Committed.excluded_same (h : Committed (excluding mode) e c d d') {i : Nat}
    (hok : MoneyExcluded (.stmt i (.commit c) d d' e)) (hb : Bounded d) {x : Contract}
    (hx : d.contract? k = some x) (hs : x.status ≠ .active) : Excluded d' k := by
  have hex := hb.excluded k x hx hs
  have hactive : ∀ m : Milestone, m.contract = k →
      ((excluding mode).ContractsFresh → ∃ y, d.contract? m.contract = some y ∧
        y.status = .active) →
      False := fun m hm hy => by
    obtain ⟨y, hy, hya⟩ := hy excluding_fresh
    rw [hm, hx] at hy
    cases hy
    exact hs hya
  have hrow : ∀ j m', d'.milestone? j = some m' → m'.contract = k →
      m'.status = .created ∧ d'.balance m'.escrowKey = 0 := by
    intro j m' hm' hk
    rcases h.effect.life h.inv with hu | ⟨m, s, evs, n, ht, he⟩
    · rw [hu.rows] at hm'
      exact ⟨hex.work j m' hm' hk, (hu.balances _ _).trans (hex.escrow j m' hm' hk)⟩
    · by_cases hj : j = m.id
      · subst hj
        cases ht.row'.symm.trans hm'
        have hcreated : m.status = .created := hex.work _ m ht.row hk
        rcases he.of_created hcreated with hact | ⟨r, rfl, hr, hrm⟩
        · exact (hactive m hk hact).elim
        · have hmr : d.milestone? r.milestone = some m := hrm ▸ ht.row
          have hcx : d.contract? m.contract = some x := by
            rw [show m.contract = k from hk]
            exact hx
          have hnot := hok r hr m hmr x hcx
          have hnew := hb.refunds r (Table.get_mem hr) m hmr x hcx
          cases hst : x.status <;> simp_all
      · rw [ht.others j hj] at hm'
        have hne : m'.id ≠ m.id := by rwa [show m'.id = j from Table.get_key hm']
        exact ⟨hex.work j m' hm' hk, (ht.balances _ _ hne).trans (hex.escrow j m' hm' hk)⟩
  refine ⟨fun i' hi' hp m' hm' hk => ?_, fun j m' hm' hk => (hrow j m' hm' hk).1,
    fun j m' hm' hk => (hrow j m' hm' hk).2⟩
  obtain ⟨m, hm, ⟨_, _, rfl⟩, -⟩ := h.milestone_before hm'
  rcases h.effect.intents.pending hi' hp with hold | ⟨m₁, hm₁, hact⟩
  · exact hex.payments i' hold hp m hm hk
  · cases hm.symm.trans hm₁
    exact hactive m hk hact

/-- Contracts that are not cancelled are as they were. -/
theorem Committed.contract_before {R : Rules} (h : Committed R e c d d') {x : Contract}
    (hx : d'.contract? k = some x) (hs : x.status ≠ .cancelled) : d.contract? k = some x := by
  rcases h.effect.contracts with hsame | ⟨y, rfl, rfl, hy, -⟩
  · rw [Db.contract?, ← hsame]
    exact hx
  · rw [Db.contract?_cancelContract] at hx
    by_cases hk : k = y.id
    · subst hk
      rw [hy, Option.map_some, if_pos rfl] at hx
      cases hx
      exact absurd rfl hs
    · simpa [hk] using hx

/-- **A commit keeps money from contracts that are not active.** -/
theorem Committed.bounded (h : Committed (excluding mode) e c d d') {i : Nat}
    (hok : MoneyExcluded (.stmt i (.commit c) d d' e)) (hb : Bounded d) : Bounded d' := by
  constructor
  · intro k x' hx' hs
    rcases h.effect.contracts with hsame | ⟨x, rfl, rfl, hx, -, hwork, hpay⟩
    · have hx : d.contract? k = some x' := by
        rw [Db.contract?, ← hsame]
        exact hx'
      exact h.excluded_same hok hb hx hs
    · by_cases hk : k = x.id
      · subst hk
        by_cases hact : x.status = .active
        · exact ⟨hpay hact, hwork hact, hok⟩
        · exact h.excluded_same hok hb hx hact
      · rw [Db.contract?_cancelContract] at hx'
        simp only [hk, if_false, Option.map_id'] at hx'
        exact h.excluded_same hok hb hx' hs
  · intro r hr m' hm' x' hx' hpending
    obtain ⟨m, hm, ⟨_, _, rfl⟩, -⟩ := h.milestone_before hm'
    have hx : d.contract? m.contract = some x' := h.contract_before hx' (by simp [hpending])
    rcases h.effect.refund.mem hr with ⟨y, hy, _, _, rfl⟩ | ⟨m₁, hm₁, hid, hwork⟩
    · exact hb.refunds y hy m hm x' hx hpending
    · rw [hid, hm₁] at hm
      cases hm
      have hcreated := (hb.excluded _ x' hx (by simp [hpending])).work _ m hm₁ rfl
      rcases hwork with ⟨-, hs⟩ | ⟨hs, -⟩ <;> simp [hcreated] at hs

/-! ## Runs -/

variable {cfg : Config} {ops : Nat → Operation} {s : System}

theorem Activated.bounded (hd : Activated d) : Bounded d := by
  have hempty := hd.empty
  constructor
  · intro k c hc hs
    refine ⟨?_, fun j m hm _ => (hd.created m (Table.get_mem hm)).1, fun j m _ _ => ?_⟩
    · rw [hempty]
      exact fun _ h => by cases h
    · rw [hempty]
      rfl
  · rw [hempty]
    exact fun _ h => by cases h

theorem Committed.stays_cancelled {R : Rules} (h : Committed R e c d d') {x : Contract}
    (hx : d.contract? k = some x) (hs : x.status = .cancelled) : d'.contract? k = some x := by
  rcases h.effect.contracts with hsame | ⟨y, rfl, rfl, hy, hopen, -⟩
  · rw [Db.contract?, hsame]
    exact hx
  · rw [Db.contract?_cancelContract]
    have hne : k ≠ y.id := by
      intro hky
      subst hky
      cases hy.symm.trans hx
      exact hopen hs
    simpa [hne] using hx

/-- **A cancelled contract excludes money**, and it stays cancelled. -/
theorem cancelled_excludes_money (hd : Activated d)
    (hr : Sys.Run .readCommitted MoneyExcluded (system cfg d e ops) s) :
    ∀ k c, s.db.contract? k = some c → c.status = .cancelled → Excluded s.db k ∧
      ∀ s', Sys.Run .readCommitted MoneyExcluded s s' → s'.db.contract? k = some c ∧
        Excluded s'.db k := by
  let R := excluding .readCommitted
  have hk : ∀ i, (ops i).Keyed R.keys := fun i => excluding_keyed _
  have hs : (moneyLaw R).Holds s := holds_of_run hd.consistent hk hr
  have hb : Bounded s.db := invariant_of_run (R := R)
      (P := fun d _ => Bounded d) hd.consistent hk hr
    (fun i c d d' e hok hc hP => hc.bounded hok hP) (fun _ _ _ _ _ _ _ _ _ hP => hP) hd.bounded
  intro k c hc hcancelled
  refine ⟨hb.excluded k c hc (by simp [hcancelled]), fun s' hr' => ?_⟩
  obtain ⟨hc', hb'⟩ := keeps_of_run (R := R)
    (P := fun d _ => d.contract? k = some c ∧ Bounded d) hs hr'
    (fun i p d d' e hok hcom hP => ⟨hcom.stays_cancelled hP.1 hcancelled, hcom.bounded hok hP.2⟩)
    (fun _ _ _ _ _ _ _ _ _ hP => hP) ⟨hc, hb⟩
  exact ⟨hc', hb'.excluded k c hc' (by simp [hcancelled])⟩

/-- `MoneyExcluded`, computed for runs in which no refund fails. -/
def moneyExcluded : Move → Bool
  | .stmt _ (.relockContract loaded) _ view _ =>
    (view.contract? loaded.id).all fun c => loaded.status ≠ .active ∨ c.status = .active
  | .stmt _ (.commit (.contractCancelled k)) d _ _ =>
    d.milestones.all fun m => m.contract ≠ k ∨ d.balance m.escrowKey = 0
  | .stmt _ (.commit (.refundFailed _)) _ _ _ => false
  | _ => true

theorem moneyExcluded_sound {mv : Move} (h : moneyExcluded mv = true) : MoneyExcluded mv := by
  cases mv with
  | stmt i p d view e =>
    cases p with
    | relockContract loaded =>
      intro c hc hactive
      simpa [moneyExcluded, hc, hactive] using h
    | commit c =>
      cases c with
      | contractCancelled k =>
        intro j m hm hk
        simpa [hk] using List.all_eq_true.1 h m (Table.get_mem hm)
      | refundFailed id => cases h
      | _ => trivial
    | _ => trivial
  | _ => trivial

/-- A payment is started, and the contract is cancelled. -/
def cancellingOps : Nat → Operation
  | 0 => .fundMilestone anEmployer 1 "sandbox" "k1" 1
  | 1 => .cancelContract anEmployer 1
  | _ => .webhook (failedPayment "e1" "p1")

theorem cancelled_excludes_failed_payment : ∃ s : System, s.db.intents ≠ [] ∧
    (∃ c, s.db.contract? 1 = some c ∧ c.status = .cancelled) ∧ Excluded s.db 1 := by
  obtain ⟨s, hr, hp⟩ := Sys.exists_run_of_exec (m := .readCommitted)
    (s := system sandboxConfig oneMilestone noTransfers cancellingOps)
    (l := goes 0 8 ++ answers100 0 "p1" "PENDING" :: goes 0 7 ++ goes 2 6 ++ goes 1 5)
    (q := moneyExcluded)
    (p := fun s => !s.db.intents.isEmpty &&
      (s.db.contract? 1).any fun c => c.status = .cancelled) (by decide +kernel)
    fun mv => moneyExcluded_sound
  obtain ⟨hne, hany⟩ := Bool.and_eq_true_iff.1 hp
  obtain ⟨c, hc, hs⟩ := Option.any_eq_true _ _ |>.1 hany
  exact ⟨s, by simpa using hne, ⟨c, hc, of_decide_eq_true hs⟩,
    (cancelled_excludes_money oneMilestone_activated hr 1 c hc (of_decide_eq_true hs)).1⟩

/-- A payment that starts on a copy of the contract from before its cancellation. -/
theorem cancelled_with_money : ¬ ∀ (cfg : Config) (d : Db) (e : Providers) (ops : Nat → Operation)
    (s : System), Activated d → Reaches .readCommitted (system cfg d e ops) s →
    ∀ k c, s.db.contract? k = some c → c.status = .cancelled → Excluded s.db k := by
  intro h
  obtain ⟨s, hr, hp⟩ := Sys.exists_free_run .readCommitted
    (system sandboxConfig oneMilestone noTransfers cancellingOps)
    (goes 0 2 ++ goes 1 5 ++ goes 0 6 ++ answers100 0 "p1" "PENDING" :: goes 0 7)
    (fun s => (s.db.contract? 1).any (fun c => c.status = .cancelled) &&
      s.db.intents.any fun i => i.status = .pending ∧
        (s.db.milestone? i.milestone).any fun m => m.contract = 1) (by decide +kernel)
  obtain ⟨hany, hpay⟩ := Bool.and_eq_true_iff.1 hp
  obtain ⟨c, hc, hs⟩ := Option.any_eq_true _ _ |>.1 hany
  obtain ⟨i, hi, hi'⟩ := List.any_eq_true.1 hpay
  obtain ⟨hpending, hm⟩ := of_decide_eq_true hi'
  obtain ⟨m, hm, hk⟩ := Option.any_eq_true _ _ |>.1 hm
  exact (h _ _ _ _ s oneMilestone_activated hr 1 c hc (of_decide_eq_true hs)).payments i hi hpending
    m hm (of_decide_eq_true hk)

end Money
