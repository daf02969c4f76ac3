import Freelancing.Money.Contracts
import Freelancing.Money.Frame
import Freelancing.Money.Payouts
import Freelancing.Money.Resolution
import Mathlib.Data.Set.BooleanAlgebra
import Mathlib.Order.CompletePartialOrder

/-!
# The updates of a transaction

`Update held d d'`: one `INSERT` or `UPDATE` that a transaction holding `held` may make, with what
it has checked before. Whatever the services commit is a sequence of these (`Updates`), so a fact
that every update keeps is kept by all of them. `Updates.frame`: who holds none of the locks may
rely on the frame.
-/

namespace Money

open DoubleEntry (Balanced)

/-! ## What a journal stands for -/

def AccountKey.account : AccountKey → LedgerAccount
  | .milestoneEscrow m c => ⟨.milestoneEscrow m c, .milestoneEscrow, c, none, some m⟩
  | .userWallet u c => walletOf u c
  | .platformCommission c => platformAccount c
  | .providerClearing p c => clearingAccount p c

@[simp] theorem AccountKey.account_key (k : AccountKey) : k.account.key = k := by
  cases k <;> rfl

/-- A refund's reservation: from the escrow to the provider. -/
def Refund.reservation (r : Refund) : List LedgerEntry :=
  [⟨.milestoneEscrow r.milestone r.currency, .debit, r.amountMinor, r.currency⟩,
    ⟨.providerClearing r.provider r.currency, .credit, r.amountMinor, r.currency⟩]

def Refund.reversal (r : Refund) : List LedgerEntry :=
  [⟨.providerClearing r.provider r.currency, .debit, r.amountMinor, r.currency⟩,
    ⟨.milestoneEscrow r.milestone r.currency, .credit, r.amountMinor, r.currency⟩]

def Refund.reservationKey (r : Refund) : JournalKey := ⟨.milestoneRefund, .refund r.id⟩

/-- A payout's reservation: from the wallet to the provider. -/
def Payout.reservation (p : Payout) : List LedgerEntry :=
  [⟨.userWallet p.freelancer p.currency, .debit, p.amountMinor, p.currency⟩,
    ⟨.providerClearing p.provider p.currency, .credit, p.amountMinor, p.currency⟩]

def Payout.reversalEntries (p : Payout) : List LedgerEntry :=
  [⟨.providerClearing p.provider p.currency, .debit, p.amountMinor, p.currency⟩,
    ⟨.userWallet p.freelancer p.currency, .credit, p.amountMinor, p.currency⟩]

def Payout.reservationKey (p : Payout) : JournalKey := ⟨.payout, .payout p.id⟩

/-- The row that a journal was posted for, in the state that the posting left it in. -/
def Known (d : Db) (j : JournalTransaction) : Prop :=
  match j.key with
  | ⟨.milestoneFund, .paymentIntent i⟩ => ∃ x, d.intent? i = some x ∧ x.status = .captured
  | ⟨.milestoneRelease, .milestone m⟩ => ∃ x, d.milestone? m = some x ∧ x.status = .released
  | ⟨.disputeResolution, .dispute i⟩ => ∃ x, d.dispute? i = some x ∧ x.status = .resolved
  | ⟨.milestoneRefund, .refund r⟩ => ∃ x, d.refund? r = some x ∧ j.entries = x.reservation
  | ⟨.reversal, .refund r⟩ => ∃ x, d.refund? r = some x ∧ j.entries = x.reversal ∧
      j.reversalOf = some x.reservationKey ∧ (d.journal? x.reservationKey).isSome
  | ⟨.payout, .payout p⟩ => ∃ x, d.payout? p = some x ∧ j.entries = x.reservation
  | ⟨.reversal, .payout p⟩ => ∃ x, d.payout? p = some x ∧ j.entries = x.reversalEntries ∧
      j.reversalOf = some x.reservationKey ∧ (d.journal? x.reservationKey).isSome
  | _ => False

/-- What a journal that is about to be posted was checked for. -/
structure Postable (held : Set LockName) (d : Db) (j : JournalTransaction) : Prop where
  lock : .journal j.key ∈ held
  fresh : d.journal? j.key = none
  balanced : Balanced j.entries
  accounts : ∀ e ∈ j.entries, d.account? e.account = some e.account.account ∧
    e.currency = e.account.account.currency
  known : Known d j
  /-- A wallet is debited by who holds its lock, and not beyond its balance. -/
  wallets : ∀ u c, 0 ≤ DoubleEntry.balance j.entries (.userWallet u c) ∨
    .account (.userWallet u c) ∈ held ∧
      0 ≤ DoubleEntry.balance j.entries (.userWallet u c) + d.balance (.userWallet u c)

/-- What a refund that is about to be recorded was checked for. -/
structure Refundable (d : Db) (r : Refund) : Prop where
  fresh : d.refund? r.id = none
  positive : 0 < r.amountMinor
  milestone : ∃ m, d.milestone? r.milestone = some m ∧ r.currency = m.currency
  cause : (r.idempotency.operation = .milestoneRefund ∧ r.journal = r.reservationKey ∧
      ∃ x, d.record? r.idempotency = some x ∧ x.request = .refund r.milestone r.provider) ∨
    (r.idempotency.operation = .disputeResolve ∧ r.status = .succeeded)

inductive Update (held : Set LockName) (d : Db) : Db → Prop
  | cancelContract (id : ContractId) (hl : .contract id ∈ held) :
      Update held d (d.cancelContract id)
  | addRecord (r : FinancialIdempotencyKey) (hl : .record r.scope ∈ held)
      (hn : d.record? r.scope = none) : Update held d (d.addRecord r)
  | completeRecord (s : IdempotencyScope) (r : Response) (hl : .record s ∈ held) :
      Update held d (d.completeRecord s r)
  | addIntent (i : PaymentIntent) (hl : .intent i.id ∈ held) (hn : d.intent? i.id = none)
      (hs : i.status = .pending) (hp : 0 < i.amountMinor) {m : Milestone}
      (hm : d.milestone? i.milestone = some m) (ha : i.amountMinor = m.amountMinor)
      (hc : i.currency = m.currency) (hcl : .contract m.contract ∈ held) :
      Update held d (d.addIntent i)
  | failIntent (i : PaymentIntent) (hl : .intent i.id ∈ held) (hi : d.intent? i.id = some i)
      (hs : i.status ≠ .captured) : Update held d (d.failIntent i.id)
  | captureIntent (i : PaymentIntent) (hl : .intent i.id ∈ held) (hi : d.intent? i.id = some i)
      (hs : i.status ≠ .captured) : Update held d (d.captureIntent i.id)
  | addEvent (e : ProviderEvent) (hl : .event e.key ∈ held) (hn : d.event? e.key = none) :
      Update held d (d.addEvent e)
  | addAccount (k : AccountKey) (hl : .account k ∈ held) (hn : d.account? k = none) :
      Update held d (d.addAccount k.account)
  | addEscrow (e : MilestoneEscrow) (hl : .escrow e.milestone ∈ held)
      (hn : d.escrow? e.milestone = none) {m : Milestone} (hm : d.milestone? e.milestone = some m)
      (hk : e.escrowAccount = .milestoneEscrow m.id m.currency)
      (ha : d.account? e.escrowAccount = some e.escrowAccount.account) :
      Update held d (d.addEscrow e)
  | addJournal (j : JournalTransaction) (hj : Postable held d j) : Update held d (d.addJournal j)
  | addFunding (f : MilestoneFunding) (hl : .funding f.intent ∈ held)
      (hn : d.funding? f.intent = none) {i : PaymentIntent} (hi : d.intent? f.intent = some i)
      (hs : i.status = .captured) : Update held d (d.addFunding f)
  | moveMilestone (m : Milestone) (e : MilestoneEvent) (hl : .milestone m.id ∈ held)
      (hm : d.milestone? m.id = some m) (hs : m.status ≠ .released)
      (hc : m.status = .created → .contract m.contract ∈ held) :
      Update held d (d.moveMilestone m.id e)
  | addRefund (r : Refund) (hl : .refund r.id ∈ held) (hr : Refundable d r) :
      Update held d (d.addRefund r)
  | referRefund (id : RefundId) (reference : String) (hl : .refund id ∈ held) :
      Update held d (d.referRefund id reference)
  | finishRefund (r : Refund) (s : TransferStatus) (hl : .refund r.id ∈ held)
      (hr : d.refund? r.id = some r) (ho : r.idempotency.operation = .milestoneRefund) :
      Update held d (d.finishRefund r.id s)
  | addPayout (p : Payout) (hl : .payout p.id ∈ held) (hn : d.payout? p.id = none)
      (hp : 0 < p.amountMinor) (hj : p.journal = p.reservationKey) : Update held d (d.addPayout p)
  | setDestination (p : Payout) (x : Destination) (hl : .payout p.id ∈ held)
      (hp : d.payout? p.id = some p) (hn : p.destination = none) :
      Update held d (d.setDestination p.id x)
  | succeedPayout (id : PayoutId) (reference : String) (hl : .payout id ∈ held) :
      Update held d (d.succeedPayout id reference)
  | failPayout (id : PayoutId) (reversal : JournalKey) (hl : .payout id ∈ held) :
      Update held d (d.failPayout id reversal)
  | addDispute (x : Dispute) (hl : .dispute x.id ∈ held) (hn : d.dispute? x.id = none) :
      Update held d (d.addDispute x)
  | addDisputeEvent (id : DisputeId) (e : DisputeEvent) (hl : .dispute id ∈ held) :
      Update held d (d.addDisputeEvent id e)
  | moveDispute (x : Dispute) (s : DisputeStatus) (hl : .dispute x.id ∈ held)
      (hx : d.dispute? x.id = some x) (hs : x.status ≠ .resolved) :
      Update held d (d.moveDispute x.id s)
  | resolveDispute (id : DisputeId) (hl : .dispute id ∈ held) : Update held d (d.resolveDispute id)
  | addDecision (x : DisputeDecision) (hl : .decision x.dispute ∈ held)
      (hn : d.decision? x.dispute = none) : Update held d (d.addDecision x)
  | enqueue (e : OutboxEvent) : Update held d (d.enqueue e)

/-- What one commit may do: any number of updates. -/
def Updates (held : Set LockName) : Db → Db → Prop := Relation.ReflTransGen (Update held)

/-! ## The frame of an update -/

section
variable {held : Set LockName} {d : Db}

theorem Frame.addIntent {i : PaymentIntent} {m : Milestone} (hl : .intent i.id ∉ held)
    (hn : d.intent? i.id = none) (hs : i.status = .pending) (hm : d.milestone? i.milestone = some m)
    (hc : .contract m.contract ∉ held) : Frame held d (d.addIntent i) where
  __ := Frame.refl held d
  intents := .cons PaymentIntent.Keeps.refl hl hn
  captures x hx hcap := by
    rcases List.mem_cons.1 hx with rfl | hx
    · rw [hs] at hcap
      cases hcap
    · exact .inl hx
  idle x hx _ m' hm' hc' := by
    rcases List.mem_cons.1 hx with rfl | hx
    · rw [hm] at hm'
      cases hm'
      exact absurd hc' hc
    · exact hx

/-- A payment that has not been captured fails, or is captured now. -/
theorem Frame.setIntent {i : PaymentIntent} (hl : .intent i.id ∉ held)
    (hi : d.intent? i.id = some i) (hs : i.status ≠ .captured) {s : IntentStatus}
    (hp : s ≠ .pending) {t : PaymentIntent → Option Nat}
    (ht : s = .captured → ∀ x, d.clock ≤ (t x).getD 0) {n : Nat}
    (hn : d.clock ≤ n) : Frame held d { d with
      intents := Table.modify PaymentIntent.id i.id
        (fun x => { x with status := s, capturedAt := t x }) d.intents
      clock := n } where
  __ := Frame.refl held d
  intents := by
    refine .modify (fun _ => rfl) PaymentIntent.Keeps.refl hl fun x hx => ?_
    rw [show d.intent? i.id = Table.get PaymentIntent.id i.id d.intents from rfl, hx] at hi
    cases hi
    exact ⟨⟨_, _, rfl⟩, fun hc => absurd hc hs⟩
  clock := hn
  captures x hx hc := by
    obtain ⟨y, hy, rfl⟩ := Table.mem_modify.1 hx
    split at hc
    · rename_i he
      rw [if_pos he]
      exact .inr (ht hc y)
    · rename_i hne
      rw [if_neg hne]
      exact .inl hy
  idle x hx hpend _ _ _ := by
    obtain ⟨y, hy, rfl⟩ := Table.mem_modify.1 hx
    split at hpend
    · exact absurd hpend hp
    · rename_i hne
      rw [if_neg hne]
      exact hy

theorem Frame.addJournal {j : JournalTransaction} (hl : .journal j.key ∉ held)
    (hn : d.journal? j.key = none)
    (hw : ∀ u c, .account (.userWallet u c) ∈ held →
      0 ≤ DoubleEntry.balance j.entries (.userWallet u c)) : Frame held d (d.addJournal j) where
  __ := Frame.refl held d
  journals := .cons (fun _ => rfl) hl hn
  wallets u c hu := by
    have := hw u c hu
    rw [Db.balance_addJournal]
    omega

theorem Frame.moveMilestone {m : Milestone} {e : MilestoneEvent} (hl : .milestone m.id ∉ held)
    (hm : d.milestone? m.id = some m) (hs : m.status ≠ .released)
    (hc : m.status = .created → .contract m.contract ∉ held) :
    Frame held d (d.moveMilestone m.id e) where
  __ := Frame.refl held d
  milestones := by
    refine .modify (fun _ => rfl) Milestone.Keeps.refl hl fun x hx => ?_
    rw [show d.milestone? m.id = Table.get Milestone.id m.id d.milestones from rfl, hx] at hm
    cases hm
    exact ⟨⟨_, _, rfl⟩, fun hr => absurd hr hs⟩
  created k x hx hne hcx := by
    rw [Db.milestone?_moveMilestone] at hx
    obtain ⟨y, hy, rfl⟩ := Option.map_eq_some_iff.1 hx
    by_cases hk : k = m.id
    · subst hk
      rw [hm] at hy
      cases hy
      rw [if_pos rfl] at hcx ⊢
      exact ⟨m, hm, rfl, fun h => hc h hcx⟩
    · rw [if_neg hk] at hne ⊢
      exact ⟨y, hy, rfl, hne⟩
  noNew k hk := by simpa using hk

end

theorem Update.frame {held held' : Set LockName} {d d' : Db} (h : Update held d d')
    (hd : Disjoint held' held) : Frame held' d d' := by
  have hno : ∀ {k : LockName}, k ∈ held → k ∉ held' := fun hk hk' =>
    Set.disjoint_left.1 hd hk' hk
  have hrefl := Frame.refl held' d
  cases h with
  | cancelContract id hl =>
    exact { hrefl with
      contracts := .modify (fun _ => rfl) Contract.Keeps.refl (hno hl) fun _ _ => ⟨_, rfl⟩ }
  | addRecord r hl hn =>
    exact { hrefl with records := .cons FinancialIdempotencyKey.Keeps.refl (hno hl) hn }
  | completeRecord s r hl =>
    exact { hrefl with
      records := .modify (fun _ => rfl) FinancialIdempotencyKey.Keeps.refl (hno hl)
        fun x _ => ⟨_, rfl⟩ }
  | addIntent i hl hn hs hp hm ha hcur hcl => exact .addIntent (hno hl) hn hs hm (hno hcl)
  | failIntent i hl hi hs =>
    exact .setIntent (s := .failed) (t := PaymentIntent.capturedAt) (hno hl) hi hs (by simp)
      (fun hc => by cases hc) (Nat.le_refl _)
  | captureIntent i hl hi hs =>
    exact .setIntent (hno hl) hi hs (by simp) (fun _ _ => Nat.le_refl _) (Nat.le_succ _)
  | addEvent e hl hn => exact { hrefl with events := .cons (fun _ => rfl) (hno hl) hn }
  | addAccount k hl hn =>
    exact { hrefl with
      accounts := .cons (fun _ => rfl) (by simpa using hno hl)
        (by rw [AccountKey.account_key]; exact hn) }
  | addEscrow e hl hn => exact { hrefl with escrows := .cons (fun _ => rfl) (hno hl) hn }
  | addJournal j hj =>
    exact .addJournal (hno hj.lock) hj.fresh fun u c hu =>
      (hj.wallets u c).resolve_right fun hw => hno hw.1 hu
  | addFunding f hl hn => exact { hrefl with fundings := .cons (fun _ => rfl) (hno hl) hn }
  | moveMilestone m e hl hm hs hc => exact .moveMilestone (hno hl) hm hs fun h => hno (hc h)
  | addRefund r hl hr =>
    exact { hrefl with
      refunds := .cons Refund.Keeps.refl (hno hl) hr.fresh, clock := Nat.le_succ _ }
  | referRefund id reference hl =>
    exact { hrefl with
      refunds := .modify (fun _ => rfl) Refund.Keeps.refl (hno hl) fun _ _ => ⟨_, _, rfl⟩ }
  | finishRefund r s hl =>
    exact { hrefl with
      refunds := .modify (fun _ => rfl) Refund.Keeps.refl (hno hl) fun _ _ => ⟨_, _, rfl⟩ }
  | addPayout p hl hn => exact { hrefl with payouts := .cons Payout.Keeps.refl (hno hl) hn }
  | setDestination p x hl hp hn =>
    refine { hrefl with
      payouts := .modify (fun _ => rfl) Payout.Keeps.refl (hno hl) fun y hy => ?_ }
    rw [show d.payout? p.id = Table.get Payout.id p.id d.payouts from rfl, hy] at hp
    cases hp
    exact ⟨⟨_, _, _, _, _, rfl⟩, fun hs => by rw [hn] at hs; cases hs⟩
  | succeedPayout id reference hl =>
    exact { hrefl with
      payouts := .modify (fun _ => rfl) Payout.Keeps.refl (hno hl) fun _ _ =>
        ⟨⟨_, _, _, _, _, rfl⟩, fun _ => rfl⟩
      clock := Nat.le_succ _ }
  | failPayout id reversal hl =>
    exact { hrefl with
      payouts := .modify (fun _ => rfl) Payout.Keeps.refl (hno hl) fun _ _ =>
        ⟨⟨_, _, _, _, _, rfl⟩, fun _ => rfl⟩
      clock := Nat.le_succ _ }
  | addDispute x hl hn => exact { hrefl with disputes := .cons Dispute.Keeps.refl (hno hl) hn }
  | addDisputeEvent id e hl =>
    exact { hrefl with
      disputes := .modify (fun _ => rfl) Dispute.Keeps.refl (hno hl) fun _ _ =>
        ⟨⟨_, _, _, rfl⟩, fun h => h⟩ }
  | moveDispute x s hl hx hs =>
    refine { hrefl with
      disputes := .modify (fun _ => rfl) Dispute.Keeps.refl (hno hl) fun y hy => ?_ }
    rw [show d.dispute? x.id = Table.get Dispute.id x.id d.disputes from rfl, hy] at hx
    cases hx
    exact ⟨⟨_, _, _, rfl⟩, fun hr => absurd hr hs⟩
  | resolveDispute id hl =>
    exact { hrefl with
      disputes := .modify (fun _ => rfl) Dispute.Keeps.refl (hno hl) fun _ _ =>
        ⟨⟨_, _, _, rfl⟩, fun _ => rfl⟩
      clock := Nat.le_succ _ }
  | addDecision x hl hn => exact { hrefl with decisions := .cons (fun _ => rfl) (hno hl) hn }
  | enqueue e => exact { hrefl with }

theorem Updates.frame {held held' : Set LockName} {d d' : Db} (h : Updates held d d')
    (hd : Disjoint held' held) : Frame held' d d' := by
  induction h with
  | refl => exact .refl _ _
  | tail _ hu ih => exact ih.trans (hu.frame hd)

end Money
