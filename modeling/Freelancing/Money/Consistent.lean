import Freelancing.Money.Update

/-!
# The invariant of the tables

`Consistent d`: what the rows of the tables have to do with each other in every committed state,
whatever overlaps with whatever. Every update keeps it (`Update.consistent`).
-/

namespace Money

open DoubleEntry (Balanced)

structure Keyed (d : Db) : Prop where
  contracts : (d.contracts.map Contract.id).Nodup
  milestones : (d.milestones.map Milestone.id).Nodup
  records : (d.idempotency.map FinancialIdempotencyKey.scope).Nodup
  intents : (d.intents.map PaymentIntent.id).Nodup
  events : (d.events.map ProviderEvent.key).Nodup
  accounts : (d.accounts.map LedgerAccount.key).Nodup
  journals : (d.journals.map JournalTransaction.key).Nodup
  escrows : (d.escrows.map MilestoneEscrow.milestone).Nodup
  fundings : (d.fundings.map MilestoneFunding.intent).Nodup
  refunds : (d.refunds.map Refund.id).Nodup
  payouts : (d.payouts.map Payout.id).Nodup
  disputes : (d.disputes.map Dispute.id).Nodup
  decisions : (d.decisions.map DisputeDecision.dispute).Nodup

theorem Keyed.frame {held : Set LockName} {d d' : Db} (hk : Keyed d) (h : Frame held d d') :
    Keyed d' where
  contracts := h.contracts.nodup hk.contracts
  milestones := h.milestones.nodup hk.milestones
  records := h.records.nodup hk.records
  intents := h.intents.nodup hk.intents
  events := h.events.nodup hk.events
  accounts := h.accounts.nodup hk.accounts
  journals := h.journals.nodup hk.journals
  escrows := h.escrows.nodup hk.escrows
  fundings := h.fundings.nodup hk.fundings
  refunds := h.refunds.nodup hk.refunds
  payouts := h.payouts.nodup hk.payouts
  disputes := h.disputes.nodup hk.disputes
  decisions := h.decisions.nodup hk.decisions

/-! ## What a row has to do with others -/

structure JournalOk (d : Db) (j : JournalTransaction) : Prop where
  balanced : Balanced j.entries
  accounts : ∀ e ∈ j.entries, d.account? e.account = some e.account.account ∧
    e.currency = e.account.account.currency
  known : Known d j

def EscrowOk (d : Db) (e : MilestoneEscrow) : Prop :=
  ∃ m, d.milestone? e.milestone = some m ∧ e.escrowAccount = .milestoneEscrow m.id m.currency ∧
    d.account? e.escrowAccount = some e.escrowAccount.account

structure IntentOk (d : Db) (i : PaymentIntent) : Prop where
  positive : 0 < i.amountMinor
  milestone : ∃ m, d.milestone? i.milestone = some m ∧ i.amountMinor = m.amountMinor ∧
    i.currency = m.currency
  captured : i.status = .captured → i.capturedAt.getD 0 < d.clock

def FundingOk (d : Db) (f : MilestoneFunding) : Prop :=
  ∃ i, d.intent? f.intent = some i ∧ i.status = .captured

structure RefundOk (d : Db) (r : Refund) : Prop where
  positive : 0 < r.amountMinor
  milestone : ∃ m, d.milestone? r.milestone = some m ∧ r.currency = m.currency
  cause : (r.idempotency.operation = .milestoneRefund ∧ r.journal = r.reservationKey ∧
      ∃ x, d.record? r.idempotency = some x ∧ x.request = .refund r.milestone r.provider) ∨
    (r.idempotency.operation = .disputeResolve ∧ r.status = .succeeded)
  created : r.createdAt < d.clock

structure PayoutOk (p : Payout) : Prop where
  positive : 0 < p.amountMinor
  journal : p.journal = p.reservationKey

structure Consistent (d : Db) : Prop where
  keyed : Keyed d
  accounts : ∀ a ∈ d.accounts, a = a.key.account
  journals : ∀ j ∈ d.journals, JournalOk d j
  wallets : ∀ u c, 0 ≤ d.balance (.userWallet u c)
  escrows : ∀ e ∈ d.escrows, EscrowOk d e
  intents : ∀ i ∈ d.intents, IntentOk d i
  fundings : ∀ f ∈ d.fundings, FundingOk d f
  refunds : ∀ r ∈ d.refunds, RefundOk d r
  payouts : ∀ p ∈ d.payouts, PayoutOk p

/-- The row that a journal which is found was posted for. -/
theorem Consistent.known {d : Db} (hd : Consistent d) {k : JournalKey} {j : JournalTransaction}
    (hj : d.journal? k = some j) : Known d ⟨k, j.reversalOf, j.entries⟩ := by
  obtain rfl : j.key = k := Table.get_key hj
  exact (hd.journals j (Table.get_mem hj)).known

/-- The entries that were posted for a row, in the words of `Known`. -/
theorem entries_of_row {ρ : Type} {o : Option ρ} {y : ρ} {es : List LedgerEntry}
    {f : ρ → List LedgerEntry} {P : ρ → Prop} (hy : o = some y)
    (h : ∃ z, o = some z ∧ es = f z ∧ P z) : es = f y := by
  obtain ⟨z, hz, he, -⟩ := h
  cases hy.symm.trans hz
  exact he

/-- Where no row has reached the state that a posting leaves it in, nothing is posted. -/
theorem Consistent.no_journal {d : Db} (hd : Consistent d) {k : JournalKey}
    (h : ∀ o es, ¬ Known d ⟨k, o, es⟩) : d.journal? k = none := by
  cases hj : d.journal? k with
  | none => rfl
  | some j => exact absurd (hd.known hj) (h _ _)

/-! ## They stay so under the frame -/

section
variable {held : Set LockName} {d d' : Db} (h : Frame held d d')
include h

theorem Frame.account {k : AccountKey} {a : LedgerAccount} (ha : d.account? k = some a) :
    d'.account? k = some a := h.accounts.eq_of_eq ha

theorem Frame.journal_isSome {k : JournalKey} (hk : (d.journal? k).isSome) :
    (d'.journal? k).isSome := by
  obtain ⟨j, hj⟩ := Option.isSome_iff_exists.1 hk
  exact Option.isSome_iff_exists.2 ⟨j, h.journals.eq_of_eq hj⟩

theorem Frame.known {j : JournalTransaction} (hk : Known d j) : Known d' j := by
  unfold Known at hk ⊢
  split at hk
  · obtain ⟨x, hx, hs⟩ := hk
    obtain ⟨y, hy, hxy⟩ := h.intents.keep _ x hx
    exact ⟨y, hy, by rw [hxy.2 hs]; exact hs⟩
  · obtain ⟨x, hx, hs⟩ := hk
    obtain ⟨y, hy, hxy⟩ := h.milestones.keep _ x hx
    exact ⟨y, hy, by rw [hxy.2 hs]; exact hs⟩
  · obtain ⟨x, hx, hs⟩ := hk
    obtain ⟨y, hy, hxy⟩ := h.disputes.keep _ x hx
    exact ⟨y, hy, hxy.2 hs⟩
  · obtain ⟨x, hx, he⟩ := hk
    obtain ⟨y, hy, _, _, rfl⟩ := h.refunds.keep _ x hx
    exact ⟨_, hy, he⟩
  · obtain ⟨x, hx, he, hr, hj⟩ := hk
    obtain ⟨y, hy, _, _, rfl⟩ := h.refunds.keep _ x hx
    exact ⟨_, hy, he, hr, h.journal_isSome hj⟩
  · obtain ⟨x, hx, he⟩ := hk
    obtain ⟨y, hy, ⟨_, _, _, _, _, rfl⟩, -⟩ := h.payouts.keep _ x hx
    exact ⟨_, hy, he⟩
  · obtain ⟨x, hx, he, hr, hj⟩ := hk
    obtain ⟨y, hy, ⟨_, _, _, _, _, rfl⟩, -⟩ := h.payouts.keep _ x hx
    exact ⟨_, hy, he, hr, h.journal_isSome hj⟩
  · exact hk.elim

theorem Frame.journalOk {j : JournalTransaction} (hj : JournalOk d j) : JournalOk d' j :=
  ⟨hj.balanced, fun e he => ⟨h.account (hj.accounts e he).1, (hj.accounts e he).2⟩,
    h.known hj.known⟩

theorem Frame.escrowOk {e : MilestoneEscrow} (he : EscrowOk d e) : EscrowOk d' e := by
  obtain ⟨m, hm, hk, ha⟩ := he
  obtain ⟨m', hm', ⟨_, _, rfl⟩, -⟩ := h.milestones.keep _ m hm
  exact ⟨_, hm', hk, h.account ha⟩

theorem Frame.intentOk {i : PaymentIntent} (hi : IntentOk d i) : IntentOk d' i := by
  obtain ⟨m, hm, ha, hc⟩ := hi.milestone
  obtain ⟨m', hm', ⟨_, _, rfl⟩, -⟩ := h.milestones.keep _ m hm
  exact ⟨hi.positive, ⟨_, hm', ha, hc⟩, fun hs => (hi.captured hs).trans_le h.clock⟩

theorem Frame.fundingOk {f : MilestoneFunding} (hf : FundingOk d f) : FundingOk d' f := by
  obtain ⟨i, hi, hs⟩ := hf
  obtain ⟨i', hi', hii⟩ := h.intents.keep _ i hi
  exact ⟨i', hi', by rw [hii.2 hs]; exact hs⟩

theorem Frame.refundOk {r : Refund} (hr : RefundOk d r) : RefundOk d' r := by
  obtain ⟨m, hm, hc⟩ := hr.milestone
  obtain ⟨m', hm', ⟨_, _, rfl⟩, -⟩ := h.milestones.keep _ m hm
  refine ⟨hr.positive, ⟨_, hm', hc⟩, ?_, hr.created.trans_le h.clock⟩
  rcases hr.cause with ⟨ho, hj, x, hx, hq⟩ | hd
  · obtain ⟨x', hx', _, rfl⟩ := h.records.keep _ x hx
    exact .inl ⟨ho, hj, _, hx', hq⟩
  · exact .inr hd

/-- What the frame does to the rows that are in both tables. -/
theorem Consistent.of_frame (hd : Consistent d)
    (accounts : ∀ a ∈ d'.accounts, a ∉ d.accounts → a = a.key.account)
    (journals : ∀ j ∈ d'.journals, j ∉ d.journals → JournalOk d' j)
    (wallets : ∀ u c, 0 ≤ d'.balance (.userWallet u c))
    (escrows : ∀ e ∈ d'.escrows, e ∉ d.escrows → EscrowOk d' e)
    (intents : ∀ i ∈ d'.intents, i ∉ d.intents → IntentOk d' i)
    (fundings : ∀ f ∈ d'.fundings, f ∉ d.fundings → FundingOk d' f)
    (refunds : ∀ r ∈ d'.refunds, r ∉ d.refunds → RefundOk d' r)
    (payouts : ∀ p ∈ d'.payouts, p ∉ d.payouts → PayoutOk p) : Consistent d' where
  keyed := hd.keyed.frame h
  accounts a ha := by
    by_cases hm : a ∈ d.accounts
    · exact hd.accounts a hm
    · exact accounts a ha hm
  journals j hj := by
    by_cases hm : j ∈ d.journals
    · exact h.journalOk (hd.journals j hm)
    · exact journals j hj hm
  wallets := wallets
  escrows e he := by
    by_cases hm : e ∈ d.escrows
    · exact h.escrowOk (hd.escrows e hm)
    · exact escrows e he hm
  intents i hi := by
    by_cases hm : i ∈ d.intents
    · exact h.intentOk (hd.intents i hm)
    · exact intents i hi hm
  fundings f hf := by
    by_cases hm : f ∈ d.fundings
    · exact h.fundingOk (hd.fundings f hm)
    · exact fundings f hf hm
  refunds r hr := by
    by_cases hm : r ∈ d.refunds
    · exact h.refundOk (hd.refunds r hm)
    · exact refunds r hr hm
  payouts p hp := by
    by_cases hm : p ∈ d.payouts
    · exact hd.payouts p hm
    · exact payouts p hp hm

end

/-! ## Every update keeps the invariant -/

theorem not_mem_absurd {α : Type} {l : List α} {P : α → Prop} (x : α) (h : x ∈ l) (hn : x ∉ l) :
    P x := absurd h hn

theorem mem_cons_new {α : Type} {a x : α} {l : List α} (h : x ∈ a :: l) (hn : x ∉ l) : x = a :=
  (List.mem_cons.1 h).resolve_right hn

/-- A row of a modified table that was not there before is the changed row. -/
theorem mem_modify_new {α κ : Type} [DecidableEq κ] {key : α → κ} {k : κ} {f : α → α} {l : List α}
    {y : α} (h : y ∈ Table.modify key k f l) (hn : y ∉ l) : ∃ x ∈ l, key x = k ∧ y = f x := by
  obtain ⟨x, hx, rfl⟩ := Table.mem_modify.1 h
  by_cases hk : key x = k
  · exact ⟨x, hx, hk, if_pos hk⟩
  · rw [if_neg hk] at hn
    exact absurd hx hn

section
variable {held : Set LockName} {d d' : Db} (hd : Consistent d)
include hd

theorem Consistent.addJournal (j : JournalTransaction) (hf : Frame ∅ d (d.addJournal j))
    (hj : Postable held d j) : Consistent (d.addJournal j) := by
  have hok : JournalOk d j := ⟨hj.balanced, hj.accounts, hj.known⟩
  refine hd.of_frame hf not_mem_absurd (fun x hx hn => ?_) (fun u c => ?_) not_mem_absurd
    not_mem_absurd not_mem_absurd not_mem_absurd not_mem_absurd
  · rw [mem_cons_new hx hn]
    exact hf.journalOk hok
  · have := hd.wallets u c
    rw [Db.balance_addJournal]
    rcases hj.wallets u c with hw | ⟨-, hw⟩ <;> omega

/-- A change of refund rows that touches what `RefundOk` speaks of only in refunds that are not a
dispute's. -/
theorem Consistent.modifyRefund {id : RefundId} {f : Refund → Refund}
    (hf : Frame ∅ d { d with refunds := Table.modify Refund.id id f d.refunds })
    (hk : ∀ r ∈ d.refunds, r.id = id → r.Keeps (f r) ∧
      ((f r).status = r.status ∨ r.idempotency.operation = .milestoneRefund)) :
    Consistent { d with refunds := Table.modify Refund.id id f d.refunds } := by
  refine hd.of_frame hf not_mem_absurd not_mem_absurd hd.wallets not_mem_absurd not_mem_absurd
    not_mem_absurd (fun x hx hn => ?_) not_mem_absurd
  obtain ⟨r, hr, he, rfl⟩ := mem_modify_new hx hn
  obtain ⟨⟨ref, s, hfr⟩, hs⟩ := hk r hr he
  have hok := hf.refundOk (hd.refunds r hr)
  refine ⟨?_, ?_, ?_, ?_⟩
  · rw [hfr]; exact hok.positive
  · rw [hfr]; exact hok.milestone
  · rcases hok.cause with ho | ⟨ho, hsucc⟩
    · rw [hfr]; exact .inl ho
    · refine .inr ⟨by rw [hfr]; exact ho, ?_⟩
      rcases hs with hs | hs
      · rw [hs]; exact hsucc
      · rw [ho] at hs; cases hs
  · rw [hfr]; exact hok.created

theorem Consistent.modifyPayout {id : PayoutId} {f : Payout → Payout} (n : Nat)
    (hf : Frame ∅ d { d with payouts := Table.modify Payout.id id f d.payouts, clock := n })
    (hk : ∀ p, (f p).id = p.id ∧ (f p).amountMinor = p.amountMinor ∧ (f p).journal = p.journal) :
    Consistent { d with payouts := Table.modify Payout.id id f d.payouts, clock := n } := by
  refine hd.of_frame hf not_mem_absurd not_mem_absurd hd.wallets not_mem_absurd not_mem_absurd
    not_mem_absurd not_mem_absurd (fun x hx hn => ?_)
  obtain ⟨p, hp, -, rfl⟩ := mem_modify_new hx hn
  obtain ⟨hid, ha, hj⟩ := hk p
  have hok := hd.payouts p hp
  refine ⟨by rw [ha]; exact hok.positive, ?_⟩
  rw [hj, hok.journal, Payout.reservationKey, Payout.reservationKey, hid]

/-- An update of tables that the invariant does not speak of. -/
theorem Consistent.other (hf : Frame ∅ d d') (ha : d'.accounts = d.accounts)
    (hj : d'.journals = d.journals) (he : d'.escrows = d.escrows) (hi : d'.intents = d.intents)
    (hfu : d'.fundings = d.fundings) (hr : d'.refunds = d.refunds)
    (hp : d'.payouts = d.payouts) : Consistent d' := by
  refine hd.of_frame hf ?_ ?_ ?_ ?_ ?_ ?_ ?_ ?_
  · rw [ha]; exact not_mem_absurd
  · rw [hj]; exact not_mem_absurd
  · intro u c
    rw [Db.balance, Db.entries, hj]
    exact hd.wallets u c
  · rw [he]; exact not_mem_absurd
  · rw [hi]; exact not_mem_absurd
  · rw [hfu]; exact not_mem_absurd
  · rw [hr]; exact not_mem_absurd
  · rw [hp]; exact not_mem_absurd

/-- **Every update keeps the tables consistent.** -/
theorem Update.consistent (h : Update held d d') : Consistent d' := by
  have hf := h.frame (Set.empty_disjoint held)
  cases h with
  | cancelContract id => exact hd.other hf rfl rfl rfl rfl rfl rfl rfl
  | addRecord r => exact hd.other hf rfl rfl rfl rfl rfl rfl rfl
  | completeRecord s r => exact hd.other hf rfl rfl rfl rfl rfl rfl rfl
  | addIntent i hl hn hs hp hm ha hc =>
    refine hd.of_frame hf not_mem_absurd not_mem_absurd hd.wallets not_mem_absurd
      (fun x hx hnew => ?_) not_mem_absurd not_mem_absurd not_mem_absurd
    rw [mem_cons_new hx hnew]
    exact ⟨hp, ⟨_, hm, ha, hc⟩, fun hcap => by rw [hs] at hcap; cases hcap⟩
  | failIntent i hl hi hs =>
    refine hd.of_frame hf not_mem_absurd not_mem_absurd hd.wallets not_mem_absurd
      (fun x hx hnew => ?_) not_mem_absurd not_mem_absurd not_mem_absurd
    obtain ⟨y, hy, -, rfl⟩ := mem_modify_new hx hnew
    have hok := hf.intentOk (hd.intents y hy)
    exact ⟨hok.positive, hok.milestone, fun h => by cases h⟩
  | captureIntent i hl hi hs =>
    refine hd.of_frame hf not_mem_absurd not_mem_absurd hd.wallets not_mem_absurd
      (fun x hx hnew => ?_) not_mem_absurd not_mem_absurd not_mem_absurd
    obtain ⟨y, hy, -, rfl⟩ := mem_modify_new hx hnew
    have hok := hf.intentOk (hd.intents y hy)
    exact ⟨hok.positive, hok.milestone, fun _ => Nat.lt_succ_self _⟩
  | addEvent e => exact hd.other hf rfl rfl rfl rfl rfl rfl rfl
  | addAccount k =>
    refine hd.of_frame hf (fun x hx hn => ?_) not_mem_absurd hd.wallets not_mem_absurd
      not_mem_absurd not_mem_absurd not_mem_absurd not_mem_absurd
    rw [mem_cons_new hx hn, AccountKey.account_key]
  | addEscrow e hl hn hm hk ha =>
    refine hd.of_frame hf not_mem_absurd not_mem_absurd hd.wallets (fun x hx hnew => ?_)
      not_mem_absurd not_mem_absurd not_mem_absurd not_mem_absurd
    rw [mem_cons_new hx hnew]
    exact ⟨_, hm, hk, ha⟩
  | addJournal j hj => exact hd.addJournal j hf hj
  | addFunding f hl hn hi hs =>
    refine hd.of_frame hf not_mem_absurd not_mem_absurd hd.wallets not_mem_absurd
      not_mem_absurd (fun x hx hnew => ?_) not_mem_absurd not_mem_absurd
    rw [mem_cons_new hx hnew]
    exact ⟨_, hi, hs⟩
  | moveMilestone m e => exact hd.other hf rfl rfl rfl rfl rfl rfl rfl
  | addRefund r hl hr =>
    refine hd.of_frame hf not_mem_absurd not_mem_absurd hd.wallets not_mem_absurd
      not_mem_absurd not_mem_absurd (fun x hx hn => ?_) not_mem_absurd
    rw [mem_cons_new hx hn]
    exact ⟨hr.positive, hr.milestone, hr.cause, Nat.lt_succ_self _⟩
  | referRefund id reference =>
    exact hd.modifyRefund hf fun r _ _ => ⟨⟨_, _, rfl⟩, .inl rfl⟩
  | finishRefund r s hl hr ho =>
    refine hd.modifyRefund hf fun x hx he => ⟨⟨_, _, rfl⟩, .inr ?_⟩
    have hx' := Table.get_of_mem hd.keyed.refunds hx
    rw [he, show Table.get Refund.id r.id d.refunds = d.refund? r.id from rfl, hr] at hx'
    cases hx'
    exact ho
  | addPayout p hl hn hp hj =>
    refine hd.of_frame hf not_mem_absurd not_mem_absurd hd.wallets not_mem_absurd
      not_mem_absurd not_mem_absurd not_mem_absurd (fun x hx hnew => ?_)
    rw [mem_cons_new hx hnew]
    exact ⟨hp, hj⟩
  | setDestination id x =>
    exact hd.modifyPayout d.clock hf fun _ => ⟨rfl, rfl, rfl⟩
  | succeedPayout id reference => exact hd.modifyPayout _ hf fun _ => ⟨rfl, rfl, rfl⟩
  | failPayout id reversal => exact hd.modifyPayout _ hf fun _ => ⟨rfl, rfl, rfl⟩
  | addDispute x => exact hd.other hf rfl rfl rfl rfl rfl rfl rfl
  | addDisputeEvent id e => exact hd.other hf rfl rfl rfl rfl rfl rfl rfl
  | moveDispute x s => exact hd.other hf rfl rfl rfl rfl rfl rfl rfl
  | resolveDispute id => exact hd.other hf rfl rfl rfl rfl rfl rfl rfl
  | addDecision x => exact hd.other hf rfl rfl rfl rfl rfl rfl rfl
  | enqueue e => exact hd.other hf rfl rfl rfl rfl rfl rfl rfl

theorem Updates.consistent (h : Updates held d d') : Consistent d' := by
  induction h with
  | refl => exact hd
  | tail _ hu ih => exact hu.consistent ih

end

end Money
