import Freelancing.Money.Session

/-!
# What a transaction may rely on

`Frame held d d'`: the database went from `d` to `d'` while a transaction held the locks `held`.
Locked rows are as they were, rows are never deleted, the columns that no service updates are
unchanged (`Keeps`), what is final stays final, and a locked wallet has not lost money.
-/

namespace Money

/-! ## The columns that stay -/

def Contract.Keeps (x y : Contract) : Prop := ∃ s, y = { x with status := s }

def Milestone.Keeps (x y : Milestone) : Prop :=
  (∃ s ev, y = { x with status := s, events := ev }) ∧ (x.status = .released → y = x)

def FinancialIdempotencyKey.Keeps (x y : FinancialIdempotencyKey) : Prop :=
  ∃ r, y = { x with response := r }

def PaymentIntent.Keeps (x y : PaymentIntent) : Prop :=
  (∃ s t, y = { x with status := s, capturedAt := t }) ∧ (x.status = .captured → y = x)

def Refund.Keeps (x y : Refund) : Prop :=
  ∃ ref s, y = { x with providerReference := ref, status := s }

def Payout.Keeps (x y : Payout) : Prop :=
  (∃ dest ref s rev t, y = { x with
    destination := dest, providerReference := ref, status := s, reversal := rev,
    completedAt := t }) ∧ (x.destination.isSome → y.destination = x.destination)

def Dispute.Keeps (x y : Dispute) : Prop :=
  (∃ s t ev, y = { x with status := s, resolvedAt := t, events := ev }) ∧
    (x.status = .resolved → y.status = .resolved)

theorem Contract.Keeps.refl (x : Contract) : x.Keeps x := ⟨_, rfl⟩

theorem Contract.Keeps.trans (x y z : Contract) (h : x.Keeps y) (h' : y.Keeps z) : x.Keeps z := by
  obtain ⟨_, rfl⟩ := h
  obtain ⟨_, rfl⟩ := h'
  exact ⟨_, rfl⟩

theorem Milestone.Keeps.refl (x : Milestone) : x.Keeps x := ⟨⟨_, _, rfl⟩, fun _ => rfl⟩

theorem Milestone.Keeps.trans (x y z : Milestone) (h : x.Keeps y) (h' : y.Keeps z) :
    x.Keeps z := by
  refine ⟨?_, fun hr => ?_⟩
  · obtain ⟨⟨_, _, rfl⟩, -⟩ := h
    obtain ⟨⟨_, _, rfl⟩, -⟩ := h'
    exact ⟨_, _, rfl⟩
  · have hy := h.2 hr
    subst hy
    exact h'.2 hr

theorem FinancialIdempotencyKey.Keeps.refl (x : FinancialIdempotencyKey) : x.Keeps x := ⟨_, rfl⟩

theorem FinancialIdempotencyKey.Keeps.trans (x y z : FinancialIdempotencyKey) (h : x.Keeps y)
    (h' : y.Keeps z) : x.Keeps z := by
  obtain ⟨_, rfl⟩ := h
  obtain ⟨_, rfl⟩ := h'
  exact ⟨_, rfl⟩

theorem PaymentIntent.Keeps.refl (x : PaymentIntent) : x.Keeps x := ⟨⟨_, _, rfl⟩, fun _ => rfl⟩

theorem PaymentIntent.Keeps.trans (x y z : PaymentIntent) (h : x.Keeps y) (h' : y.Keeps z) :
    x.Keeps z := by
  refine ⟨?_, fun hc => ?_⟩
  · obtain ⟨⟨_, _, rfl⟩, -⟩ := h
    obtain ⟨⟨_, _, rfl⟩, -⟩ := h'
    exact ⟨_, _, rfl⟩
  · have hy := h.2 hc
    subst hy
    exact h'.2 hc

theorem Refund.Keeps.refl (x : Refund) : x.Keeps x := ⟨_, _, rfl⟩

theorem Refund.Keeps.trans (x y z : Refund) (h : x.Keeps y) (h' : y.Keeps z) : x.Keeps z := by
  obtain ⟨_, _, rfl⟩ := h
  obtain ⟨_, _, rfl⟩ := h'
  exact ⟨_, _, rfl⟩

theorem Payout.Keeps.refl (x : Payout) : x.Keeps x := ⟨⟨_, _, _, _, _, rfl⟩, fun _ => rfl⟩

theorem Payout.Keeps.trans (x y z : Payout) (h : x.Keeps y) (h' : y.Keeps z) : x.Keeps z := by
  refine ⟨?_, fun hd => ?_⟩
  · obtain ⟨⟨_, _, _, _, _, rfl⟩, -⟩ := h
    obtain ⟨⟨_, _, _, _, _, rfl⟩, -⟩ := h'
    exact ⟨_, _, _, _, _, rfl⟩
  · rw [h'.2 (by rw [h.2 hd]; exact hd), h.2 hd]

theorem Dispute.Keeps.refl (x : Dispute) : x.Keeps x := ⟨⟨_, _, _, rfl⟩, fun h => h⟩

theorem Dispute.Keeps.trans (x y z : Dispute) (h : x.Keeps y) (h' : y.Keeps z) : x.Keeps z := by
  refine ⟨?_, fun hr => h'.2 (h.2 hr)⟩
  obtain ⟨⟨_, _, _, rfl⟩, -⟩ := h
  obtain ⟨⟨_, _, _, rfl⟩, -⟩ := h'
  exact ⟨_, _, _, rfl⟩

/-! ## The frame -/

structure Frame (held : Set LockName) (d d' : Db) : Prop where
  contracts : Table.Evolves Contract.id (fun k => .contract k ∈ held) Contract.Keeps
    d.contracts d'.contracts
  milestones : Table.Evolves Milestone.id (fun k => .milestone k ∈ held) Milestone.Keeps
    d.milestones d'.milestones
  records : Table.Evolves FinancialIdempotencyKey.scope (fun k => .record k ∈ held)
    FinancialIdempotencyKey.Keeps d.idempotency d'.idempotency
  intents : Table.Evolves PaymentIntent.id (fun k => .intent k ∈ held) PaymentIntent.Keeps
    d.intents d'.intents
  events : Table.Evolves ProviderEvent.key (fun k => .event k ∈ held) Eq d.events d'.events
  accounts : Table.Evolves LedgerAccount.key (fun k => .account k ∈ held) Eq
    d.accounts d'.accounts
  journals : Table.Evolves JournalTransaction.key (fun k => .journal k ∈ held) Eq
    d.journals d'.journals
  escrows : Table.Evolves MilestoneEscrow.milestone (fun k => .escrow k ∈ held) Eq
    d.escrows d'.escrows
  fundings : Table.Evolves MilestoneFunding.intent (fun k => .funding k ∈ held) Eq
    d.fundings d'.fundings
  refunds : Table.Evolves Refund.id (fun k => .refund k ∈ held) Refund.Keeps d.refunds d'.refunds
  payouts : Table.Evolves Payout.id (fun k => .payout k ∈ held) Payout.Keeps d.payouts d'.payouts
  disputes : Table.Evolves Dispute.id (fun k => .dispute k ∈ held) Dispute.Keeps
    d.disputes d'.disputes
  decisions : Table.Evolves DisputeDecision.dispute (fun k => .decision k ∈ held) Eq
    d.decisions d'.decisions
  wallets : ∀ u c, .account (.userWallet u c) ∈ held →
    d.balance (.userWallet u c) ≤ d'.balance (.userWallet u c)
  clock : d.clock ≤ d'.clock
  captures : ∀ i ∈ d'.intents, i.status = .captured → i ∈ d.intents ∨ d.clock ≤ i.capturedAt.getD 0
  /-- Under the lock of a contract no payment starts, and no work. -/
  idle : ∀ i ∈ d'.intents, i.status = .pending → ∀ m, d.milestone? i.milestone = some m →
    .contract m.contract ∈ held → i ∈ d.intents
  created : ∀ k m, d'.milestone? k = some m → m.status ≠ .created → .contract m.contract ∈ held →
    ∃ m₀, d.milestone? k = some m₀ ∧ m₀.contract = m.contract ∧ m₀.status ≠ .created
  /-- Milestones come with their contract. -/
  noNew : ∀ k, (d'.milestone? k).isSome → (d.milestone? k).isSome

namespace Frame

variable {held held' : Set LockName} {d d' d'' : Db}

theorem refl (held : Set LockName) (d : Db) : Frame held d d where
  contracts := .refl Contract.Keeps.refl
  milestones := .refl Milestone.Keeps.refl
  records := .refl FinancialIdempotencyKey.Keeps.refl
  intents := .refl PaymentIntent.Keeps.refl
  events := .refl fun _ => rfl
  accounts := .refl fun _ => rfl
  journals := .refl fun _ => rfl
  escrows := .refl fun _ => rfl
  fundings := .refl fun _ => rfl
  refunds := .refl Refund.Keeps.refl
  payouts := .refl Payout.Keeps.refl
  disputes := .refl Dispute.Keeps.refl
  decisions := .refl fun _ => rfl
  wallets _ _ _ := Int.le_refl _
  clock := Nat.le_refl _
  captures _ h _ := .inl h
  idle _ h _ _ _ _ := h
  created _ m h hs _ := ⟨m, h, rfl, hs⟩
  noNew _ h := h

theorem trans (h : Frame held d d') (h' : Frame held d' d'') : Frame held d d'' where
  contracts := h.contracts.trans Contract.Keeps.trans h'.contracts
  milestones := h.milestones.trans Milestone.Keeps.trans h'.milestones
  records := h.records.trans FinancialIdempotencyKey.Keeps.trans h'.records
  intents := h.intents.trans PaymentIntent.Keeps.trans h'.intents
  events := h.events.trans (fun _ _ _ => Eq.trans) h'.events
  accounts := h.accounts.trans (fun _ _ _ => Eq.trans) h'.accounts
  journals := h.journals.trans (fun _ _ _ => Eq.trans) h'.journals
  escrows := h.escrows.trans (fun _ _ _ => Eq.trans) h'.escrows
  fundings := h.fundings.trans (fun _ _ _ => Eq.trans) h'.fundings
  refunds := h.refunds.trans Refund.Keeps.trans h'.refunds
  payouts := h.payouts.trans Payout.Keeps.trans h'.payouts
  disputes := h.disputes.trans Dispute.Keeps.trans h'.disputes
  decisions := h.decisions.trans (fun _ _ _ => Eq.trans) h'.decisions
  wallets u c hu := (h.wallets u c hu).trans (h'.wallets u c hu)
  clock := h.clock.trans h'.clock
  captures i hi hc := by
    rcases h'.captures i hi hc with hm | hm
    · exact h.captures i hm hc
    · exact .inr (h.clock.trans hm)
  idle i hi hp m hm hc := by
    obtain ⟨m', hm', ⟨_, _, rfl⟩, -⟩ := h.milestones.keep _ m hm
    exact h.idle i (h'.idle i hi hp _ hm' hc) hp m hm hc
  created k m hm hs hc := by
    obtain ⟨m₁, hm₁, he, hs₁⟩ := h'.created k m hm hs hc
    obtain ⟨m₀, hm₀, he₀, hs₀⟩ := h.created k m₁ hm₁ hs₁ (he ▸ hc)
    exact ⟨m₀, hm₀, he₀.trans he, hs₀⟩
  noNew k hk := h.noNew k (h'.noNew k hk)

theorem mono (hs : held' ⊆ held) (h : Frame held d d') : Frame held' d d' where
  contracts := h.contracts.mono fun _ hk => hs hk
  milestones := h.milestones.mono fun _ hk => hs hk
  records := h.records.mono fun _ hk => hs hk
  intents := h.intents.mono fun _ hk => hs hk
  events := h.events.mono fun _ hk => hs hk
  accounts := h.accounts.mono fun _ hk => hs hk
  journals := h.journals.mono fun _ hk => hs hk
  escrows := h.escrows.mono fun _ hk => hs hk
  fundings := h.fundings.mono fun _ hk => hs hk
  refunds := h.refunds.mono fun _ hk => hs hk
  payouts := h.payouts.mono fun _ hk => hs hk
  disputes := h.disputes.mono fun _ hk => hs hk
  decisions := h.decisions.mono fun _ hk => hs hk
  wallets u c hu := h.wallets u c (hs hu)
  clock := h.clock
  captures := h.captures
  idle i hi hp m hm hc := h.idle i hi hp m hm (hs hc)
  created k m hm hst hc := h.created k m hm hst (hs hc)
  noNew := h.noNew

end Frame

end Money
