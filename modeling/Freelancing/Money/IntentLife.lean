import Freelancing.Money.MilestoneLife

/-!
# The life of a payment intent

What a commit does to the payment intents (`IntentEffect`): it leaves them alone, or it starts a
payment, or it marks one as failed or captured.
-/

namespace Money

inductive IntentEffect (R : Rules) (d d' : Db) : CommitPoint → Prop
  | untouched (c : CommitPoint) (rows : d'.intents = d.intents)
      (other : ∀ k i, c ≠ .webhookProcessed k (some i)) : IntentEffect R d d' c
  | started (i : PaymentIntent) (m : Milestone) (fresh : d.intent? i.id = none)
      (status : i.status = .pending) (milestone : d.milestone? i.milestone = some m)
      (amount : i.amountMinor = m.amountMinor)
      (active : R.ContractsFresh → ∃ c, d.contract? m.contract = some c ∧ c.status = .active)
      (rows : d'.intents = i :: d.intents) (open_ : m.status = .created)
      (only : R.Serial → d.pendingIntent? m.id = none) : IntentEffect R d d' (.fundingStarted i.id)
  | failed (k : EventKey) (i : PaymentIntent) (intent : d.intent? i.id = some i)
      (status : i.status ≠ .captured) (rows : d'.intents = (d.failIntent i.id).intents) :
      IntentEffect R d d' (.webhookProcessed k none)
  | captured (k : EventKey) (i : PaymentIntent) (m : Milestone) (intent : d.intent? i.id = some i)
      (status : i.status ≠ .captured) (milestone : d.milestone? m.id = some m)
      (same : i.milestone = m.id)
      (active : R.ContractsFresh → ∃ c, d.contract? m.contract = some c ∧ c.status = .active)
      (clock : d'.clock = d.clock + 1)
      (rows : d'.intents = (d.captureIntent i.id).intents) :
      IntentEffect R d d' (.webhookProcessed k (some i.id))

variable {R : Rules} {d d' : Db} {e : Providers} {c : CommitPoint}

/-- **What a commit does to the payment intents.** -/
theorem Effect.intents (h : Effect R e c d d') : IntentEffect R d d' c := by
  cases h with
  | fundingStarted pre s r i m fresh status milestone amount active open_ only =>
    obtain ⟨_, _, rfl⟩ := pre
    exact .started i m fresh status milestone amount active rfl open_ only
  | webhookFailed ev i fresh intent status => exact .failed ev.key i intent status rfl
  | webhookCaptured ev i m oe f mv n pre fresh intent status milestone same open_ active =>
    obtain ⟨_, _, rfl⟩ := pre
    exact .captured ev.key i m intent status milestone same active
      (by cases oe <;> cases mv <;> rfl) (by cases oe <;> cases mv <;> rfl)
  | webhookIgnored ev => exact .untouched _ rfl (by simp)
  | milestoneMoved m v action => exact .untouched _ rfl nofun
  | contractCancelled x => exact .untouched _ rfl nofun
  | disputeOpened x m v ev users eventType title body =>
    obtain ⟨o, hd⟩ := notified_eq x.id users eventType title body
      (.addDisputeEvent x.id ev <| .moveMilestone m.id v <| .addDispute x d)
    rw [hd]
    exact .untouched _ rfl nofun
  | disputeMoved x target ev => exact .untouched _ rfl nofun
  | disputeResolved pre s resp x m c esc award refundMinor provider or v dec ev users
      eventType title body =>
    obtain ⟨_, _, rfl⟩ := pre
    obtain ⟨o, hd⟩ := notified_eq x.id users eventType title body _
    rw [hd]
    exact .untouched _ (by cases or <;> rfl) nofun
  | refundFailed pre s resp r reference post =>
    obtain ⟨_, _, rfl⟩ := pre
    exact .untouched _ (by cases post <;> cases reference <;> rfl) nofun
  | payoutFailed pre s resp p post =>
    obtain ⟨_, _, rfl⟩ := pre
    exact .untouched _ (by cases post <;> rfl) nofun
  | replayed pre => obtain ⟨_, _, rfl⟩ := pre; exact .untouched _ rfl nofun
  | released pre => obtain ⟨_, _, rfl⟩ := pre; exact .untouched _ rfl nofun
  | refundReserved pre => obtain ⟨_, _, rfl⟩ := pre; exact .untouched _ rfl nofun
  | refundPending pre => obtain ⟨_, _, rfl⟩ := pre; exact .untouched _ rfl nofun
  | refundSucceeded pre => obtain ⟨_, _, rfl⟩ := pre; exact .untouched _ rfl nofun
  | payoutReserved pre => obtain ⟨_, _, rfl⟩ := pre; exact .untouched _ rfl nofun
  | payoutUpgraded pre => obtain ⟨_, _, rfl⟩ := pre; exact .untouched _ rfl nofun
  | payoutSucceeded pre => obtain ⟨_, _, rfl⟩ := pre; exact .untouched _ rfl nofun

/-- A commit changes no contract, or it cancels one that is idle. -/
theorem Effect.contracts (h : Effect R e c d d') : d'.contracts = d.contracts ∨
    ∃ x : Contract, c = .contractCancelled x.id ∧ d' = d.cancelContract x.id ∧
      d.contract? x.id = some x ∧ x.status ≠ .cancelled ∧
      (x.status = .active → ∀ k m, d.milestone? k = some m → m.contract = x.id →
        m.status = .created) ∧
      (x.status = .active → ∀ i ∈ d.intents, i.status = .pending →
        ∀ m, d.milestone? i.milestone = some m → m.contract ≠ x.id) := by
  cases h with
  | contractCancelled x contract open_ work payments =>
    exact .inr ⟨x, rfl, rfl, contract, open_, work, payments⟩
  | webhookCaptured ev i m oe f mv n pre =>
    obtain ⟨_, _, rfl⟩ := pre
    exact .inl (by cases oe <;> cases mv <;> rfl)
  | disputeOpened x m v ev users eventType title body =>
    obtain ⟨o, hd⟩ := notified_eq x.id users eventType title body
      (.addDisputeEvent x.id ev <| .moveMilestone m.id v <| .addDispute x d)
    rw [hd]
    exact .inl rfl
  | disputeResolved pre s resp x m c esc award refundMinor provider or v dec ev users
      eventType title body =>
    obtain ⟨_, _, rfl⟩ := pre
    obtain ⟨o, hd⟩ := notified_eq x.id users eventType title body _
    rw [hd]
    exact .inl (by cases or <;> rfl)
  | refundFailed pre s resp r reference post =>
    obtain ⟨_, _, rfl⟩ := pre
    exact .inl (by cases post <;> cases reference <;> rfl)
  | payoutFailed pre s resp p post =>
    obtain ⟨_, _, rfl⟩ := pre
    exact .inl (by cases post <;> rfl)
  | webhookFailed ev i => exact .inl rfl
  | webhookIgnored ev => exact .inl rfl
  | milestoneMoved m v action => exact .inl rfl
  | disputeMoved x target ev => exact .inl rfl
  | replayed pre => obtain ⟨_, _, rfl⟩ := pre; exact .inl rfl
  | fundingStarted pre => obtain ⟨_, _, rfl⟩ := pre; exact .inl rfl
  | released pre => obtain ⟨_, _, rfl⟩ := pre; exact .inl rfl
  | refundReserved pre => obtain ⟨_, _, rfl⟩ := pre; exact .inl rfl
  | refundPending pre => obtain ⟨_, _, rfl⟩ := pre; exact .inl rfl
  | refundSucceeded pre => obtain ⟨_, _, rfl⟩ := pre; exact .inl rfl
  | payoutReserved pre => obtain ⟨_, _, rfl⟩ := pre; exact .inl rfl
  | payoutUpgraded pre => obtain ⟨_, _, rfl⟩ := pre; exact .inl rfl
  | payoutSucceeded pre => obtain ⟨_, _, rfl⟩ := pre; exact .inl rfl

end Money
