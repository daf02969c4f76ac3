import Freelancing.Money.Disputes

/-!
# Resolution of disputes

`resolve_dispute` of `app/disputes/service.py`.
-/

namespace Money

open Text (upper)

def requireReviewableDispute (dispute : Dispute) (decision : Option DisputeDecision) : Tx Unit := do
  require (!(dispute.status = .resolved || decision.isSome))
    (.api ⟨"dispute_already_resolved", "Dispute already resolved", 409,
      "A resolved dispute cannot be decided again"⟩)
  require (dispute.status = .underReview)
    (.api ⟨"invalid_transition", "Dispute is not under review", 409,
      "Dispute resolution requires UNDER_REVIEW status"⟩)

def lockedFundedEscrow (m : Milestone) : Tx (MilestoneEscrow × LedgerAccount × Int) := do
  match ← selectForUpdate (fun e => .escrow e.milestone) (fun d => d.escrow? m.id) with
  | none => raiseApi "escrow_not_found" "Escrow not found" 409 "Milestone has not been funded"
  | some escrow =>
    let account ← lockedEscrowAccount escrow
    let balance ← accountBalanceMinor account
    require (balance = m.amountMinor ∧ 0 < balance) (escrowNotFullyFunded
      "Dispute resolution requires the full contracted amount to remain in escrow")
    pure (escrow, account, balance)

def invalidAmounts (title detail : String) : Err := .api ⟨"validation_error", title, 422, detail⟩

/-- The freelancer's award and the client's refund. -/
def resolutionAmounts (outcome : String) (funded : Int) (award refund : Option Int) :
    Except Err (Int × Int) :=
  if outcome = "RELEASE_TO_FREELANCER" then
    if (award.any fun a => a ≠ funded) || refund.any fun r => r ≠ 0 then
      .error (invalidAmounts "Invalid release amounts"
        "RELEASE_TO_FREELANCER must award the entire funded amount")
    else .ok (funded, 0)
  else if outcome = "REFUND_CLIENT" then
    if (award.any fun a => a ≠ 0) || refund.any fun r => r ≠ funded then
      .error (invalidAmounts "Invalid refund amounts"
        "REFUND_CLIENT must refund the entire funded amount")
    else .ok (0, funded)
  else match award, refund with
    | some award, some refund =>
      if award ≤ 0 ∨ refund ≤ 0 then
        .error (invalidAmounts "Invalid split amounts" "SPLIT allocations must both be positive")
      else if award + refund ≠ funded then
        .error (invalidAmounts "Split does not balance"
          "SPLIT allocations must total exactly the funded escrow amount")
      else .ok (award, refund)
    | _, _ =>
      .error (invalidAmounts "Split amounts required"
        "SPLIT requires freelancer_award_minor and client_refund_minor")

def commissionOf (award : Int) (escrow : MilestoneEscrow) : Int :=
  award * escrow.commissionBps / 10000

/-- A part that is zero is not posted. -/
def creditUnlessZero (requested : LedgerAccount) (amountMinor : Int) : Tx (List Posting) :=
  if amountMinor ≠ 0 then do
    let account ← getOrCreateAccount requested
    pure [⟨account, .credit, amountMinor⟩]
  else pure []

/-- `_append_freelancer_postings`. -/
def freelancerPostings (freelancer : UserId) (currency : Currency) (net commission : Int) :
    Tx (List Posting) := do
  let wallet ← creditUnlessZero (walletOf freelancer currency) net
  let platform ← creditUnlessZero (platformAccount currency) commission
  pure (wallet ++ platform)

def Db.captured (d : Db) (m : MilestoneId) : List PaymentIntent :=
  d.intents.filter fun i => i.milestone = m ∧ i.status = .captured

/-- The provider and reference of a refund that the provider has confirmed. -/
structure ConfirmedRefund where
  provider : Provider
  reference : String

/-- `_confirm_provider_refund`, with the posting it appends. -/
def confirmProviderRefund (cfg : Config) (dispute : Dispute) (milestone : Milestone)
    (refundMinor : Int) (idempotencyKey : String) : Tx (ConfirmedRefund × Posting) := do
  match ← selectForUpdate (fun i => .intent i.id)
      (fun d => latestCaptured (d.captured milestone.id)) with
  | none => raise (.runtime "Funded milestone has no captured provider payment")
  | some intent =>
  match intent.providerReference with
  | none => raise (.runtime "Captured funding payment is missing its provider reference")
  | some reference =>
  let provider ← getProvider cfg intent.provider
  match ← callProvider (.refund provider reference refundMinor milestone.currency
      (.dispute dispute.id idempotencyKey) (.dispute dispute.id)) with
  | .temporary => raise .providerTemporary
  | .failed => raise .provider
  | .result result =>
    require (result.status = "SUCCEEDED" ∧ result.amountMinor = refundMinor ∧
        result.currency = milestone.currency)
      (.api ⟨"refund_failed", "Refund failed", 502,
        "Payment provider did not confirm the dispute refund"⟩)
    let clearing ← getOrCreateAccount (clearingAccount intent.provider milestone.currency)
    pure (⟨intent.provider, result.reference⟩, ⟨clearing, .credit, refundMinor⟩)

/-- The refund of a dispute: confirmed before it is recorded. -/
def resolutionRefund (id : RefundId) (milestone : Milestone) (employer : UserId)
    (idem : IdempotencyScope) (journal : JournalKey) (refundMinor : Int)
    (confirmed : ConfirmedRefund) : Refund where
  id := id
  milestone := milestone.id
  employer := employer
  journal := journal
  idempotency := idem
  provider := confirmed.provider
  providerReference := some confirmed.reference
  amountMinor := refundMinor
  currency := milestone.currency
  status := .succeeded
  createdAt := 0

/-- `_persist_resolution_refund`. -/
def persistResolutionRefund (milestone : Milestone) (employer : UserId) (idem : IdempotencyScope)
    (journal : JournalKey) (refundMinor : Int) (confirmed : Option ConfirmedRefund)
    (refundId : RefundId) : Tx (Option Refund) :=
  match confirmed with
  | none => pure none
  | some confirmed => do
    let refund := resolutionRefund refundId milestone employer idem journal refundMinor confirmed
    newUuid (.refund refundId) fun d => (d.refund? refundId).isSome
    insertRefund refund
    pure (some refund)

/-- The client's part of a resolution: sent back by the provider unless it is zero. -/
def clientRefund (cfg : Config) (dispute : Dispute) (milestone : Milestone) (refundMinor : Int)
    (idempotencyKey : String) : Tx (Option ConfirmedRefund × List Posting) :=
  if refundMinor ≠ 0 then do
    let (confirmed, posting) ← confirmProviderRefund cfg dispute milestone refundMinor
      idempotencyKey
    pure (some confirmed, [posting])
  else pure (none, [])

def insertDecision (x : DisputeDecision) : Tx Unit := do
  reserve (.decision x.dispute) fun d => (d.decision? x.dispute).isSome
  write (Db.addDecision x)

def newDecision (dispute : Dispute) (administrator : User) (outcome reason : String)
    (award commission refundMinor : Int) (currency : Currency) (journal : JournalKey)
    (refund : Option RefundId) : DisputeDecision where
  dispute := dispute.id
  administrator := administrator.id
  outcome := outcome
  freelancerAwardMinor := award
  freelancerNetMinor := award - commission
  clientRefundMinor := refundMinor
  commissionMinor := commission
  currency := currency
  journal := journal
  refund := refund
  reason := reason

def resolveDispute (cfg : Config) (administrator : User) (disputeId : DisputeId)
    (outcome reason : String) (freelancerAwardMinor clientRefundMinor : Option Int)
    (idempotencyKey : String) (refundId : RefundId) : Tx Response := do
  requireAdmin administrator
  let dispute ← lockedDispute disputeId
  let decision ← select fun d => d.decision? dispute.id
  let normalizedOutcome := upper (strip outcome)
  let normalizedReason ← requiredText reason "reason" 4000
  let (idem, created) ← claimIdempotency administrator.id .disputeResolve idempotencyKey
    (.resolve dispute.id normalizedOutcome normalizedReason freelancerAwardMinor clientRefundMinor)
  match storedResponse created idem with
  | some response => pure response
  | none =>
  requireReviewableDispute dispute decision
  require (disputeOutcomes.contains normalizedOutcome)
    (invalidAmounts "Invalid dispute outcome"
      "outcome must be RELEASE_TO_FREELANCER, REFUND_CLIENT, or SPLIT")
  let (milestone, contract) ← lockedMilestone dispute.milestone
  require (milestone.status = .disputed)
    (.api ⟨"invalid_state", "Milestone is not disputed", 409,
      "Dispute resolution requires the milestone release to remain frozen"⟩)
  let (escrow, account, funded) ← lockedFundedEscrow milestone
  match resolutionAmounts normalizedOutcome funded freelancerAwardMinor clientRefundMinor with
  | .error e => raise e
  | .ok (award, refundMinor) =>
  let commission := commissionOf award escrow
  let freelancerPart ← freelancerPostings contract.freelancer milestone.currency
    (award - commission) commission
  let (confirmed, clientPart) ← clientRefund cfg dispute milestone refundMinor idempotencyKey
  let journal ← postJournal .disputeResolution (.dispute dispute.id)
    (⟨account, .debit, funded⟩ :: freelancerPart ++ clientPart) none
  let refund ← persistResolutionRefund milestone contract.employer idem.scope journal.key
    refundMinor confirmed refundId
  write (Db.moveMilestone milestone.id ⟨some administrator.id, .disputed, .released,
    "Dispute resolved with outcome " ++ normalizedOutcome⟩)
  write (Db.resolveDispute dispute.id)
  let decision := newDecision dispute administrator normalizedOutcome normalizedReason award
    commission refundMinor milestone.currency journal.key (refund.map (·.id))
  insertDecision decision
  let event : DisputeEvent :=
    ⟨administrator.id, "RESOLVED", some .underReview, .resolved, normalizedReason⟩
  write (Db.addDisputeEvent dispute.id event)
  notifyParties dispute.id (dispute.parties.map Prod.fst) "dispute.resolved" "Dispute resolved"
    ("The dispute was resolved with outcome " ++ normalizedOutcome ++ ".")
  let response := serializeDispute
    { dispute with status := .resolved, events := dispute.events ++ [event] } (some decision)
  completeIdempotency idem 200 response
  commit (.disputeResolved dispute.id)
  pure ⟨response, 200⟩

end Money
