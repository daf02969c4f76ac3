import Freelancing.Money.Payments

/-!
# Release and refund of milestones

The second half of `app/payments/service.py`. `refundMilestone` commits the reservation of a
refund before it asks the provider; the rest of the call works on copies of the refund and of the
funding intent that are loaded after that commit and are not refreshed by the lock that follows
the provider's answer.
-/

namespace Money

/-! ## Release -/

def notApproved : Err :=
  .api ⟨"invalid_transition", "Invalid milestone transition", 409,
    "Milestone must be approved before escrow is released"⟩

def releaseFee (m : Milestone) (escrow : MilestoneEscrow) : Int :=
  m.amountMinor * escrow.commissionBps / 10000

def releasePostings (m : Milestone) (escrow : MilestoneEscrow)
    (escrowAccount wallet platform : LedgerAccount) : List Posting :=
  let fee := releaseFee m escrow
  [⟨escrowAccount, .debit, m.amountMinor⟩, ⟨wallet, .credit, m.amountMinor - fee⟩] ++
    if fee ≠ 0 then [⟨platform, .credit, fee⟩] else []

def releaseMilestone (user : User) (milestoneId : MilestoneId) (idempotencyKey : String) :
    Tx Response := do
  let (milestone, contract) ← lockedMilestone milestoneId
  requireActiveContract contract.status
  require (canReleaseOrRefund user contract)
    (.api ⟨"forbidden", "Forbidden", 403, "Only the employer party may release escrow"⟩)
  let (idem, created) ← claimIdempotency user.id .milestoneRelease idempotencyKey
    (.release milestone.id)
  match storedResponse created idem with
  | some response => pure response
  | none =>
  if milestone.status = .released then
    let state ← financialState milestone
    completeIdempotency idem 200 (.financialState state)
    commit (.replayed idem.scope)
    pure ⟨.financialState state, 200⟩
  else
  require (milestone.status = .approved) notApproved
  let escrow ← requireEscrow milestone.id
  let account ← lockedEscrowAccount escrow
  let balance ← accountBalanceMinor account
  require (balance = milestone.amountMinor) (escrowNotFullyFunded
    "Release requires the full contracted milestone amount in escrow")
  let wallet ← getOrCreateAccount (walletOf contract.freelancer milestone.currency)
  let platform ← getOrCreateAccount (platformAccount milestone.currency)
  let journal ← postJournal .milestoneRelease (.milestone milestone.id)
    (releasePostings milestone escrow account wallet platform) none
  write (Db.moveMilestone milestone.id
    ⟨some user.id, .approved, .releasePending, "Escrow release journal created"⟩)
  write (Db.moveMilestone milestone.id
    ⟨some user.id, .releasePending, .released, "Internal ledger release committed"⟩)
  write (Db.enqueue (.milestoneReleased milestone.id journal.key))
  let state ← financialState { milestone with status := .released }
  completeIdempotency idem 200 (.financialState state)
  commit (.released milestone.id)
  pure ⟨.financialState state, 200⟩

/-! ## Refund -/

def serializeRefund (r : Refund) : Body :=
  .refund ⟨r.id, r.milestone, r.provider, r.providerReference, r.amountMinor, r.currency, r.status⟩

def failedRefundBody (r : Refund) : Body :=
  .failure ⟨"refund_failed", "Refund failed", 502,
    "The payment provider did not complete the refund; escrow funds were restored", r.id⟩

def pendingRefund (r : Refund) : Response :=
  ⟨.refund ⟨r.id, r.milestone, r.provider, r.providerReference, r.amountMinor, r.currency,
    .pending⟩, 202⟩

/-- The milestone's intents that are captured, through `provider`. -/
def Db.capturedThrough (d : Db) (m : MilestoneId) (provider : Provider) : List PaymentIntent :=
  d.intents.filter fun i => i.milestone = m ∧ i.status = .captured ∧ i.provider = provider

/-- The intent captured last, `ORDER BY captured_at DESC`. -/
def latestCaptured (l : List PaymentIntent) : Option PaymentIntent :=
  l.argmax fun i => i.capturedAt.getD 0

def capturedFundingIntent (m : MilestoneId) (provider : Provider) : Tx PaymentIntent := do
  match ← select (fun d => latestCaptured (d.capturedThrough m provider)) with
  | none =>
    raiseApi "refund_provider_mismatch" "Refund provider mismatch" 409
      "No captured funding payment exists for this provider"
  | some intent => pure intent

def Db.refundOfRecord? (d : Db) (s : IdempotencyScope) : Option Refund :=
  d.refunds.find? fun r => r.idempotency = s

def Db.refundOfReference? (d : Db) (p : Provider) (reference : String) : Option Refund :=
  d.refunds.find? fun r => r.provider = p ∧ r.providerReference = some reference

/-- `db.session.get(FinancialIdempotencyKey, refund.idempotency_key_id)`. -/
def refundRecord (r : Refund) : Tx FinancialIdempotencyKey := do
  match ← select (fun d => d.record? r.idempotency) with
  | none => raise (.runtime "Refund lost its idempotency record")
  | some record => pure record

def completeRefundReplay (r : Refund) (idem : FinancialIdempotencyKey) : Tx (Option Response) :=
  match r.status with
  | .succeeded => do
    completeIdempotency idem 200 (serializeRefund r)
    commit (.replayed idem.scope)
    pure (some ⟨serializeRefund r, 200⟩)
  | .failed => do
    completeIdempotency idem 502 (failedRefundBody r)
    commit (.replayed idem.scope)
    pure (some ⟨failedRefundBody r, 502⟩)
  | .pending => pure none

/-- The answer for a refund that is no longer `PENDING`. -/
def replayRefund (r : Refund) : Tx Response := do
  let record ← refundRecord r
  match ← completeRefundReplay r record with
  | none => raise (.runtime "Refund has an unsupported terminal state")
  | some terminal => pure terminal

def relockRefund (loaded : Refund) : Tx Refund := do
  match ← relock (.relockRefund loaded) (.refund loaded.id) (fun d => d.refund? loaded.id)
      loaded with
  | none => raise (.runtime "Reserved refund disappeared")
  | some r => pure r

/-- `_fail_refund`, in a session that has loaded the copy `loaded` of the refund. -/
def failRefund (loaded : Refund) : Tx Response := do
  let refund ← relockRefund loaded
  if refund.status ≠ .pending then replayRefund refund
  else
  let journal ← select fun d => d.journal? refund.journal
  let escrow ← requireEscrow refund.milestone
  let escrowAccount ← select fun d => d.account? escrow.escrowAccount
  let providerAccount ← select fun d =>
    d.account? (.providerClearing refund.provider refund.currency)
  match journal, escrowAccount, providerAccount with
  | some journal, some escrowAccount, some providerAccount =>
    let _ ← postJournal .reversal (.refund refund.id)
      [⟨providerAccount, .debit, refund.amountMinor⟩,
        ⟨escrowAccount, .credit, refund.amountMinor⟩] (some journal.key)
    write (Db.finishRefund refund.id .failed)
    let record ← refundRecord refund
    completeIdempotency record 502 (failedRefundBody refund)
    commit (.refundFailed refund.id)
    pure ⟨failedRefundBody refund, 502⟩
  | _, _, _ => raise (.runtime "Refund reservation ledger state is incomplete")

/-- uq_refunds_provider_reference -/
def reserveRefundReference (r : Refund) : Tx Unit :=
  match r.providerReference with
  | none => pure ()
  | some reference =>
    reserve (.refundReference r.provider reference) fun d =>
      (d.refundOfReference? r.provider reference).isSome

def insertRefund (r : Refund) : Tx Unit := do
  reserve (.refundOfRecord r.idempotency) fun d => (d.refundOfRecord? r.idempotency).isSome
  reserveRefundReference r
  -- ck_refunds_amount_positive
  require (0 < r.amountMinor) .integrity
  write (Db.addRefund r)

/-- A refund that has reserved what is in the escrow. -/
def newRefund (id : RefundId) (user : User) (milestone : Milestone) (journal : JournalKey)
    (idem : IdempotencyScope) (provider : Provider) (amountMinor : Int) : Refund where
  id := id
  milestone := milestone.id
  employer := user.id
  journal := journal
  idempotency := idem
  provider := provider
  providerReference := none
  amountMinor := amountMinor
  currency := milestone.currency
  status := .pending
  createdAt := 0

/-- The first transaction of a refund: the escrow is debited, the refund is `PENDING`. -/
def reserveRefund (user : User) (milestone : Milestone) (providerName : Provider)
    (idem : FinancialIdempotencyKey) (refundId : RefundId) : Tx (Refund × PaymentIntent) := do
  require (milestone.status = .funded)
    (.api ⟨"invalid_transition", "Invalid milestone transition", 409,
      "Refund is only available before milestone work starts"⟩)
  let escrow ← requireEscrow milestone.id
  let account ← lockedEscrowAccount escrow
  let amountMinor ← accountBalanceMinor account
  require (0 < amountMinor)
    (.api ⟨"nothing_to_refund", "Nothing to refund", 409, "Escrow has no refundable funds"⟩)
  let fundingIntent ← capturedFundingIntent milestone.id providerName
  let clearing ← getOrCreateAccount (clearingAccount providerName milestone.currency)
  newUuid (.refund refundId) fun d => (d.refund? refundId).isSome
  let journal ← postJournal .milestoneRefund (.refund refundId)
    [⟨account, .debit, amountMinor⟩, ⟨clearing, .credit, amountMinor⟩] none
  let refund := newRefund refundId user milestone journal.key idem.scope providerName amountMinor
  insertRefund refund
  commit (.refundReserved refund.id)
  -- the commit expired the session's copies
  match ← select (fun d => d.intent? fundingIntent.id) with
  | none => raise (.runtime "Reserved refund disappeared")
  | some fundingIntent =>
  match ← select (fun d => d.refund? refundId) with
  | none => raise (.runtime "Reserved refund disappeared")
  | some refund => pure (refund, fundingIntent)

/-- What follows an answer of the provider that reports a refund. -/
def applyRefundResult (user : User) (milestoneId : MilestoneId) (loaded : Refund)
    (result : ProviderResult) : Tx Response := do
  let refund ← relockRefund loaded
  let (milestone, _) ← lockedMilestone milestoneId
  if refund.status ≠ .pending then replayRefund refund
  else if result.amountMinor ≠ refund.amountMinor ∨ result.currency ≠ refund.currency then
    failRefund refund
  else
  let other ← taken (.refundReference refund.provider result.reference) fun d =>
    (d.refundOfReference? refund.provider result.reference).any fun r => r.id ≠ refund.id
  require (!other) .integrity
  write (Db.referRefund refund.id result.reference)
  let refund := { refund with providerReference := some result.reference }
  if result.status = "PENDING" then
    commit (.refundPending refund.id)
    match ← select (fun d => d.refund? refund.id) with
    | none => raise (.runtime "Reserved refund disappeared")
    | some refund => pure (pendingRefund refund)
  else if result.status ≠ "SUCCEEDED" then failRefund refund
  else
  require (milestone.status = .funded) (.runtime "Pending refund milestone left the FUNDED state")
  let refund := { refund with status := TransferStatus.succeeded }
  write (Db.finishRefund refund.id .succeeded)
  write (Db.moveMilestone milestone.id
    ⟨some user.id, .funded, .created, "Escrow funding fully refunded before work started"⟩)
  write (Db.enqueue (.milestoneRefunded milestone.id refund.id))
  let record ← refundRecord refund
  completeIdempotency record 200 (serializeRefund refund)
  commit (.refundSucceeded refund.id)
  pure ⟨serializeRefund refund, 200⟩

/-- The second transaction of a refund: ask the provider, then record its answer. -/
def settleRefund (cfg : Config) (user : User) (milestoneId : MilestoneId) (idempotencyKey : String)
    (refund : Refund) (fundingIntent : PaymentIntent) : Tx Response := do
  match fundingIntent.providerReference with
  | none => raise (.runtime "Captured funding payment is missing its provider reference")
  | some reference =>
  let provider ← getProvider cfg refund.provider
  match refund.providerReference with
  | some known =>
    match ← callProvider (.verifyRefund provider known) with
    | .result result => applyRefundResult user milestoneId refund result
    | .temporary => pure (pendingRefund refund)
    | .failed => raise .provider
  | none =>
    match ← callProvider (.refund provider reference refund.amountMinor refund.currency
        (.raw idempotencyKey) (.refund refund.id)) with
    | .result result => applyRefundResult user milestoneId refund result
    | .temporary => pure (pendingRefund refund)
    | .failed => failRefund refund

def refundMilestone (cfg : Config) (user : User) (milestoneId : MilestoneId)
    (providerName idempotencyKey : String) (refundId : RefundId) : Tx Response := do
  let (milestone, contract) ← lockedMilestone milestoneId
  requireActiveContract contract.status
  require (canReleaseOrRefund user contract)
    (.api ⟨"forbidden", "Forbidden", 403, "Only the employer party may refund escrow"⟩)
  let providerName := lower (strip providerName)
  let (idem, created) ← claimIdempotency user.id .milestoneRefund idempotencyKey
    (.refund milestone.id providerName)
  match storedResponse created idem with
  | some response => pure response
  | none =>
  match ← selectForUpdate (fun r => .refund r.id) (fun d => d.refundOfRecord? idem.scope) with
  | some refund =>
    match ← completeRefundReplay refund idem with
    | some terminal => pure terminal
    | none =>
      let fundingIntent ← capturedFundingIntent refund.milestone refund.provider
      settleRefund cfg user milestoneId idempotencyKey refund fundingIntent
  | none =>
    let (refund, fundingIntent) ← reserveRefund user milestone providerName idem refundId
    settleRefund cfg user milestoneId idempotencyKey refund fundingIntent

end Money
