import Freelancing.Money.Ledger
import Mathlib.Data.List.MinMax

/-!
# Funding, release and refund of milestones

`app/payments/service.py`, with the policies of `app/payments/policies.py` and the registry of
providers. A function that creates a row takes its uuid as an argument.
-/

namespace Money

open Text (upper)

structure Config where
  paymentRuntimeEnabled : Bool

/-! ## Shared reads and checks -/

def canFundMilestone (user : User) (contract : Contract) : Bool := user.id = contract.employer

def canReleaseOrRefund (user : User) (contract : Contract) : Bool := user.id = contract.employer

def requireActiveContract (status : ContractStatus) : Tx Unit :=
  require (status = .active)
    (.api ⟨"invalid_state", "Contract is not active", 409,
      "Financial milestone operations require an active contract"⟩)

def milestoneNotFound : Err :=
  .api ⟨"milestone_not_found", "Milestone not found", 404, "Milestone was not found"⟩

/-- `milestone.contract_version.contract`, loaded without a lock. -/
def contractOf (m : Milestone) : Tx Contract := do
  match ← select (fun d => d.contract? m.contract) with
  | none => raise (.runtime "Milestone references a missing contract")
  | some contract => pure contract

def findMilestone (id : MilestoneId) : Tx Milestone := do
  match ← select (fun d => d.milestone? id) with
  | none => raise milestoneNotFound
  | some m => pure m

def lockedMilestone (id : MilestoneId) : Tx (Milestone × Contract) := do
  match ← selectForUpdate (fun m => .milestone m.id) (fun d => d.milestone? id) with
  | none => raise milestoneNotFound
  | some m =>
    let contract ← contractOf m
    pure (m, contract)

/-- The contract's row is locked; the copy that came with the milestone is not refreshed. -/
def lockedContract (loaded : Contract) : Tx Contract := do
  match ← relock (.relockContract loaded) (.contract loaded.id) (fun d => d.contract? loaded.id)
      loaded with
  | none => raise (.runtime "Milestone references a missing contract")
  | some contract => pure contract

def getProvider (cfg : Config) (name : String) : Tx Provider :=
  if !cfg.paymentRuntimeEnabled then
    raiseApi "payment_runtime_disabled" "Payment runtime disabled" 503
      "External payment-provider operations are disabled for this workload"
  else
    let normalized := lower (strip name)
    if normalized = "sandbox" ∨ normalized = "stripe" then pure normalized
    else
      raiseApi "unsupported_payment_provider" "Unsupported payment provider" 422
        ("Payment provider '" ++ name ++ "' is not configured")

/-- The response kept with a record that an earlier call created. -/
def storedResponse (created : Bool) (record : FinancialIdempotencyKey) : Option Response :=
  if created then none else record.response

def requireEscrow (m : MilestoneId) : Tx MilestoneEscrow := do
  match ← select (fun d => d.escrow? m) with
  | none =>
    raiseApi "escrow_not_found" "Escrow not found" 409 "Milestone has not been funded"
  | some escrow => pure escrow

def missingEscrowAccount : Err := .runtime "Escrow references a missing ledger account"

/-- `db.session.get(LedgerAccount, escrow.escrow_account_id)`. -/
def escrowAccount (escrow : MilestoneEscrow) : Tx LedgerAccount := do
  match ← select (fun d => d.account? escrow.escrowAccount) with
  | none => raise missingEscrowAccount
  | some account => pure account

def lockedEscrowAccount (escrow : MilestoneEscrow) : Tx LedgerAccount := do
  match ← selectForUpdate (fun a => .account a.key) (fun d => d.account? escrow.escrowAccount) with
  | none => raise missingEscrowAccount
  | some account => pure account

def financialState (m : Milestone) : Tx FinancialState := do
  match ← select (fun d => d.escrow? m.id) with
  | none => pure ⟨m.id, m.status, m.amountMinor, m.currency, 0, none⟩
  | some escrow =>
    let account ← escrowAccount escrow
    let balance ← accountBalanceMinor account
    pure ⟨m.id, m.status, m.amountMinor, m.currency, balance, some escrow.commissionBps⟩

def escrowNotFullyFunded (detail : String) : Err :=
  .api ⟨"escrow_not_fully_funded", "Escrow is not fully funded", 409, detail⟩

def requireMilestoneFullyFunded (m : Milestone) : Tx Unit := do
  let escrow ← requireEscrow m.id
  match ← select (fun d => d.account? escrow.escrowAccount) with
  | none =>
    raise (escrowNotFullyFunded
      "Milestone work cannot start until the full contracted amount is in escrow")
  | some account =>
    let balance ← accountBalanceMinor account
    require (balance = m.amountMinor) (escrowNotFullyFunded
      "Milestone work cannot start until the full contracted amount is in escrow")

/-! ## Funding -/

def serializePaymentIntent (i : PaymentIntent) : Body :=
  .intent ⟨i.id, i.milestone, i.provider, i.providerReference, i.amountMinor, i.currency, i.status⟩

/-- The milestone's funding attempt that is still open, the latest first. -/
def Db.pendingIntent? (d : Db) (m : MilestoneId) : Option PaymentIntent :=
  d.intents.find? fun i => i.milestone = m ∧ i.status = .pending

def Db.intentOfRecord? (d : Db) (s : IdempotencyScope) : Option PaymentIntent :=
  d.intents.find? fun i => i.idempotency = s

def Db.intentOfReference? (d : Db) (p : Provider) (reference : String) : Option PaymentIntent :=
  d.intents.find? fun i => i.provider = p ∧ i.providerReference = some reference

/-- uq_payment_intents_provider_reference -/
def reserveIntentReference (i : PaymentIntent) : Tx Unit :=
  match i.providerReference with
  | none => pure ()
  | some reference =>
    reserve (.intentReference i.provider reference) fun d =>
      (d.intentOfReference? i.provider reference).isSome

def insertIntent (i : PaymentIntent) : Tx Unit := do
  newUuid (.intent i.id) fun d => (d.intent? i.id).isSome
  reserve (.intentOfRecord i.idempotency) fun d => (d.intentOfRecord? i.idempotency).isSome
  reserveIntentReference i
  -- ck_payment_intents_amount_positive
  require (0 < i.amountMinor) .integrity
  write (Db.addIntent i)

def createPayment (provider : Provider) (amountMinor : Int) (currency : Currency) (key : String) :
    Tx ProviderResult := do
  match ← callProvider (.createPayment provider amountMinor currency (.raw key)) with
  | .result r => pure r
  | .temporary => raise .providerTemporary
  | .failed => raise .provider

/-- The intent of a payment that the provider has created under `reference`. -/
def newIntent (id : IntentId) (user : User) (milestone : Milestone) (provider : Provider)
    (reference : String) (idem : IdempotencyScope) : PaymentIntent where
  id := id
  milestone := milestone.id
  employer := user.id
  provider := provider
  providerReference := some reference
  idempotency := idem
  amountMinor := milestone.amountMinor
  currency := milestone.currency
  status := .pending
  capturedAt := none

def fundMilestone (cfg : Config) (user : User) (milestoneId : MilestoneId)
    (providerName idempotencyKey : String) (intentId : IntentId) : Tx Response := do
  let (milestone, loaded) ← lockedMilestone milestoneId
  let contract ← lockedContract loaded
  requireActiveContract contract.status
  require (canFundMilestone user contract)
    (.api ⟨"forbidden", "Forbidden", 403, "Only the employer party may fund escrow"⟩)
  let providerName := lower (strip providerName)
  let (idem, created) ← claimIdempotency user.id .milestoneFund idempotencyKey
    (.fund milestone.id providerName)
  match storedResponse created idem with
  | some response => pure response
  | none =>
  require (milestone.status = .created)
    (.api ⟨"invalid_transition", "Invalid milestone transition", 409,
      "Milestone in " ++ milestone.status.name ++ " cannot be funded"⟩)
  match ← select (fun d => d.intentOfRecord? idem.scope) with
  | some existing =>
    let status := if existing.status = .captured then 200 else 202
    completeIdempotency idem status (serializePaymentIntent existing)
    commit (.replayed idem.scope)
    pure ⟨serializePaymentIntent existing, status⟩
  | none =>
  match ← selectForUpdate (fun i => .intent i.id) (fun d => d.pendingIntent? milestone.id) with
  | some active =>
    require (active.provider = providerName)
      (.api ⟨"payment_in_progress", "Payment already in progress", 409,
        "Finish or fail the existing milestone funding attempt before changing providers"⟩)
    completeIdempotency idem 202 (serializePaymentIntent active)
    commit (.replayed idem.scope)
    pure ⟨serializePaymentIntent active, 202⟩
  | none =>
  let provider ← getProvider cfg providerName
  let result ← createPayment provider milestone.amountMinor milestone.currency idempotencyKey
  let intent := newIntent intentId user milestone provider result.reference idem.scope
  insertIntent intent
  completeIdempotency idem 202 (serializePaymentIntent intent)
  commit (.fundingStarted intent.id)
  pure ⟨serializePaymentIntent intent, 202⟩

/-! ## Capture -/

def contractCommissionBps (contract : Contract) : Tx Int :=
  match contract.commission with
  | .absent => pure 0
  | .notObject => raise (.runtime "Contract commission snapshot must be an object")
  | .platformBps none => raise (.runtime "Contract commission platform_bps is invalid")
  | .platformBps (some value) =>
    if value < 0 ∨ 10000 < value then
      raise (.runtime "Contract commission platform_bps is invalid")
    else pure value

/-- The escrow of the milestone and its account, created by the first capture. -/
def captureEscrow (milestone : Milestone) (contract : Contract) :
    Tx (MilestoneEscrow × LedgerAccount) := do
  match ← select (fun d => d.escrow? milestone.id) with
  | none =>
    let account ← getOrCreateAccount (escrowAccountOf milestone)
    let commissionBps ← contractCommissionBps contract
    let escrow : MilestoneEscrow := ⟨milestone.id, account.key, commissionBps⟩
    reserve (.escrow milestone.id) fun d => (d.escrow? milestone.id).isSome
    write (Db.addEscrow escrow)
    pure (escrow, account)
  | some escrow =>
    let account ← escrowAccount escrow
    pure (escrow, account)

def recordFunding (escrow : MilestoneEscrow) (intent : PaymentIntent)
    (journal : JournalTransaction) : Tx Unit := do
  match ← select (fun d => d.funding? intent.id) with
  | some _ => pure ()
  | none =>
    reserve (.funding intent.id) fun d => (d.funding? intent.id).isSome
    write (Db.addFunding ⟨escrow.milestone, intent.id, journal.key, intent.amountMinor⟩)

/-- A milestone whose escrow reaches the contracted amount becomes `FUNDED`. -/
def markFunded (milestone : Milestone) (after : Int) (actor : Option UserId) : Tx Milestone :=
  if after = milestone.amountMinor ∧ milestone.status ≠ .funded then do
    let event : MilestoneEvent := ⟨actor, milestone.status, .funded,
      "Full contracted milestone amount captured into escrow"⟩
    write (Db.moveMilestone milestone.id event)
    pure { milestone with status := .funded, events := milestone.events ++ [event] }
  else pure milestone

/-- `_capture_intent`. -/
def captureIntent (intent : PaymentIntent) (actor : Option UserId) : Tx FinancialState :=
  if intent.status = .captured then do
    financialState (← findMilestone intent.milestone)
  else do
    let (milestone, loaded) ← lockedMilestone intent.milestone
    let contract ← lockedContract loaded
    requireActiveContract contract.status
    require (milestone.status = .created ∨ milestone.status = .funded)
      (.api ⟨"invalid_transition", "Invalid milestone transition", 409,
        "Captured payment cannot fund milestone in " ++ milestone.status.name⟩)
    require intent.providerReference.isSome
      (.runtime "Captured payment intent is missing provider reference")
    let (escrow, account) ← captureEscrow milestone contract
    let before ← accountBalanceMinor account
    require (before + intent.amountMinor ≤ milestone.amountMinor)
      (.api ⟨"escrow_overfund", "Escrow overfunding rejected", 409,
        "Captured amount would exceed the contracted milestone amount"⟩)
    let clearing ← getOrCreateAccount (clearingAccount intent.provider intent.currency)
    let journal ← postJournal .milestoneFund (.paymentIntent intent.id)
      [⟨clearing, .debit, intent.amountMinor⟩, ⟨account, .credit, intent.amountMinor⟩] none
    recordFunding escrow intent journal
    write (Db.captureIntent intent.id)
    let after := before + intent.amountMinor
    let milestone ← markFunded milestone after actor
    write (Db.enqueue (.milestoneFunded milestone.id intent.id journal.key after))
    financialState milestone

/-! ## Webhooks -/

/-- The fields of an event's `data` that the service reads: `none` where the key is missing or its
value is not of the type it must have. -/
structure WebhookData where
  providerReference : Option String
  amountMinor : Option Int
  currency : Option String

structure VerifiedWebhook where
  externalEventId : String
  eventType : String
  data : WebhookData

/-- A webhook request: the provider named in its path, what the provider's adapter makes of payload
and signature, and the hash of the payload. -/
structure Delivery where
  providerName : String
  verified : Except Err VerifiedWebhook
  payloadHash : String

def webhookString (value : Option String) (key : String) : Tx String :=
  match value with
  | some v =>
    if v.isEmpty then
      raiseApi "invalid_webhook" "Invalid webhook" 400 ("Webhook " ++ key ++ " is required")
    else pure v
  | none => raiseApi "invalid_webhook" "Invalid webhook" 400 ("Webhook " ++ key ++ " is required")

def webhookInt (value : Option Int) (key : String) : Tx Int :=
  match value with
  | some v => pure v
  | none =>
    raiseApi "invalid_webhook" "Invalid webhook" 400 ("Webhook " ++ key ++ " must be an integer")

def duplicateProviderEvent (event : ProviderEvent) (payloadHash : String) : Tx Response :=
  if event.payloadHash ≠ payloadHash then
    raiseApi "provider_event_conflict" "Provider event conflict" 409
      "The provider reused an event id with a different payload"
  else pure ⟨.webhook "duplicate" event.key.externalEventId, 200⟩

/-- What a `payment.captured` event does; the intent it captured, if it was not captured before. -/
def processCaptured (provider : Provider) (data : WebhookData) : Tx (Option IntentId) := do
  let reference ← webhookString data.providerReference "provider_reference"
  let amountMinor ← webhookInt data.amountMinor "amount_minor"
  let currency ← webhookString data.currency "currency"
  match ← selectForUpdate (fun i => .intent i.id)
      (fun d => d.intentOfReference? provider reference) with
  | none =>
    raiseApi "payment_not_found" "Payment not found" 404 "Webhook payment reference is unknown"
  | some intent =>
    require (intent.amountMinor = amountMinor ∧ intent.currency = upper currency)
      (.api ⟨"payment_mismatch", "Payment mismatch", 409,
        "Webhook amount or currency differs from the stored payment intent"⟩)
    let _ ← captureIntent intent none
    pure (if intent.status = .captured then none else some intent.id)

def processFailed (provider : Provider) (data : WebhookData) : Tx Unit := do
  let reference ← webhookString data.providerReference "provider_reference"
  match ← selectForUpdate (fun i => .intent i.id)
      (fun d => d.intentOfReference? provider reference) with
  | none => pure ()
  | some intent =>
    if intent.status ≠ .captured then write (Db.failIntent intent.id) else pure ()

def processProviderEvent (provider : Provider) (verified : VerifiedWebhook) :
    Tx (Option IntentId) := do
  if verified.eventType = "payment.captured" then
    processCaptured provider verified.data
  else if verified.eventType = "payment.failed" then
    processFailed provider verified.data
    pure none
  else pure none

def processProviderWebhook (cfg : Config) (delivery : Delivery) : Tx Response := do
  let provider ← getProvider cfg delivery.providerName
  match delivery.verified with
  | .error e => raise e
  | .ok verified =>
  let key : EventKey := ⟨provider, verified.externalEventId⟩
  match ← select (fun d => d.event? key) with
  | some existing => duplicateProviderEvent existing delivery.payloadHash
  | none =>
  let t ← taken (.event key) fun d => (d.event? key).isSome
  if t then
    -- the insert was rolled back to its savepoint: the event came in twice at once
    match ← select (fun d => d.event? key) with
    | none => raise .integrity
    | some existing => duplicateProviderEvent existing delivery.payloadHash
  else
    write (Db.addEvent ⟨key, verified.eventType, delivery.payloadHash⟩)
    let captured ← processProviderEvent provider verified
    commit (.webhookProcessed key captured)
    pure ⟨.webhook "processed" key.externalEventId, 200⟩

end Money
