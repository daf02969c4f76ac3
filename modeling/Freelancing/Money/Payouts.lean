import Freelancing.Money.Payments

/-!
# Payouts

`app/payouts/service.py` and `resolve_payout_destination`. Like a refund, a payout is reserved by
a first transaction and settled by a second one, whose copy of the payout is loaded after the first
commit and not refreshed by the lock that follows the provider's answer.
-/

namespace Money

open Text (upper)

/-! ## Bodies -/

def serializePayout (p : Payout) : Body :=
  .payout ⟨p.id, p.provider, p.providerReference, p.amountMinor, p.currency, p.status⟩

def failedPayoutBody (p : Payout) : Body :=
  .failure ⟨"payout_failed", "Payout failed", 502,
    "The payment provider did not complete the payout; wallet funds were restored", p.id⟩

def pendingPayoutBody (p : Payout) : Body :=
  .failure ⟨"payment_provider_temporarily_unavailable",
    "Payment provider temporarily unavailable", 503,
    "Payout outcome is unknown; retry with the same Idempotency-Key", p.id⟩

/-! ## Reads -/

def Db.payoutOfRecord? (d : Db) (s : IdempotencyScope) : Option Payout :=
  d.payouts.find? fun p => p.idempotency = s

def Db.payoutOfReference? (d : Db) (provider : Provider) (reference : String) : Option Payout :=
  d.payouts.find? fun p => p.provider = provider ∧ p.providerReference = some reference

def Db.payoutAccount? (d : Db) (freelancer : UserId) (provider : Provider) :
    Option PayoutProviderAccount :=
  d.payoutAccounts.find? fun a => a.freelancer = freelancer ∧ a.provider = provider ∧ a.active

def resolvePayoutDestination (freelancer : UserId) (providerName : String) : Tx Destination := do
  let providerName := lower (strip providerName)
  if providerName = "sandbox" then pure (.user freelancer)
  else
    match ← select (fun d => d.payoutAccount? freelancer providerName) with
    | none =>
      raiseApi "payout_destination_not_configured" "Payout destination not configured" 409
        "Configure and verify a payout provider account before requesting this payout"
    | some account => pure (.account account.reference)

def payoutDisappeared : Err := .runtime "Reserved payout disappeared"

def payoutRecord (p : Payout) : Tx FinancialIdempotencyKey := do
  match ← select (fun d => d.record? p.idempotency) with
  | none => raise (.runtime "Payout lost its idempotency record")
  | some record => pure record

def relockPayout (loaded : Payout) : Tx Payout := do
  match ← relock (.relockPayout loaded) (.payout loaded.id) (fun d => d.payout? loaded.id)
      loaded with
  | none => raise payoutDisappeared
  | some p => pure p

/-! ## Replays -/

/-- `_complete_terminal_replay`. -/
def completeTerminalReplay (p : Payout) (idem : FinancialIdempotencyKey) : Tx (Option Response) :=
  match p.status with
  | .succeeded => do
    completeIdempotency idem 200 (serializePayout p)
    commit (.replayed idem.scope)
    pure (some ⟨serializePayout p, 200⟩)
  | .failed => do
    completeIdempotency idem 502 (failedPayoutBody p)
    commit (.replayed idem.scope)
    pure (some ⟨failedPayoutBody p, 502⟩)
  | .pending => pure none

/-- The answer for a payout that is no longer `PENDING`. -/
def replayPayout (p : Payout) : Tx Response := do
  let record ← payoutRecord p
  match ← completeTerminalReplay p record with
  | none => raise (.runtime "Payout has an unsupported terminal state")
  | some terminal => pure terminal

/-- `_fail_payout`, in a session that has loaded the copy `loaded` of the payout. -/
def failPayout (loaded : Payout) : Tx Response := do
  let payout ← relockPayout loaded
  if payout.status ≠ .pending then replayPayout payout
  else
  let wallet ← select fun d => d.account? (.userWallet payout.freelancer payout.currency)
  let providerClearing ← select fun d =>
    d.account? (.providerClearing payout.provider payout.currency)
  let original ← select fun d => d.journal? payout.journal
  match wallet, providerClearing, original with
  | some wallet, some providerClearing, some original =>
    let reversal ← postJournal .reversal (.payout payout.id)
      [⟨providerClearing, .debit, payout.amountMinor⟩, ⟨wallet, .credit, payout.amountMinor⟩]
      (some original.key)
    write (Db.failPayout payout.id reversal.key)
    let record ← payoutRecord payout
    completeIdempotency record 502 (failedPayoutBody payout)
    commit (.payoutFailed payout.id)
    pure ⟨failedPayoutBody payout, 502⟩
  | _, _, _ => raise (.runtime "Payout reservation ledger state is incomplete")

/-! ## Creation -/

/-- `_upgrade_legacy_destination_snapshot`. -/
def upgradeLegacyDestinationSnapshot (p : Payout) : Tx Payout :=
  match p.destination with
  | some _ => pure p
  | none => do
    require (p.provider = "sandbox")
      (.runtime "Real-provider payout is missing its immutable destination snapshot")
    write (Db.setDestination p.id (.user p.freelancer))
    commit (.payoutUpgraded p.id)
    match ← select (fun d => d.payout? p.id) with
    | none => raise payoutDisappeared
    | some p => pure p

def insertPayout (p : Payout) : Tx Unit := do
  reserve (.payoutOfRecord p.idempotency) fun d => (d.payoutOfRecord? p.idempotency).isSome
  -- ck_payouts_amount_positive
  require (0 < p.amountMinor) .integrity
  write (Db.addPayout p)

def lockedWallet (user : UserId) (currency : Currency) : Tx LedgerAccount := do
  match ← selectForUpdate (fun a => .account a.key)
      (fun d => (d.account? (.userWallet user currency)).filter
        fun a => a.accountType = .freelancerWallet) with
  | none => raiseApi "insufficient_funds" "Insufficient funds" 409 "Wallet has no funds"
  | some wallet => pure wallet

/-- A payout that has reserved its amount. -/
def newPayout (id : PayoutId) (user : User) (idem : IdempotencyScope) (journal : JournalKey)
    (provider : Provider) (destination : Destination) (amountMinor : Int) (currency : Currency) :
    Payout where
  id := id
  freelancer := user.id
  idempotency := idem
  journal := journal
  reversal := none
  provider := provider
  destination := some destination
  providerReference := none
  amountMinor := amountMinor
  currency := currency
  status := .pending
  completedAt := none

/-- The first transaction of a payout: the wallet is debited, the payout is `PENDING`. -/
def reservePayout (user : User) (amountMinor : Int) (currency : Currency) (providerName : Provider)
    (idem : FinancialIdempotencyKey) (payoutId : PayoutId) : Tx Payout := do
  let destination ← resolvePayoutDestination user.id providerName
  let wallet ← lockedWallet user.id currency
  requireSufficientBalance wallet amountMinor
  let clearing ← getOrCreateAccount (clearingAccount providerName currency)
  newUuid (.payout payoutId) fun d => (d.payout? payoutId).isSome
  let journal ← postJournal .payout (.payout payoutId)
    [⟨wallet, .debit, amountMinor⟩, ⟨clearing, .credit, amountMinor⟩] none
  let payout := newPayout payoutId user idem.scope journal.key providerName destination amountMinor
    currency
  insertPayout payout
  commit (.payoutReserved payout.id)
  -- the commit expired the session's copy
  match ← select (fun d => d.payout? payoutId) with
  | none => raise payoutDisappeared
  | some payout => pure payout

/-- What follows an answer of the provider that reports a payout. -/
def applyPayoutResult (loaded : Payout) (result : ProviderResult) : Tx Response := do
  let payout ← relockPayout loaded
  if payout.status ≠ .pending then replayPayout payout
  else if result.amountMinor ≠ payout.amountMinor ∨ result.currency ≠ payout.currency then
    failPayout payout
  else
  let other ← taken (.payoutReference payout.provider result.reference) fun d =>
    (d.payoutOfReference? payout.provider result.reference).any fun p => p.id ≠ payout.id
  require (!other) .integrity
  let payout :=
    { payout with providerReference := some result.reference, status := TransferStatus.succeeded }
  write (Db.succeedPayout payout.id result.reference)
  write (Db.enqueue (.payoutSucceeded payout.id result.reference))
  let record ← payoutRecord payout
  completeIdempotency record 200 (serializePayout payout)
  commit (.payoutSucceeded payout.id)
  pure ⟨serializePayout payout, 200⟩

/-- The second transaction of a payout: ask the provider, then record its answer. -/
def settlePayout (cfg : Config) (idempotencyKey : String) (payout : Payout) : Tx Response := do
  match payout.destination with
  | none => raise (.runtime "Pending payout is missing its provider destination snapshot")
  | some destination =>
  let provider ← getProvider cfg payout.provider
  match ← callProvider (.payout provider destination payout.amountMinor payout.currency
      (.raw idempotencyKey)) with
  | .result result => applyPayoutResult payout result
  | .temporary =>
    rollback
    match ← select (fun d => d.payout? payout.id) with
    | none => raise payoutDisappeared
    | some persisted => pure ⟨pendingPayoutBody persisted, 503⟩
  | .failed => failPayout payout

def createPayout (cfg : Config) (user : User) (amountMinor : Int) (currency providerName
    idempotencyKey : String) (payoutId : PayoutId) : Tx Response := do
  require (0 < amountMinor)
    (.api ⟨"validation_error", "Invalid payout", 422, "amount_minor must be positive"⟩)
  let currency := upper (strip currency)
  require (currency.length = 3)
    (.api ⟨"validation_error", "Invalid payout", 422, "currency must be 3 letters"⟩)
  let providerName := lower (strip providerName)
  let (idem, created) ← claimIdempotency user.id .payoutCreate idempotencyKey
    (.payout amountMinor currency providerName)
  match storedResponse created idem with
  | some response => pure response
  | none =>
  match ← selectForUpdate (fun p => .payout p.id) (fun d => d.payoutOfRecord? idem.scope) with
  | some payout =>
    match ← completeTerminalReplay payout idem with
    | some terminal => pure terminal
    | none =>
      let payout ← upgradeLegacyDestinationSnapshot payout
      settlePayout cfg idempotencyKey payout
  | none =>
    let payout ← reservePayout user amountMinor currency providerName idem payoutId
    settlePayout cfg idempotencyKey payout

end Money
