import Freelancing.Ledger.DoubleEntry
import Freelancing.Text

/-!
# The data of the financial services

The rows of the tables behind `app/payments`, `app/ledger`, `app/payouts`, `app/milestones` and
`app/disputes`, the errors and response bodies of their operations, and what is asked of the
payment providers. A uuid is a number; a row that the database keeps unique on some columns is
referred to by them (an account by its key, a journal by operation and reference, an idempotency
record by its scope). A `sha256` digest is what was hashed.
-/

namespace Money

abbrev UserId := Nat
abbrev ContractId := Nat
abbrev MilestoneId := Nat
abbrev IntentId := Nat
abbrev RefundId := Nat
abbrev PayoutId := Nat
abbrev DisputeId := Nat
abbrev Currency := String

/-- The name of a payment provider, `strip().lower()`ed. -/
abbrev Provider := String

structure User where
  id : UserId
  roles : List String

/-! ## Text -/

/-- The characters that `str.strip()` removes. -/
def isSpace (c : Char) : Bool :=
  (9 ≤ c.toNat && c.toNat ≤ 13) || (28 ≤ c.toNat && c.toNat ≤ 32) ||
    (0x2000 ≤ c.toNat && c.toNat ≤ 0x200a) ||
    [0x85, 0xa0, 0x1680, 0x2028, 0x2029, 0x202f, 0x205f, 0x3000].contains c.toNat

def strip (s : String) : String :=
  String.ofList ((s.toList.dropWhile isSpace).reverse.dropWhile isSpace).reverse

/-- `str.lower()` on ASCII letters, the only ones in a provider's name. -/
def lower (s : String) : String := String.ofList (s.toList.map Char.toLower)

/-! ## Statuses -/

inductive MilestoneStatus
  | created
  | funded
  | inProgress
  | submitted
  | changesRequested
  | disputed
  | approved
  | releasePending
  | released
  deriving DecidableEq

def MilestoneStatus.name : MilestoneStatus → String
  | created => "CREATED"
  | funded => "FUNDED"
  | inProgress => "IN_PROGRESS"
  | submitted => "SUBMITTED"
  | changesRequested => "CHANGES_REQUESTED"
  | disputed => "DISPUTED"
  | approved => "APPROVED"
  | releasePending => "RELEASE_PENDING"
  | released => "RELEASED"

inductive ContractStatus
  | pendingSignatures
  | active
  | cancelled
  deriving DecidableEq

inductive IntentStatus
  | pending
  | captured
  | failed
  | cancelled
  deriving DecidableEq

/-- The status of a refund or a payout. -/
inductive TransferStatus
  | pending
  | succeeded
  | failed
  deriving DecidableEq

inductive DisputeStatus
  | opened
  | evidenceCollection
  | underReview
  | needMoreInfo
  | resolved
  deriving DecidableEq

def DisputeStatus.name : DisputeStatus → String
  | opened => "OPEN"
  | evidenceCollection => "EVIDENCE_COLLECTION"
  | underReview => "UNDER_REVIEW"
  | needMoreInfo => "NEED_MORE_INFO"
  | resolved => "RESOLVED"

/-! ## Keys -/

inductive AccountType
  | providerClearing
  | milestoneEscrow
  | freelancerWallet
  | platformCommission
  deriving DecidableEq

/-- `account_key`. -/
inductive AccountKey
  | milestoneEscrow (milestone : MilestoneId) (currency : Currency)
  | userWallet (user : UserId) (currency : Currency)
  | platformCommission (currency : Currency)
  | providerClearing (provider : Provider) (currency : Currency)
  deriving DecidableEq

inductive JournalOperation
  | milestoneFund
  | milestoneRelease
  | milestoneRefund
  | disputeResolution
  | payout
  | reversal
  deriving DecidableEq

/-- `reference_type` and `reference_id`. -/
inductive Reference
  | paymentIntent (id : IntentId)
  | milestone (id : MilestoneId)
  | refund (id : RefundId)
  | dispute (id : DisputeId)
  | payout (id : PayoutId)
  deriving DecidableEq

structure JournalKey where
  operation : JournalOperation
  reference : Reference
  deriving DecidableEq

inductive IdempotentOperation
  | milestoneFund
  | milestoneRelease
  | milestoneRefund
  | disputeResolve
  | payoutCreate
  deriving DecidableEq

/-- `user_id`, `operation` and `key_hash`. -/
structure IdempotencyScope where
  user : UserId
  operation : IdempotentOperation
  key : String
  deriving DecidableEq

structure EventKey where
  provider : Provider
  externalEventId : String
  deriving DecidableEq

/-- Where a payout is sent: the sandbox pays the user, a real provider a connected account. -/
inductive Destination
  | user (id : UserId)
  | account (reference : String)
  deriving DecidableEq

/-- The key a provider call is made under. -/
inductive ProviderKey
  | raw (key : String)
  | dispute (id : DisputeId) (key : String)
  deriving DecidableEq

/-! ## Responses and errors -/

structure ApiError where
  type : String
  title : String
  status : Nat
  detail : String
  deriving DecidableEq

inductive Err
  | api (e : ApiError)
  | runtime (message : String)
  | value (message : String)
  | integrity
  | providerTemporary
  | provider
  | aborted
  deriving DecidableEq

structure IntentBody where
  paymentIntentId : IntentId
  milestoneId : MilestoneId
  provider : Provider
  providerReference : Option String
  amountMinor : Int
  currency : Currency
  status : IntentStatus

structure FinancialState where
  milestoneId : MilestoneId
  milestoneStatus : MilestoneStatus
  contractedAmountMinor : Int
  currency : Currency
  escrowBalanceMinor : Int
  commissionBps : Option Int

structure RefundBody where
  refundId : RefundId
  milestoneId : MilestoneId
  provider : Provider
  providerReference : Option String
  amountMinor : Int
  currency : Currency
  status : TransferStatus

structure PayoutBody where
  payoutId : PayoutId
  provider : Provider
  providerReference : Option String
  amountMinor : Int
  currency : Currency
  status : TransferStatus

/-- The body of an answer that reports a failure of a refund or payout without raising. -/
structure FailureBody where
  type : String
  title : String
  status : Nat
  detail : String
  id : Nat

inductive PartyRole
  | employer
  | freelancer
  deriving DecidableEq

structure DisputeEvent where
  actor : UserId
  eventType : String
  fromStatus : Option DisputeStatus
  toStatus : DisputeStatus
  reason : String

structure DisputeDecision where
  dispute : DisputeId
  administrator : UserId
  outcome : String
  freelancerAwardMinor : Int
  freelancerNetMinor : Int
  clientRefundMinor : Int
  commissionMinor : Int
  currency : Currency
  journal : JournalKey
  refund : Option RefundId
  reason : String

structure DisputeBody where
  id : DisputeId
  milestoneId : MilestoneId
  contractId : ContractId
  openedByUserId : UserId
  status : DisputeStatus
  reason : String
  parties : List (UserId × PartyRole)
  events : List DisputeEvent
  decision : Option DisputeDecision

inductive Body
  | intent (b : IntentBody)
  | financialState (b : FinancialState)
  | refund (b : RefundBody)
  | payout (b : PayoutBody)
  | failure (b : FailureBody)
  | dispute (b : DisputeBody)
  | webhook (status eventId : String)
  | milestone (id : MilestoneId) (status : MilestoneStatus)
  | contract (id : ContractId) (status : ContractStatus)

structure Response where
  body : Body
  status : Nat

end Money
