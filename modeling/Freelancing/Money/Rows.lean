import Freelancing.Money.Types
import Freelancing.Table

/-!
# The tables and their updates

`Db` holds the tables; the updates below are the `INSERT`s and `UPDATE`s of the services, each
named after the rows it changes. Timestamps are ticks of `clock`. A column that no operation here
reads (titles, journal metadata, audit rows) is left out.
-/

namespace Money

/-! ## Rows -/

/-- `snapshot["commission"]` of the contract version. -/
inductive Commission
  | absent
  | notObject
  | platformBps (value : Option Int)
  deriving DecidableEq

structure Contract where
  id : ContractId
  employer : UserId
  freelancer : UserId
  status : ContractStatus
  commission : Commission

structure MilestoneEvent where
  actor : Option UserId
  fromStatus : MilestoneStatus
  toStatus : MilestoneStatus
  note : String

structure Milestone where
  id : MilestoneId
  contract : ContractId
  amountMinor : Int
  currency : Currency
  status : MilestoneStatus
  events : List MilestoneEvent

/-- The request that an idempotency record stands for (`request_hash`). -/
inductive Payload
  | fund (milestone : MilestoneId) (provider : Provider)
  | release (milestone : MilestoneId)
  | refund (milestone : MilestoneId) (provider : Provider)
  | resolve (dispute : DisputeId) (outcome reason : String) (award refund : Option Int)
  | payout (amountMinor : Int) (currency : Currency) (provider : Provider)
  deriving DecidableEq

structure FinancialIdempotencyKey where
  scope : IdempotencyScope
  request : Payload
  response : Option Response

structure PaymentIntent where
  id : IntentId
  milestone : MilestoneId
  employer : UserId
  provider : Provider
  providerReference : Option String
  idempotency : IdempotencyScope
  amountMinor : Int
  currency : Currency
  status : IntentStatus
  capturedAt : Option Nat

structure ProviderEvent where
  key : EventKey
  eventType : String
  payloadHash : String

structure LedgerAccount where
  key : AccountKey
  accountType : AccountType
  currency : Currency
  owner : Option UserId
  milestone : Option MilestoneId

abbrev LedgerEntry := DoubleEntry.Entry AccountKey Currency

structure JournalTransaction where
  key : JournalKey
  reversalOf : Option JournalKey
  entries : List LedgerEntry

structure MilestoneEscrow where
  milestone : MilestoneId
  escrowAccount : AccountKey
  commissionBps : Int

structure MilestoneFunding where
  escrow : MilestoneId
  intent : IntentId
  journal : JournalKey
  amountMinor : Int

structure Refund where
  id : RefundId
  milestone : MilestoneId
  employer : UserId
  journal : JournalKey
  idempotency : IdempotencyScope
  provider : Provider
  providerReference : Option String
  amountMinor : Int
  currency : Currency
  status : TransferStatus
  createdAt : Nat

structure Payout where
  id : PayoutId
  freelancer : UserId
  idempotency : IdempotencyScope
  journal : JournalKey
  reversal : Option JournalKey
  provider : Provider
  destination : Option Destination
  providerReference : Option String
  amountMinor : Int
  currency : Currency
  status : TransferStatus
  completedAt : Option Nat

structure PayoutProviderAccount where
  freelancer : UserId
  provider : Provider
  reference : String
  active : Bool

structure Dispute where
  id : DisputeId
  milestone : MilestoneId
  contract : ContractId
  openedBy : UserId
  status : DisputeStatus
  reason : String
  resolvedAt : Option Nat
  parties : List (UserId × PartyRole)
  events : List DisputeEvent

inductive OutboxEvent
  | milestoneFunded (milestone : MilestoneId) (intent : IntentId) (journal : JournalKey)
      (fundedBalance : Int)
  | milestoneReleased (milestone : MilestoneId) (journal : JournalKey)
  | milestoneRefunded (milestone : MilestoneId) (refund : RefundId)
  | payoutSucceeded (payout : PayoutId) (reference : String)
  | notificationRequested (dispute : DisputeId) (user : UserId) (eventType title body : String)
  deriving DecidableEq

structure Db where
  contracts : List Contract
  milestones : List Milestone
  idempotency : List FinancialIdempotencyKey
  intents : List PaymentIntent
  events : List ProviderEvent
  accounts : List LedgerAccount
  journals : List JournalTransaction
  escrows : List MilestoneEscrow
  fundings : List MilestoneFunding
  refunds : List Refund
  payouts : List Payout
  payoutAccounts : List PayoutProviderAccount
  disputes : List Dispute
  decisions : List DisputeDecision
  outbox : List OutboxEvent
  clock : Nat

namespace Db

/-! ## Queries -/

def contract? (d : Db) (id : ContractId) : Option Contract := Table.get Contract.id id d.contracts

def milestone? (d : Db) (id : MilestoneId) : Option Milestone :=
  Table.get Milestone.id id d.milestones

def record? (d : Db) (s : IdempotencyScope) : Option FinancialIdempotencyKey :=
  Table.get FinancialIdempotencyKey.scope s d.idempotency

def intent? (d : Db) (id : IntentId) :
    Option PaymentIntent := Table.get PaymentIntent.id id d.intents

def event? (d : Db) (k : EventKey) : Option ProviderEvent := Table.get ProviderEvent.key k d.events

def account? (d : Db) (k : AccountKey) : Option LedgerAccount :=
  Table.get LedgerAccount.key k d.accounts

def journal? (d : Db) (k : JournalKey) : Option JournalTransaction :=
  Table.get JournalTransaction.key k d.journals

def escrow? (d : Db) (m : MilestoneId) : Option MilestoneEscrow :=
  Table.get MilestoneEscrow.milestone m d.escrows

def funding? (d : Db) (i : IntentId) : Option MilestoneFunding :=
  Table.get MilestoneFunding.intent i d.fundings

def refund? (d : Db) (id : RefundId) : Option Refund := Table.get Refund.id id d.refunds

def payout? (d : Db) (id : PayoutId) : Option Payout := Table.get Payout.id id d.payouts

def dispute? (d : Db) (id : DisputeId) : Option Dispute := Table.get Dispute.id id d.disputes

def decision? (d : Db) (id : DisputeId) : Option DisputeDecision :=
  Table.get DisputeDecision.dispute id d.decisions

def entries (d : Db) : List LedgerEntry := d.journals.flatMap (·.entries)

/-- `account_balance_minor`: the entries of an account, credits counted positively. -/
def balance (d : Db) (k : AccountKey) : Int := DoubleEntry.balance d.entries k

/-! ## Updates -/

def cancelContract (id : ContractId) (d : Db) : Db :=
  { d with
    contracts := Table.modify Contract.id id (fun c => { c with status := .cancelled })
      d.contracts }

def addRecord (r : FinancialIdempotencyKey) (d : Db) : Db :=
  { d with idempotency := r :: d.idempotency }

/-- `complete_idempotency`. -/
def completeRecord (s : IdempotencyScope) (r : Response) (d : Db) : Db :=
  { d with
    idempotency := Table.modify FinancialIdempotencyKey.scope s
      (fun x => { x with response := some r }) d.idempotency }

def addIntent (i : PaymentIntent) (d : Db) : Db := { d with intents := i :: d.intents }

def failIntent (id : IntentId) (d : Db) : Db :=
  { d with
    intents := Table.modify PaymentIntent.id id (fun i => { i with status := .failed }) d.intents }

def captureIntent (id : IntentId) (d : Db) : Db :=
  { d with
    intents := Table.modify PaymentIntent.id id
      (fun i => { i with status := .captured, capturedAt := some d.clock }) d.intents
    clock := d.clock + 1 }

def addEvent (e : ProviderEvent) (d : Db) : Db := { d with events := e :: d.events }

def addAccount (a : LedgerAccount) (d : Db) : Db := { d with accounts := a :: d.accounts }

def addEscrow (e : MilestoneEscrow) (d : Db) : Db := { d with escrows := e :: d.escrows }

def addJournal (j : JournalTransaction) (d : Db) : Db := { d with journals := j :: d.journals }

def addFunding (f : MilestoneFunding) (d : Db) : Db := { d with fundings := f :: d.fundings }

/-- A status change of a milestone, with the event that records it. -/
def moveMilestone (id : MilestoneId) (e : MilestoneEvent) (d : Db) : Db :=
  { d with
    milestones := Table.modify Milestone.id id
      (fun m => { m with status := e.toStatus, events := m.events ++ [e] }) d.milestones }

def addRefund (r : Refund) (d : Db) : Db :=
  { d with refunds := { r with createdAt := d.clock } :: d.refunds, clock := d.clock + 1 }

def referRefund (id : RefundId) (reference : String) (d : Db) : Db :=
  { d with
    refunds := Table.modify Refund.id id
      (fun r => { r with providerReference := some reference }) d.refunds }

def finishRefund (id : RefundId) (s : TransferStatus) (d : Db) : Db :=
  { d with refunds := Table.modify Refund.id id (fun r => { r with status := s }) d.refunds }

def addPayout (p : Payout) (d : Db) : Db := { d with payouts := p :: d.payouts }

def setDestination (id : PayoutId) (x : Destination) (d : Db) : Db :=
  { d with
    payouts := Table.modify Payout.id id (fun p => { p with destination := some x }) d.payouts }

def succeedPayout (id : PayoutId) (reference : String) (d : Db) : Db :=
  { d with
    payouts := Table.modify Payout.id id
      (fun p => { p with
        providerReference := some reference
        status := .succeeded
        completedAt := some d.clock }) d.payouts
    clock := d.clock + 1 }

def failPayout (id : PayoutId) (reversal : JournalKey) (d : Db) : Db :=
  { d with
    payouts := Table.modify Payout.id id
      (fun p => { p with
        reversal := some reversal
        status := .failed
        completedAt := some d.clock }) d.payouts
    clock := d.clock + 1 }

def addDispute (x : Dispute) (d : Db) : Db := { d with disputes := x :: d.disputes }

def addDisputeEvent (id : DisputeId) (e : DisputeEvent) (d : Db) : Db :=
  { d with
    disputes := Table.modify Dispute.id id (fun x => { x with events := x.events ++ [e] })
      d.disputes }

def moveDispute (id : DisputeId) (s : DisputeStatus) (d : Db) : Db :=
  { d with disputes := Table.modify Dispute.id id (fun x => { x with status := s }) d.disputes }

def resolveDispute (id : DisputeId) (d : Db) : Db :=
  { d with
    disputes := Table.modify Dispute.id id
      (fun x => { x with status := .resolved, resolvedAt := some d.clock }) d.disputes
    clock := d.clock + 1 }

def addDecision (x : DisputeDecision) (d : Db) : Db := { d with decisions := x :: d.decisions }

def enqueue (e : OutboxEvent) (d : Db) : Db := { d with outbox := e :: d.outbox }

/-! ## Rows after an update -/

section
variable (d : Db)

@[simp] theorem contract?_cancelContract (id k : ContractId) :
    (d.cancelContract id).contract? k = (d.contract? k).map fun c =>
      if k = id then { c with status := .cancelled } else c := Table.get_modify fun _ => rfl

@[simp] theorem milestone?_moveMilestone (id k : MilestoneId) (e : MilestoneEvent) :
    (d.moveMilestone id e).milestone? k = (d.milestone? k).map fun m =>
      if k = id then { m with status := e.toStatus, events := m.events ++ [e] } else m :=
  Table.get_modify fun _ => rfl

@[simp] theorem intent?_addIntent (i : PaymentIntent) (k : IntentId) :
    (d.addIntent i).intent? k = if i.id = k then some i else d.intent? k := Table.get_cons

@[simp] theorem intent?_failIntent (id k : IntentId) :
    (d.failIntent id).intent? k = (d.intent? k).map fun i =>
      if k = id then { i with status := .failed } else i := Table.get_modify fun _ => rfl

@[simp] theorem intent?_captureIntent (id k : IntentId) :
    (d.captureIntent id).intent? k = (d.intent? k).map fun i =>
      if k = id then { i with status := .captured, capturedAt := some d.clock } else i :=
  Table.get_modify fun _ => rfl

@[simp] theorem account?_addAccount (a : LedgerAccount) (k : AccountKey) :
    (d.addAccount a).account? k = if a.key = k then some a else d.account? k := Table.get_cons

@[simp] theorem journal?_addJournal (j : JournalTransaction) (k : JournalKey) :
    (d.addJournal j).journal? k = if j.key = k then some j else d.journal? k := Table.get_cons

@[simp] theorem event?_addEvent (e : ProviderEvent) (k : EventKey) :
    (d.addEvent e).event? k = if e.key = k then some e else d.event? k := Table.get_cons

@[simp] theorem escrow?_addEscrow (e : MilestoneEscrow) (k : MilestoneId) :
    (d.addEscrow e).escrow? k = if e.milestone = k then some e else d.escrow? k := Table.get_cons

@[simp] theorem refund?_addRefund (r : Refund) (k : RefundId) :
    (d.addRefund r).refund? k =
      if r.id = k then some { r with createdAt := d.clock } else d.refund? k := Table.get_cons

@[simp] theorem refund?_referRefund (id k : RefundId) (reference : String) :
    (d.referRefund id reference).refund? k = (d.refund? k).map fun r =>
      if k = id then { r with providerReference := some reference } else r :=
  Table.get_modify fun _ => rfl

@[simp] theorem refund?_finishRefund (id k : RefundId) (s : TransferStatus) :
    (d.finishRefund id s).refund? k = (d.refund? k).map fun r =>
      if k = id then { r with status := s } else r := Table.get_modify fun _ => rfl

@[simp] theorem payout?_addPayout (p : Payout) (k : PayoutId) :
    (d.addPayout p).payout? k = if p.id = k then some p else d.payout? k := Table.get_cons

@[simp] theorem payout?_setDestination (id k : PayoutId) (x : Destination) :
    (d.setDestination id x).payout? k = (d.payout? k).map fun p =>
      if k = id then { p with destination := some x } else p := Table.get_modify fun _ => rfl

@[simp] theorem payout?_succeedPayout (id k : PayoutId) (reference : String) :
    (d.succeedPayout id reference).payout? k = (d.payout? k).map fun p =>
      if k = id then { p with
        providerReference := some reference
        status := .succeeded
        completedAt := some d.clock } else p := Table.get_modify fun _ => rfl

@[simp] theorem payout?_failPayout (id k : PayoutId) (reversal : JournalKey) :
    (d.failPayout id reversal).payout? k = (d.payout? k).map fun p =>
      if k = id then { p with
        reversal := some reversal
        status := .failed
        completedAt := some d.clock } else p := Table.get_modify fun _ => rfl

@[simp] theorem dispute?_addDispute (x : Dispute) (k : DisputeId) :
    (d.addDispute x).dispute? k = if x.id = k then some x else d.dispute? k := Table.get_cons

@[simp] theorem dispute?_addDisputeEvent (id k : DisputeId) (e : DisputeEvent) :
    (d.addDisputeEvent id e).dispute? k = (d.dispute? k).map fun x =>
      if k = id then { x with events := x.events ++ [e] } else x := Table.get_modify fun _ => rfl

@[simp] theorem dispute?_moveDispute (id k : DisputeId) (s : DisputeStatus) :
    (d.moveDispute id s).dispute? k = (d.dispute? k).map fun x =>
      if k = id then { x with status := s } else x := Table.get_modify fun _ => rfl

@[simp] theorem dispute?_resolveDispute (id k : DisputeId) :
    (d.resolveDispute id).dispute? k = (d.dispute? k).map fun x =>
      if k = id then { x with status := .resolved, resolvedAt := some d.clock } else x :=
  Table.get_modify fun _ => rfl

@[simp] theorem decision?_addDecision (x : DisputeDecision) (k : DisputeId) :
    (d.addDecision x).decision? k = if x.dispute = k then some x else d.decision? k :=
  Table.get_cons

@[simp] theorem balance_addJournal (j : JournalTransaction) (k : AccountKey) :
    (d.addJournal j).balance k = DoubleEntry.balance j.entries k + d.balance k := by
  simp [balance, addJournal, entries]

end

end Db

end Money
