import Freelancing.Money.Rows
import Freelancing.Txn.Machine

/-!
# Database sessions of the services

A request of the services is a `Tx`: a transaction program over `Db`. `select` and
`selectForUpdate` are the queries, `flush` and `flushNested` insert rows under the unique
constraints of the tables (the latter inside a savepoint), `callProvider` asks the payment
provider. A statement that locks a row by another column than its id first finds the row.
-/

namespace Money

/-- A row, by its key, or an entry of a unique index. -/
inductive LockName
  | contract (id : ContractId)
  | milestone (id : MilestoneId)
  | record (s : IdempotencyScope)
  | intent (id : IntentId)
  | intentOfRecord (s : IdempotencyScope)
  | intentReference (p : Provider) (reference : String)
  | event (k : EventKey)
  | account (k : AccountKey)
  | journal (k : JournalKey)
  | escrow (m : MilestoneId)
  | funding (i : IntentId)
  | refund (id : RefundId)
  | refundOfRecord (s : IdempotencyScope)
  | refundReference (p : Provider) (reference : String)
  | payout (id : PayoutId)
  | payoutOfRecord (s : IdempotencyScope)
  | payoutReference (p : Provider) (reference : String)
  | dispute (id : DisputeId)
  | disputeOf (m : MilestoneId)
  | decision (id : DisputeId)
  | payoutAccount (freelancer : UserId) (p : Provider)
  | payoutAccountReference (p : Provider) (reference : String)
  deriving DecidableEq

/-- The commits of the services. -/
inductive CommitPoint
  | replayed (s : IdempotencyScope)
  | fundingStarted (i : IntentId)
  | webhookProcessed (k : EventKey) (captured : Option IntentId)
  | released (m : MilestoneId)
  | refundReserved (r : RefundId)
  | refundPending (r : RefundId)
  | refundSucceeded (r : RefundId)
  | refundFailed (r : RefundId)
  | milestoneMoved (m : MilestoneId)
  | contractCancelled (c : ContractId)
  | disputeOpened (m : MilestoneId)
  | disputeMoved (x : DisputeId)
  | disputeResolved (x : DisputeId)
  | payoutReserved (p : PayoutId)
  | payoutUpgraded (p : PayoutId)
  | payoutSucceeded (p : PayoutId)
  | payoutFailed (p : PayoutId)
  | payoutAccountConfigured (freelancer : UserId) (p : Provider)
  | payoutAccountDisabled (freelancer : UserId) (p : Provider)

/-- The statements that an assertion or a condition on a run may speak of. `relockContract`,
`relockRefund` and `relockPayout` lock a row of which the session has loaded a copy before: its
attributes are not refreshed. -/
inductive Point
  | stmt
  | relockContract (loaded : Contract)
  | relockRefund (loaded : Refund)
  | relockPayout (loaded : Payout)
  | journalLookup (k : JournalKey) (postings : List LedgerEntry)
  | commit (c : CommitPoint)

/-! ## The payment providers -/

/-- `ProviderResult`. -/
structure ProviderResult where
  reference : String
  status : String
  amountMinor : Int
  currency : Currency

/-- What a provider refund is for. -/
inductive RefundCause
  | refund (id : RefundId)
  | dispute (id : DisputeId)
  deriving DecidableEq

inductive Request
  | createPayment (provider : Provider) (amountMinor : Int) (currency : Currency)
      (key : ProviderKey)
  | refund (provider : Provider) (reference : String) (amountMinor : Int) (currency : Currency)
      (key : ProviderKey) (cause : RefundCause)
  | verifyRefund (provider : Provider) (reference : String)
  | payout (provider : Provider) (destination : Destination) (amountMinor : Int)
      (currency : Currency) (key : ProviderKey)

/-- How a call of a provider's adapter ends: with a result, with `ProviderTemporaryError`, or with
any other exception. -/
inductive Answer
  | result (r : ProviderResult)
  | temporary
  | failed

/-! ## Programs -/

abbrev Tx := Txn.Prog Db LockName Point Request Answer Err

variable {β : Type}

def raise (e : Err) : Tx β := .raise e

def raiseApi (type title : String) (status : Nat) (detail : String) : Tx β :=
  raise (.api ⟨type, title, status, detail⟩)

def require (c : Bool) (e : Err) : Tx Unit := if c then pure () else raise e

def select (q : Db → β) : Tx β := .read .stmt fun d => .ret (q d)

/-- `select(..).with_for_update()`: waits for the lock of the row that `q` finds. -/
def selectForUpdate (name : β → LockName) (q : Db → Option β) : Tx (Option β) :=
  .lock .stmt (fun d => (q d).map name) fun d => .ret (q d)

def write (w : Db → Db) : Tx Unit := .write w (.ret ())

/-- An `UPDATE` of a row that the session need not have locked before. -/
def update (name : LockName) (w : Db → Db) : Tx Unit :=
  .lock .stmt (fun _ => some name) fun _ => .write w (.ret ())

/-- `select(..).with_for_update()` of a row of which the session has loaded the copy `loaded`: waits
for the row's lock and gives the copy. -/
def relock (p : Point) (name : LockName) (q : Db → Option β) (loaded : β) : Tx (Option β) :=
  .lock p (fun d => (q d).map fun _ => name) fun d => .ret ((q d).map fun _ => loaded)

def callProvider (q : Request) : Tx Answer := .call q .ret

def commit (c : CommitPoint) : Tx Unit := .commit (.commit c) (.ret ())

def rollback : Tx Unit := .rollback (.ret ())

/-- The entry `name` of a unique index: waits for another transaction that is about to fill it, and
says whether it is taken. -/
def taken (name : LockName) (q : Db → Bool) : Tx Bool :=
  .lock .stmt (fun _ => some name) fun d => .ret (q d)

/-- The flush of an insert whose unique key is `name`. -/
def reserve (name : LockName) (q : Db → Bool) : Tx Unit := do
  let t ← taken name q
  require (!t) .integrity

/-- `uuid.uuid4()`, an id that no row has. -/
def newUuid (name : LockName) (q : Db → Bool) : Tx Unit := reserve name q

end Money
