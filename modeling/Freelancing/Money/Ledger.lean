import Freelancing.Money.Session

/-!
# Idempotency records and the ledger

`app/payments/idempotency.py` and `app/ledger/service.py`.
-/

namespace Money

/-! ## Idempotency -/

def sameRequest (existing : FinancialIdempotencyKey) (request : Payload) :
    Tx (FinancialIdempotencyKey × Bool) :=
  if existing.request ≠ request then
    raiseApi "idempotency_conflict" "Idempotency conflict" 409
      "The idempotency key was already used with a different request"
  else pure (existing, false)

/-- The record of the request, and whether this call created it. -/
def claimIdempotency (user : UserId) (operation : IdempotentOperation) (rawKey : String)
    (request : Payload) : Tx (FinancialIdempotencyKey × Bool) := do
  let key := strip rawKey
  let scope : IdempotencyScope := ⟨user, operation, key⟩
  require (!(key.isEmpty || 200 < key.length))
    (.api ⟨"invalid_idempotency_key", "Invalid idempotency key", 422,
      "Idempotency-Key must contain 1 to 200 characters"⟩)
  match ← selectForUpdate (fun r => .record r.scope) (fun d => d.record? scope) with
  | some existing => sameRequest existing request
  | none =>
    let t ← taken (.record scope) fun d => (d.record? scope).isSome
    if t then
      -- the insert was rolled back to its savepoint: another request holds the key
      match ← selectForUpdate (fun r => .record r.scope) (fun d => d.record? scope) with
      | none => raise .integrity
      | some existing => sameRequest existing request
    else
      write (Db.addRecord ⟨scope, request, none⟩)
      pure (⟨scope, request, none⟩, true)

def completeIdempotency (record : FinancialIdempotencyKey) (status : Nat) (body : Body) : Tx Unit :=
  update (.record record.scope) (Db.completeRecord record.scope ⟨body, status⟩)

/-! ## Ledger -/

structure Posting where
  account : LedgerAccount
  direction : DoubleEntry.Direction
  amountMinor : Int

def Posting.entry (currency : Currency) (p : Posting) : LedgerEntry :=
  ⟨p.account.key, p.direction, p.amountMinor, currency⟩

def sameIdentity (account requested : LedgerAccount) : Tx LedgerAccount :=
  if account.accountType ≠ requested.accountType ∨ account.currency ≠ requested.currency ∨
      account.owner ≠ requested.owner ∨ account.milestone ≠ requested.milestone then
    raise (.runtime "Ledger account key collision with different immutable identity")
  else pure account

def getOrCreateAccount (requested : LedgerAccount) : Tx LedgerAccount := do
  match ← selectForUpdate (fun a => .account a.key) (fun d => d.account? requested.key) with
  | some account => sameIdentity account requested
  | none =>
    let t ← taken (.account requested.key) fun d => (d.account? requested.key).isSome
    if t then
      match ← selectForUpdate (fun a => .account a.key) (fun d => d.account? requested.key) with
      | none => raise .integrity
      | some account => sameIdentity account requested
    else
      write (Db.addAccount requested)
      pure requested

/-- The postings of a journal as its entries, once they are found to balance. -/
def journalEntries (postings : List Posting) : Except Err (List LedgerEntry) :=
  match postings with
  | [] => .error (.value "A journal requires at least one posting")
  | first :: _ =>
    let currency := first.account.currency
    let entries := postings.map (Posting.entry currency)
    if postings.any fun p => p.account.currency ≠ currency then
      .error (.value "All postings in a journal must use one currency")
    else if entries.any fun e => e.amount ≤ 0 then
      .error (.value "Ledger posting amount must be positive")
    else if DoubleEntry.total .debit entries ≠ DoubleEntry.total .credit entries then
      .error (.value "Ledger journal is unbalanced")
    else .ok entries

def postJournal (operation : JournalOperation) (reference : Reference) (postings : List Posting)
    (reversalOf : Option JournalKey) : Tx JournalTransaction := do
  let key : JournalKey := ⟨operation, reference⟩
  match journalEntries postings with
  | .error e => raise e
  | .ok entries =>
    match ← (.read (.journalLookup key entries) fun d => .ret (d.journal? key) : Tx _) with
    | some existing => pure existing
    | none =>
      reserve (.journal key) fun d => (d.journal? key).isSome
      write (Db.addJournal ⟨key, reversalOf, entries⟩)
      pure ⟨key, reversalOf, entries⟩

def accountBalanceMinor (account : LedgerAccount) : Tx Int :=
  select fun d => d.balance account.key

def requireSufficientBalance (account : LedgerAccount) (amountMinor : Int) : Tx Unit := do
  let balance ← accountBalanceMinor account
  require (amountMinor ≤ balance)
    (.api ⟨"insufficient_funds", "Insufficient funds", 409,
      "Ledger balance is insufficient for this operation"⟩)

/-! ## The accounts of the services -/

def escrowAccountOf (m : Milestone) : LedgerAccount where
  key := .milestoneEscrow m.id m.currency
  accountType := .milestoneEscrow
  currency := m.currency
  owner := none
  milestone := some m.id

def walletOf (user : UserId) (currency : Currency) : LedgerAccount where
  key := .userWallet user currency
  accountType := .freelancerWallet
  currency := currency
  owner := some user
  milestone := none

def platformAccount (currency : Currency) : LedgerAccount where
  key := .platformCommission currency
  accountType := .platformCommission
  currency := currency
  owner := none
  milestone := none

def clearingAccount (provider : Provider) (currency : Currency) : LedgerAccount where
  key := .providerClearing provider currency
  accountType := .providerClearing
  currency := currency
  owner := none
  milestone := none

end Money
