import Freelancing.Money.Rows
import Freelancing.Money.Session
import Freelancing.Txn.Service

/-!
# Reconciliation

`app/payments/reconciliation.py` and `reconcile_provider` of `app/payments/service.py`: the rows of
a provider are compared with what it reports. The captured payment intents are compared first, in a
transaction of their own that leaves the `ReconciliationRun`; then what was found of the pending
rows is merged into it.

The outbox events and the audit rows of the run are left out.
-/

namespace Reconciliation

open Money (Currency Err IntentId IntentStatus MilestoneFunding PaymentIntent Provider
  ProviderResult Refund RefundId TransferStatus lower strip)
open Txn.Service

abbrev RunId := Nat

/-! ## Rows -/

/-- `payment_intent_id` or `refund_id` of a discrepancy. -/
inductive Subject
  | paymentIntent (id : IntentId)
  | refund (id : RefundId)
  deriving DecidableEq

structure Discrepancy where
  subject : Subject
  providerReference : Option String
  reason : String
  /-- `local_status` and `provider_status`. -/
  statuses : Option (String × String)

inductive RunStatus
  | running
  | succeeded
  | mismatch
  deriving DecidableEq

/-- `details` is empty, or has the discrepancies. -/
structure ReconciliationRun where
  id : RunId
  provider : Provider
  status : RunStatus
  checkedCount : Nat
  discrepancyCount : Nat
  details : Option (List Discrepancy)
  completedAt : Option Nat

structure Db where
  money : Money.Db
  runs : List ReconciliationRun

def Db.run? (d : Db) (id : RunId) :
    Option ReconciliationRun := Table.get ReconciliationRun.id id d.runs

def Db.addRun (d : Db) (run : ReconciliationRun) : Db := { d with runs := d.runs ++ [run] }

def Db.modifyRun (d : Db) (id : RunId) (f : ReconciliationRun → ReconciliationRun) : Db :=
  { d with runs := Table.modify ReconciliationRun.id id f d.runs }

/-! ## Database sessions -/

inductive LockName
  | run (id : RunId)
  deriving DecidableEq

inductive CommitPoint
  | captured
  | pending

inductive Query
  | getTransaction (provider : Provider) (reference : String)
  | verifyRefund (provider : Provider) (reference : String)

/-- A provider's adapter answers or raises. -/
abbrev Answer := Except Err ProviderResult

abbrev Tx := Txn.Prog Db LockName (Txn.Point CommitPoint) Query Answer Err

def answered (q : Query) : Tx ProviderResult := do
  match ← ask q with
  | .ok remote => pure remote
  | .error e => raise e

def getProvider (runtimeEnabled : Bool) (name : String) : Tx Provider := do
  require runtimeEnabled (.api ⟨"payment_runtime_disabled", "Payment runtime disabled", 503,
    "External payment-provider operations are disabled for this workload"⟩)
  let normalized := lower (strip name)
  require (normalized = "sandbox" ∨ normalized = "stripe")
    (.api ⟨"unsupported_payment_provider", "Unsupported payment provider", 422,
      "Payment provider '" ++ name ++ "' is not configured"⟩)
  pure normalized

/-! ## The passes -/

/-- `checked_count` and `discrepancies`. -/
structure Findings where
  checkedCount : Nat
  discrepancies : List Discrepancy

/-- The loop of a pass: each row counts as checked, and may yield a discrepancy. -/
def inspectAll {β : Type} (inspect : β → Tx (Option Discrepancy)) : List β → Findings → Tx Findings
  | [], found => pure found
  | x :: xs, found => do
    let discrepancy ← inspect x
    inspectAll inspect xs ⟨found.checkedCount + 1, found.discrepancies ++ discrepancy.toList⟩

/-- A captured intent against the remote transaction and the funding of the ledger. -/
def compareCaptured (intent : PaymentIntent) (reference : String) (remote : ProviderResult)
    (funding : Option MilestoneFunding) : Option Discrepancy :=
  if funding.isNone || remote.amountMinor ≠ intent.amountMinor || remote.currency ≠ intent.currency
      || (remote.status ≠ "CAPTURED" && remote.status ≠ "SUCCEEDED") then
    some ⟨.paymentIntent intent.id, some reference, "provider_or_ledger_mismatch", none⟩
  else none

def inspectCaptured (intent : PaymentIntent) : Tx (Option Discrepancy) :=
  match intent.providerReference with
  | none => pure (some ⟨.paymentIntent intent.id, none, "missing_reference", none⟩)
  | some reference => do
    let remote ← answered (.getTransaction intent.provider reference)
    let funding ← select fun d => d.money.funding? intent.id
    pure (compareCaptured intent reference remote funding)

/-- A pending row against the remote one: the amount and the currency first, then the status. -/
def comparePending (subject : Subject) (amountMinor : Int) (currency : Currency)
    (reference : String) (remote : ProviderResult) (mismatch statusMismatch : String) :
    Option Discrepancy :=
  if remote.amountMinor ≠ amountMinor || remote.currency ≠ currency then
    some ⟨subject, some reference, mismatch, none⟩
  else if remote.status ≠ "PENDING" then
    some ⟨subject, some reference, statusMismatch, some ("PENDING", remote.status)⟩
  else none

def inspectPendingIntent (intent : PaymentIntent) : Tx (Option Discrepancy) :=
  match intent.providerReference with
  | none => pure (some ⟨.paymentIntent intent.id, none, "pending_payment_missing_reference", none⟩)
  | some reference => do
    let remote ← answered (.getTransaction intent.provider reference)
    pure (comparePending (.paymentIntent intent.id) intent.amountMinor intent.currency
      reference remote "pending_payment_provider_mismatch" "payment_status_mismatch")

def inspectPendingRefund (refund : Refund) : Tx (Option Discrepancy) :=
  match refund.providerReference with
  | none => pure none
  | some reference => do
    let remote ← answered (.verifyRefund refund.provider reference)
    pure (comparePending (.refund refund.id) refund.amountMinor refund.currency reference remote
      "pending_refund_provider_mismatch" "refund_status_mismatch")

def capturedIntents (provider : Provider) (d : Db) : List PaymentIntent :=
  d.money.intents.filter fun x => x.provider = provider && x.status = .captured

def pendingIntents (provider : Provider) (d : Db) : List PaymentIntent :=
  d.money.intents.filter fun x => x.provider = provider && x.status = .pending

def pendingRefunds (provider : Provider) (d : Db) : List Refund :=
  d.money.refunds.filter fun x =>
    x.provider = provider && x.status = .pending && x.providerReference.isSome

/-- `_inspect_pending_provider_state`. -/
def inspectPendingProviderState (runtimeEnabled : Bool) (name : String) : Tx Findings := do
  let provider ← getProvider runtimeEnabled name
  let intents ← select (pendingIntents provider)
  let found ← inspectAll inspectPendingIntent intents ⟨0, []⟩
  let refunds ← select (pendingRefunds provider)
  inspectAll inspectPendingRefund refunds found

def verdict (discrepancies : List Discrepancy) : RunStatus :=
  if discrepancies.isEmpty then .succeeded else .mismatch

/-- `reconcile_provider` of `service.py`. -/
def reconcileCapturedProvider (runtimeEnabled : Bool) (name : String) (id : RunId) (now : Nat) :
    Tx RunId := do
  let provider ← getProvider runtimeEnabled name
  reserve .integrity (.run id) fun d => (d.run? id).isSome
  write fun d => d.addRun ⟨id, provider, .running, 0, 0, none, none⟩
  let intents ← select (capturedIntents provider)
  let found ← inspectAll inspectCaptured intents ⟨0, []⟩
  write fun d => d.modifyRun id fun run =>
    { run with
      checkedCount := found.checkedCount
      discrepancyCount := found.discrepancies.length
      details := some found.discrepancies
      status := verdict found.discrepancies
      completedAt := some now }
  commit .captured
  pure id

def ReconciliationRun.existingDiscrepancies (run : ReconciliationRun) : List Discrepancy :=
  run.details.getD []

/-- `reconcile_provider` of `reconciliation.py`. After the first commit the run is loaded again. -/
def reconcileProvider (runtimeEnabled : Bool) (name : String) (id : RunId) (now : Nat) :
    Tx RunId := do
  let pending ← inspectPendingProviderState runtimeEnabled name
  let id ← reconcileCapturedProvider runtimeEnabled name id now
  let loaded ← select fun d => d.run? id
  match loaded with
  | none => raise (.runtime "ObjectDeletedError")
  | some run =>
    let combined := run.existingDiscrepancies ++ pending.discrepancies
    update (.run id) fun d => d.modifyRun id fun x =>
      { x with
        checkedCount := run.checkedCount + pending.checkedCount
        discrepancyCount := combined.length
        details := some combined
        status := verdict combined }
    commit .pending
    pure id

end Reconciliation
