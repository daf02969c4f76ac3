import Freelancing.Money.Payments

/-!
# Cancellation of contracts

`cancel_contract` of `app/contracts/service.py`, with `app/contracts/policies.py`. The contract's
row is locked; its milestones and their payment intents are only read.
-/

namespace Money

def canCancelContract (user : User) (contract : Contract) : Bool := user.id = contract.employer

def contractBody (c : Contract) : Response := ⟨.contract c.id c.status, 200⟩

def contractNotFound : Err :=
  .api ⟨"contract_not_found", "Contract not found", 404, "Contract was not found"⟩

/-- The milestones of the contract's version. -/
def Db.milestonesOf (d : Db) (c : ContractId) : List Milestone :=
  d.milestones.filter fun m => m.contract = c

def Db.pendingPayment (d : Db) (milestones : List MilestoneId) : Option IntentId :=
  (d.intents.find? fun i => milestones.contains i.milestone ∧ i.status = .pending).map (·.id)

/-- `_get_contract_for_update`: the contract, locked, and its milestones. -/
def getContractForUpdate (id : ContractId) : Tx (Contract × List Milestone) := do
  match ← selectForUpdate (fun c => .contract c.id) (fun d => d.contract? id) with
  | none => raise contractNotFound
  | some contract =>
    let milestones ← select fun d => d.milestonesOf contract.id
    pure (contract, milestones)

def getContract (id : ContractId) : Tx Contract := do
  match ← select (fun d => d.contract? id) with
  | none => raise contractNotFound
  | some contract => pure contract

/-- An active contract is cancelled only before any work and with no payment under way. -/
def requireIdle (contract : Contract) (milestones : List Milestone) : Tx Unit :=
  if contract.status = .active then do
    require (!milestones.any fun m => m.status ≠ .created)
      (.api ⟨"invalid_state", "Contract work has started", 409,
        "An active contract cannot be cancelled after milestone work starts"⟩)
    let pendingPayment ← select fun d => d.pendingPayment (milestones.map (·.id))
    require pendingPayment.isNone
      (.api ⟨"invalid_state", "Contract has pending funding", 409,
        "An active contract cannot be cancelled while a funding payment is pending"⟩)
  else pure ()

def cancelContract (user : User) (contractId : ContractId) : Tx Contract := do
  let (contract, milestones) ← getContractForUpdate contractId
  require (canCancelContract user contract)
    (.api ⟨"forbidden", "Forbidden", 403, "Only the employer party may cancel this contract"⟩)
  if contract.status = .cancelled then getContract contract.id
  else
  requireIdle contract milestones
  write (Db.cancelContract contract.id)
  commit (.contractCancelled contract.id)
  getContract contract.id

end Money
