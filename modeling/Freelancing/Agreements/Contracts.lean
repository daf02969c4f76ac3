import Freelancing.Agreements.Session
import Freelancing.Money.Contracts

/-!
# Contracts

`app/contracts/service.py`: a contract is made from a proposal that is being accepted, signed by
its parties and cancelled. A function that creates rows takes their uuids as arguments.
-/

namespace Agreements

open Money (UserId ContractId MilestoneId Currency User Err ContractStatus Contract
  contractNotFound)

structure Settings where
  sha256 : String → String
  /-- `PLATFORM_COMMISSION_BPS` as `int` reads it, 1000 when it is not set. -/
  platformCommissionBps : Option Int

def Settings.documentHash (cfg : Settings) (snapshot : Snapshot) : String :=
  cfg.sha256 snapshot.toJson.dumps

def commissionBps (cfg : Settings) : Tx Int :=
  match cfg.platformCommissionBps with
  | none => raise (.runtime "PLATFORM_COMMISSION_BPS must be an integer")
  | some value => do
    require (!(value < 0 || value > 10000))
      (.runtime "PLATFORM_COMMISSION_BPS must be between 0 and 10000")
    pure value

/-! ## Creation -/

/-- The uuids of a new contract's rows. -/
structure NewIds where
  contract : ContractId
  version : VersionId
  milestone : Nat → MilestoneId

def currentProposalVersion (proposal : Proposal) (versions : List ProposalVersion) :
    Tx ProposalVersion :=
  match versions.find? fun v => v.versionNumber = proposal.currentVersion with
  | none => raise (.runtime "Proposal current_version does not reference a loaded version")
  | some version => pure version

def milestoneTerms (version : ProposalVersion) : List ProposalMilestone :=
  if version.milestones.isEmpty then
    [⟨1, "Full contract delivery", version.amountMinor, version.deliveryDays⟩]
  else version.milestones

def buildSnapshot (project : Project) (proposal : Proposal) (version : ProposalVersion)
    (terms : List ProposalMilestone) (attachments : List ProjectAttachment) (bps : Int) :
    Snapshot where
  projectId := project.id
  proposalId := proposal.id
  proposalVersionId := version.id
  proposalVersion := version.versionNumber
  projectTitle := project.title
  projectDescription := project.description
  proposalCoverLetter := version.coverLetter
  priceMinor := version.amountMinor
  currency := version.currency
  deliveryDays := version.deliveryDays
  milestones := terms.map fun t =>
    ⟨t.sequence, t.title, t.amountMinor, version.currency, t.deliveryDays⟩
  platformBps := bps
  attachments := attachments

def newMilestone (ids : NewIds) (currency : Currency) (t : ProposalMilestone) :
    MilestoneDetails × Money.Milestone :=
  (⟨ids.milestone t.sequence, ids.version, t.sequence, t.title, t.deliveryDays⟩,
    ⟨ids.milestone t.sequence, ids.contract, t.amountMinor, currency, .created, []⟩)

def newContract (cfg : Settings) (ids : NewIds) (project : Project) (proposal : Proposal)
    (version : ProposalVersion) (snapshot : Snapshot) : NewContract where
  contract := ⟨ids.contract, project.employer, proposal.freelancer, .pendingSignatures,
    .platformBps (some snapshot.platformBps)⟩
  details :=
    { id := ids.contract
      project := project.id
      acceptedProposal := proposal.id
      currentVersion := 1
      activatedAt := none
      parties := [⟨project.employer, .employer, true⟩, ⟨proposal.freelancer, .freelancer, true⟩] }
  version := ⟨ids.version, ids.contract, 1, snapshot, cfg.documentHash snapshot⟩
  milestones := (milestoneTerms version).map (newMilestone ids version.currency)

/-- The insert of one uuid after the other. -/
def reserveMilestones (e : Err) : List MilestoneId → Tx Unit
  | [] => pure ()
  | id :: rest => do
    reserve e (.money (.milestone id)) fun d => (d.money.milestone? id).isSome
    reserveMilestones e rest

/-- The rows of a new contract under their unique and check constraints. -/
def insertContract (e : Err) (n : NewContract) : Tx Unit := do
  reserve e (.money (.contract n.contract.id)) fun d =>
    (d.money.contract? n.contract.id).isSome || (d.details? n.contract.id).isSome
  reserve e (.contractOfProject n.details.project) fun d =>
    (d.contractOfProject? n.details.project).isSome
  reserve e (.contractOfProposal n.details.acceptedProposal) fun d =>
    (d.contractOfProposal? n.details.acceptedProposal).isSome
  require (n.details.parties.map (·.user)).Nodup e
  reserve e (.version n.version.id) fun d => (d.version? n.version.id).isSome
  require ((n.milestones.map (·.1.id)).Nodup ∧
    n.milestones.all fun m => 1 ≤ m.1.sequence ∧ 0 ≤ m.2.amountMinor ∧ 1 ≤ m.1.deliveryDays) e
  reserveMilestones e (n.milestones.map (·.1.id))
  write (Db.addContract n)

/-- `create_contract_from_accepted_proposal`; `e` is what an `IntegrityError` becomes. -/
def createContract (cfg : Settings) (e : Err) (ids : NewIds) (proposal : Proposal)
    (versions : List ProposalVersion) (project : Project) : Tx Unit := do
  match ← select (fun d => d.contractOfProject? project.id) with
  | some existing =>
    require (existing.acceptedProposal = proposal.id)
      (.api ⟨"contract_exists", "Contract already exists", 409,
        "A project may have at most one contract"⟩)
  | none =>
    let version ← currentProposalVersion proposal versions
    let attachments ← select fun d =>
      (d.attachments.filter fun a => a.project = project.id).insertionSort fun a b =>
        a.objectKey ≤ b.objectKey
    let bps ← commissionBps cfg
    insertContract e (newContract cfg ids project proposal version
      (buildSnapshot project proposal version (milestoneTerms version) attachments bps))

/-! ## Signature -/

def isContractParty (user : User) (contract : Contract) : Bool :=
  user.id = contract.employer || user.id = contract.freelancer

def getContract (id : ContractId) : Tx (Contract × ContractDetails) := do
  match ← select (fun d => d.contract? id) with
  | none => raise contractNotFound
  | some contract => pure contract

def getContractForUpdate (id : ContractId) : Tx (Contract × ContractDetails) := do
  match ← selectForUpdate (fun c => .money (.contract c.1.id)) (fun d => d.contract? id) with
  | none => raise contractNotFound
  | some contract => pure contract

def currentContractVersion (details : ContractDetails) (versions : List ContractVersion) :
    Tx ContractVersion :=
  match versions.find? fun v => v.versionNumber = details.currentVersion with
  | none => raise (.runtime "Contract current_version does not reference a loaded version")
  | some version => pure version

def signatureConflict : Err :=
  .api ⟨"signature_conflict", "Signature conflict", 409,
    "The contract signature was already recorded"⟩

def insertSignature (s : ContractSignature) : Tx Unit := do
  reserve signatureConflict (.signature s.version s.user) fun d =>
    (d.signature? s.version s.user).isSome
  reserve signatureConflict (.signatureOfKey s.user s.idempotencyKeyHash) fun d =>
    (d.signatureOfKey? s.user s.idempotencyKeyHash).isSome
  write (Db.addSignature s)

def ContractDetails.required (x : ContractDetails) : List UserId :=
  (x.parties.filter (·.requiredSignature)).map (·.user)

/-- Every required party has signed. -/
def allSigned (x : ContractDetails) (signed : List UserId) : Bool :=
  !x.required.isEmpty && x.required.all signed.contains

def signContract (cfg : Settings) (user : User) (id : ContractId)
    (idempotencyKey expectedDocumentHash : String) : Tx (Contract × ContractDetails) := do
  let (contract, details) ← getContractForUpdate id
  let versions ← select fun d => d.versionsOf contract.id
  require (isContractParty user contract)
    (.api ⟨"forbidden", "Forbidden", 403, "Only contract parties may sign"⟩)
  require (contract.status ≠ .cancelled)
    (.api ⟨"invalid_state", "Contract cancelled", 409, "A cancelled contract cannot be signed"⟩)
  let version ← currentContractVersion details versions
  require (expectedDocumentHash = version.documentHash)
    (.api ⟨"document_changed", "Contract document changed", 409,
      "The supplied document hash does not match the current contract version"⟩)
  let keyHash := cfg.sha256 idempotencyKey
  match ← select (fun d => d.signatureOfKey? user.id keyHash) with
  | some prior =>
    require (prior.version = version.id)
      (.api ⟨"idempotency_key_reused", "Idempotency key reused", 409,
        "The Idempotency-Key was already used for another contract signature"⟩)
    getContract contract.id
  | none =>
  match ← select (fun d => d.signature? version.id user.id) with
  | some _ => getContract contract.id
  | none =>
  insertSignature ⟨version.id, user.id, version.documentHash, keyHash⟩
  let signed ← select fun d => (d.signaturesOf version.id).map (·.user)
  if allSigned details signed then write (Db.activateContract contract.id) else pure ()
  commit (.signed contract.id)
  getContract contract.id

/-! ## Cancellation -/

/-- `cancel_contract`, which changes only columns of `Db.money`. -/
def cancelContract (user : User) (id : ContractId) : Tx (Contract × ContractDetails) := do
  let contract ← financial (Money.cancelContract user id)
  getContract contract.id

end Agreements
