import Freelancing.Json
import Freelancing.Money.Rows

/-!
# Projects, proposals and contracts: the tables

The rows behind `app/projects`, `app/proposals` and `app/contracts`. The columns of `contracts` and
`milestones` that the financial services read are in the tables of `Money.Db`, which is a part of
this database; `ContractDetails` and `MilestoneDetails` hold their other columns. A version of a
proposal holds its milestones in the order of their sequence.
-/

namespace Agreements

open Money (UserId ContractId MilestoneId Currency User ContractStatus PartyRole)

abbrev ProjectId := Nat
abbrev ProposalId := Nat
abbrev VersionId := Nat

/-- `str(uuid)`: 32 hexadecimal digits in groups of 8, 4, 4, 4 and 12. -/
def uuidText (id : Nat) : String :=
  let digits := (List.range 32).reverse.map fun k => Json.hexDigit (id / 16 ^ k % 16)
  String.ofList (digits.take 8 ++ '-' :: (digits.drop 8).take 4 ++ '-' :: (digits.drop 12).take 4 ++
    '-' :: (digits.drop 16).take 4 ++ '-' :: digits.drop 20)

/-! ## Projects -/

inductive ProjectStatus
  | opened
  | closed
  | cancelled
  deriving DecidableEq

structure Project where
  id : ProjectId
  employer : UserId
  title : String
  description : String
  currency : Option Currency
  status : ProjectStatus

inductive ScanStatus
  | quarantined
  | scanning
  | safe
  | rejected
  deriving DecidableEq

def ScanStatus.name : ScanStatus → String
  | quarantined => "QUARANTINED"
  | scanning => "SCANNING"
  | safe => "SAFE"
  | rejected => "REJECTED"

structure ProjectAttachment where
  id : Nat
  project : ProjectId
  objectKey : String
  mimeType : String
  fileSizeBytes : Int
  scanStatus : ScanStatus

/-! ## Proposals -/

inductive ProposalStatus
  | draft
  | submitted
  | underNegotiation
  | withdrawn
  | rejected
  | accepted
  deriving DecidableEq

def ProposalStatus.name : ProposalStatus → String
  | draft => "DRAFT"
  | submitted => "SUBMITTED"
  | underNegotiation => "UNDER_NEGOTIATION"
  | withdrawn => "WITHDRAWN"
  | rejected => "REJECTED"
  | accepted => "ACCEPTED"

structure Proposal where
  id : ProposalId
  project : ProjectId
  freelancer : UserId
  status : ProposalStatus
  currentVersion : Nat
  deriving DecidableEq

structure ProposalMilestone where
  sequence : Nat
  title : String
  amountMinor : Int
  deliveryDays : Int

structure ProposalVersion where
  id : VersionId
  proposal : ProposalId
  versionNumber : Nat
  amountMinor : Int
  currency : Currency
  deliveryDays : Int
  coverLetter : String
  milestones : List ProposalMilestone

/-- `proposal_id` and `version_number`. -/
abbrev ProposalVersion.key (v : ProposalVersion) : ProposalId × Nat := (v.proposal, v.versionNumber)

/-! ## Contracts -/

structure SnapshotMilestone where
  sequence : Nat
  title : String
  amountMinor : Int
  currency : Currency
  deliveryDays : Int
  deriving DecidableEq

/-- The document that is signed. -/
structure Snapshot where
  projectId : ProjectId
  proposalId : ProposalId
  proposalVersionId : VersionId
  proposalVersion : Nat
  projectTitle : String
  projectDescription : String
  proposalCoverLetter : String
  priceMinor : Int
  currency : Currency
  deliveryDays : Int
  milestones : List SnapshotMilestone
  platformBps : Int
  attachments : List ProjectAttachment

def snapshotSchemaVersion : Int := 2

def SnapshotMilestone.toJson (m : SnapshotMilestone) : Json := .obj
  [("sequence", .num m.sequence), ("title", .str m.title), ("amount_minor", .num m.amountMinor),
    ("currency", .str m.currency), ("delivery_days", .num m.deliveryDays)]

def ProjectAttachment.toJson (a : ProjectAttachment) : Json := .obj
  [("id", .str (uuidText a.id)), ("object_key", .str a.objectKey), ("mime_type", .str a.mimeType),
    ("file_size_bytes", .num a.fileSizeBytes), ("scan_status", .str a.scanStatus.name)]

/-- The snapshot as the JSON document that is stored and hashed. -/
def Snapshot.toJson (s : Snapshot) : Json := .obj
  [("schema_version", .num snapshotSchemaVersion),
    ("source", .obj
      [("project_id", .str (uuidText s.projectId)), ("proposal_id", .str (uuidText s.proposalId)),
        ("proposal_version_id", .str (uuidText s.proposalVersionId)),
        ("proposal_version", .num s.proposalVersion)]),
    ("scope", .obj
      [("project_title", .str s.projectTitle), ("project_description", .str s.projectDescription),
        ("proposal_cover_letter", .str s.proposalCoverLetter)]),
    ("price", .obj [("amount_minor", .num s.priceMinor)]),
    ("currency", .str s.currency),
    ("delivery_days", .num s.deliveryDays),
    ("milestones", .arr (s.milestones.map (·.toJson))),
    ("commission", .obj [("platform_bps", .num s.platformBps)]),
    ("refund_terms", .null),
    ("dispute_terms", .null),
    ("attachments", .arr (s.attachments.map (·.toJson)))]

structure ContractParty where
  user : UserId
  role : PartyRole
  requiredSignature : Bool

/-- The columns of a contract that no financial service reads. -/
structure ContractDetails where
  id : ContractId
  project : ProjectId
  acceptedProposal : ProposalId
  currentVersion : Nat
  activatedAt : Option Nat
  parties : List ContractParty

structure ContractVersion where
  id : VersionId
  contract : ContractId
  versionNumber : Nat
  snapshot : Snapshot
  documentHash : String

/-- The columns of a milestone that no financial service reads. -/
structure MilestoneDetails where
  id : MilestoneId
  version : VersionId
  sequence : Nat
  title : String
  deliveryDays : Int

structure ContractSignature where
  version : VersionId
  user : UserId
  documentHash : String
  idempotencyKeyHash : String

/-- A contract with all the rows that are inserted with it. -/
structure NewContract where
  contract : Money.Contract
  details : ContractDetails
  version : ContractVersion
  milestones : List (MilestoneDetails × Money.Milestone)

/-! ## The database -/

structure Db where
  money : Money.Db
  projects : List Project
  attachments : List ProjectAttachment
  proposals : List Proposal
  proposalVersions : List ProposalVersion
  contracts : List ContractDetails
  versions : List ContractVersion
  milestones : List MilestoneDetails
  signatures : List ContractSignature

namespace Db

def project? (d : Db) (id : ProjectId) : Option Project := Table.get Project.id id d.projects

def proposal? (d : Db) (id : ProposalId) : Option Proposal := Table.get Proposal.id id d.proposals

def proposalVersion? (d : Db) (k : ProposalId × Nat) : Option ProposalVersion :=
  Table.get ProposalVersion.key k d.proposalVersions

/-- `Proposal.versions`, ordered by version number. -/
def proposalVersionsOf (d : Db) (id : ProposalId) : List ProposalVersion :=
  (d.proposalVersions.filter fun v => v.proposal = id).insertionSort fun v w =>
    v.versionNumber ≤ w.versionNumber

def details? (d : Db) (id : ContractId) : Option ContractDetails :=
  Table.get ContractDetails.id id d.contracts

/-- A row of `contracts`. -/
def contract? (d : Db) (id : ContractId) : Option (Money.Contract × ContractDetails) :=
  (d.money.contract? id).bind fun c => (d.details? id).map fun x => (c, x)

def contractOfProject? (d : Db) (id : ProjectId) : Option ContractDetails :=
  Table.get ContractDetails.project id d.contracts

def contractOfProposal? (d : Db) (id : ProposalId) : Option ContractDetails :=
  Table.get ContractDetails.acceptedProposal id d.contracts

def version? (d : Db) (id : VersionId) : Option ContractVersion :=
  Table.get ContractVersion.id id d.versions

def versionsOf (d : Db) (id : ContractId) : List ContractVersion :=
  d.versions.filter fun v => v.contract = id

/-- The rows of `milestones` of a contract version, ordered by sequence. -/
def milestonesOf (d : Db) (v : VersionId) : List (MilestoneDetails × Money.Milestone) :=
  (d.milestones.filterMap fun x =>
    if x.version = v then (d.money.milestone? x.id).map fun m => (x, m) else none).insertionSort
      fun x y => x.1.sequence ≤ y.1.sequence

def signaturesOf (d : Db) (v : VersionId) : List ContractSignature :=
  d.signatures.filter fun s => s.version = v

def signature? (d : Db) (v : VersionId) (u : UserId) : Option ContractSignature :=
  d.signatures.find? fun s => s.version = v ∧ s.user = u

def signatureOfKey? (d : Db) (u : UserId) (keyHash : String) : Option ContractSignature :=
  d.signatures.find? fun s => s.user = u ∧ s.idempotencyKeyHash = keyHash

def proposalOf? (d : Db) (project : ProjectId) (freelancer : UserId) : Option Proposal :=
  d.proposals.find? fun p => p.project = project ∧ p.freelancer = freelancer

/-! ## Updates -/

def addProposal (p : Proposal) (v : ProposalVersion) (d : Db) : Db :=
  { d with proposals := p :: d.proposals, proposalVersions := v :: d.proposalVersions }

/-- A new version of a proposal, which becomes the current one. -/
def addProposalVersion (v : ProposalVersion) (d : Db) : Db :=
  { d with proposalVersions := v :: d.proposalVersions }

def setCurrentVersion (id : ProposalId) (n : Nat) (d : Db) : Db :=
  { d with
    proposals := Table.modify Proposal.id id (fun p => { p with currentVersion := n }) d.proposals }

def setProposalStatus (id : ProposalId) (s : ProposalStatus) (d : Db) : Db :=
  { d with proposals := Table.modify Proposal.id id (fun p => { p with status := s }) d.proposals }

def addContract (n : NewContract) (d : Db) : Db :=
  { d with
    money := { d.money with
      contracts := n.contract :: d.money.contracts
      milestones := n.milestones.map (·.2) ++ d.money.milestones }
    contracts := n.details :: d.contracts
    versions := n.version :: d.versions
    milestones := n.milestones.map (·.1) ++ d.milestones }

def addSignature (s : ContractSignature) (d : Db) : Db := { d with signatures := s :: d.signatures }

def activateContract (id : ContractId) (d : Db) : Db :=
  { d with
    money := { d.money with
      contracts := Table.modify Money.Contract.id id (fun c => { c with status := .active })
        d.money.contracts }
    contracts := Table.modify ContractDetails.id id
      (fun x => { x with activatedAt := some d.money.clock }) d.contracts }

def closeProject (id : ProjectId) (d : Db) : Db :=
  { d with
    projects := Table.modify Project.id id (fun p => { p with status := .closed }) d.projects }

/-! ## Rows after an update -/

section
variable (d : Db)

@[simp] theorem proposal?_addProposal (p : Proposal) (v : ProposalVersion) (k : ProposalId) :
    (d.addProposal p v).proposal? k = if p.id = k then some p else d.proposal? k := Table.get_cons

@[simp] theorem proposal?_addProposalVersion (v : ProposalVersion) (k : ProposalId) :
    (d.addProposalVersion v).proposal? k = d.proposal? k := rfl

@[simp] theorem proposal?_setCurrentVersion (id k : ProposalId) (n : Nat) :
    (d.setCurrentVersion id n).proposal? k = (d.proposal? k).map fun p =>
      if k = id then { p with currentVersion := n } else p := Table.get_modify fun _ => rfl

@[simp] theorem proposal?_setProposalStatus (id k : ProposalId) (s : ProposalStatus) :
    (d.setProposalStatus id s).proposal? k = (d.proposal? k).map fun p =>
      if k = id then { p with status := s } else p := Table.get_modify fun _ => rfl

@[simp] theorem proposal?_addContract (n : NewContract) (k : ProposalId) :
    (d.addContract n).proposal? k = d.proposal? k := rfl

@[simp] theorem proposalVersion?_addProposal (p : Proposal) (v : ProposalVersion)
    (k : ProposalId × Nat) :
    (d.addProposal p v).proposalVersion? k =
      if v.key = k then some v else d.proposalVersion? k := Table.get_cons

@[simp] theorem proposalVersion?_addProposalVersion (v : ProposalVersion) (k : ProposalId × Nat) :
    (d.addProposalVersion v).proposalVersion? k =
      if v.key = k then some v else d.proposalVersion? k := Table.get_cons

@[simp] theorem proposalVersion?_setCurrentVersion (id : ProposalId) (n : Nat)
    (k : ProposalId × Nat) :
    (d.setCurrentVersion id n).proposalVersion? k = d.proposalVersion? k := rfl

@[simp] theorem proposalVersion?_setProposalStatus (id : ProposalId) (s : ProposalStatus)
    (k : ProposalId × Nat) :
    (d.setProposalStatus id s).proposalVersion? k = d.proposalVersion? k := rfl

@[simp] theorem proposalVersion?_addContract (n : NewContract) (k : ProposalId × Nat) :
    (d.addContract n).proposalVersion? k = d.proposalVersion? k := rfl

@[simp] theorem signaturesOf_addContract (n : NewContract) (v : VersionId) :
    (d.addContract n).signaturesOf v = d.signaturesOf v := rfl

theorem contract?_eq_some {id : ContractId} {c : Money.Contract} {x : ContractDetails} :
    d.contract? id = some (c, x) ↔ d.money.contract? id = some c ∧ d.details? id = some x := by
  unfold contract?
  cases d.money.contract? id <;> cases d.details? id <;> simp

theorem money_contract?_activateContract (id k : ContractId) :
    (d.activateContract id).money.contract? k = (d.money.contract? k).map fun c =>
      if k = id then { c with status := .active } else c := Table.get_modify fun _ => rfl

theorem contractOfProposal?_activateContract (id : ContractId) (k : ProposalId) :
    (d.activateContract id).contractOfProposal? k = (d.contractOfProposal? k).map fun x =>
      if x.id = id then { x with activatedAt := some d.money.clock } else x :=
  Table.find?_modify fun _ => rfl

theorem contractOfProject?_activateContract (id : ContractId) (k : ProjectId) :
    (d.activateContract id).contractOfProject? k = (d.contractOfProject? k).map fun x =>
      if x.id = id then { x with activatedAt := some d.money.clock } else x :=
  Table.find?_modify fun _ => rfl

end

end Db

end Agreements
