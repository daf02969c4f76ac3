import Freelancing.Agreements.Contracts

/-!
# Proposals

`app/proposals/service.py` with its policies, and the reads of `app/projects/service.py` that it
uses. The proposal's row is read without a lock; what is written is computed from that copy.
-/

namespace Agreements

open Money (UserId ContractId MilestoneId Currency User Err)
open Text (upper)

structure MilestoneInput where
  title : String
  amountMinor : Int
  deliveryDays : Int

/-- What a proposal version is made of. -/
structure VersionInput where
  amountMinor : Int
  currency : Currency
  deliveryDays : Int
  coverLetter : String
  milestones : List MilestoneInput

/-- `ALLOWED_TRANSITIONS`. -/
def allowedTransitions : ProposalStatus → List ProposalStatus
  | .draft => [.submitted]
  | .submitted => [.underNegotiation, .withdrawn, .rejected, .accepted]
  | .underNegotiation => [.withdrawn, .rejected, .accepted]
  | .withdrawn => []
  | .rejected => []
  | .accepted => []

/-! ## Policies -/

def canSubmitProposal (user : User) (project : Project) : Bool :=
  project.status = .opened && project.employer ≠ user.id && user.roles.contains "freelancer"

def canEditProposal (user : User) (proposal : Proposal) : Bool := proposal.freelancer = user.id

def canManageProposal (user : User) (proposal : Proposal) (project : Project) : Bool :=
  proposal.project = project.id && project.employer = user.id

/-! ## Reads -/

def getProposal (id : ProposalId) : Tx (Proposal × List ProposalVersion) := do
  match ← select (fun d => d.proposal? id) with
  | none => raiseApi "proposal_not_found" "Proposal not found" 404 "Proposal was not found"
  | some proposal =>
    let versions ← select fun d => d.proposalVersionsOf proposal.id
    pure (proposal, versions)

def getProject (id : ProjectId) : Tx Project := do
  match ← select (fun d => d.project? id) with
  | none => raiseApi "project_not_found" "Project not found" 404 "Project was not found"
  | some project => pure project

/-! ## Versions -/

def currencyMismatch : Err :=
  .api ⟨"validation_error", "Currency mismatch", 422,
    "Proposal currency must match the project budget currency"⟩

def newVersion (id : VersionId) (proposal : ProposalId) (versionNumber : Nat) (x : VersionInput) :
    Tx ProposalVersion := do
  require (x.milestones.isEmpty || (x.milestones.map (·.amountMinor)).sum = x.amountMinor)
    (.api ⟨"validation_error", "Invalid milestones", 422,
      "Milestone amounts must sum to the proposal amount"⟩)
  pure
    { id := id
      proposal := proposal
      versionNumber := versionNumber
      amountMinor := x.amountMinor
      currency := x.currency
      deliveryDays := x.deliveryDays
      coverLetter := x.coverLetter
      milestones := x.milestones.zipIdx.map fun m =>
        ⟨m.2 + 1, m.1.title, m.1.amountMinor, m.1.deliveryDays⟩ }

/-- The check constraints of `proposal_versions` and `proposal_milestones`. -/
def ProposalVersion.storable (v : ProposalVersion) : Bool :=
  1 ≤ v.versionNumber && 0 ≤ v.amountMinor && 1 ≤ v.deliveryDays &&
    v.milestones.all fun m => 1 ≤ m.sequence ∧ 0 ≤ m.amountMinor ∧ 1 ≤ m.deliveryDays

/-- The amounts fit a `BIGINT` column. -/
def ProposalVersion.inRange (v : ProposalVersion) : Bool :=
  v.amountMinor < 2 ^ 63 && v.milestones.all fun m => m.amountMinor < 2 ^ 63

def insertVersion (e : Err) (v : ProposalVersion) : Tx Unit := do
  reserve e (.proposalVersion v.key) fun d => (d.proposalVersion? v.key).isSome
  require v.inRange (.runtime "bigint out of range")
  require v.storable e

def createProposal (user : User) (projectId : ProjectId) (x : VersionInput) (id : ProposalId)
    (versionId : VersionId) : Tx (Proposal × List ProposalVersion) := do
  let project ← getProject projectId
  require (canSubmitProposal user project)
    (.api ⟨"forbidden", "Forbidden", 403, "Proposal cannot be submitted to this project"⟩)
  require (project.currency.all (· = x.currency)) currencyMismatch
  let version ← newVersion versionId id 1 x
  let proposalExists := .api ⟨"proposal_exists", "Proposal already exists", 409,
    "A freelancer may keep one versioned proposal per project"⟩
  reserve proposalExists (.proposal id) fun d => (d.proposal? id).isSome
  reserve proposalExists (.proposalOf project.id user.id) fun d =>
    (d.proposalOf? project.id user.id).isSome
  insertVersion proposalExists version
  write (Db.addProposal ⟨id, project.id, user.id, .draft, 1⟩ version)
  commit (.proposalCreated id)
  getProposal id

def addProposalVersion (user : User) (proposalId : ProposalId) (x : VersionInput)
    (versionId : VersionId) : Tx (Proposal × List ProposalVersion) := do
  let (proposal, versions) ← getProposal proposalId
  require (canEditProposal user proposal)
    (.api ⟨"forbidden", "Forbidden", 403, "Proposal cannot be edited by this user"⟩)
  require (proposal.status = .draft || proposal.status = .underNegotiation)
    (.api ⟨"invalid_transition", "Invalid proposal state", 409,
      "New versions are allowed only in DRAFT or UNDER_NEGOTIATION"⟩)
  match versions.getLast? with
  | none => raise (.runtime "list index out of range")
  | some current =>
  if current.currency ≠ x.currency then do
    let project ← getProject proposal.project
    require (project.currency.all (· = x.currency)) currencyMismatch
  else pure ()
  let version ← newVersion versionId proposal.id (proposal.currentVersion + 1) x
  update (.proposal proposal.id) (Db.setCurrentVersion proposal.id version.versionNumber)
  insertVersion .integrity version
  write (Db.addProposalVersion version)
  commit (.versionAdded proposal)
  getProposal proposal.id

/-! ## Transitions -/

def proposalAlreadyAccepted : Err :=
  .api ⟨"proposal_already_accepted", "Project already has an accepted proposal", 409,
    "Only one proposal can be accepted for a project"⟩

/-- A freelancer submits and withdraws, the employer decides. -/
def requireMayTransition (user : User) (proposal : Proposal) (project : Project)
    (target : ProposalStatus) : Tx Unit :=
  if target = .submitted ∨ target = .withdrawn then
    require (canEditProposal user proposal)
      (.api ⟨"forbidden", "Forbidden", 403, "Freelancer does not own this proposal"⟩)
  else
    require (canManageProposal user proposal project)
      (.api ⟨"forbidden", "Forbidden", 403, "Employer does not own this project"⟩)

def createOnAcceptance (cfg : Settings) (ids : NewIds) (proposal : Proposal)
    (versions : List ProposalVersion) (project : Project) (target : ProposalStatus) : Tx Unit :=
  if target = .accepted then createContract cfg proposalAlreadyAccepted ids proposal
    versions project
  else pure ()

/-- The flush of the new status; of the accepted proposals of a project there is a unique index. -/
def flushStatus (proposal : Proposal) (target : ProposalStatus) : Tx Unit := do
  update (.proposal proposal.id) (Db.setProposalStatus proposal.id target)
  if target = .accepted then
    reserve proposalAlreadyAccepted (.acceptedProposal proposal.project) fun d =>
      d.proposals.any fun p =>
        p.project = proposal.project ∧ p.status = .accepted ∧ p.id ≠ proposal.id
  else pure ()

def transitionProposal (cfg : Settings) (user : User) (proposalId : ProposalId) (target : String)
    (ids : NewIds) : Tx (Proposal × List ProposalVersion) := do
  let (proposal, versions) ← getProposal proposalId
  let project ← getProject proposal.project
  match (allowedTransitions proposal.status).find? fun s => s.name = upper target with
  | none =>
    raiseApi "invalid_transition" "Invalid proposal transition" 409
      (proposal.status.name ++ " cannot transition to " ++ upper target)
  | some target =>
  requireMayTransition user proposal project target
  require (project.status = .opened)
    (.api ⟨"invalid_state", "Invalid project state", 409, "Project is not open"⟩)
  createOnAcceptance cfg ids proposal versions project target
  flushStatus proposal target
  commit (.transitioned proposal target)
  getProposal proposal.id

end Agreements
