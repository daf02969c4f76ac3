import Freelancing.Money.Milestones
import Freelancing.Money.Refunds

/-!
# Disputes

`app/disputes/service.py`: a dispute freezes a milestone, an administrator reviews it and resolves
it by splitting the escrow. The client's part is sent back through the provider before the
transaction of the resolution commits.
-/

namespace Money

open Text (upper)

def openableMilestoneStates : List MilestoneStatus :=
  [.funded, .inProgress, .submitted, .changesRequested, .approved]

/-- `_ADMIN_TRANSITIONS`. -/
def adminTransitions : DisputeStatus → List DisputeStatus
  | .opened => [.evidenceCollection]
  | .evidenceCollection => [.underReview]
  | .underReview => [.needMoreInfo]
  | .needMoreInfo => [.evidenceCollection, .underReview]
  | .resolved => []

def disputeOutcomes : List String := ["RELEASE_TO_FREELANCER", "REFUND_CLIENT", "SPLIT"]

def isAdmin (user : User) : Bool := user.roles.contains "admin"

def requireAdmin (user : User) : Tx Unit :=
  require (isAdmin user)
    (.api ⟨"forbidden", "Forbidden", 403, "Administrator permission is required"⟩)

def requiredText (value field : String) (maxLength : Nat) : Tx String := do
  let normalized := strip value
  require (!(normalized.isEmpty || maxLength < normalized.length))
    (.api ⟨"validation_error", "Invalid " ++ field, 422,
      field ++ " must contain 1 to " ++ toString maxLength ++ " characters"⟩)
  pure normalized

def disputeNotFound : Err :=
  .api ⟨"dispute_not_found", "Dispute not found", 404, "Dispute was not found"⟩

def lockedDispute (id : DisputeId) : Tx Dispute := do
  match ← selectForUpdate (fun x => .dispute x.id) (fun d => d.dispute? id) with
  | none => raise disputeNotFound
  | some dispute => pure dispute

def disputeExists : Err :=
  .api ⟨"dispute_exists", "Dispute already exists", 409,
    "A milestone can have only one dispute record"⟩

def serializeDispute (x : Dispute) (decision : Option DisputeDecision) : Body :=
  .dispute ⟨x.id, x.milestone, x.contract, x.openedBy, x.status, x.reason, x.parties, x.events,
    decision⟩

/-! ## Opening -/

def Db.disputeOf? (d : Db) (m : MilestoneId) : Option Dispute :=
  d.disputes.find? fun x => x.milestone = m

/-- `_notification_event` for the parties of `recipients`. -/
def notifyParties (dispute : DisputeId) (recipients : List UserId) (eventType title body : String) :
    Tx Unit :=
  write fun d => recipients.foldl
    (fun d user => d.enqueue (.notificationRequested dispute user eventType title body)) d

def newDispute (id : DisputeId) (milestone : Milestone) (contract : Contract) (user : User)
    (reason : String) : Dispute where
  id := id
  milestone := milestone.id
  contract := contract.id
  openedBy := user.id
  status := .opened
  reason := reason
  resolvedAt := none
  parties := [(contract.employer, .employer), (contract.freelancer, .freelancer)]
  events := []

def openDispute (user : User) (milestoneId : MilestoneId) (reason : String)
    (disputeId : DisputeId) : Tx Response := do
  let normalizedReason ← requiredText reason "reason" 4000
  let (milestone, contract) ← lockedMilestone milestoneId
  require (user.id = contract.employer ∨ user.id = contract.freelancer)
    (.api ⟨"forbidden", "Forbidden", 403, "Only contract parties may open a dispute"⟩)
  require (contract.status = .active)
    (.api ⟨"invalid_state", "Contract is not active", 409,
      "Disputes may only be opened for an active contract"⟩)
  require (openableMilestoneStates.contains milestone.status)
    (.api ⟨"invalid_transition", "Milestone cannot be disputed", 409,
      "Milestone in " ++ milestone.status.name ++ " cannot enter dispute"⟩)
  match ← selectForUpdate (fun x => .dispute x.id) (fun d => d.disputeOf? milestone.id) with
  | some _ => raise disputeExists
  | none =>
  newUuid (.dispute disputeId) fun d => (d.dispute? disputeId).isSome
  let clash ← taken (.disputeOf milestone.id) fun d => (d.disputeOf? milestone.id).isSome
  require (!clash) disputeExists
  let dispute := newDispute disputeId milestone contract user normalizedReason
  write (Db.addDispute dispute)
  write (Db.moveMilestone milestone.id
    ⟨some user.id, milestone.status, .disputed, "Milestone release frozen by dispute"⟩)
  let event : DisputeEvent := ⟨user.id, "OPENED", none, .opened, normalizedReason⟩
  write (Db.addDisputeEvent dispute.id event)
  notifyParties dispute.id ((dispute.parties.map Prod.fst).filter (· ≠ user.id)) "dispute.opened"
    "A dispute was opened" "A funded milestone is frozen while the dispute is reviewed."
  commit (.disputeOpened milestone.id)
  pure ⟨serializeDispute { dispute with events := [event] } none, 200⟩

/-! ## Review -/

/-- The status that `to_status.strip().upper()` names. -/
def statusNamed (s : String) (l : List DisputeStatus) : Option DisputeStatus :=
  l.find? fun x => x.name = s

def adminTransition (administrator : User) (disputeId : DisputeId) (toStatus reason : String) :
    Tx Response := do
  requireAdmin administrator
  let dispute ← lockedDispute disputeId
  let normalizedStatus := upper (strip toStatus)
  let normalizedReason ← requiredText reason "reason" 4000
  match statusNamed normalizedStatus (adminTransitions dispute.status) with
  | none =>
    raiseApi "invalid_transition" "Invalid dispute transition" 409
      ("Dispute cannot move from " ++ dispute.status.name ++ " to " ++ normalizedStatus)
  | some target =>
  let _ ← findMilestone dispute.milestone
  let event : DisputeEvent :=
    ⟨administrator.id, "ADMIN_TRANSITION", some dispute.status, target, normalizedReason⟩
  write (Db.moveDispute dispute.id target)
  write (Db.addDisputeEvent dispute.id event)
  commit (.disputeMoved dispute.id)
  pure ⟨serializeDispute { dispute with status := target, events := dispute.events ++ [event] }
    none, 200⟩

end Money
