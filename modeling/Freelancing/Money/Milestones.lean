import Freelancing.Money.Payments

/-!
# Milestone transitions

`app/milestones/service.py` and `app/milestones/policies.py`.
-/

namespace Money

inductive MilestoneAction
  | start
  | submit
  | requestChanges
  | approve
  deriving DecidableEq

/-- `USER_TRANSITIONS`. -/
def userTransitions : MilestoneAction → List MilestoneStatus
  | .start => [.funded]
  | .submit => [.inProgress, .changesRequested]
  | .requestChanges => [.submitted]
  | .approve => [.submitted]

def canWorkOnMilestone (user : User) (contract : Contract) : Bool := user.id = contract.freelancer

def canReviewMilestone (user : User) (contract : Contract) : Bool := user.id = contract.employer

def milestoneBody (m : Milestone) : Response := ⟨.milestone m.id m.status, 200⟩

def requireAllowed (user : User) (contract : Contract) (workerAction : Bool) : Tx Unit :=
  if workerAction then
    require (canWorkOnMilestone user contract)
      (.api ⟨"forbidden", "Forbidden", 403,
        "Only the freelancer party may perform this milestone action"⟩)
  else
    require (canReviewMilestone user contract)
      (.api ⟨"forbidden", "Forbidden", 403,
        "Only the employer party may perform this milestone action"⟩)

/-- Only the start of the work checks the escrow. -/
def requireFunds (action : MilestoneAction) (m : Milestone) : Tx Unit :=
  if action = .start then requireMilestoneFullyFunded m else pure ()

/-- `_transition`. -/
def transition (user : User) (milestoneId : MilestoneId) (action : MilestoneAction)
    (target : MilestoneStatus) (note : String) (workerAction : Bool) : Tx Milestone := do
  let (milestone, contract) ← lockedMilestone milestoneId
  require (contract.status = .active)
    (.api ⟨"invalid_state", "Contract is not active", 409,
      "Milestone progress requires an active contract"⟩)
  requireAllowed user contract workerAction
  if milestone.status = target then findMilestone milestone.id
  else
  require ((userTransitions action).contains milestone.status)
    (.api ⟨"invalid_transition", "Invalid milestone transition", 409,
      milestone.status.name ++ " cannot transition to " ++ target.name⟩)
  requireFunds action milestone
  write (Db.moveMilestone milestone.id ⟨some user.id, milestone.status, target, note⟩)
  commit (.milestoneMoved milestone.id)
  findMilestone milestone.id

def startMilestone (user : User) (milestoneId : MilestoneId) : Tx Milestone :=
  transition user milestoneId .start .inProgress "" true

def submitMilestone (user : User) (milestoneId : MilestoneId) (note : String) : Tx Milestone :=
  transition user milestoneId .submit .submitted note true

def requestMilestoneChanges (user : User) (milestoneId : MilestoneId) (note : String) :
    Tx Milestone :=
  transition user milestoneId .requestChanges .changesRequested note false

def approveMilestone (user : User) (milestoneId : MilestoneId) : Tx Milestone :=
  transition user milestoneId .approve .approved "" false

end Money
