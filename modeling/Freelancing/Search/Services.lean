import Freelancing.Search.Rows
import Freelancing.Txn.Worlds

/-!
# The services that touch a profile, and the drain of the outbox

`app/freelancers/service.py`, `app/portfolios/service.py`, `app/reviews/service.py`, `close_project`
of `app/projects/service.py`, and `app/search`. Every service that changes what a freelancer's
document is made of raises the version of the freelancer's profile and leaves an event;
`drainSearchOutbox` indexes the document of every event's freelancer under the version of the
profile, and the index refuses a version that is lower than the one it holds. A function that
creates rows takes their uuids and the time as arguments.
-/

namespace Search

open Money (UserId Currency User Err)
open Agreements (ProjectId)
open Txn (Prog Point)
open Txn.Service (raise require select selectForUpdate write update commit rollback ask reserve)

/-- A row, by its key, or an entry of a unique index. -/
inductive LockName
  | profile (user : UserId)
  | profileOf (user : UserId)
  | profileId (id : ProfileId)
  | skillLink (profile : ProfileId) (slug : CodePoints)
  | rules (profile : ProfileId)
  | exception (profile : ProfileId) (date : Nat)
  | item (id : ItemId)
  | reviewId (id : ReviewId)
  | review (key : ProjectId × UserId × UserId)
  | project (id : ProjectId)
  | event (id : EventId)
  deriving DecidableEq

/-- The commits of the services: of a change to what a freelancer's document is made of, with the
version of the profile that the session has loaded, and of a drain. -/
inductive CommitPoint
  | touched (user : UserId) (loaded : Option Nat)
  | drained

inductive Request
  | ensureFreelancerIndex
  | index (user : UserId) (version : Nat) (document : Document)

inductive Answer
  | done
  | versionConflict
  | failed
  deriving DecidableEq

abbrev Tx := Prog Db LockName (Point CommitPoint) Request Answer Err

def raiseApi {β : Type} (type title : String) (status : Nat) (detail : String) : Tx β :=
  raise (.api ⟨type, title, status, detail⟩)

def apiError (type title : String) (status : Nat) (detail : String) : Err :=
  .api ⟨type, title, status, detail⟩

/-! ## Profiles -/

def getProfileByUserId (user : UserId) : Tx FreelancerProfile := do
  match ← select (fun d => d.profile? user) with
  | none => raiseApi "profile_not_found" "Profile not found" 404 "Freelancer profile not found"
  | some profile => pure profile

def canEditProfile (user : User) (profile : FreelancerProfile) : Bool :=
  user.id = profile.user && user.roles.contains "freelancer"

/-- The row of a profile after a touch. -/
def FreelancerProfile.touch (version now : Nat) (p : FreelancerProfile) : FreelancerProfile :=
  { p with projectionVersion := version, updatedAt := now }

/-- `touch_search_projection` and the flush of what it writes. -/
def touchSearchProjection (profile : FreelancerProfile) (event : EventId) (now : Nat) :
    Tx Unit := do
  let version := profile.projectionVersion + 1
  update (.profile profile.user)
    (Db.modifyProfile profile.user (FreelancerProfile.touch version now))
  reserve .integrity (.event event) fun d => (d.event? event).isSome
  write (Db.addEvent ⟨event, profile.user, version, now, none⟩)

/-- `_dedupe_strings`; `seen` are the folded strings that are in the result. -/
def dedupeStrings (U : Freelancers.Unicode) : List CodePoints → List CodePoints → List CodePoints
  | _, [] => []
  | seen, value :: rest =>
    let normalized := CodePoints.strip value
    let key := U.casefold normalized
    if normalized ≠ [] ∧ key ∉ seen then normalized :: dedupeStrings U (key :: seen) rest
    else dedupeStrings U seen rest

/-- The slug of the skill that `get_or_create_skill` returns. -/
def skillSlug (U : Freelancers.Unicode) (value : CodePoints) : Except Err CodePoints :=
  Freelancers.normalizeSkillSlug U (CodePoints.strip (U.nfkc value))

def skillSlugs (U : Freelancers.Unicode) (values : List CodePoints) : Tx (List CodePoints) :=
  match (dedupeStrings U [] values).mapM (skillSlug U) with
  | .error e => raise e
  | .ok slugs => pure slugs

/-- The insert of one link after the other; a link that was loaded is kept. -/
def reserveSkillLinks (profile : ProfileId) (loaded : List CodePoints) : List CodePoints → Tx Unit
  | [] => pure ()
  | slug :: rest => do
    reserve .integrity (.skillLink profile slug) fun d =>
      !loaded.contains slug && (d.skillsOf profile).contains slug
    reserveSkillLinks profile loaded rest

structure ProfileInput where
  title : String
  bio : String
  hourlyRateMinor : Option Int
  currency : Option Currency
  timezone : String
  acceptingWork : Bool
  languages : List CodePoints
  skills : List CodePoints

/-- The row of a new profile, with the defaults of its columns. -/
def newProfile (user : UserId) (x : ProfileInput) (id : ProfileId) (now : Nat) :
    FreelancerProfile where
  id := id
  user := user
  title := x.title
  bio := ""
  hourlyRateMinor := none
  currency := none
  timezone := "UTC"
  acceptingWork := true
  languages := []
  projectionVersion := 1
  updatedAt := now

/-- The columns of a profile after the flush of the input. -/
def ProfileInput.assign (U : Freelancers.Unicode) (x : ProfileInput)
    (loaded p : FreelancerProfile) : FreelancerProfile :=
  { p with
    title := assigned loaded.title x.title p.title
    bio := assigned loaded.bio x.bio p.bio
    hourlyRateMinor := assigned loaded.hourlyRateMinor x.hourlyRateMinor p.hourlyRateMinor
    currency := assigned loaded.currency x.currency p.currency
    timezone := assigned loaded.timezone x.timezone p.timezone
    acceptingWork := assigned loaded.acceptingWork x.acceptingWork p.acceptingWork
    languages := assigned loaded.languages (dedupeStrings U [] x.languages) p.languages }

/-- The profile that an upsert changes, and whether the upsert has created it. -/
def profileToEdit (user : User) (x : ProfileInput) (id : ProfileId) (now : Nat) :
    Tx (FreelancerProfile × Bool) := do
  match ← select (fun d => d.profile? user.id) with
  | none =>
    let profile := newProfile user.id x id now
    reserve .integrity (.profileId id) fun d => (d.profileById? id).isSome
    reserve .integrity (.profileOf user.id) fun d => (d.profile? user.id).isSome
    write (Db.addProfile profile)
    pure (profile, true)
  | some profile =>
    require (canEditProfile user profile)
      (apiError "forbidden" "Forbidden" 403 "Profile cannot be edited by this user")
    pure (profile, false)

/-- The rest of `upsert_profile`, for the profile it has found or created. -/
def saveProfile (U : Freelancers.Unicode) (x : ProfileInput) (profile : FreelancerProfile)
    (created : Bool) (event : EventId) (now : Nat) : Tx Unit := do
  let loaded ← select fun d => d.skillsOf profile.id
  -- the check constraint of the table
  require (x.hourlyRateMinor.all (0 ≤ ·)) .integrity
  update (.profile profile.user) (Db.modifyProfile profile.user (x.assign U profile))
  let slugs ← skillSlugs U x.skills
  -- two strings may have one slug, and a link has one row
  require (decide slugs.Nodup) .integrity
  reserveSkillLinks profile.id loaded slugs
  write (Db.replaceSkills profile.id loaded slugs)
  touchSearchProjection profile event now
  commit (.touched profile.user (if created then none else some profile.projectionVersion))

def upsertProfile (U : Freelancers.Unicode) (user : User) (x : ProfileInput) (id : ProfileId)
    (event : EventId) (now : Nat) : Tx FreelancerProfile := do
  require (user.roles.contains "freelancer")
    (apiError "forbidden" "Forbidden" 403 "A freelancer role is required")
  require (!(x.hourlyRateMinor.isNone && x.currency.isSome))
    (apiError "validation_error" "Invalid hourly rate" 422
      "currency must be omitted when hourly_rate_minor is omitted")
  require (!(x.hourlyRateMinor.isSome && x.currency.isNone))
    (apiError "validation_error" "Invalid hourly rate" 422
      "currency is required when hourly_rate_minor is provided")
  let (profile, created) ← profileToEdit user x id now
  saveProfile U x profile created event now
  getProfileByUserId user.id

/-! ## Availability -/

structure RuleInput where
  weekday : Int
  startTime : Nat
  endTime : Nat
  timezone : String

def RuleInput.row (profile : ProfileId) (x : RuleInput) : AvailabilityRule :=
  ⟨profile, x.weekday, x.startTime, x.endTime, x.timezone⟩

def AvailabilityRule.slot (r : AvailabilityRule) :
    Int × Nat × Nat := (r.weekday, r.startTime, r.endTime)

def replaceAvailabilityRules (user : User) (rules : List RuleInput) (event : EventId) (now : Nat) :
    Tx (List AvailabilityRule) := do
  let profile ← getProfileByUserId user.id
  let loaded ← select fun d => d.rulesOf profile.id
  require (canEditProfile user profile)
    (apiError "forbidden" "Forbidden" 403 "Availability cannot be edited")
  require (rules.all fun r => r.startTime < r.endTime)
    (apiError "validation_error" "Invalid availability" 422 "start_time must be before end_time")
  let rows := rules.map (RuleInput.row profile.id)
  -- a flush inserts before it deletes, so that a slot that is in the table already is refused
  require (rows.all (fun r => 0 ≤ r.weekday && r.weekday ≤ 6) &&
    decide (rows.map AvailabilityRule.slot).Nodup) .integrity
  reserve .integrity (.rules profile.id) fun d =>
    rows.any fun r => ((d.rulesOf profile.id).map AvailabilityRule.slot).contains r.slot
  write (Db.replaceRules loaded rows)
  touchSearchProjection profile event now
  commit (.touched profile.user (some profile.projectionVersion))
  pure rows

structure ExceptionInput where
  exceptionDate : Nat
  available : Bool
  startTime : Option Nat
  endTime : Option Nat
  reason : Option String

/-- Both times, in order, or none. -/
def ExceptionInput.valid (x : ExceptionInput) : Bool :=
  match x.startTime, x.endTime with
  | none, none => true
  | some startTime, some endTime => startTime < endTime
  | _, _ => false

def upsertAvailabilityException (user : User) (x : ExceptionInput) (event : EventId) (now : Nat) :
    Tx AvailabilityException := do
  let profile ← getProfileByUserId user.id
  require (canEditProfile user profile)
    (apiError "forbidden" "Forbidden" 403 "Availability cannot be edited")
  require x.valid
    (apiError "validation_error" "Invalid availability" 422
      "start_time and end_time must both be omitted or define a valid range")
  let row : AvailabilityException :=
    ⟨profile.id, x.exceptionDate, x.available, x.startTime, x.endTime, x.reason⟩
  let isRow (y : AvailabilityException) : Bool :=
    y.profile = profile.id && y.exceptionDate = x.exceptionDate
  match ← select (fun d => d.exceptions.find? isRow) with
  | none =>
    reserve .integrity (.exception profile.id x.exceptionDate) fun d => d.exceptions.any isRow
    write (Db.addException row)
  | some _ => update (.exception profile.id x.exceptionDate) (Db.setException row)
  touchSearchProjection profile event now
  commit (.touched profile.user (some profile.projectionVersion))
  pure row

/-! ## Portfolios -/

def createPortfolioItem (user : User) (title description : CodePoints) (externalUrl : Option String)
    (id : ItemId) (event : EventId) (now : Nat) : Tx PortfolioItem := do
  let profile ← getProfileByUserId user.id
  let item : PortfolioItem := ⟨id, profile.id, title, description, externalUrl⟩
  reserve .integrity (.item id) fun d => (d.item? id).isSome
  write (Db.addItem item)
  touchSearchProjection profile event now
  commit (.touched profile.user (some profile.projectionVersion))
  pure item

def deletePortfolioItem (user : User) (id : ItemId) (event : EventId) (now : Nat) : Tx Unit := do
  match ← select (fun d => d.item? id) with
  | none => raiseApi "portfolio_item_not_found" "Portfolio item not found" 404 "Item not found"
  | some item =>
    match ← select (fun d => d.profileById? item.profile) with
    | none => raiseApi "forbidden" "Forbidden" 403 "Portfolio item cannot be deleted"
    | some profile =>
      require (profile.user = user.id)
        (apiError "forbidden" "Forbidden" 403 "Portfolio item cannot be deleted")
      update (.item id) (Db.deleteItem item)
      touchSearchProjection profile event now
      commit (.touched profile.user (some profile.projectionVersion))

/-! ## Projects and reviews -/

def getProject (id : ProjectId) : Tx Agreements.Project := do
  match ← select (fun d => d.agreements.project? id) with
  | none => raiseApi "project_not_found" "Project not found" 404 "Project was not found"
  | some project => pure project

def canEditProject (user : User) (project : Agreements.Project) : Bool :=
  project.employer = user.id && user.roles.contains "employer"

def contractOfProject (d : Db) (id : ProjectId) :
    Option (Money.Contract × Agreements.ContractDetails) :=
  (d.agreements.contractOfProject? id).bind fun x => d.agreements.contract? x.id

def closeProject (user : User) (id : ProjectId) (event : EventId) (now : Nat) : Tx Unit := do
  let project ← getProject id
  require (canEditProject user project)
    (apiError "forbidden" "Forbidden" 403 "Project cannot be closed by this user")
  require (project.status = .opened)
    (apiError "invalid_state" "Invalid project state" 409 "Only OPEN projects can close")
  let notActive := apiError "invalid_state" "Project cannot close" 409
    "The project contract must be active before the project can close"
  match ← select (fun d => contractOfProject d project.id) with
  | none => raise notActive
  | some (contract, details) =>
    require (contract.status = .active) notActive
    match ← select (fun d => (d.agreements.versionsOf contract.id).find? fun v =>
        v.versionNumber = details.currentVersion) with
    | none => raise (.runtime "Contract current_version does not reference a version")
    | some version =>
      let incomplete ← select fun d =>
        (d.agreements.milestonesOf version.id).any fun m => m.2.status ≠ .released
      require (!incomplete)
        (apiError "invalid_state" "Project cannot close" 409
          "All current contract milestones must be released before the project can close")
      update (.project project.id) (Db.closeProject project.id)
      match ← select (fun d => d.profile? contract.freelancer) with
      | none => commit (.touched contract.freelancer none)
      | some profile =>
        touchSearchProjection profile event now
        commit (.touched profile.user (some profile.projectionVersion))

def createReview (user : User) (projectId : ProjectId) (rating : Int) (comment : String)
    (id : ReviewId) (event : EventId) (now : Nat) : Tx Review := do
  let project ← getProject projectId
  require (project.employer = user.id)
    (apiError "forbidden" "Forbidden" 403 "Only the project owner can review")
  require (project.status = .closed)
    (apiError "review_not_eligible" "Review not available" 409
      "The project must be closed before a review is created")
  let notActive := apiError "review_not_eligible" "Review not available" 409
    "A completed active contract is required before review"
  match ← select (fun d => contractOfProject d project.id) with
  | none => raise notActive
  | some (contract, _) =>
    require (contract.status = .active) notActive
    let review : Review := ⟨id, project.id, user.id, contract.freelancer, rating, comment⟩
    let exists' := apiError "review_exists" "Review already exists" 409
      "This project has already been reviewed"
    -- whatever constraint the flush breaks, the answer is the same
    require (1 ≤ rating && rating ≤ 5) exists'
    reserve exists' (.reviewId id) fun d => d.reviews.any fun r => r.id = id
    reserve exists' (.review review.key) fun d => (d.review? review.key).isSome
    write (Db.addReview review)
    let profile ← getProfileByUserId contract.freelancer
    touchSearchProjection profile event now
    commit (.touched profile.user (some profile.projectionVersion))
    pure review

/-! ## The index -/

def buildFreelancerDocument (cfg : Settings) (profile : FreelancerProfile)
    (skills : List CodePoints) : Tx Document := do
  let reviews ← select fun d => d.ratingsOf profile.user
  let completedJobs ← select fun d => d.completedJobs profile.user
  let items ← select fun d => d.itemsOf profile.id
  pure (assembleDocument cfg profile skills reviews completedJobs items)

/-- An answer other than `done` is an exception. -/
def expectDone (answer : Answer) : Tx Unit :=
  match answer with
  | .done => pure ()
  | .versionConflict => raise (.runtime "ConflictError")
  | .failed => raise (.runtime "TransportError")

def indexFreelancer (cfg : Settings) (profile : FreelancerProfile) (skills : List CodePoints) :
    Tx Unit := do
  expectDone (← ask .ensureFreelancerIndex)
  let document ← buildFreelancerDocument cfg profile skills
  expectDone (← ask (.index profile.user profile.projectionVersion document))

/-- A profile with its links, as an identity map holds it. -/
abbrev Loaded := List (FreelancerProfile × List CodePoints)

/-- The select of a profile with its links. A profile that the session still has is not refreshed;
`kept` says whether the session has kept what it loaded before. -/
def loadProfile (kept : Bool) (loaded : Loaded) (user : UserId) :
    Tx (Option (FreelancerProfile × List CodePoints)) := do
  match ← select (fun d => d.profile? user) with
  | none => pure none
  | some profile =>
    match if kept then loaded.find? (fun x => x.1.user = user) else none with
    | some x => pure (some x)
    | none =>
      let skills ← select fun d => d.skillsOf profile.id
      pure (some (profile, skills))

def drainEvents (cfg : Settings) (now : Nat) : List Bool → Loaded → List OutboxEvent → Tx Unit
  | _, _, [] => pure ()
  | kept, loaded, event :: rest => do
    match ← loadProfile (kept.headD false) loaded event.user with
    | none =>
      write (Db.publish event.id now)
      drainEvents cfg now kept.tail loaded rest
    | some (profile, skills) =>
      indexFreelancer cfg profile skills
      write (Db.publish event.id now)
      drainEvents cfg now kept.tail ((profile, skills) :: loaded) rest

/-- `FOR UPDATE` of the events that were selected: a row that has been published since is left
out. -/
def lockEvents : List OutboxEvent → Tx (List OutboxEvent)
  | [] => pure []
  | event :: rest => do
    match ← selectForUpdate (fun x => .event x.id) (fun d => d.event? event.id) with
    | none => lockEvents rest
    | some x =>
      let events ← lockEvents rest
      pure (if x.publishedAt.isNone then x :: events else events)

/-- The first unpublished events that are not in `skipped`. -/
def Db.pendingEvents (limit : Nat) (skipped : List EventId) (d : Db) : List OutboxEvent :=
  ((d.outbox.filter fun x => x.publishedAt.isNone && !skipped.contains x.id).insertionSort
    fun x y => x.createdAt ≤ y.createdAt).take limit

/-- `skipped` are the events that other sessions have locked when the rows are selected. -/
def drainSearchOutbox (cfg : Settings) (limit : Nat) (skipped : List EventId) (kept : List Bool)
    (now : Nat) : Tx Nat := do
  let selected ← select (Db.pendingEvents limit skipped)
  let events ← lockEvents selected
  drainEvents cfg now kept [] events
  commit .drained
  pure events.length

/-! ## Requests -/

inductive Service
  | upsertProfile (user : User) (x : ProfileInput) (id : ProfileId) (event : EventId) (now : Nat)
  | replaceAvailabilityRules (user : User) (rules : List RuleInput) (event : EventId) (now : Nat)
  | upsertAvailabilityException (user : User) (x : ExceptionInput) (event : EventId) (now : Nat)
  | createPortfolioItem (user : User) (title description : CodePoints) (externalUrl : Option String)
      (id : ItemId) (event : EventId) (now : Nat)
  | deletePortfolioItem (user : User) (id : ItemId) (event : EventId) (now : Nat)
  | closeProject (user : User) (id : ProjectId) (event : EventId) (now : Nat)
  | createReview (user : User) (project : ProjectId) (rating : Int) (comment : String)
      (id : ReviewId) (event : EventId) (now : Nat)
  | drainSearchOutbox (limit : Nat) (skipped : List EventId) (kept : List Bool) (now : Nat)

def Service.prog (cfg : Settings) : Service → Tx Unit
  | .upsertProfile user x id event now =>
      do let _ ← Search.upsertProfile cfg.unicode user x id event now
  | .replaceAvailabilityRules user rules event now => do
    let _ ← Search.replaceAvailabilityRules user rules event now
  | .upsertAvailabilityException user x event now => do
    let _ ← Search.upsertAvailabilityException user x event now
  | .createPortfolioItem user title description externalUrl id event now => do
    let _ ← Search.createPortfolioItem user title description externalUrl id event now
  | .deletePortfolioItem user id event now => Search.deletePortfolioItem user id event now
  | .closeProject user id event now => Search.closeProject user id event now
  | .createReview user project rating comment id event now => do
    let _ ← Search.createReview user project rating comment id event now
  | .drainSearchOutbox limit skipped kept now => do
    let _ ← Search.drainSearchOutbox cfg limit skipped kept now

end Search
