import Freelancing.Agreements.Rows
import Freelancing.Freelancers.Slug
import Mathlib.Data.Rat.Defs

/-!
# Freelancer profiles and their search documents: the tables

The rows behind `app/freelancers`, `app/portfolios` and `app/reviews`, and the events of
`outbox_events` that ask for a new search document. A link to a skill holds the skill's slug. The
document of a freelancer (`Db.document`) is what `build_freelancer_document` reads when nothing is
committed between its statements.
-/

namespace Search

open Money (UserId Currency User)
open Agreements (ProjectId)

abbrev ProfileId := Nat
abbrev ItemId := Nat
abbrev ReviewId := Nat
abbrev EventId := Nat

/-- `round(total / count, 2)` is a float. -/
structure Settings where
  unicode : Freelancers.Unicode
  roundedMean : Int → Nat → ℚ

/-! ## Rows -/

structure FreelancerProfile where
  id : ProfileId
  user : UserId
  title : String
  bio : String
  hourlyRateMinor : Option Int
  currency : Option Currency
  timezone : String
  acceptingWork : Bool
  languages : List CodePoints
  projectionVersion : Nat
  updatedAt : Nat
  deriving DecidableEq

structure FreelancerSkill where
  profile : ProfileId
  slug : CodePoints
  deriving DecidableEq

structure AvailabilityRule where
  profile : ProfileId
  weekday : Int
  startTime : Nat
  endTime : Nat
  timezone : String
  deriving DecidableEq

structure AvailabilityException where
  profile : ProfileId
  exceptionDate : Nat
  available : Bool
  startTime : Option Nat
  endTime : Option Nat
  reason : Option String

structure PortfolioItem where
  id : ItemId
  profile : ProfileId
  title : CodePoints
  description : CodePoints
  externalUrl : Option String
  deriving DecidableEq

structure Review where
  id : ReviewId
  project : ProjectId
  reviewer : UserId
  freelancer : UserId
  rating : Int
  comment : String

/-- `project_id`, `reviewer_user_id` and `freelancer_user_id`. -/
abbrev Review.key (r : Review) :
    ProjectId × UserId × UserId := (r.project, r.reviewer, r.freelancer)

/-- An event of type `search.freelancer.refresh`. -/
structure OutboxEvent where
  id : EventId
  user : UserId
  projectionVersion : Nat
  createdAt : Nat
  publishedAt : Option Nat

structure Document where
  freelancerId : UserId
  title : String
  bio : String
  skills : List CodePoints
  rating : Option ℚ
  completedJobs : Nat
  hourlyRateMinor : Option Int
  currency : Option Currency
  availability : Bool
  languages : List CodePoints
  portfolioText : CodePoints
  projectionVersion : Nat
  updatedAt : Nat
  deriving DecidableEq

structure Db where
  agreements : Agreements.Db
  profiles : List FreelancerProfile
  skillLinks : List FreelancerSkill
  rules : List AvailabilityRule
  exceptions : List AvailabilityException
  items : List PortfolioItem
  reviews : List Review
  outbox : List OutboxEvent

/-! ## Queries -/

namespace Db

def profile? (d : Db) (user : UserId) : Option FreelancerProfile :=
  Table.get FreelancerProfile.user user d.profiles

def profileById? (d : Db) (id : ProfileId) : Option FreelancerProfile :=
  Table.get FreelancerProfile.id id d.profiles

def event? (d : Db) (id : EventId) : Option OutboxEvent := Table.get OutboxEvent.id id d.outbox

def item? (d : Db) (id : ItemId) : Option PortfolioItem := Table.get PortfolioItem.id id d.items

def review? (d : Db) (key : ProjectId × UserId × UserId) : Option Review :=
  Table.get Review.key key d.reviews

def skillsOf (d : Db) (profile : ProfileId) : List CodePoints :=
  (d.skillLinks.filter fun l => l.profile = profile).map (·.slug)

def rulesOf (d : Db) (profile : ProfileId) : List AvailabilityRule :=
  d.rules.filter fun r => r.profile = profile

def itemsOf (d : Db) (profile : ProfileId) : List PortfolioItem :=
  d.items.filter fun x => x.profile = profile

def ratingsOf (d : Db) (user : UserId) : List Int :=
  (d.reviews.filter fun r => r.freelancer = user).map (·.rating)

def isClosed (d : Db) (project : ProjectId) : Bool :=
  (d.agreements.project? project).any fun p => p.status = .closed

/-- The accepted proposals of a freelancer on closed projects. -/
def completedJobs (d : Db) (user : UserId) : Nat :=
  d.agreements.proposals.countP fun p =>
    p.freelancer = user && p.status = .accepted && d.isClosed p.project

end Db

/-! ## Documents -/

/-- `" ".join(parts)`. -/
def joinParts : List CodePoints → CodePoints
  | [] => []
  | [x] => x
  | x :: y :: rest => x ++ 32 :: joinParts (y :: rest)

def portfolioText (items : List PortfolioItem) : CodePoints :=
  joinParts ((items.flatMap fun x => [x.title, x.description]).filter fun part =>
    CodePoints.strip part ≠ [])

def assembleDocument (cfg : Settings) (profile : FreelancerProfile) (skills : List CodePoints)
    (reviews : List Int) (completedJobs : Nat) (items : List PortfolioItem) : Document where
  freelancerId := profile.user
  title := profile.title
  bio := profile.bio
  skills := skills
  rating := if reviews.isEmpty then none else some (cfg.roundedMean reviews.sum reviews.length)
  completedJobs := completedJobs
  hourlyRateMinor := profile.hourlyRateMinor
  currency := profile.currency
  availability := profile.acceptingWork
  languages := profile.languages
  portfolioText := portfolioText items
  projectionVersion := profile.projectionVersion
  updatedAt := profile.updatedAt

/-- What a freelancer's document is made of, the profile's row apart. -/
structure Sources where
  skills : List CodePoints
  ratings : List Int
  completedJobs : Nat
  items : List PortfolioItem

def Db.sources (d : Db) (p : FreelancerProfile) : Sources :=
  ⟨d.skillsOf p.id, d.ratingsOf p.user, d.completedJobs p.user, d.itemsOf p.id⟩

def Db.document (cfg : Settings) (d : Db) (p : FreelancerProfile) : Document :=
  assembleDocument cfg p (d.sources p).skills (d.sources p).ratings (d.sources p).completedJobs
    (d.sources p).items

/-! ## Updates -/

/-- What a column holds after the flush of an attribute that was loaded as `loaded` and is now
`new`: an attribute with its loaded value is not written. -/
def assigned {α : Type} [DecidableEq α] (loaded new current : α) : α :=
  if new = loaded then current else new

namespace Db

def modifyProfile (user : UserId) (f : FreelancerProfile → FreelancerProfile) (d : Db) : Db :=
  { d with profiles := Table.modify FreelancerProfile.user user f d.profiles }

def addProfile (p : FreelancerProfile) (d : Db) : Db := { d with profiles := p :: d.profiles }

/-- The links `loaded` of a profile give way to `slugs`. -/
def replaceSkills (profile : ProfileId) (loaded slugs : List CodePoints) (d : Db) : Db :=
  { d with
    skillLinks := (d.skillLinks.filter fun l => !(l.profile = profile && loaded.contains l.slug)) ++
      slugs.map fun slug => ⟨profile, slug⟩ }

def replaceRules (loaded rules : List AvailabilityRule) (d : Db) : Db :=
  { d with rules := (d.rules.filter fun r => !loaded.contains r) ++ rules }

def addException (x : AvailabilityException) (d : Db) : Db :=
  { d with exceptions := x :: d.exceptions }

def setException (x : AvailabilityException) (d : Db) : Db :=
  { d with
    exceptions := Table.modify (fun x => (x.profile, x.exceptionDate)) (x.profile, x.exceptionDate)
      (fun _ => x) d.exceptions }

def addItem (x : PortfolioItem) (d : Db) : Db := { d with items := x :: d.items }

/-- The row that was loaded is deleted, unless it is gone: no row of `portfolio_items` changes, and
no uuid comes twice. -/
def deleteItem (x : PortfolioItem) (d : Db) :
    Db := { d with items := d.items.filter fun y => y ≠ x }

def addReview (r : Review) (d : Db) : Db := { d with reviews := r :: d.reviews }

def closeProject (id : ProjectId) (d : Db) : Db :=
  { d with agreements := d.agreements.closeProject id }

def addEvent (x : OutboxEvent) (d : Db) : Db := { d with outbox := x :: d.outbox }

def publish (id : EventId) (now : Nat) (d : Db) : Db :=
  { d with
    outbox := Table.modify OutboxEvent.id id (fun x => { x with publishedAt := some now })
      d.outbox }

end Db

end Search
