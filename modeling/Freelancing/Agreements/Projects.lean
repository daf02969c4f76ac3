import Freelancing.Agreements.Proposals

/-!
# Projects

`create_project` and `update_project` of `app/projects/service.py`. The limits of the budget are
checked and stored; of the budget only the currency is read by the services of this development, so
it is the only part of it in the row.
-/

namespace Agreements

open Money (UserId Currency User Err)

structure ProjectInput where
  title : String
  description : String
  budgetMinMinor : Option Int
  budgetMaxMinor : Option Int
  currency : Option Currency

namespace Db

def addProject (p : Project) (d : Db) : Db := { d with projects := p :: d.projects }

def editProject (id : ProjectId) (x : ProjectInput) (d : Db) : Db :=
  { d with
    projects := Table.modify Project.id id
      (fun p => { p with title := x.title, description := x.description, currency := x.currency })
      d.projects }

@[simp] theorem project?_addProject (p : Project) (d : Db) (k : ProjectId) :
    (d.addProject p).project? k = if p.id = k then some p else d.project? k := Table.get_cons

@[simp] theorem project?_editProject (id : ProjectId) (x : ProjectInput) (d : Db) (k : ProjectId) :
    (d.editProject id x).project? k = (d.project? k).map fun p =>
      if k = id then
        { p with title := x.title, description := x.description, currency := x.currency }
      else p := Table.get_modify fun _ => rfl

end Db

def canEditProject (user : User) (project : Project) : Bool :=
  project.employer = user.id && user.roles.contains "employer"

/-! ## The budget -/

/-- All three of the fields, or none. -/
def ProjectInput.complete (x : ProjectInput) : Bool :=
  let provided := [x.budgetMinMinor.isSome, x.budgetMaxMinor.isSome, x.currency.isSome]
  !(provided.any id && !provided.all id)

def ProjectInput.ordered (x : ProjectInput) : Bool :=
  match x.budgetMinMinor, x.budgetMaxMinor with
  | some minimum, some maximum => !(minimum < 0 || maximum < minimum)
  | _, _ => true

/-- The limits fit a `BIGINT` column. -/
def ProjectInput.inRange (x : ProjectInput) : Bool :=
  x.budgetMinMinor.all (· < 2 ^ 63) && x.budgetMaxMinor.all (· < 2 ^ 63)

def validateBudget (x : ProjectInput) : Tx Unit := do
  require x.complete
    (.api ⟨"validation_error", "Invalid budget", 422,
      "budget_min_minor, budget_max_minor, and currency must be provided together"⟩)
  require x.ordered (.api ⟨"validation_error", "Invalid budget", 422, "Budget range is invalid"⟩)

/-! ## Requests -/

def createProject (user : User) (x : ProjectInput) (id : ProjectId) : Tx Project := do
  validateBudget x
  reserve .integrity (.project id) fun d => (d.project? id).isSome
  require x.inRange (.runtime "bigint out of range")
  write (Db.addProject ⟨id, user.id, x.title, x.description, x.currency, .opened⟩)
  commit (.projectCreated id)
  getProject id

def updateProject (user : User) (projectId : ProjectId) (x : ProjectInput) : Tx Project := do
  let project ← getProject projectId
  require (canEditProject user project)
    (.api ⟨"forbidden", "Forbidden", 403, "Project cannot be edited by this user"⟩)
  require (project.status = .opened)
    (.api ⟨"invalid_state", "Invalid project state", 409, "Only OPEN projects can be edited"⟩)
  validateBudget x
  require x.inRange (.runtime "bigint out of range")
  update (.project project.id) (Db.editProject project.id x)
  commit (.projectUpdated project.id)
  getProject project.id

/-- `update_project` of this input takes effect. -/
def ProjectInput.editable (user : User) (project : Project) (x : ProjectInput) : Bool :=
  canEditProject user project && project.status = .opened && x.complete && x.ordered && x.inRange

end Agreements
