import Freelancing.Agreements.Rows
import Freelancing.Money.Session
import Freelancing.Txn.Rely
import Freelancing.Txn.Zoom

/-!
# Database sessions of the agreement services

A request is a transaction program over `Db`; a financial operation is a program of the part
`Db.money` (`financial`).
-/

namespace Agreements

open Money (UserId ContractId MilestoneId Currency User Err)

/-- A row, by its key, or an entry of a unique index. -/
inductive LockName
  | money (n : Money.LockName)
  | project (id : ProjectId)
  | proposal (id : ProposalId)
  | proposalOf (project : ProjectId) (freelancer : UserId)
  | acceptedProposal (project : ProjectId)
  | proposalVersion (k : ProposalId × Nat)
  | contractOfProject (id : ProjectId)
  | contractOfProposal (id : ProposalId)
  | version (id : VersionId)
  | signature (v : VersionId) (u : UserId)
  | signatureOfKey (u : UserId) (keyHash : String)
  deriving DecidableEq

/-- The commits of the services, with the copy of the proposal that the session has loaded. -/
inductive CommitPoint
  | proposalCreated (id : ProposalId)
  | versionAdded (loaded : Proposal)
  | transitioned (loaded : Proposal) (target : ProposalStatus)
  | signed (id : ContractId)
  | projectClosed (id : ProjectId)
  | projectCreated (id : ProjectId)
  | projectUpdated (id : ProjectId)

inductive Point
  | stmt
  | money (p : Money.Point)
  | commit (c : CommitPoint)

abbrev Tx := Txn.Prog Db LockName Point Money.Request Money.Answer Err

variable {β : Type}

def raise (e : Err) : Tx β := .raise e

def raiseApi (type title : String) (status : Nat) (detail : String) : Tx β :=
  raise (.api ⟨type, title, status, detail⟩)

def require (c : Bool) (e : Err) : Tx Unit := Txn.Prog.require c e

def select (q : Db → β) : Tx β := Txn.Prog.select .stmt q

def selectForUpdate (name : β → LockName) (q : Db → Option β) : Tx (Option β) :=
  Txn.Prog.selectForUpdate .stmt name q

def write (w : Db → Db) : Tx Unit := .write w (.ret ())

def update (name : LockName) (w : Db → Db) : Tx Unit := Txn.Prog.update .stmt name w

def commit (c : CommitPoint) : Tx Unit := .commit (.commit c) (.ret ())

/-- The flush of an insert whose unique key is `name`; `e` is what an `IntegrityError` becomes. -/
def reserve (e : Err) (name : LockName) (q : Db → Bool) : Tx Unit := do
  let t ← Txn.Prog.taken .stmt name q
  require (!t) e

/-- `Db.money` as a part of the database. -/
def moneyPart : Txn.Lens Db Money.Db where
  get d := d.money
  set m d := { d with money := m }
  get_set _ _ := rfl
  set_get _ := rfl
  set_set _ _ _ := rfl

/-- An operation of the financial services. -/
def financial (p : Money.Tx β) : Tx β := p.zoom moneyPart .money .money

theorem financial_bind {γ : Type} (p : Money.Tx β) (f : β → Money.Tx γ) :
    financial (p >>= f) = financial p >>= fun r => financial (f r) := Txn.Prog.zoom_bind _ _ _ p f

theorem financial_selectForUpdate (name : β → Money.LockName) (q : Money.Db → Option β) :
    financial (Money.selectForUpdate name q) =
      Txn.Prog.selectForUpdate (.money .stmt) (fun r => .money (name r)) fun d => q d.money :=
  congrArg (Txn.Prog.lock _ · _) (funext fun _ => Option.map_map _ _ _)

end Agreements
