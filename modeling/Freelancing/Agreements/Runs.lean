import Freelancing.Agreements.Steps

/-!
# Runs of the agreement services

A `Service` is one request, a `platform` serves any number of them at once. The tables are
consistent in every state of every run, and what every commit keeps is an invariant of every run
(`invariant_of_run`).
-/

namespace Agreements

open Money (UserId ContractId MilestoneId Currency User Err ContractStatus Contract)
open Txn (Sys Mode)

inductive Service
  | createProposal (user : User) (project : ProjectId) (x : VersionInput) (id : ProposalId)
      (version : VersionId)
  | addProposalVersion (user : User) (proposal : ProposalId) (x : VersionInput)
      (version : VersionId)
  | transitionProposal (user : User) (proposal : ProposalId) (target : String) (ids : NewIds)
  | signContract (user : User) (contract : ContractId) (idempotencyKey documentHash : String)
  | cancelContract (user : User) (contract : ContractId)

inductive Resource
  | proposal (p : Proposal) (versions : List ProposalVersion)
  | contract (c : Contract) (details : ContractDetails)

def answered (p : Tx (Proposal × List ProposalVersion)) : Tx Resource := do
  let (proposal, versions) ← p
  pure (.proposal proposal versions)

def answeredContract (p : Tx (Contract × ContractDetails)) : Tx Resource := do
  let (contract, details) ← p
  pure (.contract contract details)

def Service.program (cfg : Settings) : Service → Tx Resource
  | .createProposal user project x id version =>
    answered (Agreements.createProposal user project x id version)
  | .addProposalVersion user proposal x version =>
    answered (Agreements.addProposalVersion user proposal x version)
  | .transitionProposal user proposal target ids =>
    answered (Agreements.transitionProposal cfg user proposal target ids)
  | .signContract user contract key documentHash =>
    answeredContract (Agreements.signContract cfg user contract key documentHash)
  | .cancelContract user contract => answeredContract (Agreements.cancelContract user contract)

/-- **Every service keeps the law.** -/
theorem Service.obliged {cfg : Settings} {mode : Mode} {ok : Move → Prop} {i : Nat} {b : Bool}
    {w : Db × Unit} (x : Service) :
    Obliged cfg mode ok i (x.program cfg) ⟨∅, id, b, w⟩ fun _ _ => True := by
  cases x with
  | createProposal =>
    exact Txn.Law.wp_bind (Txn.Law.wp_mono createProposal_wp fun _ _ _ => trivial)
  | addProposalVersion =>
    exact Txn.Law.wp_bind (Txn.Law.wp_mono addProposalVersion_wp fun _ _ _ => trivial)
  | transitionProposal =>
    exact Txn.Law.wp_bind (Txn.Law.wp_mono transitionProposal_wp fun _ _ _ => trivial)
  | signContract => exact Txn.Law.wp_bind (Txn.Law.wp_mono signContract_wp fun _ _ _ => trivial)
  | cancelContract => exact Txn.Law.wp_bind (Txn.Law.wp_mono cancelContract_wp fun _ _ _ => trivial)

/-! ## Systems -/

abbrev Platform := Sys Db LockName Point Money.Request Money.Answer Err Resource Unit

/-- Session `i` serves the request `services i`. -/
def platform (cfg : Settings) (d : Db) (services : Nat → Service) : Platform :=
  Sys.init d () fun i => (services i).program cfg

/-- No proposal has been made yet. -/
structure Blank (d : Db) : Prop where
  proposals : d.proposals = []
  proposalVersions : d.proposalVersions = []
  contracts : d.contracts = []
  versions : d.versions = []
  milestones : d.milestones = []
  signatures : d.signatures = []
  money : d.money.contracts = [] ∧ d.money.milestones = []

theorem Blank.consistent {cfg : Settings} {d : Db} (h : Blank d) : Consistent cfg d where
  proposals := by simp [h.proposals]
  proposalVersions := by simp [h.proposalVersions]
  contracts := by simp [h.money.1]
  details := by simp [h.contracts]
  ofProposal := by simp [h.contracts]
  versions := by simp [h.versions]
  milestones := by simp [h.money.2]
  signatures := by simp [h.signatures]
  versionOk := by simp [h.proposalVersions]
  numbered := by simp [Db.proposalVersion?, Db.proposal?, h.proposalVersions, h.proposals]
  current := by simp [Db.proposal?, h.proposals]
  agreed := by simp [h.contracts]
  bound := by simp [h.versions]
  signed := by simp [h.signatures]
  detailed := by simp [h.milestones]

/-- What is known of a commit. -/
structure Committed (cfg : Settings) (mode : Mode) (p : Point) (d d' : Db) : Prop where
  inv : Consistent cfg d
  inv' : Consistent cfg d'
  frame : Frame ∅ d d'
  effect : ∃ held, Effect cfg (mode.inTxn = true) held d p d'

section
variable {cfg : Settings} {mode : Mode} {ok : Move → Prop} {d : Db} {services : Nat → Service}
  {s : Platform}

theorem holds_of_run (hd : Consistent cfg d) (hr : Sys.Run mode ok (platform cfg d services) s) :
    (agreementLaw cfg mode ok).Holds s :=
  (Txn.Law.Holds.init hd fun i => (services i).obliged).run hr

/-- **The tables are consistent in every state of every run.** -/
theorem consistent_of_run (hd : Consistent cfg d)
    (hr : Sys.Run mode ok (platform cfg d services) s) : Consistent cfg s.db :=
  (holds_of_run hd hr).inv

/-- What one step does to the tables. -/
theorem step_committed {s₀ s : Platform} (hs : (agreementLaw cfg mode ok).Holds s₀)
    (h : Sys.Step mode ok s₀ s) : s.db = s₀.db ∨
      ∃ i p e, ok (.stmt i p s₀.db s.db e) ∧ Committed cfg mode p s₀.db s.db := by
  obtain ⟨i, c, mv, hstep, hok⟩ := h
  obtain ⟨hs', hm⟩ := hs.step hstep hok
  cases mv with
  | stmt j p d d' e =>
    obtain ⟨rfl, rfl, -, -, hdb | ⟨rfl, hcom⟩⟩ := hm
    · exact .inl hdb
    · exact .inr ⟨j, p, _, hok, hs.inv, hs'.inv, hcom.frame (Set.empty_disjoint _), _, hcom⟩
  | call j q a e e' => exact .inl hm.1
  | silent j => exact .inl hm.1

/-- What every commit keeps, holds from a state of a run on. -/
theorem keeps_of_run {P : Db → Prop} {s₀ s : Platform} (hs : (agreementLaw cfg mode ok).Holds s₀)
    (hr : Sys.Run mode ok s₀ s)
    (hc : ∀ i p d d' e, ok (.stmt i p d d' e) → Committed cfg mode p d d' → P d → P d')
    (hP : P s₀.db) : P s.db := by
  refine hs.invariant (P := fun d _ => P d) hr ?_ ?_ hP
  · intro i held p d d' e hi hi' hok hcom hp
    exact hc i p d d' e hok ⟨hi, hi', hcom.frame (Set.empty_disjoint held), held, hcom⟩ hp
  · intro i held q a d e e' hi hok hcall hp
    exact absurd hcall id

/-- What every commit keeps, holds in every state of every run. -/
theorem invariant_of_run {P : Db → Prop} (hd : Consistent cfg d)
    (hr : Sys.Run mode ok (platform cfg d services) s)
    (hc : ∀ i p d d' e, ok (.stmt i p d d' e) → Committed cfg mode p d d' → P d → P d')
    (hP : P d) : P s.db :=
  keeps_of_run (Txn.Law.Holds.init hd fun i => (services i).obliged) hr hc hP

end

/-! ## A project with one proposal -/

def oneProject : Db where
  money := ⟨[], [], [], [], [], [], [], [], [], [], [], [], [], [], [], 0⟩
  projects := [⟨1, 1, "Site", "A web site", some "USD", .opened⟩]
  attachments := []
  proposals := []
  proposalVersions := []
  contracts := []
  versions := []
  milestones := []
  signatures := []

theorem oneProject_blank : Blank oneProject :=
  ⟨rfl, rfl, rfl, rfl, rfl, rfl, rfl, rfl⟩

def anEmployer : User := ⟨1, ["employer"]⟩

def aFreelancer : User := ⟨2, ["freelancer"]⟩

/-- A digest is what was hashed. -/
def someSettings : Settings := ⟨fun s => s, some 1000⟩

def anOffer : VersionInput := ⟨100, "USD", 7, "", [⟨"Design", 40, 3⟩, ⟨"Build", 60, 4⟩]⟩

def someIds : NewIds := ⟨1, 1, fun k => k⟩

end Agreements
