import Freelancing.Agreements.Projects
import Freelancing.Agreements.Runs
import Freelancing.Txn.Solo

/-!
# Negotiations

Projects and the proposals for them, up to the acceptance of one: requests that are served one after
another. `Change`: what one of them does to the tables, with what it has read.
-/

namespace Agreements

open Money (UserId Currency User Err)
open Text (upper)
open Txn (Law Mode)

inductive Negotiation
  | createProject (user : User) (x : ProjectInput) (id : ProjectId)
  | updateProject (user : User) (project : ProjectId) (x : ProjectInput)
  | createProposal (user : User) (project : ProjectId) (x : VersionInput) (id : ProposalId)
      (version : VersionId)
  | addProposalVersion (user : User) (proposal : ProposalId) (x : VersionInput)
      (version : VersionId)
  | transitionProposal (user : User) (proposal : ProposalId) (target : String) (ids : NewIds)

def Negotiation.program (cfg : Settings) :
    Negotiation → Tx (Project ⊕ (Proposal × List ProposalVersion))
  | .createProject user x id => Sum.inl <$> Agreements.createProject user x id
  | .updateProject user project x => Sum.inl <$> Agreements.updateProject user project x
  | .createProposal user project x id version =>
    Sum.inr <$> Agreements.createProposal user project x id version
  | .addProposalVersion user proposal x version =>
    Sum.inr <$> Agreements.addProposalVersion user proposal x version
  | .transitionProposal user proposal target ids =>
    Sum.inr <$> Agreements.transitionProposal cfg user proposal target ids

/-- No negotiation asks the payment provider. -/
def unasked : Money.Request → Money.Answer := fun _ => .failed

/-- The tables after the request. -/
def Negotiation.after (cfg : Settings) (x : Negotiation) (d : Db) : Db :=
  ((x.program cfg).alone unasked d id).db

/-! ## What a request does -/

/-- `x` makes `d'` of `d`. -/
inductive Change (cfg : Settings) (d : Db) (x : Negotiation) : Db → Prop
  | refused : Change cfg d x d
  | projectCreated (p : Project) (hn : d.project? p.id = none) : Change cfg d x (d.addProject p)
  | projectUpdated (user : User) (p : Project) (y : ProjectInput)
      (hx : x = .updateProject user p.id y) (hp : d.project? p.id = some p)
      (hy : y.editable user p = true) : Change cfg d x (d.editProject p.id y)
  | proposalCreated (q : Proposal) (v : ProposalVersion) (p : Project)
      (hp : d.project? q.project = some p) (hn : d.proposal? q.id = none) (hs : q.status = .draft)
      (hk : v.key = (q.id, q.currentVersion)) (hc : p.currency.all (· = v.currency) = true) :
      Change cfg d x (d.addProposal q v)
  | versionAdded (q : Proposal) (v current : ProposalVersion) (hq : d.proposal? q.id = some q)
      (hlast : (d.proposalVersionsOf q.id).getLast? = some current)
      (hk : v.key = (q.id, q.currentVersion + 1)) (hfree : d.proposalVersion? v.key = none)
      (hc : current.currency = v.currency ∨
        ∀ p, d.project? q.project = some p → p.currency.all (· = v.currency) = true) :
      Change cfg d x ((d.setCurrentVersion q.id v.versionNumber).addProposalVersion v)
  | transitioned (q : Proposal) (t : ProposalStatus) (hq : d.proposal? q.id = some q)
      (ht : t ∈ allowedTransitions q.status)
      (ha : t = .accepted → (d.contractOfProposal? q.id).isSome) :
      Change cfg d x (d.setProposalStatus q.id t)
  | accepted (q : Proposal) (n : NewContract) (p : Project) (v : ProposalVersion)
      (attachments : List ProjectAttachment) (bps : Int) (ids : NewIds)
      (hq : d.proposal? q.id = some q) (ht : .accepted ∈ allowedTransitions q.status)
      (hp : d.project? q.project = some p) (hv : v ∈ d.proposalVersions)
      (hk : v.key = (q.id, q.currentVersion))
      (hn : n = newContract cfg ids p q v
        (buildSnapshot p q v (milestoneTerms v) attachments bps)) :
      Change cfg d x ((d.addContract n).setProposalStatus q.id .accepted)

section
variable {cfg : Settings} {d : Db} {pend : Db → Db} {x : Negotiation} {I : Db → Prop} {β : Type}

/-- The obligation of a request that is served alone. -/
abbrev Owes (I : Db → Prop) (p : Tx β) (d : Db) (pend : Db → Db) (Q : Db → (Db → Db) → β → Prop) :
    Prop :=
  p.solo unasked I d pend Q

theorem require_owes {c : Bool} {e : Err} {Q : Db → (Db → Db) → Unit → Prop}
    (h : c = true → Q d pend ()) : Owes I (require c e) d pend Q := Txn.Prog.solo_require h

theorem reserve_owes {e : Err} {name : LockName} {q : Db → Bool} {Q : Db → (Db → Db) → Unit → Prop}
    (h : q (pend d) = false → Q d pend ()) : Owes I (reserve e name q) d pend Q := by
  refine Txn.Prog.solo_bind (require_owes fun hq => h ?_)
  simpa using hq

theorem getProject_owes {k : ProjectId} {Q : Db → (Db → Db) → Project → Prop}
    (h : ∀ p, (pend d).project? k = some p → Q d pend p) : Owes I (getProject k) d pend Q := by
  unfold getProject
  refine Txn.Prog.solo_bind (Txn.Prog.solo_select ?_)
  cases hp : (pend d).project? k with
  | none => trivial
  | some p => exact h p hp

theorem getProposal_owes {k : ProposalId}
    {Q : Db → (Db → Db) → Proposal × List ProposalVersion → Prop}
    (h : ∀ q, (pend d).proposal? k = some q → Q d pend (q, (pend d).proposalVersionsOf q.id)) :
    Owes I (getProposal k) d pend Q := by
  unfold getProposal
  refine Txn.Prog.solo_bind (Txn.Prog.solo_select ?_)
  cases hq : (pend d).proposal? k with
  | none => trivial
  | some q => exact h q hq

theorem newVersion_owes {id : VersionId} {k : ProposalId} {n : Nat} {y : VersionInput}
    {Q : Db → (Db → Db) → ProposalVersion → Prop}
    (h : ∀ v : ProposalVersion, v.key = (k, n) → v.currency = y.currency → Q d pend v) :
    Owes I (newVersion id k n y) d pend Q :=
  Txn.Prog.solo_bind (require_owes fun _ => h _ rfl rfl)

theorem insertVersion_owes {e : Err} {v : ProposalVersion} {Q : Db → (Db → Db) → Unit → Prop}
    (h : (pend d).proposalVersion? v.key = none → Q d pend ()) :
    Owes I (insertVersion e v) d pend Q := by
  refine Txn.Prog.solo_bind (reserve_owes fun hv => ?_)
  refine Txn.Prog.solo_bind (require_owes fun _ => require_owes fun _ => h ?_)
  simpa using hv

theorem validateBudget_owes {y : ProjectInput} {Q : Db → (Db → Db) → Unit → Prop}
    (h : y.complete = true → y.ordered = true → Q d pend ()) :
    Owes I (validateBudget y) d pend Q :=
  Txn.Prog.solo_bind (require_owes fun hc => require_owes fun ho => h hc ho)

/-! ### Projects -/

theorem createProject_owes {user : User} {y : ProjectInput} {k : ProjectId}
    (h : ∀ p, d.project? p.id = none → I (d.addProject p)) :
    Owes I (createProject user y k) d id fun _ _ _ => True := by
  refine Txn.Prog.solo_bind (validateBudget_owes fun _ _ => ?_)
  refine Txn.Prog.solo_bind (reserve_owes fun hk => ?_)
  refine Txn.Prog.solo_bind (require_owes fun _ => ?_)
  refine ⟨h _ (by simpa using hk), getProject_owes fun _ _ => trivial⟩

theorem updateProject_owes {user : User} {y : ProjectInput} {k : ProjectId}
    (h : ∀ p, p.id = k → d.project? p.id = some p → y.editable user p = true →
      I (d.editProject p.id y)) : Owes I (updateProject user k y) d id fun _ _ _ => True := by
  refine Txn.Prog.solo_bind (getProject_owes fun p hp => ?_)
  obtain rfl : p.id = k := Table.get_key hp
  refine Txn.Prog.solo_bind
    (require_owes fun hcan => Txn.Prog.solo_bind (require_owes fun hs => ?_))
  refine Txn.Prog.solo_bind (validateBudget_owes fun hc ho => ?_)
  refine Txn.Prog.solo_bind (require_owes fun hr => ?_)
  refine ⟨h p rfl hp ?_, getProject_owes fun _ _ => trivial⟩
  unfold ProjectInput.editable
  rw [hcan, hs, hc, ho, hr]
  rfl

/-! ### Proposals -/

theorem createProposal_owes {user : User} {projectId : ProjectId} {y : VersionInput}
    {k : ProposalId} {versionId : VersionId} :
    Owes (Change cfg d x) (createProposal user projectId y k versionId) d id fun _ _ _ => True := by
  refine Txn.Prog.solo_bind (getProject_owes fun p hp => ?_)
  obtain rfl : p.id = projectId := Table.get_key hp
  refine Txn.Prog.solo_bind (require_owes fun _ => Txn.Prog.solo_bind (require_owes fun hc => ?_))
  refine Txn.Prog.solo_bind (newVersion_owes fun v hk hcur => ?_)
  refine Txn.Prog.solo_bind
    (reserve_owes fun hfree => Txn.Prog.solo_bind (reserve_owes fun _ => ?_))
  refine Txn.Prog.solo_bind (insertVersion_owes fun _ => ?_)
  refine ⟨.proposalCreated ⟨k, p.id, user.id, .draft, 1⟩ v p hp ?_ rfl hk ?_,
    getProposal_owes fun _ _ => trivial⟩
  · simpa using hfree
  · rw [hcur]
    exact hc

theorem addProposalVersion_owes {user : User} {k : ProposalId} {y : VersionInput}
    {versionId : VersionId} :
    Owes (Change cfg d x) (addProposalVersion user k y versionId) d id fun _ _ _ => True := by
  refine Txn.Prog.solo_bind (getProposal_owes fun q hq => ?_)
  obtain rfl : q.id = k := Table.get_key hq
  dsimp only [id]
  refine Txn.Prog.solo_bind (require_owes fun _ => Txn.Prog.solo_bind (require_owes fun _ => ?_))
  cases hlast : (d.proposalVersionsOf q.id).getLast? with
  | none => trivial
  | some current =>
  -- whether the project has been read or not
  have hrest : (current.currency = y.currency ∨
        ∀ p, d.project? q.project = some p → p.currency.all (· = y.currency) = true) →
      Owes (Change cfg d x) (do
        let version ← newVersion versionId q.id (q.currentVersion + 1) y
        update (.proposal q.id) (Db.setCurrentVersion q.id version.versionNumber)
        insertVersion .integrity version
        write (Db.addProposalVersion version)
        commit (.versionAdded q)
        getProposal q.id) d id fun _ _ _ => True := by
    intro hc
    refine Txn.Prog.solo_bind (newVersion_owes fun v hk hcur => ?_)
    refine Txn.Prog.solo_bind (show Owes _ (update _ _) d id _ from ?_)
    refine Txn.Prog.solo_bind (insertVersion_owes fun hfree => ?_)
    refine ⟨.versionAdded q v current hq hlast hk hfree ?_, getProposal_owes fun _ _ => trivial⟩
    rw [hcur]
    exact hc
  dsimp only
  split
  · refine Txn.Prog.solo_bind
      (getProject_owes fun p hp => Txn.Prog.solo_bind (require_owes fun hc => ?_))
    refine hrest (.inr fun p' hp' => ?_)
    obtain rfl : p = p' := Option.some.inj (hp.symm.trans hp')
    exact hc
  · rename_i hc
    exact hrest (.inl (not_not.1 hc))

/-! ### Acceptance -/

theorem insertContract_owes {e : Err} {n : NewContract} {Q : Db → (Db → Db) → Unit → Prop}
    (h : Q d (Db.addContract n ∘ pend) ()) : Owes I (insertContract e n) d pend Q := by
  have hmilestones :
      ∀ (l : List Money.MilestoneId) (Q : Db → (Db → Db) → Unit → Prop), Q d pend () →
      Owes I (reserveMilestones e l) d pend Q := by
    intro l
    induction l with
    | nil => exact fun _ h => h
    | cons k l ih => exact fun Q h => Txn.Prog.solo_bind (reserve_owes fun _ => ih Q h)
  refine Txn.Prog.solo_bind (reserve_owes fun _ => Txn.Prog.solo_bind (reserve_owes fun _ => ?_))
  refine Txn.Prog.solo_bind (reserve_owes fun _ => Txn.Prog.solo_bind (require_owes fun _ => ?_))
  refine Txn.Prog.solo_bind (reserve_owes fun _ => Txn.Prog.solo_bind (require_owes fun _ => ?_))
  exact Txn.Prog.solo_bind (hmilestones _ _ h)

theorem createContract_owes {e : Err} {ids : NewIds} {q : Proposal}
    {versions : List ProposalVersion} {p : Project} {Q : Db → (Db → Db) → Unit → Prop}
    (hold : ((pend d).contractOfProposal? q.id).isSome → Q d pend ())
    (hnew : ∀ v attachments bps, v ∈ versions → v.versionNumber = q.currentVersion →
      Q d (Db.addContract (newContract cfg ids p q v
        (buildSnapshot p q v (milestoneTerms v) attachments bps)) ∘ pend) ()) :
    Owes I (createContract cfg e ids q versions p) d pend Q := by
  unfold createContract
  refine Txn.Prog.solo_bind (Txn.Prog.solo_select ?_)
  cases hx : (pend d).contractOfProject? p.id with
  | some existing =>
    refine require_owes fun he => hold ?_
    exact Table.get_isSome.2 ⟨existing, Table.get_mem hx, of_decide_eq_true he⟩
  | none =>
    refine Txn.Prog.solo_bind ?_
    unfold currentProposalVersion
    cases hv : versions.find? fun v => v.versionNumber = q.currentVersion with
    | none => trivial
    | some v =>
    have hnum : v.versionNumber = q.currentVersion := by simpa using List.find?_some hv
    refine Txn.Prog.solo_bind (show Owes _ (select _) d pend _ from Txn.Prog.solo_bind ?_)
    unfold commissionBps
    split
    · trivial
    · refine Txn.Prog.solo_bind (require_owes fun _ => ?_)
      exact insertContract_owes (hnew v _ _ (List.mem_of_find?_eq_some hv) hnum)

theorem flushStatus_owes {q : Proposal} {t : ProposalStatus} {Q : Db → (Db → Db) → Unit → Prop}
    (h : Q d (Db.setProposalStatus q.id t ∘ pend) ()) : Owes I (flushStatus q t) d pend Q := by
  refine Txn.Prog.solo_bind ?_
  change Owes I (if t = .accepted then reserve _ _ _ else pure ()) d
    (Db.setProposalStatus q.id t ∘ pend) Q
  split
  · exact reserve_owes fun _ => h
  · exact h

theorem transitionProposal_owes {user : User} {k : ProposalId} {target : String} {ids : NewIds} :
    Owes (Change cfg d x) (transitionProposal cfg user k target ids) d id fun _ _ _ => True := by
  refine Txn.Prog.solo_bind (getProposal_owes fun q hq => ?_)
  obtain rfl : q.id = k := Table.get_key hq
  refine Txn.Prog.solo_bind (getProject_owes fun p hp => ?_)
  cases ht : (allowedTransitions q.status).find? fun s => s.name = upper target with
  | none => trivial
  | some t =>
  have hallowed := List.mem_of_find?_eq_some ht
  refine Txn.Prog.solo_bind (show Owes _ (requireMayTransition user q p t) d id _ from ?_)
  have hmay : ∀ {Q : Db → (Db → Db) → Unit → Prop}, Q d id () →
      Owes (Change cfg d x) (requireMayTransition user q p t) d id Q := by
    intro Q h
    unfold requireMayTransition
    split
    · exact require_owes fun _ => h
    · exact require_owes fun _ => h
  refine hmay (Txn.Prog.solo_bind (require_owes fun _ => Txn.Prog.solo_bind ?_))
  unfold createOnAcceptance
  split
  · rename_i hacc
    subst hacc
    refine createContract_owes (fun hex => ?_) fun v attachments bps hv hnum => ?_
    · refine Txn.Prog.solo_bind (flushStatus_owes ?_)
      exact ⟨.transitioned q .accepted hq hallowed fun _ => hex,
        getProposal_owes fun _ _ => trivial⟩
    · refine Txn.Prog.solo_bind (flushStatus_owes ?_)
      obtain ⟨hmem, hvp⟩ := proposalVersionsOf_mem hv
      exact ⟨.accepted q _ p v attachments bps ids hq hallowed hp hmem (Prod.ext hvp hnum) rfl,
        getProposal_owes fun _ _ => trivial⟩
  · rename_i hacc
    refine Txn.Prog.solo_bind (flushStatus_owes ?_)
    exact ⟨.transitioned q t hq hallowed fun h => absurd h hacc,
      getProposal_owes fun _ _ => trivial⟩

/-- What follows from a request's own obligation. -/
theorem Owes.answered {γ : Type} {p : Tx β} {f : β → γ} (h : Owes I p d id fun _ _ _ => True)
    (hd : I d) : I ((f <$> p : Tx γ).alone unasked d id).db :=
  (Txn.Prog.solo_sound hd (Txn.Prog.solo_bind (Txn.Prog.solo_mono h fun _ _ _ _ => trivial :
    p.solo unasked I d id fun d pend r => (pure (f r) : Tx γ).solo unasked I d pend fun _ _ _ =>
      True))).1

/-- **What a request does to the tables.** -/
theorem Negotiation.change : Change cfg d x (x.after cfg d) := by
  cases x with
  | createProject user y k =>
    exact Owes.answered (createProject_owes fun p hn => .projectCreated p hn) .refused
  | updateProject user k y =>
    refine Owes.answered (updateProject_owes fun p hk hp hy => ?_) .refused
    subst hk
    exact .projectUpdated user p y rfl hp hy
  | createProposal => exact Owes.answered createProposal_owes .refused
  | addProposalVersion => exact Owes.answered addProposalVersion_owes .refused
  | transitionProposal => exact Owes.answered transitionProposal_owes .refused

/-! ### The tables stay consistent -/

theorem Consistent.projects_changed (h : Consistent cfg d) (l : List Project) :
    Consistent cfg { d with projects := l } :=
  { h with
    agreed := fun y hy => by
      obtain ⟨c, n, v, ha⟩ := h.agreed y hy
      exact ⟨c, n, v, { ha with }⟩ }

/-- What keeps the tables consistent beside others keeps them so alone. -/
theorem Obliged.answered {p : Tx (Proposal × List ProposalVersion)} (hd : Consistent cfg d)
    (h : Obliged cfg .serial (fun _ => True) 0 p ⟨∅, id, false, (d, ())⟩ fun _ _ => True) :
    Consistent cfg ((Sum.inr <$> p : Tx (Project ⊕ _)).alone unasked d id).db := by
  have hp : Obliged cfg .serial (fun _ => True) 0 (Sum.inr <$> p : Tx (Project ⊕ _))
      ⟨∅, id, false, (d, ())⟩ fun _ _ => True := Law.wp_bind (Law.wp_mono h fun _ _ _ => trivial)
  exact Law.inv_alone (fun _ => trivial) hp ⟨.refl _ _ _, hd⟩

theorem Negotiation.consistent (hd : Consistent cfg d) : Consistent cfg (x.after cfg d) := by
  cases x with
  | createProject =>
    exact Owes.answered (createProject_owes fun p _ => hd.projects_changed (p :: d.projects)) hd
  | updateProject =>
    exact Owes.answered (updateProject_owes fun _ _ _ _ => hd.projects_changed _) hd
  | createProposal => exact Obliged.answered hd createProposal_wp
  | addProposalVersion => exact Obliged.answered hd addProposalVersion_wp
  | transitionProposal => exact Obliged.answered hd transitionProposal_wp

end

end Agreements
