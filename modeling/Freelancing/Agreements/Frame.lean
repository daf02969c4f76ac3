import Freelancing.Agreements.Proposals
import Freelancing.Money.Frame

/-!
# What a transaction of the agreement services may rely on

`Frame held d d'`: the database went from `d` to `d'` while a transaction held the locks `held`.
Rows are never deleted, locked rows and locked entries of unique indexes are as they were, versions
and signatures never change. `Effect`: what each commit of the services does, with what it has
checked before; every effect respects the frame of every other transaction (`Effect.frame`).
-/

namespace Agreements

open Money (UserId ContractId MilestoneId Currency User ContractStatus Contract)

def Proposal.Keeps (x y : Proposal) : Prop := ∃ s n, y = { x with status := s, currentVersion := n }

def ContractDetails.Keeps (x y : ContractDetails) : Prop := ∃ t, y = { x with activatedAt := t }

theorem Proposal.Keeps.refl (x : Proposal) : x.Keeps x := ⟨_, _, rfl⟩

theorem Proposal.Keeps.trans (x y z : Proposal) (h : x.Keeps y) (h' : y.Keeps z) : x.Keeps z := by
  obtain ⟨_, _, rfl⟩ := h
  obtain ⟨_, _, rfl⟩ := h'
  exact ⟨_, _, rfl⟩

theorem ContractDetails.Keeps.refl (x : ContractDetails) : x.Keeps x := ⟨_, rfl⟩

theorem ContractDetails.Keeps.trans (x y z : ContractDetails) (h : x.Keeps y) (h' : y.Keeps z) :
    x.Keeps z := by
  obtain ⟨_, rfl⟩ := h
  obtain ⟨_, rfl⟩ := h'
  exact ⟨_, rfl⟩

abbrev ContractSignature.key (s : ContractSignature) : VersionId × UserId := (s.version, s.user)

/-! ## The frame -/

structure Frame (held : Set LockName) (d d' : Db) : Prop where
  proposals : Table.Evolves Proposal.id (fun k => .proposal k ∈ held) Proposal.Keeps
    d.proposals d'.proposals
  proposalVersions : Table.Evolves ProposalVersion.key (fun k => .proposalVersion k ∈ held) Eq
    d.proposalVersions d'.proposalVersions
  contracts : Table.Evolves Contract.id (fun k => .money (.contract k) ∈ held) Contract.Keeps
    d.money.contracts d'.money.contracts
  details : Table.Evolves ContractDetails.id (fun k => .money (.contract k) ∈ held)
    ContractDetails.Keeps d.contracts d'.contracts
  ofProposal : ∀ k, .contractOfProposal k ∈ held → d.contractOfProposal? k = none →
    d'.contractOfProposal? k = none
  ofProject : ∀ k, .contractOfProject k ∈ held → d.contractOfProject? k = none →
    d'.contractOfProject? k = none
  versions : Table.Evolves ContractVersion.id (fun k => .version k ∈ held) Eq d.versions d'.versions
  milestones : Table.Evolves Money.Milestone.id (fun k => .money (.milestone k) ∈ held) Eq
    d.money.milestones d'.money.milestones
  signatures : Table.Evolves ContractSignature.key (fun k => .signature k.1 k.2 ∈ held) Eq
    d.signatures d'.signatures
  /-- Under the lock of a contract nobody else signs it. -/
  signed : ∀ v n, d.version? v = some n → .money (.contract n.contract) ∈ held →
    d'.signaturesOf v = d.signaturesOf v

namespace Frame

variable {held held' : Set LockName} {d d' d'' : Db}

theorem refl (held : Set LockName) (d : Db) : Frame held d d where
  proposals := .refl Proposal.Keeps.refl
  proposalVersions := .refl fun _ => rfl
  contracts := .refl Contract.Keeps.refl
  details := .refl ContractDetails.Keeps.refl
  ofProposal _ _ h := h
  ofProject _ _ h := h
  versions := .refl fun _ => rfl
  milestones := .refl fun _ => rfl
  signatures := .refl fun _ => rfl
  signed _ _ _ _ := rfl

theorem trans (h : Frame held d d') (h' : Frame held d' d'') : Frame held d d'' where
  proposals := h.proposals.trans Proposal.Keeps.trans h'.proposals
  proposalVersions := h.proposalVersions.trans (fun _ _ _ => Eq.trans) h'.proposalVersions
  contracts := h.contracts.trans Contract.Keeps.trans h'.contracts
  details := h.details.trans ContractDetails.Keeps.trans h'.details
  ofProposal k hk hn := h'.ofProposal k hk (h.ofProposal k hk hn)
  ofProject k hk hn := h'.ofProject k hk (h.ofProject k hk hn)
  versions := h.versions.trans (fun _ _ _ => Eq.trans) h'.versions
  milestones := h.milestones.trans (fun _ _ _ => Eq.trans) h'.milestones
  signatures := h.signatures.trans (fun _ _ _ => Eq.trans) h'.signatures
  signed v n hv hk := (h'.signed v n (h.versions.eq_of_eq hv) hk).trans (h.signed v n hv hk)

theorem mono (hs : held' ⊆ held) (h : Frame held d d') : Frame held' d d' where
  proposals := h.proposals.mono fun _ hk => hs hk
  proposalVersions := h.proposalVersions.mono fun _ hk => hs hk
  contracts := h.contracts.mono fun _ hk => hs hk
  details := h.details.mono fun _ hk => hs hk
  ofProposal k hk := h.ofProposal k (hs hk)
  ofProject k hk := h.ofProject k (hs hk)
  versions := h.versions.mono fun _ hk => hs hk
  milestones := h.milestones.mono fun _ hk => hs hk
  signatures := h.signatures.mono fun _ hk => hs hk
  signed v n hv hk := h.signed v n hv (hs hk)

end Frame

/-! ## The commits -/

/-- What a version of a proposal was checked for. -/
structure ProposalVersion.Ok (v : ProposalVersion) : Prop where
  sum : v.milestones ≠ [] → (v.milestones.map (·.amountMinor)).sum = v.amountMinor
  sequence : (v.milestones.map (·.sequence)).Pairwise (· < ·)
  storable : v.storable = true

/-- What the flush of a new contract has locked and found absent. -/
structure Reserved (held : Set LockName) (d : Db) (n : NewContract) : Prop where
  contractLock : .money (.contract n.contract.id) ∈ held
  contract : d.money.contract? n.contract.id = none
  details : d.details? n.contract.id = none
  proposalLock : .contractOfProposal n.details.acceptedProposal ∈ held
  ofProposal : d.contractOfProposal? n.details.acceptedProposal = none
  projectLock : .contractOfProject n.details.project ∈ held
  ofProject : d.contractOfProject? n.details.project = none
  versionLock : .version n.version.id ∈ held
  version : d.version? n.version.id = none
  milestones : ∀ m ∈ n.milestones, .money (.milestone m.1.id) ∈ held ∧
    d.money.milestone? m.1.id = none
  distinct : (n.milestones.map (·.1.id)).Nodup
  parties : (n.details.parties.map (·.user)).Nodup

/-- What a new contract was made of, and checked for. -/
structure Created (cfg : Settings) (held : Set LockName) (d : Db) (proposal : Proposal)
    (n : NewContract) : Prop extends Reserved held d n where
  made : ∃ ids project v attachments bps, project.id = proposal.project ∧ v ∈ d.proposalVersions ∧
    v.key = (proposal.id, proposal.currentVersion) ∧ 0 ≤ bps ∧ bps ≤ 10000 ∧
    (∀ a ∈ attachments, a.project = project.id) ∧
    n = newContract cfg ids project proposal v
      (buildSnapshot project proposal v (milestoneTerms v) attachments bps)

/-- What a signature was checked for. -/
structure Signed (held : Set LockName) (d : Db) (c : Contract) (x : ContractDetails)
    (v : ContractVersion) (s : ContractSignature) : Prop where
  lock : .money (.contract c.id) ∈ held
  contract : d.contract? c.id = some (c, x)
  status : c.status ≠ .cancelled
  version : d.version? v.id = some v ∧ v.contract = c.id ∧ v.versionNumber = x.currentVersion
  made : s.version = v.id ∧ s.documentHash = v.documentHash
  signatureLock : .signature s.version s.user ∈ held
  fresh : d.signature? s.version s.user = none
  party : s.user = c.employer ∨ s.user = c.freelancer

/-- The signature is recorded; when it is the last one, the contract is active. -/
def Db.sign (c : Contract) (x : ContractDetails) (s : ContractSignature) (d : Db) : Db :=
  let d' := d.addSignature s
  if allSigned x ((d'.signaturesOf s.version).map (·.user)) then d'.activateContract c.id else d'

inductive Effect (cfg : Settings) (serial : Prop) (held : Set LockName) (d : Db) : Point → Db → Prop
  | proposalCreated (p : Proposal) (v : ProposalVersion) (hl : .proposal p.id ∈ held)
      (hn : d.proposal? p.id = none) (hs : p.status = .draft) (hc : p.currentVersion = 1)
      (hvl : .proposalVersion v.key ∈ held) (hv : d.proposalVersion? v.key = none)
      (hk : v.key = (p.id, 1)) (hok : v.Ok) :
      Effect cfg serial held d (.commit (.proposalCreated p.id)) (d.addProposal p v)
  | versionAdded (loaded : Proposal) (v : ProposalVersion) (hl : .proposal loaded.id ∈ held)
      (hp : (d.proposalVersion? (loaded.id, loaded.currentVersion)).isSome)
      (hvl : .proposalVersion v.key ∈ held) (hv : d.proposalVersion? v.key = none)
      (hk : v.key = (loaded.id, loaded.currentVersion + 1)) (hok : v.Ok)
      (hs : loaded.status = .draft ∨ loaded.status = .underNegotiation)
      (hcur : serial → d.proposal? loaded.id = some loaded) :
      Effect cfg serial held d (.commit (.versionAdded loaded))
        ((d.setCurrentVersion loaded.id v.versionNumber).addProposalVersion v)
  | transitioned (loaded : Proposal) (target : ProposalStatus) (hl : .proposal loaded.id ∈ held)
      (hp : ∃ p, d.proposal? loaded.id = some p) (ht : target ∈ allowedTransitions loaded.status)
      (ha : target = .accepted → (d.contractOfProposal? loaded.id).isSome)
      (hcur : serial → d.proposal? loaded.id = some loaded) :
      Effect cfg serial held d (.commit (.transitioned loaded target))
        (d.setProposalStatus loaded.id target)
  | accepted (loaded : Proposal) (n : NewContract) (hl : .proposal loaded.id ∈ held)
      (hp : ∃ p, d.proposal? loaded.id = some p ∧ loaded.Keeps p)
      (ht : .accepted ∈ allowedTransitions loaded.status) (hc : Created cfg held d loaded n)
      (hcur : serial → d.proposal? loaded.id = some loaded) :
      Effect cfg serial held d (.commit (.transitioned loaded .accepted))
        ((d.addContract n).setProposalStatus loaded.id .accepted)
  | signed (c : Contract) (x : ContractDetails) (v : ContractVersion) (s : ContractSignature)
      (hs : Signed held d c x v s) :
      Effect cfg serial held d (.commit (.signed c.id)) (d.sign c x s)
  | cancelled (id : ContractId) (hl : .money (.contract id) ∈ held) :
      Effect cfg serial held d (.money (.commit (.contractCancelled id)))
        { d with money := d.money.cancelContract id }

/-! ## The frame of a commit -/

theorem Effect.frame {cfg : Settings} {serial : Prop} {held held' : Set LockName}
    {d d' : Db} {p : Point} (h : Effect cfg serial held d p d') (hd : Disjoint held' held) :
    Frame held' d d' := by
  have hno : ∀ {k : LockName}, k ∈ held → k ∉ held' := fun hk hk' =>
    Set.disjoint_left.1 hd hk' hk
  have hrefl := Frame.refl held' d
  cases h with
  | proposalCreated p v hl hn hs hc hvl hv =>
    exact { hrefl with
      proposals := .cons Proposal.Keeps.refl (hno hl) hn
      proposalVersions := .cons (fun _ => rfl) (hno hvl) hv }
  | versionAdded loaded v hl hp hvl hv =>
    exact { hrefl with
      proposals := .modify (fun _ => rfl) Proposal.Keeps.refl (hno hl) fun _ _ => ⟨_, _, rfl⟩
      proposalVersions := .cons (fun _ => rfl) (hno hvl) hv }
  | transitioned loaded target hl =>
    exact { hrefl with
      proposals := .modify (fun _ => rfl) Proposal.Keeps.refl (hno hl) fun _ _ => ⟨_, _, rfl⟩ }
  | accepted loaded n hl hp ht hc =>
    obtain ⟨ids, project, v, attachments, bps, hpr, hv, hk, h0, h1, hatt, rfl⟩ := hc.made
    refine { hrefl with
      proposals := .modify (fun _ => rfl) Proposal.Keeps.refl (hno hl) fun _ _ => ⟨_, _, rfl⟩
      contracts := .cons Contract.Keeps.refl (hno hc.contractLock) hc.contract
      details := .cons ContractDetails.Keeps.refl (hno hc.contractLock) hc.details
      ofProposal := fun k hk hn => ?_
      ofProject := fun k hk hn => ?_
      versions := .cons (fun _ => rfl) (hno hc.versionLock) hc.version
      milestones := ?_ }
    · refine Table.get_cons.trans ((if_neg fun he => hno hc.proposalLock ?_).trans hn)
      rwa [he]
    · refine Table.get_cons.trans ((if_neg fun he => hno hc.projectLock ?_).trans hn)
      rwa [he]
    · refine .append (fun _ => rfl) (fun x hx => ?_) (fun x hx => ?_) ?_
      · obtain ⟨y, hy, rfl⟩ := List.mem_map.1 hx
        obtain ⟨t, -, rfl⟩ := List.mem_map.1 hy
        exact hno (hc.milestones _ hy).1
      · obtain ⟨y, hy, rfl⟩ := List.mem_map.1 hx
        obtain ⟨t, -, rfl⟩ := List.mem_map.1 hy
        exact (hc.milestones _ hy).2
      · have hn := hc.distinct
        simp only [newContract, List.map_map] at hn ⊢
        exact hn
  | signed c x v s hs =>
    have hsig : ∀ u n, d.version? u = some n → .money (.contract n.contract) ∈ held' →
        (d.addSignature s).signaturesOf u = d.signaturesOf u := by
      intro u n hn hl
      refine List.filter_cons_of_neg ?_
      simp only [decide_eq_true_eq]
      intro he
      rw [← he, hs.made.1, hs.version.1] at hn
      cases hn
      rw [hs.version.2.1] at hl
      exact hno hs.lock hl
    have hrow : Table.Evolves ContractSignature.key (fun k => .signature k.1 k.2 ∈ held') Eq
        d.signatures (s :: d.signatures) :=
      .cons (fun _ => rfl) (hno hs.signatureLock) (by
        rw [Table.get_eq_none]
        intro y hy he
        have := List.find?_eq_none.1 hs.fresh y hy
        simp_all)
    unfold Db.sign
    dsimp only
    split
    · exact { hrefl with
        contracts := .modify (fun _ => rfl) Contract.Keeps.refl (hno hs.lock) fun _ _ => ⟨_, rfl⟩
        details := .modify (fun _ => rfl) ContractDetails.Keeps.refl (hno hs.lock)
          fun _ _ => ⟨_, rfl⟩
        ofProposal := fun k _ hn =>
          (Db.contractOfProposal?_activateContract _ _ _).trans (Option.map_eq_none_iff.2 hn)
        ofProject := fun k _ hn =>
          (Db.contractOfProject?_activateContract _ _ _).trans (Option.map_eq_none_iff.2 hn)
        signatures := hrow
        signed := hsig }
    · exact { hrefl with signatures := hrow, signed := hsig }
  | cancelled id hl =>
    exact { hrefl with
      contracts := .modify (fun _ => rfl) Contract.Keeps.refl (hno hl) fun _ _ => ⟨_, rfl⟩ }

end Agreements
