import Freelancing.Agreements.Frame

/-!
# The invariant of the tables

`Consistent cfg d`: versions of a proposal are numbered from one to the current one, and every
contract is the agreement that its proposal's version stands for (`Agreed`): one version with the
hash of its snapshot, the milestones of the proposal, two parties, and active exactly if both have
signed and it is not cancelled. It holds whatever overlaps with whatever (`Effect.consistent`).
-/

namespace Agreements

open Money (UserId ContractId MilestoneId Currency User ContractStatus Contract)

/-- The row of the contract `x`, its version `n`, and the version `v` of the proposal it was made
from. -/
structure Agreed (cfg : Settings) (d : Db) (x : ContractDetails) (c : Contract)
    (n : ContractVersion) (v : ProposalVersion) : Prop where
  contract : d.money.contract? x.id = some c
  versions : d.versionsOf x.id = [n]
  current : n.versionNumber = x.currentVersion
  hash : n.documentHash = cfg.documentHash n.snapshot
  proposal : ∃ p, d.proposal? x.acceptedProposal = some p
  source : d.proposalVersion? (x.acceptedProposal, n.snapshot.proposalVersion) = some v
  snapshot : ∃ project proposal attachments bps, proposal.id = x.acceptedProposal ∧ 0 ≤ bps ∧
    bps ≤ 10000 ∧ c.commission = .platformBps (some bps) ∧
    (∀ a ∈ attachments, a.project = project.id) ∧
    n.snapshot = buildSnapshot project proposal v (milestoneTerms v) attachments bps
  milestones : ∃ ids : NewIds, ids.version = n.id ∧ ids.contract = x.id ∧
    d.milestonesOf n.id = (milestoneTerms v).map (newMilestone ids v.currency)
  parties : x.parties = [⟨c.employer, .employer, true⟩, ⟨c.freelancer, .freelancer, true⟩]
  active : c.status = .active ↔
    c.status ≠ .cancelled ∧ allSigned x ((d.signaturesOf n.id).map (·.user)) = true
  activated : x.activatedAt.isSome = allSigned x ((d.signaturesOf n.id).map (·.user))

structure Consistent (cfg : Settings) (d : Db) : Prop where
  proposals : (d.proposals.map Proposal.id).Nodup
  proposalVersions : (d.proposalVersions.map ProposalVersion.key).Nodup
  contracts : (d.money.contracts.map Contract.id).Nodup
  details : (d.contracts.map ContractDetails.id).Nodup
  ofProposal : (d.contracts.map ContractDetails.acceptedProposal).Nodup
  versions : (d.versions.map ContractVersion.id).Nodup
  milestones : (d.money.milestones.map Money.Milestone.id).Nodup
  signatures : (d.signatures.map ContractSignature.key).Nodup
  versionOk : ∀ v ∈ d.proposalVersions, v.Ok
  numbered : ∀ id n, (d.proposalVersion? (id, n)).isSome ↔
    ∃ p, d.proposal? id = some p ∧ 1 ≤ n ∧ n ≤ p.currentVersion
  current : ∀ id p, d.proposal? id = some p → 1 ≤ p.currentVersion
  agreed : ∀ x ∈ d.contracts, ∃ c n v, Agreed cfg d x c n v
  bound : ∀ n ∈ d.versions, (d.details? n.contract).isSome
  signed : ∀ s ∈ d.signatures, ∃ n, d.version? s.version = some n ∧ s.documentHash = n.documentHash
  detailed : ∀ m ∈ d.milestones, (d.version? m.version).isSome ∧ (d.money.milestone? m.id).isSome

/-! ## Terms -/

theorem milestoneTerms_sequence {v : ProposalVersion} (h : v.Ok) :
    ((milestoneTerms v).map (·.sequence)).Pairwise (· < ·) := by
  unfold milestoneTerms
  split
  · simp
  · exact h.sequence

theorem milestoneTerms_sum {v : ProposalVersion} (h : v.Ok) :
    ((milestoneTerms v).map (·.amountMinor)).sum = v.amountMinor := by
  unfold milestoneTerms
  split
  · simp
  · rename_i hne
    exact h.sum (by simpa using hne)

/-! ## The milestones of a new contract -/

section
variable {d : Db} {n : NewContract} {v : VersionId}

theorem Db.milestonesOf_addContract_ne (hv : v ≠ n.version.id)
    (hm : ∀ m ∈ n.milestones, m.1.version = n.version.id ∧ m.1.id = m.2.id ∧
      d.money.milestone? m.1.id = none)
    (hd : ∀ m ∈ d.milestones, (d.money.milestone? m.id).isSome) :
    (d.addContract n).milestonesOf v = d.milestonesOf v := by
  unfold Db.milestonesOf
  congr 1
  change List.filterMap _ (n.milestones.map (·.1) ++ d.milestones) = _
  rw [List.filterMap_append, List.filterMap_eq_nil_iff.2, List.nil_append]
  · refine List.filterMap_congr fun x hx => ?_
    split
    · congr 1
      refine Table.get_append _ |>.trans ?_
      rw [Table.get_eq_none.2, Option.none_or]
      · rfl
      · intro y hy he
        obtain ⟨m, hmem, rfl⟩ := List.mem_map.1 hy
        obtain ⟨-, hid, hnone⟩ := hm m hmem
        have := hd x hx
        rw [← he, ← hid, hnone] at this
        cases this
    · rfl
  · intro x hx
    obtain ⟨m, hmem, rfl⟩ := List.mem_map.1 hx
    rw [if_neg]
    rw [(hm m hmem).1]
    exact Ne.symm hv

theorem Db.milestonesOf_addContract_self
    (hm : ∀ m ∈ n.milestones, m.1.version = n.version.id ∧ m.1.id = m.2.id)
    (hnd : (n.milestones.map (·.1.id)).Nodup)
    (hs : (n.milestones.map (·.1.sequence)).Pairwise (· < ·))
    (hd : ∀ m ∈ d.milestones, m.version ≠ n.version.id) :
    (d.addContract n).milestonesOf n.version.id = n.milestones := by
  have hrows : (n.milestones.map (·.2)).map Money.Milestone.id = n.milestones.map (·.1.id) := by
    rw [List.map_map]
    exact List.map_congr_left fun m hmem => (hm m hmem).2.symm
  have hnew : ((n.milestones.map (·.1)).filterMap fun x =>
      if x.version = n.version.id then
        ((d.addContract n).money.milestone? x.id).map fun m => (x, m) else none) =
        n.milestones := by
    rw [List.filterMap_map]
    refine (List.filterMap_congr fun m hmem => ?_).trans List.filterMap_some
    have hget : (d.addContract n).money.milestone? m.2.id = some m.2 :=
      (Table.get_append _).trans (by
        rw [Table.get_of_mem (hrows ▸ hnd) (List.mem_map_of_mem hmem)]
        rfl)
    simp only [Function.comp_apply, (hm m hmem).1, if_true, (hm m hmem).2, hget, Option.map_some]
  have hold : (d.milestones.filterMap fun x =>
      if x.version = n.version.id then
        ((d.addContract n).money.milestone? x.id).map fun m => (x, m) else none) = [] :=
    List.filterMap_eq_nil_iff.2 fun x hx => if_neg (hd x hx)
  unfold Db.milestonesOf
  change (List.filterMap _ (n.milestones.map (·.1) ++ d.milestones)).insertionSort _ = _
  rw [List.filterMap_append, hnew, hold, List.append_nil]
  exact List.Pairwise.insertionSort_eq ((List.pairwise_map.1 hs).imp Nat.le_of_lt)

end

/-! ## It stays so -/

section
variable {cfg : Settings} {serial : Prop} {held : Set LockName} {d d' : Db} {p : Point}

/-- What keeps the rows of a contract keeps its agreement. -/
theorem Agreed.frame {x : ContractDetails} {c : Contract} {n : ContractVersion}
    {v : ProposalVersion} (h : Agreed cfg d x c n v) (hf : Frame held d d')
    (hc : d'.money.contract? x.id = some c) (hv : d'.versionsOf x.id = d.versionsOf x.id)
    (hm : d'.milestonesOf n.id = d.milestonesOf n.id)
    (hs : d'.signaturesOf n.id = d.signaturesOf n.id) : Agreed cfg d' x c n v where
  contract := hc
  versions := hv.trans h.versions
  current := h.current
  hash := h.hash
  proposal := by
    obtain ⟨p, hp⟩ := h.proposal
    obtain ⟨q, hq, -⟩ := hf.proposals.keep _ p hp
    exact ⟨q, hq⟩
  source := hf.proposalVersions.eq_of_eq h.source
  snapshot := h.snapshot
  milestones := by
    rw [hm]
    exact h.milestones
  parties := h.parties
  active := by
    rw [hs]
    exact h.active
  activated := by
    rw [hs]
    exact h.activated

/-- A commit that changes only proposals. -/
theorem Consistent.proposals_changed (hd : Consistent cfg d) (hf : Frame held d d')
    (hc : d' = { d with proposals := d'.proposals, proposalVersions := d'.proposalVersions })
    (hok : ∀ v ∈ d'.proposalVersions, v.Ok)
    (hn : ∀ id n, (d'.proposalVersion? (id, n)).isSome ↔
      ∃ p, d'.proposal? id = some p ∧ 1 ≤ n ∧ n ≤ p.currentVersion)
    (hcur : ∀ id p, d'.proposal? id = some p → 1 ≤ p.currentVersion) : Consistent cfg d' where
  proposals := hf.proposals.nodup hd.proposals
  proposalVersions := hf.proposalVersions.nodup hd.proposalVersions
  contracts := hf.contracts.nodup hd.contracts
  details := hf.details.nodup hd.details
  ofProposal := by
    rw [hc]
    exact hd.ofProposal
  versions := hf.versions.nodup hd.versions
  milestones := hf.milestones.nodup hd.milestones
  signatures := hf.signatures.nodup hd.signatures
  versionOk := hok
  numbered := hn
  current := hcur
  agreed := by
    intro x hx
    rw [hc] at hx
    obtain ⟨c, n, v, h⟩ := hd.agreed x hx
    exact ⟨c, n, v, h.frame hf (by rw [hc]; exact h.contract) (by rw [hc]; rfl) (by rw [hc]; rfl)
      (by rw [hc]; rfl)⟩
  bound := by
    rw [hc]
    exact hd.bound
  signed := by
    rw [hc]
    exact hd.signed
  detailed := by
    rw [hc]
    exact hd.detailed

theorem numbered_addProposal (hd : Consistent cfg d) {q : Proposal} {v : ProposalVersion}
    (hn : d.proposal? q.id = none) (hc : q.currentVersion = 1) (hk : v.key = (q.id, 1))
    (id : ProposalId) (n : Nat) : ((d.addProposal q v).proposalVersion? (id, n)).isSome ↔
      ∃ p, (d.addProposal q v).proposal? id = some p ∧ 1 ≤ n ∧ n ≤ p.currentVersion := by
  rw [Db.proposalVersion?_addProposal, Db.proposal?_addProposal, hk]
  by_cases hid : q.id = id
  · subst hid
    have hold : (d.proposalVersion? (q.id, n)).isSome = false := by
      have h := (hd.numbered q.id n).not
      simpa [hn] using h
    by_cases h1 : n = 1
    · simp [h1, hc]
    · have hne : ¬ 1 = n := fun h => h1 h.symm
      simp only [Prod.mk.injEq, true_and, hne, if_false, hold, if_true, Option.some.injEq,
        exists_eq_left', hc, Bool.false_eq_true, false_iff]
      omega
  · simp only [Prod.mk.injEq, hid, false_and, if_false]
    exact hd.numbered id n

/-- The version after the loaded one is new, so the loaded one is current. -/
theorem Consistent.current_of_fresh (hd : Consistent cfg d) {id : ProposalId} {k : Nat}
    {q : Proposal} (hq : d.proposal? id = some q) (hp : (d.proposalVersion? (id, k)).isSome)
    (hn : d.proposalVersion? (id, k + 1) = none) : 1 ≤ k ∧ q.currentVersion = k := by
  obtain ⟨q', hq', h1, hk⟩ := (hd.numbered id k).1 hp
  rw [hq] at hq'
  cases hq'
  have hlt : ¬ k + 1 ≤ q.currentVersion := by
    intro hle
    have := (hd.numbered id (k + 1)).2 ⟨q, hq, by omega, hle⟩
    rw [hn] at this
    cases this
  exact ⟨h1, by omega⟩

theorem numbered_addVersion (hd : Consistent cfg d) {id₀ : ProposalId} {k : Nat}
    {v : ProposalVersion} (hp : (d.proposalVersion? (id₀, k)).isSome)
    (hv : d.proposalVersion? (id₀, k + 1) = none) (hk : v.key = (id₀, k + 1))
    (id : ProposalId) (n : Nat) :
    (((d.setCurrentVersion id₀ (k + 1)).addProposalVersion v).proposalVersion? (id, n)).isSome ↔
      ∃ p, ((d.setCurrentVersion id₀ (k + 1)).addProposalVersion v).proposal? id = some p ∧
        1 ≤ n ∧ n ≤ p.currentVersion := by
  simp only [Db.proposalVersion?_addProposalVersion, Db.proposalVersion?_setCurrentVersion,
    Db.proposal?_addProposalVersion, Db.proposal?_setCurrentVersion, hk, Prod.mk.injEq]
  by_cases hid : id₀ = id
  · subst hid
    obtain ⟨q, hq, -, -⟩ := (hd.numbered id₀ k).1 hp
    obtain ⟨h1, hc⟩ := hd.current_of_fresh hq hp hv
    have hold := hd.numbered id₀ n
    simp only [hq, Option.some.injEq, exists_eq_left', hc] at hold
    by_cases hn : k + 1 = n
    · subst hn
      simp [hq]
    · simp only [true_and, hn, if_false, hq, Option.map_some, if_true, Option.some.injEq,
        exists_eq_left', hold]
      omega
  · have hid' : ¬ id = id₀ := fun h => hid h.symm
    simp only [hid, false_and, if_false, hid', Option.map_id']
    exact hd.numbered id n

theorem numbered_setProposalStatus (hd : Consistent cfg d) (id₀ : ProposalId) (s : ProposalStatus)
    (id : ProposalId) (n : Nat) : (d.proposalVersion? (id, n)).isSome ↔
      ∃ p, (d.setProposalStatus id₀ s).proposal? id = some p ∧ 1 ≤ n ∧ n ≤ p.currentVersion := by
  rw [hd.numbered, Db.proposal?_setProposalStatus]
  cases d.proposal? id with
  | none => simp
  | some q => by_cases h : id = id₀ <;> simp [h]

theorem current_setProposalStatus (hd : Consistent cfg d) (id₀ : ProposalId) (s : ProposalStatus)
    (id : ProposalId) (q : Proposal) (hq : (d.setProposalStatus id₀ s).proposal? id = some q) :
    1 ≤ q.currentVersion := by
  rw [Db.proposal?_setProposalStatus] at hq
  obtain ⟨y, hy, rfl⟩ := Option.map_eq_some_iff.1 hq
  have := hd.current id y hy
  split <;> exact this

/-! ### A new contract -/

theorem Created.milestone {q : Proposal} {n : NewContract} (h : Created cfg held d q n) :
    ∀ m ∈ n.milestones, m.1.version = n.version.id ∧ m.1.id = m.2.id ∧
      d.money.milestone? m.1.id = none := by
  intro m hm
  refine ⟨?_, ?_, (h.milestones m hm).2⟩
  all_goals
    obtain ⟨ids, project, v, attachments, bps, -, -, -, -, -, -, rfl⟩ := h.made
    obtain ⟨t, -, rfl⟩ := List.mem_map.1 hm
    rfl

theorem Created.agreed (hd : Consistent cfg d) {q : Proposal} {n : NewContract}
    (h : Created cfg held d q n) (hp : ∃ p, d.proposal? q.id = some p) :
    ∃ v, Agreed cfg (d.addContract n) n.details n.contract n.version v := by
  have hself := Db.milestonesOf_addContract_self (d := d)
    (fun m hm => ⟨(h.milestone m hm).1, (h.milestone m hm).2.1⟩) h.distinct
  have hfresh : ∀ m ∈ d.milestones, m.version ≠ n.version.id := by
    intro m hm he
    have := (hd.detailed m hm).1
    rw [he, h.version] at this
    cases this
  have hvers : d.versionsOf n.contract.id = [] := by
    refine List.filter_eq_nil_iff.2 fun y hy hc => ?_
    have := hd.bound y hy
    rw [show y.contract = n.contract.id by simpa using hc, h.details] at this
    cases this
  have hsigs : d.signaturesOf n.version.id = [] := by
    refine List.filter_eq_nil_iff.2 fun y hy hc => ?_
    obtain ⟨z, hz, -⟩ := hd.signed y hy
    rw [show y.version = n.version.id by simpa using hc, h.version] at hz
    cases hz
  obtain ⟨ids, project, v, attachments, bps, hpr, hv, hk, h0, h1, hatt, rfl⟩ := h.made
  refine ⟨v,
    { contract := Table.get_cons.trans (if_pos rfl)
      versions := ?_
      current := rfl
      hash := rfl
      proposal := hp
      source := ?_
      snapshot := ⟨project, q, attachments, bps, rfl, h0, h1, rfl, hatt, rfl⟩
      milestones := ⟨ids, rfl, rfl, hself ?_ hfresh⟩
      parties := rfl
      active := ?_
      activated := ?_ }⟩
  · exact (List.filter_cons_of_pos (by simp [newContract])).trans (congrArg _ hvers)
  · have hkey : v.key = (q.id, v.versionNumber) := by
      rw [hk, show v.versionNumber = q.currentVersion from congrArg Prod.snd hk]
    exact hkey ▸ Table.get_of_mem hd.proposalVersions hv
  · simpa [newContract, newMilestone, Function.comp_def]
      using milestoneTerms_sequence (hd.versionOk v hv)
  · rw [Db.signaturesOf_addContract, hsigs]
    simp [newContract, allSigned, ContractDetails.required]
  · rw [Db.signaturesOf_addContract, hsigs]
    simp [newContract, allSigned, ContractDetails.required]

/-- The other contracts are as they were. -/
theorem Created.others (hd : Consistent cfg d) {q : Proposal} {n : NewContract}
    (h : Created cfg held d q n) (hf : Frame ∅ d (d.addContract n)) {x : ContractDetails}
    {c : Contract} {n₀ : ContractVersion} {v : ProposalVersion} (ha : Agreed cfg d x c n₀ v) :
    Agreed cfg (d.addContract n) x c n₀ v := by
  have hne : n.contract.id ≠ x.id := by
    intro he
    have := h.contract
    rw [he, ha.contract] at this
    cases this
  have hn₀ : n₀ ∈ d.versions ∧ n₀.contract = x.id := by
    have : n₀ ∈ d.versionsOf x.id := by
      rw [ha.versions]
      exact List.mem_singleton_self n₀
    simpa [Db.versionsOf] using this
  have hv : n₀.id ≠ n.version.id := by
    intro he
    have := h.version
    rw [← he, show d.version? n₀.id = some n₀ from Table.get_of_mem hd.versions hn₀.1] at this
    cases this
  have hnew : n.version.contract = n.contract.id := by
    obtain ⟨ids, project, v, attachments, bps, -, -, -, -, -, -, rfl⟩ := h.made
    rfl
  refine ha.frame hf ?_ ?_ ?_ rfl
  · exact Table.get_cons.trans ((if_neg hne).trans ha.contract)
  · exact List.filter_cons_of_neg (by simpa [hnew] using hne)
  · exact Db.milestonesOf_addContract_ne hv h.milestone fun m hm => (hd.detailed m hm).2

theorem Created.consistent (hd : Consistent cfg d) {q : Proposal} {n : NewContract}
    (h : Created cfg held d q n) (hp : ∃ p, d.proposal? q.id = some p)
    (hf : Frame ∅ d (d.addContract n)) : Consistent cfg (d.addContract n) where
  proposals := hd.proposals
  proposalVersions := hd.proposalVersions
  contracts := hf.contracts.nodup hd.contracts
  details := hf.details.nodup hd.details
  ofProposal := by
    have hnone := h.ofProposal
    obtain ⟨ids, project, v, attachments, bps, -, -, -, -, -, -, rfl⟩ := h.made
    refine List.nodup_cons.2 ⟨fun hm => ?_, hd.ofProposal⟩
    obtain ⟨y, hy, he⟩ := List.mem_map.1 hm
    exact Table.get_eq_none.1 hnone y hy he
  versions := hf.versions.nodup hd.versions
  milestones := hf.milestones.nodup hd.milestones
  signatures := hd.signatures
  versionOk := hd.versionOk
  numbered := hd.numbered
  current := hd.current
  agreed := by
    intro x hx
    rcases List.mem_cons.1 hx with rfl | hx
    · exact ⟨_, _, h.agreed hd hp⟩
    · obtain ⟨c, n₀, v, ha⟩ := hd.agreed x hx
      exact ⟨c, n₀, v, h.others hd hf ha⟩
  bound := by
    intro n₀ hn
    rcases List.mem_cons.1 hn with rfl | hn
    · obtain ⟨ids, project, v, attachments, bps, -, -, -, -, -, -, rfl⟩ := h.made
      exact Option.isSome_iff_exists.2 ⟨_, Table.get_cons.trans (if_pos rfl)⟩
    · obtain ⟨y, hy⟩ := Option.isSome_iff_exists.1 (hd.bound n₀ hn)
      obtain ⟨z, hz, -⟩ := hf.details.keep _ y hy
      exact Option.isSome_iff_exists.2 ⟨z, hz⟩
  signed := by
    intro s hs
    obtain ⟨n₀, hn, he⟩ := hd.signed s hs
    exact ⟨n₀, hf.versions.eq_of_eq hn, he⟩
  detailed := by
    intro m hm
    rcases List.mem_append.1 hm with hm | hm
    · obtain ⟨y, hy, rfl⟩ := List.mem_map.1 hm
      obtain ⟨hv, hid, -⟩ := h.milestone y hy
      refine ⟨Option.isSome_iff_exists.2 ⟨n.version, Table.get_cons.trans (if_pos hv.symm)⟩, ?_⟩
      refine Table.get_isSome.2 ⟨y.2, List.mem_append_left _ (List.mem_map_of_mem hy), hid.symm⟩
    · obtain ⟨h1, h2⟩ := hd.detailed m hm
      obtain ⟨y, hy⟩ := Option.isSome_iff_exists.1 h1
      obtain ⟨z, hz⟩ := Option.isSome_iff_exists.1 h2
      exact ⟨Option.isSome_iff_exists.2 ⟨y, hf.versions.eq_of_eq hy⟩,
        Option.isSome_iff_exists.2 ⟨z, hf.milestones.eq_of_eq hz⟩⟩

/-! ### A change of one contract -/

theorem allSigned_cons {x : ContractDetails} {l : List UserId} (u : UserId)
    (h : allSigned x l = true) : allSigned x (u :: l) = true := by
  simp only [allSigned, Bool.and_eq_true, List.all_eq_true, List.contains_eq_mem,
    decide_eq_true_eq] at h ⊢
  exact ⟨h.1, fun v hv => List.mem_cons_of_mem _ (h.2 v hv)⟩

/-- A commit that changes one contract and adds signatures. -/
theorem Consistent.contract_changed (hd : Consistent cfg d) (hf : Frame ∅ d d')
    (hc : d' = { d with
      money := { d.money with contracts := d'.money.contracts }
      contracts := d'.contracts
      signatures := d'.signatures })
    (hp : d'.contracts.map ContractDetails.acceptedProposal =
      d.contracts.map ContractDetails.acceptedProposal)
    (ha : ∀ x ∈ d'.contracts, ∃ c n v, Agreed cfg d' x c n v)
    (hs : ∀ s ∈ d'.signatures, s ∈ d.signatures ∨
      ∃ n, d.version? s.version = some n ∧ s.documentHash = n.documentHash) :
      Consistent cfg d' where
  proposals := hf.proposals.nodup hd.proposals
  proposalVersions := hf.proposalVersions.nodup hd.proposalVersions
  contracts := hf.contracts.nodup hd.contracts
  details := hf.details.nodup hd.details
  ofProposal := by
    rw [hp]
    exact hd.ofProposal
  versions := hf.versions.nodup hd.versions
  milestones := hf.milestones.nodup hd.milestones
  signatures := hf.signatures.nodup hd.signatures
  versionOk := by
    rw [hc]
    exact hd.versionOk
  numbered := by
    rw [hc]
    exact hd.numbered
  current := by
    rw [hc]
    exact hd.current
  agreed := ha
  bound := by
    intro n hn
    have hn' : n ∈ d.versions := by
      rw [hc] at hn
      exact hn
    obtain ⟨y, hy⟩ := Option.isSome_iff_exists.1 (hd.bound n hn')
    obtain ⟨z, hz, -⟩ := hf.details.keep _ y hy
    exact Option.isSome_iff_exists.2 ⟨z, hz⟩
  signed := by
    intro s hs'
    obtain ⟨n, hn, he⟩ : ∃ n, d.version? s.version = some n ∧ s.documentHash = n.documentHash := by
      rcases hs s hs' with h | h
      · exact hd.signed s h
      · exact h
    exact ⟨n, hf.versions.eq_of_eq hn, he⟩
  detailed := by
    rw [hc]
    exact hd.detailed

theorem Agreed.cancel {x : ContractDetails} {c : Contract} {n : ContractVersion}
    {v : ProposalVersion} (h : Agreed cfg d x c n v) (id : ContractId) :
    ∃ c', Agreed cfg { d with money := d.money.cancelContract id } x c' n v := by
  by_cases hid : x.id = id
  · exact ⟨{ c with status := .cancelled },
      { h with
        contract := (Money.Db.contract?_cancelContract _ _ _).trans (by rw [h.contract]; simp [hid])
        active := by simp }⟩
  · exact ⟨c,
      { h with
        contract := (Money.Db.contract?_cancelContract _ _ _).trans
          (by rw [h.contract]; simp [hid]) }⟩

/-- The version of the contract, by the row that was locked. -/
theorem Consistent.agreed_of_signed (hd : Consistent cfg d) {c : Contract} {x : ContractDetails}
    {n : ContractVersion} {s : ContractSignature} (h : Signed held d c x n s) :
    x ∈ d.contracts ∧ x.id = c.id ∧ ∃ v, Agreed cfg d x c n v := by
  obtain ⟨hc, hx⟩ := d.contract?_eq_some.1 h.contract
  have hmem := Table.get_mem hx
  have hid : x.id = c.id := Table.get_key hx
  obtain ⟨c₀, n₀, v, ha⟩ := hd.agreed x hmem
  have hcc : c₀ = c := by
    have := ha.contract
    rw [hid, hc] at this
    exact (Option.some.inj this).symm
  have hnn : n₀ = n := by
    have hn : n ∈ d.versionsOf x.id :=
      List.mem_filter.2 ⟨Table.get_mem h.version.1, by simp [h.version.2.1, hid]⟩
    rw [ha.versions] at hn
    exact (List.mem_singleton.1 hn).symm
  subst hcc hnn
  exact ⟨hmem, hid, v, ha⟩

/-- The signatures of the version that is signed, and of every other. -/
theorem Signed.signaturesOf {c : Contract} {x : ContractDetails} {n : ContractVersion}
    {s : ContractSignature} (h : Signed held d c x n s) (u : VersionId) :
    (d.sign c x s).signaturesOf u = if u = n.id then s :: d.signaturesOf u
      else d.signaturesOf u := by
  have : (d.sign c x s).signaturesOf u = (d.addSignature s).signaturesOf u := by
    unfold Db.sign
    dsimp only
    split <;> rfl
  rw [this]
  by_cases hu : u = n.id
  · rw [if_pos hu]
    exact List.filter_cons_of_pos (by simp [h.made.1, hu])
  · rw [if_neg hu]
    exact List.filter_cons_of_neg (by simpa [h.made.1] using Ne.symm hu)

theorem Db.versionsOf_sign (c : Contract) (x : ContractDetails) (s : ContractSignature)
    (k : ContractId) : (d.sign c x s).versionsOf k = d.versionsOf k := by
  unfold Db.sign
  dsimp only
  split <;> rfl

theorem Db.milestonesOf_sign (c : Contract) (x : ContractDetails) (s : ContractSignature)
    (k : VersionId) : (d.sign c x s).milestonesOf k = d.milestonesOf k := by
  unfold Db.sign
  dsimp only
  split <;> rfl

/-- The other contracts are as they were. -/
theorem Signed.others (hd : Consistent cfg d) {c : Contract} {x y : ContractDetails}
    {n : ContractVersion} {s : ContractSignature} (h : Signed held d c x n s)
    (hf : Frame ∅ d (d.sign c x s)) (hy : y ∈ d.contracts) (hne : y.id ≠ c.id) :
    ∃ c' n' v, Agreed cfg (d.sign c x s) y c' n' v := by
  obtain ⟨c', n', v, ha⟩ := hd.agreed y hy
  have hn' : n' ∈ d.versions ∧ n'.contract = y.id := by
    have : n' ∈ d.versionsOf y.id := by
      rw [ha.versions]
      exact List.mem_singleton_self n'
    simpa [Db.versionsOf] using this
  have hid : n'.id ≠ n.id := by
    intro he
    have := Table.get_of_mem hd.versions hn'.1
    rw [he, show Table.get ContractVersion.id n.id d.versions = some n from h.version.1] at this
    cases this
    exact hne (hn'.2.symm.trans h.version.2.1)
  refine ⟨c', n', v, ha.frame hf ?_ (Db.versionsOf_sign ..) (Db.milestonesOf_sign ..) ?_⟩
  · unfold Db.sign
    dsimp only
    split
    · refine (Db.money_contract?_activateContract _ _ _).trans ?_
      change Option.map _ (d.money.contract? y.id) = _
      rw [ha.contract]
      simp [hne]
    · exact ha.contract
  · rw [h.signaturesOf, if_neg hid]

theorem Signed.agreed (hd : Consistent cfg d) {c : Contract} {x : ContractDetails}
    {n : ContractVersion} {s : ContractSignature} (h : Signed held d c x n s)
    (hf : Frame ∅ d (d.sign c x s)) :
    ∀ y ∈ (d.sign c x s).contracts, ∃ c' n' v, Agreed cfg (d.sign c x s) y c' n' v := by
  intro y hy
  obtain ⟨hmem, hid, v, ha⟩ := hd.agreed_of_signed h
  have hsigs : (d.sign c x s).signaturesOf n.id = s :: d.signaturesOf n.id := by
    rw [h.signaturesOf, if_pos rfl]
  have hsigs' : (d.addSignature s).signaturesOf s.version = s :: d.signaturesOf n.id := by
    rw [h.made.1]
    exact List.filter_cons_of_pos (by simp [h.made.1])
  have hsame : ∀ z ∈ d.contracts, z.id = c.id → z = x := by
    intro z hz he
    have h1 := Table.get_of_mem hd.details hz
    rw [he, ← hid, Table.get_of_mem hd.details hmem] at h1
    exact (Option.some.inj h1).symm
  cases hall : allSigned x ((s :: d.signaturesOf n.id).map (·.user)) with
  | true =>
    have hsign : d.sign c x s = (d.addSignature s).activateContract c.id := by
      unfold Db.sign
      dsimp only
      rw [hsigs', if_pos hall]
    rw [hsign] at hy
    obtain ⟨z, hz, rfl⟩ := Table.mem_modify.1 hy
    by_cases hzc : z.id = c.id
    · obtain rfl := hsame z hz hzc
      rw [if_pos hzc]
      refine ⟨{ c with status := .active }, n, v,
        { ha with
          contract := ?_
          versions := (Db.versionsOf_sign ..).trans ha.versions
          proposal := ?_
          source := hf.proposalVersions.eq_of_eq ha.source
          milestones := by
            rw [Db.milestonesOf_sign]
            exact ha.milestones
          active := by
            rw [hsigs]
            simpa [allSigned, ContractDetails.required] using hall
          activated := by
            rw [hsigs]
            simpa [allSigned, ContractDetails.required] using hall }⟩
      · rw [hsign, Db.money_contract?_activateContract]
        change Option.map _ (d.money.contract? z.id) = _
        rw [ha.contract]
        simp [hzc]
      · obtain ⟨p, hp⟩ := ha.proposal
        obtain ⟨q, hq, -⟩ := hf.proposals.keep _ p hp
        exact ⟨q, hq⟩
    · rw [if_neg hzc]
      exact h.others hd hf hz hzc
  | false =>
    have hsign : d.sign c x s = d.addSignature s := by
      unfold Db.sign
      dsimp only
      rw [hsigs', hall]
      rfl
    rw [hsign] at hy
    by_cases hyc : y.id = c.id
    · obtain rfl := hsame y hy hyc
      have hold : allSigned y ((d.signaturesOf n.id).map (·.user)) = false := by
        cases ho : allSigned y ((d.signaturesOf n.id).map (·.user)) with
        | false => rfl
        | true =>
          have := allSigned_cons s.user ho
          rw [List.map_cons, this] at hall
          cases hall
      refine ⟨c, n, v,
        { ha with
          contract := by rw [hsign]; exact ha.contract
          versions := (Db.versionsOf_sign ..).trans ha.versions
          proposal := by rw [hsign]; exact ha.proposal
          source := hf.proposalVersions.eq_of_eq ha.source
          milestones := by
            rw [Db.milestonesOf_sign]
            exact ha.milestones
          active := by
            rw [hsigs, hall, ← hold]
            exact ha.active
          activated := by
            rw [hsigs, hall, ← hold]
            exact ha.activated }⟩
    · exact h.others hd hf hy hyc

theorem Signed.consistent (hd : Consistent cfg d) {c : Contract} {x : ContractDetails}
    {n : ContractVersion} {s : ContractSignature} (h : Signed held d c x n s)
    (hf : Frame ∅ d (d.sign c x s)) : Consistent cfg (d.sign c x s) := by
  have hsig : (d.sign c x s).signatures = s :: d.signatures := by
    unfold Db.sign
    dsimp only
    split <;> rfl
  refine hd.contract_changed hf ?_ ?_ (h.agreed hd hf) ?_
  · unfold Db.sign
    dsimp only
    split <;> rfl
  · unfold Db.sign
    dsimp only
    split
    · exact Table.map_modify fun _ => rfl
    · rfl
  · intro t ht
    rw [hsig] at ht
    rcases List.mem_cons.1 ht with rfl | ht
    · exact .inr ⟨n, by rw [h.made.1]; exact h.version.1, h.made.2⟩
    · exact .inl ht

/-- **Every commit keeps the tables consistent.** -/
theorem Effect.consistent (hd : Consistent cfg d) (h : Effect cfg serial held d p d') :
    Consistent cfg d' := by
  have hf : Frame ∅ d d' := h.frame (Set.empty_disjoint held)
  cases h with
  | proposalCreated q v hl hn hs hc hvl hv hk hok =>
    refine hd.proposals_changed hf rfl (fun u hu => ?_) (numbered_addProposal hd hn hc hk)
      (fun k y hy => ?_)
    · rcases List.mem_cons.1 hu with rfl | hu
      · exact hok
      · exact hd.versionOk u hu
    · rw [Db.proposal?_addProposal] at hy
      split at hy
      · cases hy
        omega
      · exact hd.current k y hy
  | versionAdded loaded v hl hp hvl hv hk hok hs hcur =>
    rw [show v.versionNumber = loaded.currentVersion + 1 from congrArg Prod.snd hk] at hf ⊢
    refine hd.proposals_changed hf rfl (fun u hu => ?_) (numbered_addVersion hd hp (hk ▸ hv) hk)
      (fun k y hy => ?_)
    · rcases List.mem_cons.1 hu with rfl | hu
      · exact hok
      · exact hd.versionOk u hu
    · rw [Db.proposal?_addProposalVersion, Db.proposal?_setCurrentVersion] at hy
      obtain ⟨z, hz, rfl⟩ := Option.map_eq_some_iff.1 hy
      split
      · exact Nat.succ_pos _
      · exact hd.current k z hz
  | transitioned loaded target hl hp ht ha hcur =>
    exact hd.proposals_changed hf rfl hd.versionOk (numbered_setProposalStatus hd loaded.id target)
      (current_setProposalStatus hd loaded.id target)
  | accepted loaded n hl hp ht hc hcur =>
    obtain ⟨q, hq, -⟩ := hp
    have hf₁ : Frame ∅ d (d.addContract n) := { hf with proposals := .refl Proposal.Keeps.refl }
    have h₁ := hc.consistent hd ⟨q, hq⟩ hf₁
    have hf₂ : Frame ∅ (d.addContract n)
        ((d.addContract n).setProposalStatus loaded.id .accepted) :=
      { Frame.refl ∅ (d.addContract n) with
        proposals := .modify (fun _ => rfl) Proposal.Keeps.refl id fun _ _ => ⟨_, _, rfl⟩ }
    exact h₁.proposals_changed hf₂ rfl h₁.versionOk
      (numbered_setProposalStatus h₁ loaded.id .accepted)
      (current_setProposalStatus h₁ loaded.id .accepted)
  | signed c x v s hs => exact hs.consistent hd hf
  | cancelled id hl =>
    refine hd.contract_changed hf rfl rfl (fun x hx => ?_) (fun s hs => .inl hs)
    obtain ⟨c, n, v, ha⟩ := hd.agreed x hx
    obtain ⟨c', ha'⟩ := ha.cancel id
    exact ⟨c', n, v, ha'⟩

end

end Agreements
