import Freelancing.Agreements.Runs

/-!
# Acceptance of proposals

`acceptance_settled`: in a run in which every commit finds what its session has checked still true
of the proposal's row (`stillValid`), statuses follow `allowedTransitions`, a proposal is accepted
exactly if one contract exists for it, and that contract's snapshot is the last version. The row is
read without a lock, so runs exist that break the condition, and then the conclusion
(`acceptance_races`).
-/

namespace Agreements

open Money (UserId ContractId MilestoneId Currency User Err ContractStatus Contract)
open Txn (Sys Mode)

/-! ## What a commit finds -/

/-- The status that is written is one that the row's own status allows, a contract is made from the
row's own current version, and no version is added to an accepted proposal. -/
def stillValid : Move → Bool
  | .stmt _ (.commit (.versionAdded loaded)) d _ _ =>
    (d.proposal? loaded.id).all fun p => p.status ≠ .accepted
  | .stmt _ (.commit (.transitioned loaded target)) d _ _ =>
    (d.proposal? loaded.id).all fun p => p.status = target ∨
      target ∈ allowedTransitions p.status ∧
        (target = .accepted → p.currentVersion = loaded.currentVersion)
  | _ => true

/-- What acceptance has to do with the contracts. -/
def Settled (d : Db) : Prop :=
  ∀ id p, d.proposal? id = some p →
    (p.status = .accepted ↔ ∃ x ∈ d.contracts, x.acceptedProposal = id) ∧
    ∀ x ∈ d.contracts, x.acceptedProposal = id → ∀ n ∈ d.versions, n.contract = x.id →
      n.snapshot.proposalVersion = p.currentVersion

/-- The status of every proposal stays or moves as `ALLOWED_TRANSITIONS` says. -/
def Follows (d d' : Db) : Prop :=
  ∀ id p, d.proposal? id = some p → ∃ p', d'.proposal? id = some p' ∧
    (p'.status = p.status ∨ p'.status ∈ allowedTransitions p.status)

theorem Follows.refl (d : Db) : Follows d d := fun _ p hp => ⟨p, hp, .inl rfl⟩

theorem allowed_not_accepted {s t : ProposalStatus} (h : t ∈ allowedTransitions s) :
    s ≠ .accepted := by
  rintro rfl
  cases h

section
variable {cfg : Settings} {mode : Mode} {d d' : Db} {p : Point} {e : Unit} {i : Nat}

/-! ## One commit -/

theorem contractOfProposal?_isSome {id : ProposalId} :
    (d.contractOfProposal? id).isSome ↔ ∃ x ∈ d.contracts, x.acceptedProposal = id :=
  Table.get_isSome

/-- The contracts of a state, after a commit that makes none. -/
theorem Settled.contracts_kept (h : Settled d) (hp : d'.proposals = d.proposals)
    (hv : d'.versions = d.versions)
    (hc : d'.contracts.map (fun x => (x.id, x.acceptedProposal)) =
      d.contracts.map fun x => (x.id, x.acceptedProposal)) : Settled d' := by
  have hmem : ∀ {l l' : List ContractDetails},
      l'.map (fun x => (x.id, x.acceptedProposal)) = l.map (fun x => (x.id, x.acceptedProposal)) →
      ∀ x ∈ l', ∃ y ∈ l, y.id = x.id ∧ y.acceptedProposal = x.acceptedProposal := by
    intro l l' he x hx
    have : (x.id, x.acceptedProposal) ∈ l.map fun x => (x.id, x.acceptedProposal) := by
      rw [← he]
      exact List.mem_map_of_mem hx
    obtain ⟨y, hy, hyx⟩ := List.mem_map.1 this
    exact ⟨y, hy, congrArg Prod.fst hyx, congrArg Prod.snd hyx⟩
  intro id q hq
  rw [Db.proposal?, hp] at hq
  obtain ⟨h1, h2⟩ := h id q hq
  refine ⟨h1.trans ⟨?_, ?_⟩, ?_⟩
  · rintro ⟨x, hx, hxa⟩
    obtain ⟨y, hy, -, hya⟩ := hmem hc.symm x hx
    exact ⟨y, hy, hya.trans hxa⟩
  · rintro ⟨x, hx, hxa⟩
    obtain ⟨y, hy, -, hya⟩ := hmem hc x hx
    exact ⟨y, hy, hya.trans hxa⟩
  · intro x hx hxa n hn hnc
    obtain ⟨y, hy, hyi, hya⟩ := hmem hc x hx
    rw [hv] at hn
    exact h2 y hy (hya.trans hxa) n hn (hnc.trans hyi.symm)

theorem Consistent.no_contract (hd : Consistent cfg d) {id : ProposalId}
    (h : d.proposal? id = none) : ∀ x ∈ d.contracts, x.acceptedProposal ≠ id := by
  intro x hx he
  obtain ⟨c, n, v, ha⟩ := hd.agreed x hx
  obtain ⟨q, hq⟩ := ha.proposal
  rw [he, h] at hq
  cases hq

theorem Settled.addProposal (h : Settled d) (hd : Consistent cfg d) {q : Proposal}
    {v : ProposalVersion} (hn : d.proposal? q.id = none) (hs : q.status = .draft) :
    Settled (d.addProposal q v) := by
  intro id y hy
  rw [Db.proposal?_addProposal] at hy
  by_cases hid : q.id = id
  · rw [if_pos hid] at hy
    cases hy
    subst hid
    refine ⟨⟨fun ha => ?_, ?_⟩, ?_⟩
    · rw [hs] at ha
      cases ha
    · rintro ⟨x, hx, hxa⟩
      exact absurd hxa (hd.no_contract hn x hx)
    · intro x hx hxa
      exact absurd hxa (hd.no_contract hn x hx)
  · rw [if_neg hid] at hy
    exact h id y hy

/-- A proposal that is not accepted has no contract, whose snapshot a new version could outdate. -/
theorem Settled.addVersion (h : Settled d) {id : ProposalId} {k : Nat} {v : ProposalVersion}
    (hna : ∀ z, d.proposal? id = some z → z.status ≠ .accepted) :
    Settled ((d.setCurrentVersion id k).addProposalVersion v) := by
  intro id' y hy
  rw [Db.proposal?_addProposalVersion, Db.proposal?_setCurrentVersion] at hy
  obtain ⟨z, hz, rfl⟩ := Option.map_eq_some_iff.1 hy
  obtain ⟨h1, h2⟩ := h id' z hz
  by_cases hid : id' = id
  · subst hid
    have hno : ∀ x ∈ d.contracts, x.acceptedProposal ≠ id' := fun x hx hxa =>
      hna z hz (h1.2 ⟨x, hx, hxa⟩)
    rw [if_pos rfl]
    exact ⟨h1, fun x hx hxa => absurd hxa (hno x hx)⟩
  · rw [if_neg hid]
    exact ⟨h1, h2⟩

theorem Settled.setStatus (h : Settled d) {id : ProposalId} {target : ProposalStatus}
    (hv : ∀ z, d.proposal? id = some z → z.status = target ∨ target ∈ allowedTransitions z.status)
    (ha : target = .accepted → (d.contractOfProposal? id).isSome) :
    Settled (d.setProposalStatus id target) := by
  intro id' y hy
  rw [Db.proposal?_setProposalStatus] at hy
  obtain ⟨z, hz, rfl⟩ := Option.map_eq_some_iff.1 hy
  obtain ⟨h1, h2⟩ := h id' z hz
  by_cases hid : id' = id
  · subst hid
    rw [if_pos rfl]
    rcases hv z hz with rfl | hv
    · exact ⟨h1, h2⟩
    · have hno : ¬ ∃ x ∈ d.contracts, x.acceptedProposal = id' := fun hx =>
        allowed_not_accepted hv (h1.2 hx)
      have hna : target ≠ .accepted := fun he => hno (contractOfProposal?_isSome.1 (ha he))
      exact ⟨⟨fun he => absurd he hna, fun hx => absurd hx hno⟩, h2⟩
  · rw [if_neg hid]
    exact ⟨h1, h2⟩

/-- A contract of the proposal's own current version settles its acceptance. -/
theorem Settled.addContract (h : Settled d) (hd : Consistent cfg d) {held : Set LockName}
    {loaded : Proposal} {n : NewContract} (hc : Created cfg held d loaded n)
    (hv : ∀ z, d.proposal? loaded.id = some z →
      z.status = .accepted ∨ z.currentVersion = loaded.currentVersion) :
    Settled ((d.addContract n).setProposalStatus loaded.id .accepted) := by
  have hnone : ∀ x ∈ d.contracts, x.acceptedProposal ≠ n.details.acceptedProposal :=
    Table.get_eq_none.1 hc.ofProposal
  have hfresh : ∀ x ∈ d.contracts, x.id ≠ n.contract.id := Table.get_eq_none.1 hc.details
  have hbound : ∀ m ∈ d.versions, m.contract ≠ n.contract.id := by
    intro m hm he
    have := hd.bound m hm
    rw [he, hc.details] at this
    cases this
  obtain ⟨ids, project, v, attachments, bps, -, -, hk, -, -, -, rfl⟩ := hc.made
  intro id y hy
  rw [Db.proposal?_setProposalStatus, Db.proposal?_addContract] at hy
  obtain ⟨z, hz, rfl⟩ := Option.map_eq_some_iff.1 hy
  obtain ⟨h1, h2⟩ := h id z hz
  by_cases hid : id = loaded.id
  · subst hid
    rw [if_pos rfl]
    have hcv : z.currentVersion = loaded.currentVersion := by
      rcases hv z hz with he | he
      · obtain ⟨x, hx, hxa⟩ := h1.1 he
        exact absurd hxa (hnone x hx)
      · exact he
    refine ⟨⟨fun _ => ⟨_, List.mem_cons_self, rfl⟩, fun _ => rfl⟩, ?_⟩
    intro x hx hxa m hm hmc
    rcases List.mem_cons.1 hx with rfl | hx
    · rcases List.mem_cons.1 hm with rfl | hm
      · exact (congrArg Prod.snd hk).trans hcv.symm
      · exact absurd hmc (hbound m hm)
    · exact absurd hxa (hnone x hx)
  · rw [if_neg hid]
    refine ⟨h1.trans ⟨?_, ?_⟩, ?_⟩
    · rintro ⟨x, hx, hxa⟩
      exact ⟨x, List.mem_cons_of_mem _ hx, hxa⟩
    · rintro ⟨x, hx, hxa⟩
      rcases List.mem_cons.1 hx with rfl | hx
      · exact absurd hxa.symm hid
      · exact ⟨x, hx, hxa⟩
    · intro x hx hxa m hm hmc
      rcases List.mem_cons.1 hx with rfl | hx
      · exact absurd hxa.symm hid
      · rcases List.mem_cons.1 hm with rfl | hm
        · exact absurd hmc.symm (hfresh x hx)
        · exact h2 x hx hxa m hm hmc

theorem Settled.sign (h : Settled d) (c : Contract) (x : ContractDetails) (s : ContractSignature) :
    Settled (d.sign c x s) := by
  refine h.contracts_kept ?_ ?_ ?_
  all_goals
    unfold Db.sign
    dsimp only
    split
  · rfl
  · rfl
  · rfl
  · rfl
  · exact Table.map_modify fun _ => rfl
  · rfl

/-- **A commit that finds its check still true keeps acceptance settled.** -/
theorem Committed.settled (hc : Committed cfg mode p d d')
    (hok : stillValid (.stmt i p d d' e) = true) (h : Settled d) : Settled d' := by
  obtain ⟨hd, hd', hf, held, heff⟩ := hc
  cases heff with
  | proposalCreated q v hl hn hs => exact h.addProposal hd hn hs
  | versionAdded loaded v => exact h.addVersion fun z hz => by simpa [stillValid, hz] using hok
  | transitioned loaded target hl hp ht ha =>
    refine h.setStatus (fun z hz => ?_) ha
    have hv : z.status = target ∨ target ∈ allowedTransitions z.status ∧
        (target = .accepted → z.currentVersion = loaded.currentVersion) := by
      simpa [stillValid, hz, imp_iff_not_or] using hok
    exact hv.imp_right And.left
  | accepted loaded n hl hp ht hcr =>
    refine h.addContract hd hcr fun z hz => ?_
    have hv : z.status = .accepted ∨ .accepted ∈ allowedTransitions z.status ∧
        z.currentVersion = loaded.currentVersion := by
      simpa [stillValid, hz] using hok
    exact hv.imp_right And.right
  | signed c x v s => exact h.sign c x s
  | cancelled id hl => exact h.contracts_kept rfl rfl rfl

/-- **A commit that finds its check still true moves statuses as allowed.** -/
theorem Committed.follows (hc : Committed cfg mode p d d')
    (hok : stillValid (.stmt i p d d' e) = true) : Follows d d' := by
  obtain ⟨hd, hd', hf, held, heff⟩ := hc
  have hmove : ∀ (loaded : Proposal) (target : ProposalStatus) (d₁ : Db),
      (∀ k, d₁.proposal? k = d.proposal? k) →
      stillValid (.stmt i (.commit (.transitioned loaded target)) d d' e) = true →
      Follows d (d₁.setProposalStatus loaded.id target) := by
    intro loaded target d₁ hd₁ hok id z hz
    refine ⟨_, (Db.proposal?_setProposalStatus _ _ _ _).trans (by rw [hd₁, hz]; rfl), ?_⟩
    dsimp only
    by_cases hid : id = loaded.id
    · subst hid
      rw [if_pos rfl]
      have hv : z.status = target ∨ target ∈ allowedTransitions z.status ∧
          (target = .accepted → z.currentVersion = loaded.currentVersion) := by
        simpa [stillValid, hz, imp_iff_not_or] using hok
      exact hv.imp Eq.symm fun h => h.1
    · rw [if_neg hid]
      exact .inl rfl
  cases heff with
  | proposalCreated q v hl hn =>
    intro id z hz
    refine ⟨z, (Db.proposal?_addProposal _ _ _ _).trans ?_, .inl rfl⟩
    rw [if_neg, hz]
    rintro rfl
    rw [hn] at hz
    cases hz
  | versionAdded loaded v =>
    intro id z hz
    refine ⟨_, (Db.proposal?_setCurrentVersion _ _ _ _).trans (by rw [hz]; rfl), .inl ?_⟩
    split <;> rfl
  | transitioned loaded target => exact hmove loaded target d (fun _ => rfl) hok
  | accepted loaded n => exact hmove loaded .accepted (d.addContract n) (fun _ => rfl) hok
  | signed c x v s hs =>
    intro id z hz
    refine ⟨z, ?_, .inl rfl⟩
    unfold Db.sign
    dsimp only
    split <;> exact hz
  | cancelled id hl => exact fun id z hz => ⟨z, hz, .inl rfl⟩

end

/-! ## Runs -/

/-- The contract of an accepted proposal is made from its last version. -/
structure FromLast (d : Db) (p : Proposal) (x : ContractDetails) (n : ContractVersion)
    (v : ProposalVersion) : Prop where
  versions : d.versionsOf x.id = [n]
  current : d.proposalVersion? (p.id, p.currentVersion) = some v
  last : ∀ u ∈ d.proposalVersions, u.proposal = p.id → u.versionNumber ≤ v.versionNumber
  snapshot : ∃ project proposal attachments bps, proposal.id = p.id ∧
    n.snapshot = buildSnapshot project proposal v (milestoneTerms v) attachments bps

/-- Every proposal is accepted exactly if there is one contract for it, which was made from the
proposal's last version. -/
def Accepted (d : Db) : Prop :=
  ∀ id p, d.proposal? id = some p →
    (p.status = .accepted ↔ ∃! x, x ∈ d.contracts ∧ x.acceptedProposal = id) ∧
    ∀ x ∈ d.contracts, x.acceptedProposal = id → ∃ n v, FromLast d p x n v

theorem Consistent.accepted {cfg : Settings} {d : Db} (hd : Consistent cfg d) (h : Settled d) :
    Accepted d := by
  intro id p hp
  obtain ⟨h1, h2⟩ := h id p hp
  have hpid : p.id = id := Table.get_key hp
  refine ⟨h1.trans ⟨?_, ?_⟩, ?_⟩
  · rintro ⟨x, hx, hxa⟩
    refine ⟨x, ⟨hx, hxa⟩, ?_⟩
    rintro y ⟨hy, hya⟩
    have hxy := Table.get_of_mem hd.ofProposal hx
    rw [hxa, ← hya, Table.get_of_mem hd.ofProposal hy] at hxy
    exact Option.some.inj hxy
  · rintro ⟨x, hx, -⟩
    exact ⟨x, hx⟩
  · intro x hx hxa
    obtain ⟨c, n, v, ha⟩ := hd.agreed x hx
    have hn : n ∈ d.versionsOf x.id := by
      rw [ha.versions]
      exact List.mem_singleton_self n
    obtain ⟨hnm, hnc⟩ : n ∈ d.versions ∧ n.contract = x.id := by
      simpa [Db.versionsOf] using hn
    have hv : d.proposalVersion? (p.id, p.currentVersion) = some v := by
      rw [hpid, ← h2 x hx hxa n hnm hnc, ← hxa]
      exact ha.source
    have hvn : v.versionNumber = p.currentVersion := congrArg Prod.snd (Table.get_key hv)
    refine ⟨n, v, ha.versions, hv, fun u hu hup => ?_, ?_⟩
    · rw [hvn]
      have hget := Table.get_of_mem hd.proposalVersions hu
      obtain ⟨q, hq, -, hle⟩ := (hd.numbered u.proposal u.versionNumber).1
        (Option.isSome_iff_exists.2 ⟨u, hget⟩)
      rw [hup, hpid, hp] at hq
      cases hq
      exact hle
    · obtain ⟨project, proposal, attachments, bps, hpr, -, -, -, -, hs⟩ := ha.snapshot
      exact ⟨project, proposal, attachments, bps, hpr.trans (hxa.trans hpid.symm), hs⟩

section
variable {cfg : Settings} {mode : Mode} {d : Db} {services : Nat → Service} {s : Platform}

theorem Blank.settled (hd : Blank d) : Settled d := by
  intro id p hp
  rw [Db.proposal?, hd.proposals] at hp
  cases hp

theorem settled_of_run (hd : Blank d)
    (hr : Sys.Run mode (fun mv => stillValid mv = true) (platform cfg d services) s) :
    Settled s.db :=
  invariant_of_run hd.consistent hr
    (fun _ _ _ _ _ hok hc hP => hc.settled hok hP) hd.settled

/-- **Acceptance is consistent** in every run whose commits find their checks still true. -/
theorem acceptance_settled (hd : Blank d)
    (hr : Sys.Run mode (fun mv => stillValid mv = true) (platform cfg d services) s) :
    Accepted s.db ∧
    (∀ s', Sys.Step mode (fun mv => stillValid mv = true) s s' → Follows s.db s'.db) ∧
    ∀ s', Sys.Run mode (fun mv => stillValid mv = true) s s' → ∀ id p, s.db.proposal? id = some p →
      allowedTransitions p.status = [] → ∃ p', s'.db.proposal? id = some p' ∧
        p'.status = p.status := by
  have hs := holds_of_run hd.consistent hr
  refine ⟨(consistent_of_run hd.consistent hr).accepted (settled_of_run hd hr), fun s' hstep => ?_,
    fun s' hr' id p hp hterm => ?_⟩
  · rcases step_committed hs hstep with he | ⟨i, q, e, hok, hc⟩
    · rw [he]
      exact .refl _
    · exact hc.follows hok
  · refine keeps_of_run (P := fun d => ∃ p', d.proposal? id = some p' ∧ p'.status = p.status) hs hr'
      ?_ ⟨p, hp, rfl⟩
    rintro i q d₁ d₂ e hok hc ⟨p₁, hp₁, hst⟩
    obtain ⟨p₂, hp₂, hst₂⟩ := hc.follows hok id p₁ hp₁
    refine ⟨p₂, hp₂, ?_⟩
    rcases hst₂ with he | he
    · exact he.trans hst
    · rw [hst, hterm] at he
      cases he

end

/-! ## The race of an acceptance with a withdrawal -/

def racingServices : Nat → Service
  | 0 => .createProposal aFreelancer 1 anOffer 1 1
  | 1 => .transitionProposal aFreelancer 1 "submitted" someIds
  | 2 => .transitionProposal anEmployer 1 "accepted" someIds
  | _ => .transitionProposal aFreelancer 1 "withdrawn" someIds

/-- The proposal is submitted, the freelancer's withdrawal has read it, and then it is accepted. -/
def racingRun : List (Nat × Txn.Choice Money.Answer Err Unit) :=
  Sys.goes 0 6 ++ Sys.goes 1 6 ++ Sys.goes 3 3 ++ Sys.goes 2 16

/-- The acceptance is committed, and overwritten by the withdrawal. -/
theorem acceptance_races : ¬ ∀ (cfg : Settings) (d : Db) (services : Nat → Service) (s : Platform),
    Blank d → Sys.Run .readCommitted (fun _ => True) (platform cfg d services) s →
      Accepted s.db := by
  intro h
  obtain ⟨s, hr, hs⟩ := Sys.exists_free_run .readCommitted
    (platform someSettings oneProject racingServices) (racingRun ++ Sys.goes 3 3)
    (fun s => (s.db.proposal? 1).any fun p => p.status ≠ .accepted ∧
      s.db.contracts.map (·.acceptedProposal) = [1]) (by decide +kernel)
  obtain ⟨p, hp, hs⟩ := (Option.any_eq_true _ _).1 hs
  obtain ⟨hst, hc⟩ := of_decide_eq_true hs
  refine hst ((h someSettings oneProject racingServices s oneProject_blank
    hr 1 p hp).1.2 ?_)
  obtain ⟨x, hx⟩ := List.map_eq_singleton_iff.1 hc
  refine ⟨x, ⟨hx.1 ▸ List.mem_singleton_self x, hx.2⟩, ?_⟩
  rintro y ⟨hy, -⟩
  rw [hx.1] at hy
  exact List.mem_singleton.1 hy

/-- Without the withdrawal's commit, the conclusion holds. -/
theorem acceptance_settled_racing : ∃ s : Platform,
    (s.db.proposals.map fun p => p.status) = [.accepted] ∧ Accepted s.db := by
  obtain ⟨s, hr, hs⟩ := Sys.exists_run .readCommitted
    (platform someSettings oneProject racingServices) stillValid racingRun
    (fun s => (s.db.proposals.map fun p => p.status) = [.accepted]) (by decide +kernel)
  exact ⟨s, of_decide_eq_true hs, (acceptance_settled oneProject_blank hr).1⟩

end Agreements
