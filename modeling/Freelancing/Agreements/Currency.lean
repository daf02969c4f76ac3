import Freelancing.Agreements.Negotiation

/-!
# The currency of an accepted proposal

A proposal is checked against the currency of its project when it is made, and a version of it when
it changes the currency. `update_project` checks no proposal: the prices agree with the project as
long as it sets no other currency than that of the proposals that may still be accepted (`Fits`).
-/

namespace Agreements

open Money (UserId ContractId Currency User Contract)

/-- There is a status that can follow. -/
def ProposalStatus.undecided (s : ProposalStatus) : Bool := !(allowedTransitions s).isEmpty

def Db.currentVersion? (d : Db) (q : Proposal) : Option ProposalVersion :=
  d.proposalVersion? (q.id, q.currentVersion)

/-- An update of a project that sets a currency sets that of every proposal for it that may still be
accepted. -/
def Fits (d : Db) : Negotiation → Prop
  | .updateProject user k y => ∀ p c, d.project? k = some p → y.editable user p = true →
      y.currency = some c → ∀ q ∈ d.proposals, q.project = k → q.status.undecided = true →
        ∀ v, d.currentVersion? q = some v → v.currency = c
  | _ => True

/-- One request after another, each of which is `ok` where it is served. -/
def Turn (cfg : Settings) (ok : Db → Negotiation → Prop) (d d' : Db) : Prop :=
  ∃ x, ok d x ∧ d' = x.after cfg d

abbrev Turns (cfg : Settings) (ok : Db → Negotiation → Prop) : Db → Db → Prop :=
  Relation.ReflTransGen (Turn cfg ok)

/-- The current version of the proposal, its contract and the milestones of it are in the currency
`c`. -/
structure InCurrency (d : Db) (q : Proposal) (c : Currency) : Prop where
  version : ∃ v, d.currentVersion? q = some v ∧ v.currency = c
  contract : ∃ x n, d.contractOfProposal? q.id = some x ∧ x.project = q.project ∧
    d.versionsOf x.id = [n] ∧ n.snapshot.currency = c ∧ ∀ m ∈ d.milestonesOf n.id, m.2.currency = c

/-! ## The current version -/

section
variable {cfg : Settings} {d d' : Db} {x : Negotiation}

/-- The last of the versions is the current one. -/
theorem Consistent.currentVersion?_eq (hd : Consistent cfg d) {q : Proposal} {v : ProposalVersion}
    (hq : d.proposal? q.id = some q) (hv : (d.proposalVersionsOf q.id).getLast? = some v) :
    d.currentVersion? q = some v := by
  obtain ⟨hmem, hpr⟩ := proposalVersionsOf_mem (List.mem_of_getLast? hv)
  have hget := Table.get_of_mem hd.proposalVersions hmem
  -- its number is that of a version, so at most the current one
  have hle : v.versionNumber ≤ q.currentVersion := by
    obtain ⟨q', hq', -, hle⟩ := (hd.numbered q.id v.versionNumber).1 (by
      rw [← hpr]
      exact Option.isSome_iff_exists.2 ⟨v, hget⟩)
    obtain rfl : q = q' := Option.some.inj (hq.symm.trans hq')
    exact hle
  -- the current version is among them, and none of them comes after the last
  obtain ⟨u, hu⟩ := Option.isSome_iff_exists.1
    ((hd.numbered q.id q.currentVersion).2 ⟨q, hq, hd.current _ _ hq, Nat.le_refl _⟩)
  have hkey : u.key = (q.id, q.currentVersion) := Table.get_key hu
  have hum : u ∈ d.proposalVersionsOf q.id := by
    have : u ∈ d.proposalVersions ∧ u.proposal = q.id := ⟨Table.get_mem hu, congrArg Prod.fst hkey⟩
    simpa [Db.proposalVersionsOf] using this
  have hge : u.versionNumber ≤ v.versionNumber := by
    have hsorted : (d.proposalVersionsOf q.id).Pairwise fun v w =>
        v.versionNumber ≤ w.versionNumber :=
      List.pairwise_insertionSort _ _
    obtain ⟨earlier, he⟩ := List.getLast?_eq_some_iff.1 hv
    rw [he] at hum hsorted
    rcases List.mem_append.1 hum with hu' | hu'
    · exact (List.pairwise_append.1 hsorted).2.2 u hu' v (List.mem_singleton_self v)
    · rw [List.mem_singleton.1 hu']
  have hnum : v.versionNumber = q.currentVersion := by
    have : u.versionNumber = q.currentVersion := congrArg Prod.snd hkey
    omega
  unfold Db.currentVersion?
  rw [← hnum, ← hpr]
  exact hget

/-! ## Prices -/

/-- What holds of the prices as long as the updates fit. -/
structure Priced (d : Db) : Prop where
  owned : ∀ k q, d.proposal? k = some q → (d.project? q.project).isSome
  priced : ∀ k q v p c, d.proposal? k = some q → q.status.undecided = true →
    d.currentVersion? q = some v → d.project? q.project = some p → p.currency = some c →
    v.currency = c
  accepted : ∀ y ∈ d.contracts, ∃ q, d.proposal? y.acceptedProposal = some q ∧ q.status = .accepted

theorem undecided_of_allowed {s t : ProposalStatus} (h : t ∈ allowedTransitions s) :
    s.undecided = true := by
  unfold ProposalStatus.undecided
  cases hs : allowedTransitions s with
  | nil =>
    rw [hs] at h
    cases h
  | cons => rfl

theorem eq_of_all {c c' : Currency} {o : Option Currency} (h : o.all (· = c) = true)
    (ho : o = some c') : c = c' := by
  rw [ho] at h
  simpa [eq_comm] using h

theorem Blank.priced (h : Blank d) : Priced d where
  owned k q hq := by simp [Db.proposal?, h.proposals] at hq
  priced k q v p c hq := by simp [Db.proposal?, h.proposals] at hq
  accepted y hy := by simp [h.contracts] at hy

theorem Priced.projectCreated (h : Priced d) {p : Project} (hn : d.project? p.id = none) :
    Priced (d.addProject p) where
  owned k q hq := by
    rw [Db.project?_addProject]
    split
    · rfl
    · exact h.owned k q hq
  priced k q v p' c hq hu hv hp hc := by
    have howned := h.owned k q hq
    have hne : p.id ≠ q.project := by
      intro he
      rw [← he, hn] at howned
      cases howned
    rw [Db.project?_addProject, if_neg hne] at hp
    exact h.priced k q v p' c hq hu hv hp hc
  accepted := h.accepted

theorem Priced.projectUpdated (h : Priced d) {user : User} {p : Project} {y : ProjectInput}
    (hfit : Fits d (.updateProject user p.id y)) (hp : d.project? p.id = some p)
    (hy : y.editable user p = true) : Priced (d.editProject p.id y) where
  owned k q hq := by
    rw [Db.project?_editProject, Option.isSome_map]
    exact h.owned k q hq
  priced k q v p' c hq hu hv hp' hc := by
    rw [Db.project?_editProject] at hp'
    obtain ⟨p₀, hp₀, rfl⟩ := Option.map_eq_some_iff.1 hp'
    by_cases hpr : q.project = p.id
    · rw [if_pos hpr] at hc
      exact hfit p c hp hy hc q (Table.get_mem hq) hpr hu v hv
    · rw [if_neg hpr] at hc
      exact h.priced k q v p₀ c hq hu hv hp₀ hc
  accepted := h.accepted

theorem Priced.proposalCreated (h : Priced d) {q : Proposal} {v : ProposalVersion} {p : Project}
    (hp : d.project? q.project = some p) (hn : d.proposal? q.id = none)
    (hk : v.key = (q.id, q.currentVersion)) (hc : p.currency.all (· = v.currency) = true) :
    Priced (d.addProposal q v) where
  owned k q' hq := by
    rw [Db.proposal?_addProposal] at hq
    split at hq
    · cases hq
      exact Option.isSome_iff_exists.2 ⟨p, hp⟩
    · exact h.owned k q' hq
  priced k q' v' p' c hq hu hv hp' hc' := by
    have hid : q'.id = k := Table.get_key hq
    rw [Db.proposal?_addProposal] at hq
    unfold Db.currentVersion? at hv
    rw [Db.proposalVersion?_addProposal, hk] at hv
    by_cases hqk : q.id = k
    · rw [if_pos hqk] at hq
      cases hq
      rw [if_pos rfl] at hv
      cases hv
      obtain rfl : p = p' := Option.some.inj (hp.symm.trans hp')
      exact eq_of_all hc hc'
    · rw [if_neg hqk] at hq
      rw [if_neg fun he => hqk ((congrArg Prod.fst he).trans hid)] at hv
      exact h.priced k q' v' p' c hq hu hv hp' hc'
  accepted y hy := by
    obtain ⟨q', hq', ha⟩ := h.accepted y hy
    refine ⟨q', ?_, ha⟩
    rw [Db.proposal?_addProposal, if_neg]
    · exact hq'
    · intro he
      rw [← he, hn] at hq'
      cases hq'

theorem Priced.versionAdded (hd : Consistent cfg d) (h : Priced d) {q : Proposal}
    {v current : ProposalVersion} (hq : d.proposal? q.id = some q)
    (hlast : (d.proposalVersionsOf q.id).getLast? = some current)
    (hk : v.key = (q.id, q.currentVersion + 1))
    (hc : current.currency = v.currency ∨
      ∀ p, d.project? q.project = some p → p.currency.all (· = v.currency) = true) :
    Priced ((d.setCurrentVersion q.id v.versionNumber).addProposalVersion v) where
  owned k q' hq' := by
    rw [Db.proposal?_addProposalVersion, Db.proposal?_setCurrentVersion] at hq'
    obtain ⟨q₀, hq₀, rfl⟩ := Option.map_eq_some_iff.1 hq'
    have := h.owned k q₀ hq₀
    split <;> exact this
  priced k q' v' p c hq' hu hv hp hc' := by
    have hid : q'.id = k := Table.get_key hq'
    rw [Db.proposal?_addProposalVersion, Db.proposal?_setCurrentVersion] at hq'
    obtain ⟨q₀, hq₀, rfl⟩ := Option.map_eq_some_iff.1 hq'
    unfold Db.currentVersion? at hv
    rw [Db.proposalVersion?_addProposalVersion, Db.proposalVersion?_setCurrentVersion] at hv
    by_cases hqk : k = q.id
    · subst hqk
      obtain rfl : q = q₀ := Option.some.inj (hq.symm.trans hq₀)
      rw [if_pos rfl] at hv hu hp
      have hpr : v.proposal = q.id := congrArg Prod.fst hk
      have hkey : v.key = (q.id, v.versionNumber) := Prod.ext hpr rfl
      rw [if_pos hkey] at hv
      cases hv
      rcases hc with hc | hc
      · rw [← hc]
        exact h.priced q.id q current p c hq hu (hd.currentVersion?_eq hq hlast) hp hc'
      · exact eq_of_all (hc p hp) hc'
    · rw [if_neg hqk] at hv hu hp hid
      rw [if_neg fun he => hqk ?_] at hv
      · exact h.priced k q₀ v' p c hq₀ hu hv hp hc'
      · exact hid.symm.trans ((congrArg Prod.fst he).symm.trans (congrArg Prod.fst hk))
  accepted y hy := by
    obtain ⟨q₀, hq₀, ha⟩ := h.accepted y hy
    rw [Db.proposal?_addProposalVersion, Db.proposal?_setCurrentVersion, hq₀, Option.map_some]
    refine ⟨_, rfl, ?_⟩
    split <;> exact ha

theorem Priced.setProposalStatus (h : Priced d) {q : Proposal} {t : ProposalStatus}
    (hq : d.proposal? q.id = some q) (hu : q.status.undecided = true) :
    Priced (d.setProposalStatus q.id t) where
  owned k q' hq' := by
    rw [Db.proposal?_setProposalStatus] at hq'
    obtain ⟨q₀, hq₀, rfl⟩ := Option.map_eq_some_iff.1 hq'
    have := h.owned k q₀ hq₀
    split <;> exact this
  priced k q' v p c hq' hu' hv hp hc := by
    rw [Db.proposal?_setProposalStatus] at hq'
    obtain ⟨q₀, hq₀, rfl⟩ := Option.map_eq_some_iff.1 hq'
    by_cases hqk : k = q.id
    · subst hqk
      obtain rfl : q = q₀ := Option.some.inj (hq.symm.trans hq₀)
      rw [if_pos rfl] at hv hp
      exact h.priced q.id q v p c hq hu hv hp hc
    · rw [if_neg hqk] at hv hp hu'
      exact h.priced k q₀ v p c hq₀ hu' hv hp hc
  accepted y hy := by
    obtain ⟨q₀, hq₀, ha⟩ := h.accepted y hy
    refine ⟨q₀, ?_, ha⟩
    rw [Db.proposal?_setProposalStatus, hq₀, Option.map_some, if_neg]
    intro he
    rw [he] at hq₀
    obtain rfl : q = q₀ := Option.some.inj (hq.symm.trans hq₀)
    rw [ha] at hu
    cases hu

theorem Priced.accept (h : Priced d) {q : Proposal} {n : NewContract}
    (hq : d.proposal? q.id = some q) (hu : q.status.undecided = true)
    (hn : n.details.acceptedProposal = q.id) :
    Priced ((d.addContract n).setProposalStatus q.id .accepted) where
  owned := (h.setProposalStatus hq hu).owned
  priced := (h.setProposalStatus hq hu).priced
  accepted y hy := by
    rcases List.mem_cons.1 hy with rfl | hy
    · refine ⟨{ q with status := .accepted }, ?_, rfl⟩
      rw [hn, Db.proposal?_setProposalStatus, Db.proposal?_addContract, hq,
        Option.map_some, if_pos rfl]
    · exact (h.setProposalStatus (t := .accepted) hq hu).accepted y hy

/-- **A request that fits keeps the prices in the currency of the project.** -/
theorem Change.priced (hd : Consistent cfg d) (h : Priced d) (hfit : Fits d x)
    (hc : Change cfg d x d') : Priced d' := by
  cases hc with
  | refused => exact h
  | projectCreated p hn => exact h.projectCreated hn
  | projectUpdated user p y hx hp hy =>
    subst hx
    exact h.projectUpdated hfit hp hy
  | proposalCreated q v p hp hn hs hk hc => exact h.proposalCreated hp hn hk hc
  | versionAdded q v current hq hlast hk hfree hc => exact h.versionAdded hd hq hlast hk hc
  | transitioned q t hq ht ha => exact h.setProposalStatus hq (undecided_of_allowed ht)
  | accepted q n p v attachments bps ids hq ht hp hv hk hn =>
    subst hn
    exact h.accept hq (undecided_of_allowed ht) rfl

theorem Turns.invariant {d₀ : Db} (h₀ : Blank d₀) (h : Turns cfg Fits d₀ d) :
    Consistent cfg d ∧ Priced d := by
  induction h with
  | refl => exact ⟨h₀.consistent, h₀.priced⟩
  | tail _ ht ih =>
    obtain ⟨x, hfit, rfl⟩ := ht
    exact ⟨Negotiation.consistent ih.1, Negotiation.change.priced ih.1 ih.2 hfit⟩

/-! ## Acceptance -/

/-- The contract that is made on acceptance is in the currency of the version. -/
theorem Change.inCurrency (hd' : Consistent cfg d') {q : Proposal} {n : NewContract} {p : Project}
    {v : ProposalVersion} {attachments : List ProjectAttachment} {bps : Int} {ids : NewIds}
    (hp : p.id = q.project) (hv : v ∈ d.proposalVersions) (hk : v.key = (q.id, q.currentVersion))
    (hn : n = newContract cfg ids p q v (buildSnapshot p q v (milestoneTerms v) attachments bps))
    (he : d' = (d.addContract n).setProposalStatus q.id .accepted) :
    InCurrency d' { q with status := .accepted } v.currency := by
  subst he
  have hget : ((d.addContract n).setProposalStatus q.id .accepted).proposalVersion?
      (q.id, q.currentVersion) = some v := by
    rw [← hk]
    exact Table.get_of_mem hd'.proposalVersions hv
  have hmem : n.details ∈ ((d.addContract n).setProposalStatus q.id .accepted).contracts :=
    List.mem_cons_self ..
  obtain ⟨c, n', u, ha⟩ := hd'.agreed _ hmem
  have hn' : n' = n.version := by
    have : n.version ∈ ((d.addContract n).setProposalStatus q.id .accepted).versionsOf
        n.details.id := by
      subst hn
      exact List.mem_filter.2 ⟨List.mem_cons_self .., by simp [newContract]⟩
    rw [ha.versions] at this
    exact (List.mem_singleton.1 this).symm
  subst hn'
  have hu : u = v := by
    have hsource := ha.source
    have hnum : n.version.snapshot.proposalVersion = q.currentVersion := by
      subst hn
      exact congrArg Prod.snd hk
    have hid : n.details.acceptedProposal = q.id := by
      subst hn
      rfl
    rw [hnum, hid, hget] at hsource
    exact (Option.some.inj hsource).symm
  subst hu
  refine ⟨⟨u, hget, rfl⟩, n.details, n.version, ?_, ?_, ha.versions, ?_, ?_⟩
  · subst hn
    exact Table.get_cons.trans (if_pos rfl)
  · subst hn
    exact hp
  · subst hn
    rfl
  · obtain ⟨ids', -, -, hms⟩ := ha.milestones
    intro m hm
    rw [hms] at hm
    obtain ⟨t, -, rfl⟩ := List.mem_map.1 hm
    rfl

/-- **Accepted prices are in the currency of the project**: where every update fits, a proposal that
becomes accepted is in the currency that its project has at that moment, and so are the contract and
its milestones. -/
theorem accepted_in_currency {d₀ : Db} {k : ProposalId} {q : Proposal} {p : Project} {c : Currency}
    (h₀ : Blank d₀) (hr : Turns cfg Fits d₀ d) (ht : Turn cfg Fits d d')
    (hbefore : ∀ q₀, d.proposal? k = some q₀ → q₀.status ≠ .accepted)
    (hafter : d'.proposal? k = some q) (hacc : q.status = .accepted)
    (hp : d'.project? q.project = some p) (hc : p.currency = some c) : InCurrency d' q c := by
  obtain ⟨hd, hpriced⟩ := hr.invariant h₀
  obtain ⟨x, hfit, rfl⟩ := ht
  have hd' : Consistent cfg (x.after cfg d) := Negotiation.consistent hd
  have hchange : Change cfg d x (x.after cfg d) := Negotiation.change
  generalize x.after cfg d = d' at *
  cases hchange with
  | refused => exact absurd hacc (hbefore q hafter)
  | projectCreated => exact absurd hacc (hbefore q hafter)
  | projectUpdated => exact absurd hacc (hbefore q hafter)
  | proposalCreated q₁ v _ _ hn hs =>
    rw [Db.proposal?_addProposal] at hafter
    split at hafter
    · cases hafter
      rw [hs] at hacc
      cases hacc
    · exact absurd hacc (hbefore q hafter)
  | versionAdded q₁ v =>
    rw [Db.proposal?_addProposalVersion, Db.proposal?_setCurrentVersion] at hafter
    obtain ⟨q₀, hq₀, rfl⟩ := Option.map_eq_some_iff.1 hafter
    refine absurd ?_ (hbefore q₀ hq₀)
    split at hacc <;> exact hacc
  | transitioned q₁ t hq ht ha =>
    rw [Db.proposal?_setProposalStatus] at hafter
    obtain ⟨q₀, hq₀, rfl⟩ := Option.map_eq_some_iff.1 hafter
    split at hacc
    · rename_i hk
      subst hk
      -- a contract of it would be that of an accepted proposal
      obtain ⟨y, hy, he⟩ := Table.get_isSome.1 (ha hacc)
      obtain ⟨q₂, hq₂, ha₂⟩ := hpriced.accepted y hy
      rw [he] at hq₂
      exact absurd ha₂ (hbefore q₂ hq₂)
    · exact absurd hacc (hbefore q₀ hq₀)
  | accepted q₁ n p₁ v attachments bps ids hq ht hp₁ hv hk hn =>
    rw [Db.proposal?_setProposalStatus, Db.proposal?_addContract] at hafter
    obtain ⟨q₀, hq₀, rfl⟩ := Option.map_eq_some_iff.1 hafter
    split at hacc
    · rename_i hkq
      subst hkq
      obtain rfl : q₁ = q₀ := Option.some.inj (hq.symm.trans hq₀)
      rw [if_pos rfl] at hp ⊢
      obtain rfl : p₁ = p := Option.some.inj (hp₁.symm.trans hp)
      have hcur : v.currency = c := by
        refine hpriced.priced _ q₁ v p₁ c hq (undecided_of_allowed ht) ?_ hp₁ hc
        unfold Db.currentVersion?
        rw [← hk]
        exact Table.get_of_mem hd.proposalVersions hv
      rw [← hcur]
      exact Change.inCurrency hd' (Table.get_key hp₁) hv hk hn rfl
    · exact absurd hacc (hbefore q₀ hq₀)

end

/-! ### A project that is edited before the acceptance -/

def anEdit (c : Currency) : ProjectInput := ⟨"Shop", "A web shop", some 0, some 200, some c⟩

def aCreation : Negotiation := .createProposal aFreelancer 1 anOffer 1 1

def aSubmission : Negotiation := .transitionProposal aFreelancer 1 "SUBMITTED" someIds

def anUpdate (c : Currency) : Negotiation := .updateProject anEmployer 1 (anEdit c)

def anAcceptance : Negotiation := .transitionProposal anEmployer 1 "ACCEPTED" someIds

def submittedProposal : Db :=
  aSubmission.after someSettings (aCreation.after someSettings oneProject)

def editedProject (c : Currency) : Db := (anUpdate c).after someSettings submittedProposal

theorem editedProject_turns {c : Currency} {ok : Db → Negotiation → Prop}
    (h₁ : ok oneProject aCreation) (h₂ : ok (aCreation.after someSettings oneProject) aSubmission)
    (h₃ : ok submittedProposal (anUpdate c)) : Turns someSettings ok oneProject (editedProject c) :=
  .tail (.tail (.tail .refl ⟨_, h₁, rfl⟩) ⟨_, h₂, rfl⟩) ⟨_, h₃, rfl⟩

/-- The project is edited in its own currency. -/
theorem anUpdate_fits : Fits submittedProposal (anUpdate "USD") := by
  intro p c _ _ hc q _ _ _ v hv
  have hversion : submittedProposal.proposalVersions.map (·.currency) = ["USD"] := by decide +kernel
  have hmem : v.currency ∈ submittedProposal.proposalVersions.map (·.currency) :=
    List.mem_map_of_mem (Table.get_mem hv)
  rw [hversion] at hmem
  exact (List.mem_singleton.1 hmem).trans (Option.some.inj hc)

theorem accepted_in_currency_edited :
    ((anAcceptance.after someSettings (editedProject "USD")).project? 1).map (·.title) =
      some "Shop" ∧
      InCurrency (anAcceptance.after someSettings (editedProject "USD"))
        ⟨1, 1, 2, .accepted, 1⟩ "USD" := by
  refine ⟨by decide +kernel, ?_⟩
  refine accepted_in_currency (k := 1) (d := editedProject "USD") oneProject_blank
    (editedProject_turns trivial trivial anUpdate_fits)
    ⟨anAcceptance, trivial, rfl⟩ ?_ ?_ rfl rfl rfl
  · decide +kernel
  · decide +kernel

/-- After the project has changed to another currency, the proposal is accepted in the old one. -/
theorem accepted_out_of_currency :
    ¬ ∀ (cfg : Settings) (d₀ d d' : Db) (k : ProposalId) (q : Proposal)
    (p : Project) (c : Currency), Blank d₀ → Turns cfg (fun _ _ => True) d₀ d →
    Turn cfg (fun _ _ => True) d d' → (∀ q₀, d.proposal? k = some q₀ → q₀.status ≠ .accepted) →
    d'.proposal? k = some q → q.status = .accepted → d'.project? q.project = some p →
    p.currency = some c → InCurrency d' q c := by
  intro h
  have hturns : Turns someSettings (fun _ _ => True) oneProject (editedProject "EUR") :=
    editedProject_turns trivial trivial trivial
  have hin := h someSettings oneProject (editedProject "EUR") _ 1 ⟨1, 1, 2, .accepted, 1⟩ _ "EUR"
    oneProject_blank hturns ⟨anAcceptance, trivial, rfl⟩ (by decide +kernel)
    (by decide +kernel) rfl rfl rfl
  obtain ⟨v, hv, hc⟩ := hin.version
  unfold Db.currentVersion? Db.proposalVersion? at hv
  have hversion : (anAcceptance.after someSettings (editedProject "EUR")).proposalVersions.map
      (·.currency) = ["USD"] := by decide +kernel
  have hmem : v.currency ∈ (anAcceptance.after someSettings
      (editedProject "EUR")).proposalVersions.map (·.currency) :=
      List.mem_map_of_mem (Table.get_mem hv)
  rw [hversion, hc] at hmem
  simp at hmem

end Agreements
