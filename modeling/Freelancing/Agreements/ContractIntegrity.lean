import Freelancing.Agreements.ProposalLife

/-!
# Integrity of contracts

`contracts_sound`: with transactions one after another, every version of a contract has the hash of
its snapshot and the milestones of the proposal version that was accepted, and its contract is
active exactly if it is not cancelled and every required party has signed that hash; a cancelled
contract stays cancelled, versions and signatures stay as they are. A proposal version without
milestones stands for one milestone, the full delivery (`full_delivery`).
-/

namespace Agreements

open Money (UserId ContractId MilestoneId Currency User Err ContractStatus Contract)
open Txn (Sys Mode)

/-- A milestone of the contract as the proposal has it. -/
def termsOf (m : MilestoneDetails × Money.Milestone) : ProposalMilestone :=
  ⟨m.1.sequence, m.1.title, m.2.amountMinor, m.1.deliveryDays⟩

/-- A milestone of the contract as the snapshot has it. -/
def snapshotOf (m : MilestoneDetails × Money.Milestone) : SnapshotMilestone :=
  ⟨m.1.sequence, m.1.title, m.2.amountMinor, m.2.currency, m.1.deliveryDays⟩

/-- The party has signed the document of the version. -/
def HasSigned (d : Db) (n : ContractVersion) (u : UserId) : Prop :=
  ∃ s ∈ d.signatures, s.version = n.id ∧ s.user = u ∧ s.documentHash = n.documentHash

structure Sound (cfg : Settings) (d : Db) (n : ContractVersion) (c : Contract) (x : ContractDetails)
    (p : Proposal) (v : ProposalVersion) : Prop where
  contract : d.contract? n.contract = some (c, x)
  hash : n.documentHash = cfg.documentHash n.snapshot
  proposal : d.proposal? x.acceptedProposal = some p ∧ p.status = .accepted
  version : d.proposalVersion? (p.id, p.currentVersion) = some v
  milestones : (d.milestonesOf n.id).map termsOf = milestoneTerms v
  snapshot : (d.milestonesOf n.id).map snapshotOf = n.snapshot.milestones
  price : ((d.milestonesOf n.id).map fun m => m.2.amountMinor).sum = n.snapshot.priceMinor ∧
    n.snapshot.priceMinor = v.amountMinor
  active : c.status = .active ↔ c.status ≠ .cancelled ∧ ∀ u ∈ x.required, HasSigned d n u
  activated : x.activatedAt.isSome ↔ ∀ u ∈ x.required, HasSigned d n u

section
variable {cfg : Settings} {d d' : Db} {p : Point} {e : Unit} {i : Nat}

theorem Consistent.hasSigned_iff (hd : Consistent cfg d) {n : ContractVersion} (hn : n ∈ d.versions)
    (u : UserId) : HasSigned d n u ↔ u ∈ (d.signaturesOf n.id).map (·.user) := by
  simp only [HasSigned, Db.signaturesOf, List.mem_map, List.mem_filter, decide_eq_true_eq]
  constructor
  · rintro ⟨s, hs, hv, hu, -⟩
    exact ⟨s, ⟨hs, hv⟩, hu⟩
  · rintro ⟨s, ⟨hs, hv⟩, hu⟩
    obtain ⟨n', hn', hh⟩ := hd.signed s hs
    rw [hv, show d.version? n.id = some n from Table.get_of_mem hd.versions hn] at hn'
    cases hn'
    exact ⟨s, hs, hv, hu, hh⟩

theorem Agreed.allSigned_iff {x : ContractDetails} {c : Contract} {n : ContractVersion}
    {v : ProposalVersion} (h : Agreed cfg d x c n v) (hd : Consistent cfg d) (hn : n ∈ d.versions) :
    allSigned x ((d.signaturesOf n.id).map (·.user)) = true ↔
      ∀ u ∈ x.required, HasSigned d n u := by
  have hne : x.required.isEmpty = false := by
    simp [ContractDetails.required, h.parties]
  simp only [allSigned, hne, Bool.not_false, Bool.true_and, List.all_eq_true, List.contains_eq_mem,
    decide_eq_true_eq, hd.hasSigned_iff hn]

/-- One transaction after another, a session's check is still true when it commits. -/
theorem Committed.stillValid (h : Committed cfg .serial p d d') :
    stillValid (.stmt i p d d' e) = true := by
  obtain ⟨-, -, -, held, heff⟩ := h
  cases heff with
  | versionAdded loaded v hl hpv hvl hv hk hok hs hcur =>
    rcases hs with hs | hs <;> simp [Agreements.stillValid, hcur rfl, hs]
  | transitioned loaded target hl hp ht ha hcur => simp [Agreements.stillValid, hcur rfl, ht]
  | accepted loaded n hl hp ht hc hcur => simp [Agreements.stillValid, hcur rfl, ht]
  | _ => rfl

/-- Every version of a contract is sound in a consistent state where acceptance is settled. -/
theorem Consistent.sound (hd : Consistent cfg d) (hs : Settled d) {n : ContractVersion}
    (hn : n ∈ d.versions) : ∃ c x p v, Sound cfg d n c x p v := by
  obtain ⟨x, hx⟩ := Option.isSome_iff_exists.1 (hd.bound n hn)
  have hxid : x.id = n.contract := Table.get_key hx
  have hxm := Table.get_mem hx
  obtain ⟨c, n', v, ha⟩ := hd.agreed x hxm
  obtain rfl : n' = n := by
    have : n ∈ d.versionsOf x.id := List.mem_filter.2 ⟨hn, by simp [hxid]⟩
    rw [ha.versions] at this
    exact (List.mem_singleton.1 this).symm
  obtain ⟨q, hq⟩ := ha.proposal
  obtain ⟨h1, h2⟩ := hs _ q hq
  have hqid : q.id = x.acceptedProposal := Table.get_key hq
  obtain ⟨project, proposal, attachments, bps, hpr, h0, hle, hcom, -, hsnap⟩ := ha.snapshot
  obtain ⟨ids, hidv, hidc, hms⟩ := ha.milestones
  have hv : d.proposalVersion? (q.id, q.currentVersion) = some v := by
    rw [hqid, ← h2 x hxm rfl n' hn hxid.symm]
    exact ha.source
  have hvok := hd.versionOk v (Table.get_mem hv)
  have hcall := ha.allSigned_iff hd hn
  refine ⟨c, x, q, v,
    { contract := (Db.contract?_eq_some _).2 ⟨hxid ▸ ha.contract, hx⟩
      hash := ha.hash
      proposal := ⟨hq, h1.2 ⟨x, hxm, rfl⟩⟩
      version := hv
      milestones := ?_
      snapshot := ?_
      price := ?_
      active := by rw [← hcall]; exact ha.active
      activated := by rw [← hcall, ha.activated] }⟩
  · rw [hms, List.map_map]
    exact List.map_id _
  · rw [hms, hsnap, List.map_map]
    rfl
  · rw [hms, hsnap, List.map_map]
    exact ⟨milestoneTerms_sum hvok, rfl⟩

/-! ## Rows that stay -/

/-- A commit keeps versions and signatures, and cancelled contracts cancelled. -/
theorem Committed.rows_stay {mode : Mode} (h : Committed cfg mode p d d') :
    (∀ n ∈ d.versions, n ∈ d'.versions) ∧ (∀ s ∈ d.signatures, s ∈ d'.signatures) ∧
      ∀ c ∈ d.money.contracts, c.status = .cancelled → c ∈ d'.money.contracts := by
  obtain ⟨hd, hd', hf, held, heff⟩ := h
  refine ⟨fun n hn => ?_, fun s hs => ?_, fun c hc hst => ?_⟩
  · exact Table.get_mem (hf.versions.eq_of_eq (Table.get_of_mem hd.versions hn))
  · exact Table.get_mem (hf.signatures.eq_of_eq (Table.get_of_mem hd.signatures hs))
  · cases heff with
    | accepted loaded n => exact List.mem_cons_of_mem _ hc
    | signed c' x v s hs =>
      have hne : c.id ≠ c'.id := by
        intro he
        have h1 := Table.get_of_mem hd.contracts hc
        have h2 := ((Db.contract?_eq_some _).1 hs.contract).1
        rw [he, show Table.get Contract.id c'.id d.money.contracts = some c' from h2] at h1
        cases h1
        exact hs.status hst
      unfold Db.sign
      dsimp only
      split
      · exact Table.mem_modify.2 ⟨c, hc, if_neg hne⟩
      · exact hc
    | cancelled id hl =>
      refine Table.mem_modify.2 ⟨c, hc, ?_⟩
      split
      · cases c
        cases hst
        rfl
      · rfl
    | _ => exact hc

end

/-! ## Runs -/

section
variable {cfg : Settings} {d : Db} {services : Nat → Service} {s s' : Platform}

theorem settled_of_serial_run (hd : Blank d)
    (hr : Sys.Run .serial (fun _ => True) (platform cfg d services) s) : Settled s.db :=
  invariant_of_run hd.consistent hr
    (fun i _ _ _ e _ hc hP => hc.settled (i := i) (e := e) hc.stillValid hP) hd.settled

/-- **Contracts are what was agreed and signed**, in every state of every run of transactions one
after another. -/
theorem contracts_sound (hd : Blank d)
    (hr : Sys.Run .serial (fun _ => True) (platform cfg d services) s) :
    (∀ n ∈ s.db.versions, ∃ c x p v, Sound cfg s.db n c x p v) ∧
    ∀ s', Sys.Run .serial (fun _ => True) s s' →
      (∀ n ∈ s.db.versions, n ∈ s'.db.versions) ∧
      (∀ g ∈ s.db.signatures, g ∈ s'.db.signatures) ∧
      ∀ c ∈ s.db.money.contracts, c.status = .cancelled → c ∈ s'.db.money.contracts := by
  have hs := holds_of_run hd.consistent hr
  refine ⟨fun n hn => hs.inv.sound (settled_of_serial_run hd hr) hn, fun s' hr' => ?_⟩
  refine keeps_of_run (P := fun d => (∀ n ∈ s.db.versions, n ∈ d.versions) ∧
    (∀ g ∈ s.db.signatures, g ∈ d.signatures) ∧
    ∀ c ∈ s.db.money.contracts, c.status = .cancelled → c ∈ d.money.contracts) hs hr' ?_
    ⟨fun _ h => h, fun _ h => h, fun _ h _ => h⟩
  intro _ _ _ _ _ _ hc hP
  obtain ⟨h1, h2, h3⟩ := hP
  obtain ⟨k1, k2, k3⟩ := hc.rows_stay
  exact ⟨fun n hn => k1 n (h1 n hn), fun g hg => k2 g (h2 g hg), fun c hcm hst =>
    k3 c (h3 c hcm hst) hst⟩

end

/-! ## A contract that both parties sign, and one without milestones -/

/-- The document of `anOffer`. -/
def aDocument : Snapshot where
  projectId := 1
  proposalId := 1
  proposalVersionId := 1
  proposalVersion := 1
  projectTitle := "Site"
  projectDescription := "A web site"
  proposalCoverLetter := ""
  priceMinor := 100
  currency := "USD"
  deliveryDays := 7
  milestones := [⟨1, "Design", 40, "USD", 3⟩, ⟨2, "Build", 60, "USD", 4⟩]
  platformBps := 1000
  attachments := []

def signingServices : Nat → Service
  | 0 => .createProposal aFreelancer 1 anOffer 1 1
  | 1 => .transitionProposal aFreelancer 1 "submitted" someIds
  | 2 => .transitionProposal anEmployer 1 "accepted" someIds
  | 3 => .signContract anEmployer 1 "k1" (someSettings.documentHash aDocument)
  | _ => .signContract aFreelancer 1 "k2" (someSettings.documentHash aDocument)

/-- The two parties of a proposal sign its contract, one after the other. -/
theorem exists_signed : ∃ s : Platform,
    Sys.Run .serial (fun _ => True) (platform someSettings oneProject signingServices) s ∧
    (s.db.money.contracts.map (·.status) = [.active] ∧ s.db.versions.length = 1 ∧
      s.db.signatures.length = 2) ∧
    ∀ n ∈ s.db.versions, n.snapshot.projectId = 1 ∧ n.snapshot.proposalId = 1 ∧
      n.snapshot.proposalVersionId = 1 ∧ n.snapshot.attachments.length = 0 := by
  obtain ⟨s, hr, hs⟩ := Sys.exists_free_run .serial
    (platform someSettings oneProject signingServices)
    (Sys.goes 0 6 ++ Sys.goes 1 6 ++ Sys.goes 2 16 ++ Sys.goes 3 9 ++ Sys.goes 4 10)
    (fun s => (s.db.money.contracts.map (·.status) = [.active] ∧ s.db.versions.length = 1 ∧
        s.db.signatures.length = 2) ∧
      ∀ n ∈ s.db.versions, n.snapshot.projectId = 1 ∧ n.snapshot.proposalId = 1 ∧
        n.snapshot.proposalVersionId = 1 ∧ n.snapshot.attachments.length = 0) (by decide +kernel)
  exact ⟨s, hr, of_decide_eq_true hs⟩

theorem contracts_sound_signed : ∃ s : Platform,
    (s.db.money.contracts.map (·.status) = [.active] ∧ s.db.versions.length = 1 ∧
      s.db.signatures.length = 2) ∧
    ∀ n ∈ s.db.versions, ∃ c x p v, Sound someSettings s.db n c x p v := by
  obtain ⟨s, hr, hs, -⟩ := exists_signed
  exact ⟨s, hs, (contracts_sound oneProject_blank hr).1⟩

def plainServices : Nat → Service
  | 0 => .createProposal aFreelancer 1 ⟨100, "USD", 7, "", []⟩ 1 1
  | 1 => .transitionProposal aFreelancer 1 "submitted" someIds
  | _ => .transitionProposal anEmployer 1 "accepted" someIds

/-- The milestones of a contract need not be those of the proposal version: without any, the
contract has one for the full delivery. -/
theorem full_delivery : ¬ ∀ (cfg : Settings) (d : Db) (services : Nat → Service) (s : Platform),
    Blank d → Sys.Run .serial (fun _ => True) (platform cfg d services) s →
    ∀ n ∈ s.db.versions, ∀ v ∈ s.db.proposalVersions, v.id = n.snapshot.proposalVersionId →
      (s.db.milestonesOf n.id).map termsOf = v.milestones := by
  intro h
  obtain ⟨s, hr, hs⟩ := Sys.exists_free_run .serial (platform someSettings oneProject plainServices)
    (Sys.goes 0 6 ++ Sys.goes 1 6 ++ Sys.goes 2 15)
    (fun s => s.db.versions.any fun n => s.db.proposalVersions.any fun v =>
      v.id = n.snapshot.proposalVersionId ∧ v.milestones.length = 0 ∧
        (s.db.milestonesOf n.id).length = 1) (by decide +kernel)
  obtain ⟨n, hn, hs⟩ := (List.any_eq_true.1 hs)
  obtain ⟨v, hv, hs⟩ := (List.any_eq_true.1 hs)
  obtain ⟨hid, h0, h1⟩ := of_decide_eq_true hs
  have := congrArg List.length
    (h someSettings oneProject plainServices s oneProject_blank hr n hn v hv hid)
  rw [List.length_map, h0, h1] at this
  cases this

end Agreements
