import Freelancing.Agreements.Runs

/-!
# The history of a proposal

The versions of a proposal are numbered from one to its `current_version`, without a gap, and a
later state only appends to them (`versions_append_only`). `add_proposal_version` computes the next
number from a row that it has not locked; the unique index on the numbers turns away whoever has
read an old one.
-/

namespace Agreements

open Txn (Sys Mode)

variable {cfg : Settings} {d d' : Db} {k : ProposalId} {p : Proposal}

theorem mem_proposalVersionsOf {v : ProposalVersion} :
    v ∈ d.proposalVersionsOf k ↔ v ∈ d.proposalVersions ∧ v.proposal = k := by
  simp [Db.proposalVersionsOf]

/-- A version of the proposal is found by its number. -/
theorem Consistent.proposalVersion? (hd : Consistent cfg d) {v : ProposalVersion}
    (hv : v ∈ d.proposalVersionsOf k) : d.proposalVersion? (k, v.versionNumber) = some v := by
  obtain ⟨hmem, rfl⟩ := mem_proposalVersionsOf.1 hv
  exact Table.get_of_mem hd.proposalVersions hmem

theorem Consistent.mem_numbers (hd : Consistent cfg d) (hp : d.proposal? k = some p) (n : Nat) :
    n ∈ (d.proposalVersionsOf k).map (·.versionNumber) ↔ 1 ≤ n ∧ n ≤ p.currentVersion := by
  have hnumbered := hd.numbered k n
  constructor
  · intro hn
    obtain ⟨v, hv, rfl⟩ := List.mem_map.1 hn
    obtain ⟨q, hq, hbounds⟩ := hnumbered.1 (by rw [hd.proposalVersion? hv]; rfl)
    obtain rfl := Option.some.inj (hq.symm.trans hp)
    exact hbounds
  · intro hn
    obtain ⟨v, hv⟩ := Option.isSome_iff_exists.1 (hnumbered.2 ⟨p, hp, hn⟩)
    have hkey : v.key = (k, n) := Table.get_key hv
    simp only [ProposalVersion.key, Prod.mk.injEq] at hkey
    exact List.mem_map.2 ⟨v, mem_proposalVersionsOf.2 ⟨Table.get_mem hv, hkey.1⟩, hkey.2⟩

theorem Consistent.nodup_numbers (hd : Consistent cfg d) :
    ((d.proposalVersionsOf k).map (·.versionNumber)).Nodup := by
  have hperm := List.perm_insertionSort
      (fun v w : ProposalVersion => v.versionNumber ≤ w.versionNumber)
    (d.proposalVersions.filter fun v => v.proposal = k)
  refine (hperm.map _).nodup_iff.2 ?_
  have hkeys := hd.proposalVersions
  rw [List.Nodup, List.pairwise_map] at hkeys ⊢
  refine (hkeys.filter _).imp_of_mem ?_
  intro v w hv hw hvw he
  have hv' : v.proposal = k := by simpa using (List.mem_filter.1 hv).2
  have hw' : w.proposal = k := by simpa using (List.mem_filter.1 hw).2
  exact hvw (by rw [ProposalVersion.key, ProposalVersion.key, hv', hw', he])

/-- **The versions are numbered without a gap**, and listed in this order. -/
theorem Consistent.numbers (hd : Consistent cfg d) (hp : d.proposal? k = some p) :
    (d.proposalVersionsOf k).map (·.versionNumber) = List.range' 1 p.currentVersion := by
  have hsorted : ((d.proposalVersionsOf k).map (·.versionNumber)).Pairwise (· ≤ ·) := by
    rw [List.pairwise_map]
    exact List.pairwise_insertionSort
      (fun v w : ProposalVersion => v.versionNumber ≤ w.versionNumber) _
  have hrange : (List.range' 1 p.currentVersion).Pairwise (· ≤ ·) :=
    List.pairwise_le_range'
  have hperm : ((d.proposalVersionsOf k).map (·.versionNumber)).Perm
      (List.range' 1 p.currentVersion) := by
    refine (List.perm_ext_iff_of_nodup hd.nodup_numbers List.nodup_range').2 fun n => ?_
    rw [hd.mem_numbers hp, List.mem_range'_1]
    omega
  exact hperm.eq_of_pairwise (fun _ _ _ _ => Nat.le_antisymm) hsorted hrange

/-- The versions, read by their numbers. -/
theorem Consistent.versionsOf (hd : Consistent cfg d) (hp : d.proposal? k = some p) :
    d.proposalVersionsOf k =
      (List.range' 1 p.currentVersion).filterMap fun n => d.proposalVersion? (k, n) := by
  rw [← hd.numbers hp, List.filterMap_map]
  have hsome : (d.proposalVersionsOf k).filterMap
      ((fun n => d.proposalVersion? (k, n)) ∘ fun v => v.versionNumber) =
        (d.proposalVersionsOf k).filterMap some :=
    List.filterMap_congr fun v hv => hd.proposalVersion? hv
  rw [hsome, List.filterMap_some]

/-- Versions stay, so a later state appends to them. -/
theorem Frame.versions_append (hf : Frame ∅ d d') (hd : Consistent cfg d) (hd' : Consistent cfg d')
    (hp : d.proposal? k = some p) : ∃ l, d'.proposalVersionsOf k = d.proposalVersionsOf k ++ l := by
  obtain ⟨p', hp', -⟩ := hf.proposals.keep k p hp
  have hkeep : ∀ n ∈ List.range' 1 p.currentVersion,
      d'.proposalVersion? (k, n) = d.proposalVersion? (k, n) := by
    intro n hn
    rw [List.mem_range'_1] at hn
    obtain ⟨v, hv⟩ := Option.isSome_iff_exists.1
      ((hd.numbered k n).2 ⟨p, hp, by omega⟩)
    rw [hv]
    exact hf.proposalVersions.eq_of_eq hv
  -- the current version of `d` is one of `d'`
  have hle : p.currentVersion ≤ p'.currentVersion := by
    have hcur := hd.current k p hp
    have hsome : (d'.proposalVersion? (k, p.currentVersion)).isSome := by
      rw [hkeep _ (by rw [List.mem_range'_1]; omega)]
      exact (hd.numbered k _).2 ⟨p, hp, hcur, Nat.le_refl _⟩
    obtain ⟨q, hq, hbounds⟩ := (hd'.numbered k _).1 hsome
    obtain rfl := Option.some.inj (hq.symm.trans hp')
    exact hbounds.2
  have hsplit : List.range' 1 p'.currentVersion = List.range' 1 p.currentVersion ++
      List.range' (1 + p.currentVersion) (p'.currentVersion - p.currentVersion) := by
    rw [List.range'_append_1]
    congr 1
    omega
  rw [hd'.versionsOf hp', hd.versionsOf hp, hsplit, List.filterMap_append,
    List.filterMap_congr hkeep]
  exact ⟨_, rfl⟩

/-- **A proposal's history has no gap, and is only appended to.** -/
theorem versions_append_only {mode : Mode} {ok : Move → Prop} {services : Nat → Service}
    {s s' : Platform} (hd : Blank d) (hr : Sys.Run mode ok (platform cfg d services) s)
    (hr' : Sys.Run mode ok s s') (hp : s.db.proposal? k = some p) :
    (s.db.proposalVersionsOf k).map (·.versionNumber) = List.range' 1 p.currentVersion ∧
    ∃ l, s'.db.proposalVersionsOf k = s.db.proposalVersionsOf k ++ l := by
  have hs : (agreementLaw cfg mode ok).Holds s := holds_of_run hd.consistent hr
  refine ⟨hs.inv.numbers hp, ?_⟩
  have hkept := keeps_of_run (P := fun d => Consistent cfg d ∧ ∃ q l, d.proposal? k = some q ∧
    d.proposalVersionsOf k = s.db.proposalVersionsOf k ++ l) hs hr' ?_ ⟨hs.inv, p, [], hp, by simp⟩
  · obtain ⟨-, q, l, -, hl⟩ := hkept
    exact ⟨l, hl⟩
  · intro i pt d₁ d₂ e hok hc hP
    obtain ⟨hd₁, q, l, hq, hl⟩ := hP
    obtain ⟨q', hq', -⟩ := hc.frame.proposals.keep k q hq
    obtain ⟨l', hl'⟩ := hc.frame.versions_append hd₁ hc.inv' hq
    exact ⟨hc.inv', q', l ++ l', hq', by rw [hl', hl, List.append_assoc]⟩

/-- Two sessions add a version to the same draft. -/
def editingServices : Nat → Service
  | 0 => .createProposal aFreelancer 1 anOffer 1 1
  | 1 => .addProposalVersion aFreelancer 1 anOffer 2
  | _ => .addProposalVersion aFreelancer 1 anOffer 3

theorem versions_append_only_editing : ∃ s s' : Platform, ∃ p, s.db.proposal? 1 = some p ∧
    p.currentVersion = 1 ∧ (s'.db.proposalVersionsOf 1).length = 2 ∧
    ∃ l, s'.db.proposalVersionsOf 1 = s.db.proposalVersionsOf 1 ++ l := by
  obtain ⟨s, hr, hs⟩ := Sys.exists_free_run .readCommitted
    (platform someSettings oneProject editingServices) (Sys.goes 0 6)
    (fun s : Platform => (s.db.proposal? 1).any (fun p => p.currentVersion = 1) &&
      (Sys.exec .readCommitted s (Sys.goes 1 2 ++ Sys.goes 2 8 ++ Sys.goes 1 4)).any
        fun r : Platform × _ => r.2.all (fun _ => true) &&
          decide ((r.1.db.proposalVersionsOf 1).length = 2))
    (by decide +kernel)
  obtain ⟨hfirst, hrest⟩ := Bool.and_eq_true_iff.1 hs
  obtain ⟨s', hr', hs'⟩ : ∃ s' : Platform, Sys.Run .readCommitted (fun _ => True) s s' ∧
      decide ((s'.db.proposalVersionsOf 1).length = 2) = true :=
    Sys.exists_run_of_exec (q := fun _ => true) hrest fun _ _ => trivial
  obtain ⟨p, hp, hcur⟩ := (Option.any_eq_true _ _).1 hfirst
  exact ⟨s, s', p, hp, of_decide_eq_true hcur, of_decide_eq_true hs',
    (versions_append_only oneProject_blank hr hr' hp).2⟩

end Agreements
