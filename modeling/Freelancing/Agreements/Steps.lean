import Freelancing.Agreements.Consistent

/-!
# Obligations of the agreement services

Every request keeps the law: whatever it commits is an `Effect` of what it has checked.
-/

namespace Agreements

open Money (UserId ContractId MilestoneId Currency User Err ContractStatus Contract)
open Text (upper)
open Txn (Law Mode View)

abbrev Move := Txn.Move Db Point Money.Request Money.Answer Unit

abbrev TxView := View Db LockName Unit

def agreementLaw (cfg : Settings) (mode : Mode) (ok : Move → Prop) :
    Law Db LockName Point Money.Request Money.Answer Unit where
  mode := mode
  ok := ok
  Inv d _ := Consistent cfg d
  Commits held p d d' _ := Effect cfg (mode.inTxn = true) held d p d'
  Calls _ _ _ _ _ _ := False
  Claims _ _ _ := True

section
variable {cfg : Settings} {mode : Mode} {ok : Move → Prop} {i : Nat} {β : Type}
  {held : Set LockName} {pend : Db → Db} {b : Bool} {w : Db × Unit}

theorem frames : (agreementLaw cfg mode ok).Frames Frame where
  refl := .refl
  trans := .trans
  mono := .mono
  commit h hd := h.frame hd
  claims _ _ _ := trivial

/-- How far the world may have gone when the next statement runs. -/
abbrev Later (cfg : Settings) (mode : Mode) (ok : Move → Prop) :=
  Law.Later (agreementLaw cfg mode ok) Frame

abbrev Obliged (cfg : Settings) (mode : Mode) (ok : Move → Prop) (i : Nat) (p : Tx β) (v : TxView)
    (Q : TxView → β → Prop) : Prop :=
  (agreementLaw cfg mode ok).wp i p v Q

theorem select_wp {q : Db → β} {Q : TxView → β → Prop}
    (h : ∀ w', Later cfg mode ok held b w w' → Q ⟨held, pend, mode.inTxn, w'⟩ (q (pend w'.1))) :
    Obliged cfg mode ok i (select q) ⟨held, pend, b, w⟩ Q := frames.wp_select h

theorem require_wp {c : Bool} {e : Err} {v : TxView} {Q : TxView → Unit → Prop}
    (h : c = true → Q v ()) : Obliged cfg mode ok i (require c e) v Q := Law.wp_require h

theorem reserve_wp {e : Err} {name : LockName} {q : Db → Bool} {Q : TxView → Unit → Prop}
    (h : ∀ w', Later cfg mode ok held b w w' → q (pend w'.1) = false →
      Q ⟨insert name held, pend, mode.inTxn, w'⟩ ()) :
    Obliged cfg mode ok i (reserve e name q) ⟨held, pend, b, w⟩ Q :=
  Law.wp_bind (frames.wp_taken fun w' hw => require_wp fun hq => h w' hw (by simpa using hq))

theorem update_wp {name : LockName} {f : Db → Db} {Q : TxView → Unit → Prop}
    (h : ∀ w', Later cfg mode ok held b w w' →
      Q ⟨insert name held, f ∘ pend, mode.inTxn, w'⟩ ()) :
    Obliged cfg mode ok i (update name f) ⟨held, pend, b, w⟩ Q := frames.wp_update h

theorem commit_wp {c : CommitPoint} {Q : TxView → Unit → Prop}
    (h : ∀ w', Later cfg mode ok held b w w' →
      Effect cfg (mode.inTxn = true) held w'.1 (.commit c) (pend w'.1))
    (k : ∀ v, Q v ()) : Obliged cfg mode ok i (commit c) ⟨held, pend, b, w⟩ Q :=
  frames.wp_commit fun w' hw _ => ⟨(h w' hw).consistent hw.inv, h w' hw, k _⟩

/-- The statements of one transaction in a row. -/
theorem later_trans {held' : Set LockName} {w' w'' : Db × Unit}
    (h : Later cfg mode ok held b w w') (h' : Later cfg mode ok held' mode.inTxn w' w'')
    (hs : held ⊆ held') : Later cfg mode ok held b w w'' := frames.later_trans h h' hs

/-! ## Reads -/

theorem getProposal_wp {id : ProposalId} {Q : TxView → Proposal × List ProposalVersion → Prop}
    (h : ∀ w₁ w₂ p, Later cfg mode ok held b w w₁ → Later cfg mode ok held mode.inTxn w₁ w₂ →
      (pend w₁.1).proposal? id = some p →
      Q ⟨held, pend, mode.inTxn, w₂⟩ (p, (pend w₂.1).proposalVersionsOf p.id)) :
    Obliged cfg mode ok i (getProposal id) ⟨held, pend, b, w⟩ Q := by
  refine Law.wp_bind (select_wp fun w₁ h₁ => ?_)
  cases hp : (pend w₁.1).proposal? id with
  | none => trivial
  | some p => exact Law.wp_bind (select_wp fun w₂ h₂ => h w₁ w₂ p h₁ h₂ hp)

theorem getProposal_any {id : ProposalId} {v : TxView} :
    Obliged cfg mode ok i (getProposal id) v fun _ _ => True :=
  getProposal_wp fun _ _ _ _ _ _ => trivial

theorem getProject_wp {id : ProjectId} {Q : TxView → Project → Prop}
    (h : ∀ w₁ p, Later cfg mode ok held b w w₁ → (pend w₁.1).project? id = some p →
      Q ⟨held, pend, mode.inTxn, w₁⟩ p) :
    Obliged cfg mode ok i (getProject id) ⟨held, pend, b, w⟩ Q := by
  refine Law.wp_bind (select_wp fun w₁ h₁ => ?_)
  cases hp : (pend w₁.1).project? id with
  | none => trivial
  | some p => exact h w₁ p h₁ hp

theorem getContract_any {id : ContractId} {v : TxView} :
    Obliged cfg mode ok i (getContract id) v fun _ _ => True := by
  refine Law.wp_bind (select_wp fun w₁ _ => ?_)
  cases (v.pend w₁.1).contract? id with
  | none => trivial
  | some p => trivial

/-! ## Versions -/

theorem zipIdx_sequence (l : List MilestoneInput) (k : Nat) :
    (((l.zipIdx k).map fun m => (⟨m.2 + 1, m.1.title, m.1.amountMinor, m.1.deliveryDays⟩ :
      ProposalMilestone)).map (·.sequence)).Pairwise (· < ·) := by
  have : ((l.zipIdx k).map (·.2)).Pairwise (· < ·) := by
    rw [List.zipIdx_map_snd]
    exact List.pairwise_lt_range'
  rw [List.map_map, List.pairwise_map]
  exact (List.pairwise_map.1 this).imp fun h => Nat.succ_lt_succ h

theorem zipIdx_amounts (l : List MilestoneInput) (k : Nat) :
    (((l.zipIdx k).map fun m => (⟨m.2 + 1, m.1.title, m.1.amountMinor, m.1.deliveryDays⟩ :
      ProposalMilestone)).map (·.amountMinor)) = l.map (·.amountMinor) := by
  induction l generalizing k with
  | nil => rfl
  | cons m l ih => simp [List.zipIdx_cons, ih]

theorem newVersion_wp {id : VersionId} {proposal : ProposalId} {n : Nat} {x : VersionInput}
    {v : TxView} {Q : TxView → ProposalVersion → Prop}
    (h : ∀ u : ProposalVersion, u.key = (proposal, n) → (u.storable = true → u.Ok) → Q v u) :
    Obliged cfg mode ok i (newVersion id proposal n x) v Q := by
  refine Law.wp_bind
    (require_wp fun hs => h _ rfl fun hst => ⟨fun hne => ?_, zipIdx_sequence _ 0, hst⟩)
  dsimp only at hne ⊢
  rw [zipIdx_amounts]
  have hx : x.milestones ≠ [] := by
    rintro he
    simp [he] at hne
  simpa [hx] using hs

theorem insertVersion_wp {e : Err} {u : ProposalVersion} {Q : TxView → Unit → Prop}
    (h : ∀ w', Later cfg mode ok held b w w' → (pend w'.1).proposalVersion? u.key = none →
      u.storable = true → Q ⟨insert (.proposalVersion u.key) held, pend, mode.inTxn, w'⟩ ()) :
    Obliged cfg mode ok i (insertVersion e u) ⟨held, pend, b, w⟩ Q := by
  refine Law.wp_bind (reserve_wp fun w' hw hn => ?_)
  refine Law.wp_bind (require_wp fun _ => require_wp fun hst => h w' hw ?_ hst)
  simpa using hn

theorem createProposal_wp {user : User} {projectId : ProjectId} {x : VersionInput} {k : ProposalId}
    {versionId : VersionId} :
    Obliged cfg mode ok i (createProposal user projectId x k versionId) ⟨∅, id, b, w⟩
      fun _ _ => True := by
  refine Law.wp_bind (getProject_wp fun w₁ project h₁ _ => ?_)
  refine Law.wp_bind (require_wp fun _ => Law.wp_bind (require_wp fun _ => ?_))
  refine Law.wp_bind (newVersion_wp fun u hk hok => ?_)
  refine Law.wp_bind (reserve_wp fun w₂ h₂ hp => Law.wp_bind (reserve_wp fun w₃ h₃ _ => ?_))
  refine Law.wp_bind (insertVersion_wp fun w₄ h₄ hv hst => ?_)
  refine Law.wp_bind (Law.wp_bind (commit_wp (fun w₅ h₅ => ?_) fun v => getProposal_any))
  have hf₃ := (h₃.frame.trans (h₄.frame.mono (Set.subset_insert _ _))).trans
    (h₅.frame.mono fun _ h => .inr (.inr h))
  refine .proposalCreated ⟨k, project.id, user.id, .draft, 1⟩ u (.inr (.inr (.inl rfl))) ?_ rfl
    rfl (.inl rfl) ?_ hk (hok hst)
  · have hp' : w₂.1.proposal? k = none := by simpa using hp
    exact (hf₃.proposals.own k (.inl rfl)).trans hp'
  · exact (h₅.frame.proposalVersions.own u.key (.inl rfl)).trans hv

theorem serial_proposal {w₁ w₂ : Db × Unit} {q : Proposal}
    (h : Later cfg mode ok held mode.inTxn w₁ w₂) (hq : w₁.1.proposal? q.id = some q) :
    mode.inTxn = true → w₂.1.proposal? q.id = some q := by
  intro hm
  rw [h.still hm hm]
  exact hq

theorem addProposalVersion_wp {user : User} {k : ProposalId} {x : VersionInput}
    {versionId : VersionId} :
    Obliged cfg mode ok i (addProposalVersion user k x versionId) ⟨∅, id, b, w⟩
      fun _ _ => True := by
  refine Law.wp_bind (getProposal_wp fun w₁ w₂ q h₁ h₂ hq => ?_)
  dsimp only
  refine Law.wp_bind (require_wp fun _ => Law.wp_bind (require_wp fun hs => ?_))
  obtain rfl : q.id = k := Table.get_key hq
  cases hlast : ((id w₂.1).proposalVersionsOf q.id).getLast? with
  | none => trivial
  | some current =>
  dsimp only
  -- the project may be read or not; either way the session has the copy of `w₁`
  have hrest : ∀ w₃, Later cfg mode ok ∅ mode.inTxn w₁ w₃ → Obliged cfg mode ok i (do
      let version ← newVersion versionId q.id (q.currentVersion + 1) x
      update (.proposal q.id) (Db.setCurrentVersion q.id version.versionNumber)
      insertVersion .integrity version
      write (Db.addProposalVersion version)
      commit (.versionAdded q)
      getProposal q.id) ⟨∅, id, mode.inTxn, w₃⟩ fun _ _ => True := by
    intro w₃ h₃
    refine Law.wp_bind (newVersion_wp fun u hk hok => ?_)
    refine Law.wp_bind
      (update_wp fun w₄ h₄ => Law.wp_bind (insertVersion_wp fun w₅ h₅ hv hst => ?_))
    refine Law.wp_bind (Law.wp_bind (commit_wp (fun w₆ h₆ => ?_) fun v => getProposal_any))
    have h₁₆ : Later cfg mode ok ∅ mode.inTxn w₁ w₆ :=
      later_trans (later_trans (later_trans h₃ h₄ (Set.empty_subset _)) h₅ (Set.empty_subset _)) h₆
        (Set.empty_subset _)
    have hold : (w₁.1.proposalVersion? (q.id, q.currentVersion)).isSome :=
      (h₁.inv.numbered _ _).2 ⟨q, hq, h₁.inv.current _ _ hq, Nat.le_refl _⟩
    refine .versionAdded q u (.inr (.inl rfl)) ?_ (.inl rfl) ?_ hk (hok hst) ?_
      (serial_proposal h₁₆ hq)
    · obtain ⟨u₀, hu₀⟩ := Option.isSome_iff_exists.1 hold
      exact Option.isSome_iff_exists.2 ⟨u₀, h₁₆.frame.proposalVersions.eq_of_eq hu₀⟩
    · exact (h₆.frame.proposalVersions.own u.key (.inl rfl)).trans hv
    · simpa using hs
  split
  · refine Law.wp_bind (getProject_wp fun w₃ project h₃ _ => Law.wp_bind (require_wp fun _ => ?_))
    exact hrest w₃ (later_trans h₂ h₃ subset_rfl)
  · exact hrest w₂ h₂

/-! ## Creation of a contract -/

theorem Reserved.frame {d d' : Db} {n : NewContract} (h : Reserved held d n)
    (hf : Frame held d d') : Reserved held d' n :=
  { h with
    contract := (hf.contracts.own _ h.contractLock).trans h.contract
    details := (hf.details.own _ h.contractLock).trans h.details
    ofProposal := hf.ofProposal _ h.proposalLock h.ofProposal
    ofProject := hf.ofProject _ h.projectLock h.ofProject
    version := (hf.versions.own _ h.versionLock).trans h.version
    milestones := fun m hm =>
      ⟨(h.milestones m hm).1,
        (hf.milestones.own _ (h.milestones m hm).1).trans (h.milestones m hm).2⟩ }

theorem Reserved.mono {held' : Set LockName} {d : Db} {n : NewContract} (h : Reserved held d n)
    (hs : held ⊆ held') : Reserved held' d n :=
  { h with
    contractLock := hs h.contractLock
    proposalLock := hs h.proposalLock
    projectLock := hs h.projectLock
    versionLock := hs h.versionLock
    milestones := fun m hm => ⟨hs (h.milestones m hm).1, (h.milestones m hm).2⟩ }

theorem reserveMilestones_wp {e : Err} {ids : List MilestoneId} {Q : TxView → Unit → Prop}
    (hw : Later cfg mode ok held mode.inTxn w w)
    (h : ∀ held' w', held ⊆ held' → Later cfg mode ok held mode.inTxn w w' →
      (∀ k ∈ ids, .money (.milestone k) ∈ held' ∧ w'.1.money.milestone? k = none) →
      Q ⟨held', id, mode.inTxn, w'⟩ ()) :
    Obliged cfg mode ok i (reserveMilestones e ids) ⟨held, id, mode.inTxn, w⟩ Q := by
  induction ids generalizing held w with
  | nil => exact h held w subset_rfl hw (fun _ hk => by cases hk)
  | cons k ids ih =>
    refine Law.wp_bind (reserve_wp fun w₁ h₁ hk => ih ⟨.refl _ _, fun _ _ => rfl, h₁.inv⟩
      fun held' w₂ hs h₂ hids => h held' w₂ ((Set.subset_insert _ _).trans hs)
        (later_trans h₁ h₂ (Set.subset_insert _ _)) ?_)
    have hk' : w₁.1.money.milestone? k = none := by simpa using hk
    intro k' hk''
    rcases List.mem_cons.1 hk'' with rfl | hk''
    · exact ⟨hs (.inl rfl), (h₂.frame.milestones.own _ (.inl rfl)).trans hk'⟩
    · exact hids k' hk''

theorem insertContract_wp {e : Err} {n : NewContract} {Q : TxView → Unit → Prop}
    (h : ∀ held' w', held ⊆ held' → Later cfg mode ok held b w w' → Reserved held' w'.1 n →
      Q ⟨held', Db.addContract n, mode.inTxn, w'⟩ ()) :
    Obliged cfg mode ok i (insertContract e n) ⟨held, id, b, w⟩ Q := by
  refine Law.wp_bind (reserve_wp fun w₁ h₁ hc => Law.wp_bind (reserve_wp fun w₂ h₂ hpr => ?_))
  refine Law.wp_bind (reserve_wp fun w₃ h₃ hp => Law.wp_bind (require_wp fun hpa => ?_))
  refine Law.wp_bind (reserve_wp fun w₄ h₄ hv => Law.wp_bind (require_wp fun hm => ?_))
  refine Law.wp_bind
    (reserveMilestones_wp ⟨.refl _ _, fun _ _ => rfl, h₄.inv⟩ fun held' w₅ hs h₅ hms => ?_)
  have hc' : w₁.1.money.contract? n.contract.id = none ∧ w₁.1.details? n.contract.id = none := by
    simpa using hc
  have hpr' : w₂.1.contractOfProject? n.details.project = none := by simpa using hpr
  have hp' : w₃.1.contractOfProposal? n.details.acceptedProposal = none := by simpa using hp
  have hv' : w₄.1.version? n.version.id = none := by simpa using hv
  have hm' := (of_decide_eq_true hm).1
  -- from each of the reserving statements to the last
  have f₄ := h₅.frame
  have f₃ := (h₄.frame.trans (f₄.mono (Set.subset_insert _ _)))
  have f₂ := (h₃.frame.trans (f₃.mono (Set.subset_insert _ _)))
  have f₁ := (h₂.frame.trans (f₂.mono (Set.subset_insert _ _)))
  refine h held' w₅ (fun k hk => hs (.inr (.inr (.inr (.inr hk))))) ?_
    { contractLock := hs (.inr (.inr (.inr (.inl rfl))))
      contract := (f₁.contracts.own _ (.inl rfl)).trans hc'.1
      details := (f₁.details.own _ (.inl rfl)).trans hc'.2
      proposalLock := hs (.inr (.inl rfl))
      ofProposal := f₃.ofProposal _ (.inl rfl) hp'
      projectLock := hs (.inr (.inr (.inl rfl)))
      ofProject := f₂.ofProject _ (.inl rfl) hpr'
      versionLock := hs (.inl rfl)
      version := (f₄.versions.own _ (.inl rfl)).trans hv'
      milestones := fun m hmem => hms m.1.id (List.mem_map_of_mem hmem)
      distinct := hm'
      parties := of_decide_eq_true hpa }
  refine later_trans (later_trans (later_trans (later_trans h₁ h₂ ?_) h₃ ?_) h₄ ?_) h₅ ?_
  all_goals exact fun k hk => by simp [hk]

theorem currentProposalVersion_wp {q : Proposal} {versions : List ProposalVersion} {v : TxView}
    {Q : TxView → ProposalVersion → Prop}
    (h : ∀ u ∈ versions, u.versionNumber = q.currentVersion → Q v u) :
    Obliged cfg mode ok i (currentProposalVersion q versions) v Q := by
  unfold currentProposalVersion
  cases hu : versions.find? fun u => u.versionNumber = q.currentVersion with
  | none => trivial
  | some u => exact h u (List.mem_of_find?_eq_some hu) (by simpa using List.find?_some hu)

theorem commissionBps_wp {v : TxView} {Q : TxView → Int → Prop}
    (h : ∀ n, 0 ≤ n → n ≤ 10000 → Q v n) : Obliged cfg mode ok i (commissionBps cfg) v Q := by
  unfold commissionBps
  split
  · trivial
  · refine Law.wp_bind (require_wp fun hr => h _ ?_ ?_)
    all_goals
      simp only [Bool.not_eq_true', Bool.or_eq_false_iff, decide_eq_false_iff_not] at hr
      omega

theorem createContract_wp {e : Err} {ids : NewIds} {q : Proposal} {versions : List ProposalVersion}
    {project : Project} {Q : TxView → Unit → Prop}
    (hold : ∀ w', Later cfg mode ok held b w w' → (w'.1.contractOfProposal? q.id).isSome →
      Q ⟨held, id, mode.inTxn, w'⟩ ())
    (hnew : ∀ held' w' v attachments bps n, held ⊆ held' → Later cfg mode ok held b w w' →
      Reserved held' w'.1 n → v ∈ versions → v.versionNumber = q.currentVersion → 0 ≤ bps →
      bps ≤ 10000 → (∀ a ∈ attachments, a.project = project.id) →
        n = newContract cfg ids project q v
        (buildSnapshot project q v (milestoneTerms v) attachments bps) →
      Q ⟨held', Db.addContract n, mode.inTxn, w'⟩ ()) :
    Obliged cfg mode ok i (createContract cfg e ids q versions project) ⟨held, id, b, w⟩ Q := by
  refine Law.wp_bind (select_wp fun w₁ h₁ => ?_)
  cases hx : (id w₁.1).contractOfProject? project.id with
  | some existing =>
    refine require_wp fun he => hold w₁ h₁ ?_
    exact Table.get_isSome.2 ⟨existing, Table.get_mem hx, of_decide_eq_true he⟩
  | none =>
    refine Law.wp_bind (currentProposalVersion_wp fun v hv hn => ?_)
    refine Law.wp_bind (select_wp fun w₂ h₂ => Law.wp_bind (commissionBps_wp fun bps h0 hle => ?_))
    have hatt : ∀ a ∈ ((id w₂.1).attachments.filter fun a => a.project = project.id).insertionSort
        fun a b => a.objectKey ≤ b.objectKey, a.project = project.id := fun a ha => by
      simpa using (List.mem_filter.1 ((List.mem_insertionSort _).1 ha)).2
    refine insertContract_wp fun held' w₃ hs h₃ hr => ?_
    exact hnew held' w₃ v _ bps _ hs
      (later_trans (later_trans h₁ h₂ subset_rfl) h₃ subset_rfl) hr hv
      hn h0 hle hatt rfl

/-! ## Transitions -/

theorem requireMayTransition_wp {user : User} {q : Proposal} {project : Project}
    {t : ProposalStatus} {v : TxView} {Q : TxView → Unit → Prop} (h : Q v ()) :
    Obliged cfg mode ok i (requireMayTransition user q project t) v Q := by
  unfold requireMayTransition
  split
  · exact require_wp fun _ => h
  · exact require_wp fun _ => h

theorem flushStatus_wp {q : Proposal} {t : ProposalStatus} {Q : TxView → Unit → Prop}
    (h : ∀ held' w', insert (.proposal q.id) held ⊆ held' → Later cfg mode ok held b w w' →
      Q ⟨held', Db.setProposalStatus q.id t ∘ pend, mode.inTxn, w'⟩ ()) :
    Obliged cfg mode ok i (flushStatus q t) ⟨held, pend, b, w⟩ Q := by
  refine Law.wp_bind (update_wp fun w₁ h₁ => ?_)
  split
  · refine reserve_wp fun w₂ h₂ _ => h _ w₂ (Set.subset_insert _ _) ?_
    exact later_trans h₁ h₂ (Set.subset_insert _ _)
  · exact h _ w₁ subset_rfl h₁

theorem proposalVersionsOf_mem {d : Db} {k : ProposalId} {u : ProposalVersion}
    (h : u ∈ d.proposalVersionsOf k) : u ∈ d.proposalVersions ∧ u.proposal = k := by
  simpa [Db.proposalVersionsOf] using h

theorem transitionProposal_wp {user : User} {k : ProposalId} {target : String} {ids : NewIds} :
    Obliged cfg mode ok i (transitionProposal cfg user k target ids) ⟨∅, id, b, w⟩
      fun _ _ => True := by
  refine Law.wp_bind (getProposal_wp fun w₁ w₂ q h₁ h₂ hq => ?_)
  obtain rfl : q.id = k := Table.get_key hq
  refine Law.wp_bind (getProject_wp fun w₃ project h₃ hpr => ?_)
  cases ht : (allowedTransitions q.status).find? fun s => s.name = upper target with
  | none => trivial
  | some t =>
  have hallowed := List.mem_of_find?_eq_some ht
  refine Law.wp_bind (requireMayTransition_wp (Law.wp_bind (require_wp fun _ => ?_)))
  -- the copy of the proposal is the row, later, with another status and version
  have hlater : ∀ {w'}, Later cfg mode ok ∅ mode.inTxn w₁ w' →
      ∃ p, w'.1.proposal? q.id = some p ∧ q.Keeps p :=
    fun h => h.frame.proposals.keep _ q hq
  have h₁₃ : Later cfg mode ok ∅ mode.inTxn w₁ w₃ := later_trans h₂ h₃ subset_rfl
  refine Law.wp_bind ?_
  unfold createOnAcceptance
  split
  · rename_i hacc
    subst hacc
    refine createContract_wp (fun w₄ h₄ hex => ?_) ?_
    · refine Law.wp_bind (flushStatus_wp fun held' w₅ hs h₅ =>
        Law.wp_bind (commit_wp (fun w₆ h₆ => ?_) fun v => getProposal_any))
      have h₁₄ := later_trans h₁₃ h₄ subset_rfl
      have h₁₆ := later_trans (later_trans h₁₄ h₅ subset_rfl) h₆ (Set.empty_subset _)
      have hp : ∃ p, w₆.1.proposal? q.id = some p := (hlater h₁₆).imp fun p hp => hp.1
      refine .transitioned q .accepted (hs (.inl rfl)) hp hallowed (fun _ => ?_)
        (serial_proposal h₁₆ hq)
      obtain ⟨x, hx, he⟩ := Table.get_isSome.1 hex
      have hx' := Table.get_of_mem h₄.inv.details hx
      have h₄₆ := h₅.frame.trans (h₆.frame.mono (Set.empty_subset _))
      obtain ⟨y, hy, t, rfl⟩ := h₄₆.details.keep _ x hx'
      exact Table.get_isSome.2 ⟨_, Table.get_mem hy, he⟩
    · intro held' w₄ v attachments bps n hs h₄ hr hv hvn h0 hle hatt hn
      refine Law.wp_bind (flushStatus_wp fun held'' w₅ hs' h₅ =>
        Law.wp_bind (commit_wp (fun w₆ h₆ => ?_) fun v => getProposal_any))
      have h₁₄ := later_trans h₁₃ h₄ subset_rfl
      have h₁₆ := later_trans (later_trans h₁₄ h₅ (Set.empty_subset _)) h₆ (Set.empty_subset _)
      have h₂₆ : Frame ∅ w₂.1 w₆.1 := ((h₃.frame.trans h₄.frame).trans
        (h₅.frame.mono (Set.empty_subset _))).trans (h₆.frame.mono (Set.empty_subset _))
      have hr' : Reserved held'' w₆.1 n :=
        (hr.frame (h₅.frame.trans (h₆.frame.mono fun _ h => hs' (.inr h)))).mono fun _ h =>
          hs' (.inr h)
      obtain ⟨hmem, hvp⟩ := proposalVersionsOf_mem hv
      have hv₂ : w₂.1.proposalVersion? v.key = some v :=
        Table.get_of_mem h₂.inv.proposalVersions hmem
      have hv₆ := Table.get_mem (h₂₆.proposalVersions.eq_of_eq hv₂)
      have hproject : project.id = q.project := Table.get_key hpr
      exact .accepted q n (hs' (.inl rfl)) (hlater h₁₆) hallowed
        ⟨hr', ids, project, v, attachments, bps, hproject, hv₆, Prod.ext hvp hvn, h0, hle, hatt, hn⟩
        (serial_proposal h₁₆ hq)
  · rename_i hacc
    refine Law.wp_pure (Law.wp_bind (flushStatus_wp fun held' w₄ hs h₄ =>
      Law.wp_bind (commit_wp (fun w₅ h₅ => ?_) fun v => getProposal_any)))
    have h₁₅ := later_trans (later_trans h₁₃ h₄ subset_rfl) h₅ (Set.empty_subset _)
    have hp : ∃ p, w₅.1.proposal? q.id = some p := (hlater h₁₅).imp fun p hp => hp.1
    exact .transitioned q t (hs (.inl rfl)) hp hallowed (fun h => absurd h hacc)
      (serial_proposal h₁₅ hq)

/-! ## Signature -/

theorem getContractForUpdate_wp {k : ContractId} {Q : TxView → Contract × ContractDetails → Prop}
    (h : ∀ w' c x, Later cfg mode ok held b w w' → (pend w'.1).contract? k = some (c, x) →
      Q ⟨insert (.money (.contract c.id)) held, pend, mode.inTxn, w'⟩ (c, x)) :
    Obliged cfg mode ok i (getContractForUpdate k) ⟨held, pend, b, w⟩ Q := by
  refine Law.wp_bind (frames.wp_selectForUpdate (fun _ _ _ => trivial) fun w' r hw hr => ?_)
  obtain ⟨c, x⟩ := r
  exact h w' c x hw hr

theorem currentContractVersion_wp {x : ContractDetails}
    {versions : List ContractVersion} {v : TxView}
    {Q : TxView → ContractVersion → Prop}
    (h : ∀ u ∈ versions, u.versionNumber = x.currentVersion → Q v u) :
    Obliged cfg mode ok i (currentContractVersion x versions) v Q := by
  unfold currentContractVersion
  cases hu : versions.find? fun u => u.versionNumber = x.currentVersion with
  | none => trivial
  | some u => exact h u (List.mem_of_find?_eq_some hu) (by simpa using List.find?_some hu)

theorem signature?_eq_none {d : Db} {v : VersionId} {u : UserId} :
    d.signature? v u = none ↔ Table.get ContractSignature.key (v, u) d.signatures = none := by
  simp [Db.signature?, Table.get]

theorem insertSignature_wp {s : ContractSignature} {Q : TxView → Unit → Prop}
    (h : ∀ held' w', held ⊆ held' → .signature s.version s.user ∈ held' →
      Later cfg mode ok held b w w' → w'.1.signature? s.version s.user = none →
      Q ⟨held', Db.addSignature s, mode.inTxn, w'⟩ ()) :
    Obliged cfg mode ok i (insertSignature s) ⟨held, id, b, w⟩ Q := by
  refine Law.wp_bind (reserve_wp fun w₁ h₁ hs => Law.wp_bind (reserve_wp fun w₂ h₂ _ => ?_))
  have hn : w₁.1.signature? s.version s.user = none := by simpa using hs
  refine h _ w₂ (fun k hk => .inr (.inr hk)) (.inr (.inl rfl))
    (later_trans h₁ h₂ (Set.subset_insert _ _)) ?_
  rw [signature?_eq_none] at hn ⊢
  exact (h₂.frame.signatures.own (s.version, s.user) (.inl rfl)).trans hn

theorem signContract_wp {user : User} {k : ContractId} {key hash : String} :
    Obliged cfg mode ok i (signContract cfg user k key hash) ⟨∅, id, b, w⟩ fun _ _ => True := by
  refine Law.wp_bind (getContractForUpdate_wp fun w₁ c x h₁ hc => ?_)
  refine Law.wp_bind (select_wp fun w₂ h₂ => ?_)
  refine Law.wp_bind (require_wp fun hparty => Law.wp_bind (require_wp fun hst => ?_))
  refine Law.wp_bind
    (currentContractVersion_wp fun v hv hvn => Law.wp_bind (require_wp fun _ => ?_))
  refine Law.wp_bind (select_wp fun w₃ h₃ => ?_)
  split
  · exact Law.wp_bind (require_wp fun _ => getContract_any)
  refine Law.wp_bind (select_wp fun w₄ h₄ => ?_)
  split
  · exact getContract_any
  refine Law.wp_bind (insertSignature_wp fun held' w₅ hs hsl h₅ hfresh => ?_)
  refine Law.wp_bind (select_wp fun w₆ h₆ => ?_)
  obtain ⟨hvm, hvc⟩ : v ∈ w₂.1.versions ∧ v.contract = c.id := by
    simpa [Db.versionsOf] using hv
  have hcid : c.id = k := Table.get_key (Db.contract?_eq_some _ |>.1 hc).1
  subst hcid
  have hlock : ∀ {n}, n ∈ insert (.money (.contract c.id)) (∅ : Set LockName) →
      n ∈ held' := fun h => hs h
  have hsigned : ∀ w₇, Later cfg mode ok held' mode.inTxn w₆ w₇ →
      Signed held' w₇.1 c x v ⟨v.id, user.id, v.documentHash, cfg.sha256 key⟩ ∧
        w₇.1.signaturesOf v.id = w₆.1.signaturesOf v.id := by
    intro w₇ h₇
    have f₆₇ := h₇.frame
    have f₅₇ := h₆.frame.trans f₆₇
    have f₂₇ := ((h₃.frame.trans h₄.frame).trans h₅.frame).trans (f₅₇.mono hs)
    have f₁₇ := h₂.frame.trans f₂₇
    have hv₂ : w₂.1.version? v.id = some v := Table.get_of_mem h₂.inv.versions hvm
    have hv₆ := (f₂₇.versions.eq_of_eq hv₂)
    obtain ⟨hc₁, hx₁⟩ := (Db.contract?_eq_some _).1 hc
    refine ⟨⟨hlock (.inl rfl), (Db.contract?_eq_some _).2 ⟨?_, ?_⟩, of_decide_eq_true hst,
      ⟨hv₆, hvc, hvn⟩, ⟨rfl, rfl⟩, hsl, ?_, ?_⟩, ?_⟩
    · exact (f₁₇.contracts.own _ (.inl rfl)).trans hc₁
    · exact (f₁₇.details.own _ (.inl rfl)).trans hx₁
    · rw [signature?_eq_none] at hfresh ⊢
      exact (f₅₇.signatures.own (v.id, user.id) hsl).trans hfresh
    · simpa [isContractParty] using hparty
    · refine f₆₇.signed v.id v ?_ (hvc ▸ hlock (.inl rfl))
      exact (((h₃.frame.trans h₄.frame).trans h₅.frame).trans (h₆.frame.mono hs)).versions.eq_of_eq
        hv₂
  have hready : ∀ w₇, Later cfg mode ok held' mode.inTxn w₆ w₇ → ∀ f : Db → Db,
      f w₇.1 = w₇.1.sign c x ⟨v.id, user.id, v.documentHash, cfg.sha256 key⟩ →
      Effect cfg (mode.inTxn = true) held' w₇.1 (.commit (.signed c.id)) (f w₇.1) := by
    intro w₇ h₇ f hf
    rw [hf]
    exact .signed c x v _ (hsigned w₇ h₇).1
  have hsame : ∀ w₇, Later cfg mode ok held' mode.inTxn w₆ w₇ →
      ((Db.addSignature ⟨v.id, user.id, v.documentHash, cfg.sha256 key⟩ w₇.1).signaturesOf v.id) =
        ((Db.addSignature ⟨v.id, user.id, v.documentHash, cfg.sha256 key⟩ w₆.1).signaturesOf
          v.id) := by
    intro w₇ h₇
    have := (hsigned w₇ h₇).2
    simp only [Db.signaturesOf, Db.addSignature, List.filter_cons] at this ⊢
    rw [this]
  split
  · rename_i hall
    refine Law.wp_bind
      (Law.wp_bind (commit_wp (fun w₇ h₇ => hready w₇ h₇ _ ?_) fun v => getContract_any))
    unfold Db.sign
    dsimp only
    rw [hsame w₇ h₇, if_pos hall]
    rfl
  · rename_i hall
    refine Law.wp_bind (commit_wp (fun w₇ h₇ => hready w₇ h₇ _ ?_) fun v => getContract_any)
    unfold Db.sign
    dsimp only
    rw [hsame w₇ h₇, if_neg hall]

/-! ## Cancellation -/

theorem financial_require_wp {c : Bool} {e : Err} {v : TxView} {Q : TxView → Unit → Prop}
    (h : Q v ()) : Obliged cfg mode ok i (financial (Money.require c e)) v Q := by
  unfold Money.require
  split
  · exact h
  · trivial

theorem requireIdle_wp {c : Contract} {ms : List Money.Milestone} {Q : TxView → Unit → Prop}
    (h : ∀ b' w', Later cfg mode ok held b w w' → Q ⟨held, pend, b', w'⟩ ())
    (hw : Later cfg mode ok held b w w) :
    Obliged cfg mode ok i (financial (Money.requireIdle c ms)) ⟨held, pend, b, w⟩ Q := by
  unfold Money.requireIdle
  split
  · rw [financial_bind]
    refine Law.wp_bind (financial_require_wp ?_)
    rw [financial_bind]
    exact Law.wp_bind (frames.wp_select fun w' hw' => financial_require_wp (h _ w' hw'))
  · exact h b w hw

theorem financialGetContract_wp {k : ContractId} {v : TxView} {Q : TxView → Contract → Prop}
    (h : ∀ v c, Q v c) : Obliged cfg mode ok i (financial (Money.getContract k)) v Q := by
  unfold Money.getContract
  rw [financial_bind]
  refine Law.wp_bind (frames.wp_select fun w' _ => ?_)
  split
  · trivial
  · exact h _ _

theorem cancelContract_wp {user : User} {k : ContractId} :
    Obliged cfg mode ok i (cancelContract user k) ⟨∅, id, b, w⟩ fun _ _ => True := by
  unfold cancelContract Money.cancelContract Money.getContractForUpdate
  simp only [financial_bind, financial_selectForUpdate]
  refine Law.wp_bind (Law.wp_bind (Law.wp_bind ?_))
  refine frames.wp_selectForUpdate (fun w₁ h₁ _ => trivial) (fun w₁ c h₁ hc => ?_)
  rw [financial_bind]
  refine Law.wp_bind (frames.wp_select fun w₂ h₂ => Law.wp_bind (financial_require_wp ?_))
  split
  · exact financialGetContract_wp fun _ _ => getContract_any
  rw [financial_bind]
  refine Law.wp_bind (requireIdle_wp (fun b' w₃ h₃ => ?_) ⟨.refl _ _, fun _ _ => rfl, h₂.inv⟩)
  simp only [financial_bind]
  refine Law.wp_bind (Law.wp_bind (frames.wp_commit fun w₄ h₄ _ => ?_))
  have heff : Effect cfg (mode.inTxn = true) (insert (.money (.contract c.id)) ∅) w₄.1
      (.money (.commit (.contractCancelled c.id)))
      { w₄.1 with money := w₄.1.money.cancelContract c.id } :=
    .cancelled c.id (.inl rfl)
  exact ⟨heff.consistent h₄.inv, heff, financialGetContract_wp fun _ _ => getContract_any⟩

end

end Agreements
