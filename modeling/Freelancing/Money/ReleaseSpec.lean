import Freelancing.Money.WebhookSpec

/-!
# Obligations of release and of milestone transitions
-/

namespace Money

variable {R : Rules} {i : Nat} {held held' : Set LockName} {pend : Db → Db} {b : Bool}
  {w w' : World}

/-! ## Journals of known rows -/

theorem Consistent.no_release_journal {d : Db} (hd : Consistent d) {m : Milestone}
    (hm : d.milestone? m.id = some m) (hs : m.status ≠ .released) :
    d.journal? ⟨.milestoneRelease, .milestone m.id⟩ = none := by
  refine hd.no_journal fun _ _ hk => ?_
  obtain ⟨y, hy, hr⟩ := hk
  cases hm.symm.trans hy
  exact hs hr

/-- The escrow of a milestone is the account of its key. -/
theorem Consistent.escrow_key {d : Db} (hd : Consistent d) {m : Milestone} {e : MilestoneEscrow}
    (hm : d.milestone? m.id = some m) (he : d.escrow? m.id = some e) :
    e.escrowAccount = m.escrowKey ∧ d.account? m.escrowKey = some m.escrowKey.account := by
  obtain ⟨y, hy, hk, ha⟩ := hd.escrows e (Table.get_mem he)
  rw [show e.milestone = m.id from Table.get_key he, hm] at hy
  cases hy
  rw [hk] at ha
  exact ⟨hk, ha⟩

/-! ## Release -/

/-- What a release has checked and locked. -/
structure ReleaseFacts (R : Rules) (held : Set LockName) (d : Db) (m : Milestone)
    (e : MilestoneEscrow) (c : Contract) (x : FinancialIdempotencyKey)
    (o : Option FinancialIdempotencyKey) (ow op : Option AccountKey) : Prop where
  record : Claimed d o x
  recordLock : .record x.scope ∈ held
  milestone : d.milestone? m.id = some m
  milestoneLock : .milestone m.id ∈ held
  approved : m.status = .approved
  contract : ∃ c', d.contract? m.contract = some c' ∧ c.Keeps c'
  escrow : d.escrow? m.id = some e
  funded : R.Serial → d.balance m.escrowKey = m.amountMinor
  wallet : AccountReady d (.userWallet c.freelancer m.currency) ow
  walletLock : .account (.userWallet c.freelancer m.currency) ∈ held
  platform : AccountReady d (.platformCommission m.currency) op
  platformLock : .account (.platformCommission m.currency) ∈ held
  journalLock : .journal ⟨.milestoneRelease, .milestone m.id⟩ ∈ held
  balanced : DoubleEntry.Balanced (releaseEntries m e c.freelancer)

section
variable {m : Milestone} {e : MilestoneEscrow} {c : Contract} {ow op : Option AccountKey}
  {x : FinancialIdempotencyKey} {o : Option FinancialIdempotencyKey}

theorem releaseEntries_eq {es : List LedgerEntry}
    (h : journalEntries (releasePostings m e m.escrowKey.account
      (AccountKey.userWallet c.freelancer m.currency).account
      (AccountKey.platformCommission m.currency).account) = .ok es) :
    es = releaseEntries m e c.freelancer ∧ DoubleEntry.Balanced es := by
  obtain ⟨he, hb, -⟩ := journalEntries_ok h
  refine ⟨he.trans ?_, hb⟩
  unfold releaseEntries
  dsimp only
  split <;> simp_all [Posting.entry] <;> trivial

theorem releaseEntries_credit {y : LedgerEntry} (hy : y ∈ releaseEntries m e c.freelancer)
    (hn : y.account ≠ m.escrowKey) : y.direction = .credit := by
  simp only [releaseEntries, List.mem_append, List.mem_cons, List.not_mem_nil, or_false] at hy
  rcases hy with (rfl | rfl) | hy
  · exact absurd rfl hn
  · rfl
  · split at hy
    · rw [List.mem_singleton] at hy
      subst hy
      rfl
    · cases hy

theorem ReleaseFacts.postable {d d' : Db} (h : ReleaseFacts R held d m e c x o ow op)
    (hd : Consistent d) (hj : d'.journals = d.journals)
    (hm : ∃ y, d'.milestone? m.id = some y ∧ y.status = .released)
    (he : d'.account? m.escrowKey = some m.escrowKey.account)
    (hw : d'.account? (.userWallet c.freelancer m.currency) =
      some (AccountKey.userWallet c.freelancer m.currency).account)
    (hp : d'.account? (.platformCommission m.currency) =
      some (AccountKey.platformCommission m.currency).account) :
    Postable held d' ⟨⟨.milestoneRelease, .milestone m.id⟩, none,
      releaseEntries m e c.freelancer⟩ where
  lock := h.journalLock
  fresh := by
    rw [Db.journal?, hj]
    exact hd.no_release_journal h.milestone (by simp [h.approved])
  balanced := h.balanced
  accounts := by
    intro y hy
    simp only [releaseEntries, List.mem_append, List.mem_cons, List.not_mem_nil, or_false] at hy
    rcases hy with (rfl | rfl) | hy
    · exact ⟨he, rfl⟩
    · exact ⟨hw, rfl⟩
    · split at hy
      · rw [List.mem_singleton] at hy
        subst hy
        exact ⟨hp, rfl⟩
      · cases hy
  known := hm
  wallets u y := .inl (DoubleEntry.balance_nonneg fun z hz hv =>
    ⟨releaseEntries_credit hz (by simp [hv, Milestone.escrowKey]), h.balanced.positive z hz⟩)

theorem ReleaseFacts.updates {d : Db} (h : ReleaseFacts R held d m e c x o ow op)
    (hd : Consistent d) {v v' : MilestoneEvent} (hv : v.Goes .approved .releasePending)
    (hv' : v'.Goes .releasePending .released) {n : OutboxEvent} {r : Response} : Updates held d
      (.completeRecord x.scope r <| .enqueue n <| .moveMilestone m.id v' <| .moveMilestone m.id v <|
        .addJournal ⟨⟨.milestoneRelease, .milestone m.id⟩, none, releaseEntries m e c.freelancer⟩ <|
        whenSome (fun k => .addAccount k.account) op <|
        whenSome (fun k => .addAccount k.account) ow <| whenSome .addRecord o d) := by
  have hne : AccountKey.platformCommission m.currency ≠ .userWallet c.freelancer m.currency := nofun
  have hep : m.escrowKey ≠ .platformCommission m.currency := nofun
  have hew : m.escrowKey ≠ .userWallet c.freelancer m.currency := nofun
  have ho : ∀ k, (whenSome .addRecord o d).account? k =
      d.account? k := by cases o <;> exact fun _ => rfl
  have hw : AccountReady (whenSome .addRecord o d) (.userWallet c.freelancer m.currency) ow :=
    h.wallet.congr (ho _)
  have hp : AccountReady (whenSome (fun k => .addAccount k.account) ow <| whenSome .addRecord o d)
      (.platformCommission m.currency) op :=
    h.platform.congr ((hw.account_ne _ hne).trans (ho _))
  have u₁ := ((h.record.updates rfl h.recordLock).trans (hw.updates h.walletLock)).trans
    (hp.updates h.platformLock)
  generalize hd₁ : whenSome (fun k => Db.addAccount k.account) op
    (whenSome (fun k => Db.addAccount k.account) ow (whenSome .addRecord o d)) = d₁ at u₁ ⊢
  have hm₁ : d₁.milestone? m.id = some m := by
    rw [← hd₁]
    cases op <;> cases ow <;> cases o <;> exact h.milestone
  have hj₁ : d₁.journals = d.journals := by
    rw [← hd₁]
    cases op <;> cases ow <;> cases o <;> rfl
  have hw₁ : d₁.account? (.userWallet c.freelancer m.currency) =
      some (AccountKey.userWallet c.freelancer m.currency).account := by
    rw [← hd₁, hp.account_ne _ hne.symm]
    exact hw.account
  have hp₁ : d₁.account? (.platformCommission m.currency) =
      some (AccountKey.platformCommission m.currency).account := by
    rw [← hd₁]
    exact hp.account
  have he₁ : d₁.account? m.escrowKey = some m.escrowKey.account := by
    rw [← hd₁, hp.account_ne _ hep, hw.account_ne _ hew, ho]
    exact (hd.escrow_key h.milestone h.escrow).2
  -- the milestone is released before its journal is posted: both orders give the same tables
  have u₂ : Update held d₁ (d₁.moveMilestone m.id v) :=
    .moveMilestone m v h.milestoneLock hm₁ (by simp [h.approved]) (by simp [h.approved])
  have hm₂ : (d₁.moveMilestone m.id v).milestone? m.id =
      some { m with status := v.toStatus, events := m.events ++ [v] } := by
    rw [Db.milestone?_moveMilestone, hm₁, Option.map_some, if_pos rfl]
  have u₃ : Update held (d₁.moveMilestone m.id v)
      ((d₁.moveMilestone m.id v).moveMilestone m.id v') :=
    .moveMilestone { m with status := v.toStatus, events := m.events ++ [v] } v'
      h.milestoneLock hm₂ (by simp [hv.2]) (by simp [hv.2])
  have hm₃ : ∃ y, ((d₁.moveMilestone m.id v).moveMilestone m.id v').milestone? m.id = some y ∧
      y.status = .released := by
    rw [Db.milestone?_moveMilestone, hm₂, Option.map_some, if_pos rfl]
    exact ⟨_, rfl, hv'.2⟩
  have hpost : Postable held ((d₁.moveMilestone m.id v).moveMilestone m.id v') _ :=
    h.postable hd hj₁ hm₃ he₁ hw₁ hp₁
  exact (((u₁.trans (.single u₂)).trans (.single u₃)).trans
    (.single (.addJournal _ hpost))).trans
    ((Updates.single (.enqueue n)).trans (.single (.completeRecord _ _ h.recordLock)))

theorem ReleaseFacts.ready {v v' : MilestoneEvent} {r : Response}
    (h : ∀ w', Later R held b w w' → ReleaseFacts R held w'.1 m e c x o ow op)
    (hv : v.Goes .approved .releasePending) (hv' : v'.Goes .releasePending .released) :
    Ready R (.released m.id) ⟨held, .completeRecord x.scope r ∘
      .enqueue (.milestoneReleased m.id ⟨.milestoneRelease, .milestone m.id⟩) ∘
      .moveMilestone m.id v' ∘ .moveMilestone m.id v ∘
      .addJournal ⟨⟨.milestoneRelease, .milestone m.id⟩, none,
        releaseEntries m e c.freelancer⟩ ∘
      whenSome (fun k => .addAccount k.account) op ∘
      whenSome (fun k => .addAccount k.account) ow ∘ whenSome .addRecord o, b, w⟩ := by
  intro w' hw
  have hf := h w' hw
  exact ⟨hf.updates hw.inv hv hv', .released (.trans (.trans (.record o) (.account ow))
    (.account op)) x.scope r m c e v v' hf.milestone hf.approved
    hf.contract hf.escrow hf.funded hv hv'⟩

end

theorem releaseMilestone_spec {user : User} {milestoneId : MilestoneId} {key : String} :
    Meets R i (releaseMilestone user milestoneId key) ⟨∅, id, b, w⟩ fun _ _ => True := by
  refine Meets.bind (lockedMilestone_spec (fun _ _ => rfl) (fun _ _ => rfl)) ?_
  rintro _ ⟨m, c⟩ ⟨w₁, h₁, rfl, hid, hm, hc⟩
  refine Meets.bind .require ?_
  rintro _ - ⟨rfl, -⟩
  refine Meets.bind .require ?_
  rintro _ - ⟨rfl, -⟩
  refine Meets.bind (claimIdempotency_spec fun _ _ => rfl) ?_
  rintro _ ⟨x, created⟩ ⟨w₂, o, h₂, rfl, hcl, -⟩
  dsimp only at hid hm hc hcl ⊢
  subst hid
  split
  · exact .pure trivial
  split
  · refine Meets.bind financialState_spec ?_
    rintro _ state ⟨w₃, h₃, rfl⟩
    exact (replayed_spec rfl ((hcl.ready (Set.mem_insert _ _)).later h₃.toMoved subset_rfl)).mono
      fun _ _ _ => trivial
  refine Meets.bind .require ?_
  rintro _ - ⟨rfl, happ⟩
  refine Meets.bind (requireEscrow_spec fun d k => by cases o <;> rfl) ?_
  rintro _ e ⟨w₃, h₃, rfl, he⟩
  refine Meets.bind (lockedEscrowAccount_spec fun d k => by cases o <;> rfl) ?_
  rintro _ a ⟨w₄, h₄, rfl, -, rfl⟩
  refine Meets.bind accountBalanceMinor_spec ?_
  rintro _ n ⟨w₅, h₅, rfl, hn⟩
  refine Meets.bind .require ?_
  rintro _ - ⟨rfl, hbal⟩
  have hm₃ : w₃.1.milestone? m.id = some m := by
    rw [(h₂.trans h₃ (Set.subset_insert _ _)).milestone (Set.mem_insert _ _)]
    exact hm
  rw [(h₃.inv.escrow_key hm₃ he).1] at h₅ hn ⊢
  rw [show walletOf c.freelancer m.currency =
    (AccountKey.userWallet c.freelancer m.currency).account from rfl]
  refine Meets.bind (getOrCreateAccount_spec fun d => by cases o <;> rfl) ?_
  rintro _ wallet ⟨w₆, ow, h₆, rfl, hW, rfl⟩
  rw [show platformAccount m.currency = (AccountKey.platformCommission m.currency).account from rfl]
  have hne : AccountKey.platformCommission m.currency ≠ .userWallet c.freelancer m.currency := nofun
  refine Meets.bind (getOrCreateAccount_spec fun d =>
    (hW.account_ne _ hne).trans (by cases o <;> rfl)) ?_
  rintro _ platform ⟨w₇, op, h₇, rfl, hP, rfl⟩
  have h₅₇ : Moved R _ _ w₅ w₇ := h₆.toMoved.trans h₇.toMoved (Set.subset_insert _ _)
  have h₃₇ : Moved R _ _ w₃ w₇ := h₄.toMoved.trans (h₅.toMoved.trans h₅₇ subset_rfl)
    (Set.subset_insert _ _)
  have hm₇ : w₇.1.milestone? m.id = some m := (h₃₇.milestone (by simp)).trans hm₃
  refine Meets.bind (postJournal_new fun w' hw => ?_) ?_
  · have hk := hw.inv.no_release_journal ((hw.milestone (by simp)).trans hm₇) (by assumption)
    cases o <;> cases ow <;> cases op <;> exact hk
  rintro _ journal ⟨w₈, es, h₈, hes, rfl, rfl⟩
  obtain ⟨rfl, hb⟩ := releaseEntries_eq hes
  refine Meets.bind .write ?_
  rintro _ - rfl
  refine Meets.bind .write ?_
  rintro _ - rfl
  refine Meets.bind .write ?_
  rintro _ - rfl
  refine Meets.bind financialState_spec ?_
  rintro _ state ⟨w₉, h₉, rfl⟩
  refine Meets.bind completeIdempotency_spec ?_
  rintro _ - ⟨w₁₀, h₁₀, rfl⟩
  refine Meets.bind (.commit (ReleaseFacts.ready (fun w' hw => ?_) ⟨rfl, rfl⟩ ⟨rfl, rfl⟩))
      fun _ _ _ =>
    .pure trivial
  have h₇' := h₈.toMoved.trans ((h₉.trans h₁₀ subset_rfl).trans hw (Set.subset_insert _ _)).toMoved
    (Set.subset_insert _ _)
  have h₆' := h₇.toMoved.trans h₇' (Set.subset_insert _ _)
  have h₂' := (h₃.toMoved.trans h₃₇ subset_rfl).trans h₇' (by simp [Set.insert_subset_iff])
  have h₅' := h₅₇.trans h₇' (by simp [Set.insert_subset_iff])
  exact
    { record := hcl.later h₂' (by simp)
      recordLock := by simp
      milestone := (h₇'.milestone (by simp)).trans hm₇
      milestoneLock := by simp
      approved := by simpa using happ
      contract := (h₂.toMoved.trans h₂' (Set.subset_insert _ _)).frame.contracts.keep _ c hc
      escrow := (h₃₇.trans h₇' (by simp [Set.insert_subset_iff])).frame.escrows.eq_of_eq he
      funded := fun hser => by
        rw [h₅'.still hser hser, ← (of_decide_eq_true hbal : n = m.amountMinor), hn,
          AccountKey.account_key]
        cases o <;> rfl
      wallet := hW.later h₆' (by simp)
      walletLock := by simp
      platform := hP.later h₇' (by simp)
      platformLock := by simp
      journalLock := by simp
      balanced := hb }

/-! ## Transitions -/

theorem requireFunds_spec {action : MilestoneAction} {m : Milestone} (hi : Consistent w.1)
    (hm : w.1.milestone? m.id = some m) (hl : .milestone m.id ∈ held) :
    Meets R i (requireFunds action m) ⟨held, id, R.mode.inTxn, w⟩ fun v' _ => ∃ w',
      Later R held R.mode.inTxn w w' ∧ v' = ⟨held, id, R.mode.inTxn, w'⟩ ∧
      (R.Serial → action = .start → (∃ e, w'.1.escrow? m.id = some e) ∧
        w'.1.balance m.escrowKey = m.amountMinor) := by
  unfold requireFunds
  split
  · refine Meets.bind (requireEscrow_spec fun _ _ => rfl) ?_
    rintro _ e ⟨w₁, h₁, rfl, he⟩
    refine Meets.bind .select ?_
    rintro _ r ⟨w₂, h₂, rfl, hr⟩
    cases r with
    | none => exact .raise
    | some a =>
      refine Meets.bind accountBalanceMinor_spec ?_
      rintro _ n ⟨w₃, h₃, rfl, hn⟩
      refine Meets.require.mono ?_
      rintro _ - ⟨rfl, hbal⟩
      have h₁₃ := h₂.trans h₃ subset_rfl
      have he₃ : w₃.1.escrow? m.id = some e := h₁₃.frame.escrows.eq_of_eq he
      have hm₁ : w₁.1.milestone? m.id = some m := (h₁.milestone hl).trans hm
      have hk : a.key = m.escrowKey := by
        rw [← (h₁.inv.escrow_key hm₁ he).1]
        exact Table.get_key hr.symm
      refine ⟨w₃, h₁.trans h₁₃ subset_rfl, rfl, fun _ _ => ⟨⟨e, he₃⟩, ?_⟩⟩
      rw [← (of_decide_eq_true hbal : n = m.amountMinor), hn, hk]
      rfl
  · rename_i hne
    exact .pure ⟨w, .refl hi, rfl, fun _ h => absurd h hne⟩

theorem requireAllowed_spec {user : User} {c : Contract} {worker : Bool} {v : TxView} :
    Meets R i (requireAllowed user c worker) v fun v' _ => v' = v := by
  unfold requireAllowed
  split
  · exact Meets.require.mono fun _ _ h => h.1
  · exact Meets.require.mono fun _ _ h => h.1

theorem transition_spec {user : User} {milestoneId : MilestoneId} {action : MilestoneAction}
    {note : String} {worker : Bool} :
    Meets R i (transition user milestoneId action action.target note worker) ⟨∅, id, b, w⟩
      fun _ _ => True := by
  refine Meets.bind (lockedMilestone_spec (fun _ _ => rfl) (fun _ _ => rfl)) ?_
  rintro _ ⟨m, c⟩ ⟨w₁, h₁, rfl, hid, hm, -⟩
  dsimp only at hid hm ⊢
  subst hid
  refine Meets.bind .require ?_
  rintro _ - ⟨rfl, -⟩
  refine Meets.bind requireAllowed_spec ?_
  rintro _ - rfl
  split
  · exact findMilestone_spec.mono fun _ _ _ => trivial
  refine Meets.bind .require ?_
  rintro _ - ⟨rfl, hallowed⟩
  refine Meets.bind (requireFunds_spec h₁.inv hm (Set.mem_insert _ _)) ?_
  rintro _ - ⟨w₂, h₂, rfl, hstart⟩
  refine Meets.bind .write ?_
  rintro _ - rfl
  refine Meets.bind (.commit fun w' hw => ?_) fun _ _ _ =>
    findMilestone_spec.mono fun _ _ _ => trivial
  have hm' : w'.1.milestone? m.id = some m :=
    ((h₂.trans hw subset_rfl).milestone (Set.mem_insert _ _)).trans hm
  have ha : m.status ∈ userTransitions action := by simpa using hallowed
  refine ⟨.single (.moveMilestone m _ (Set.mem_insert _ _) hm' ?_ ?_),
    .milestoneMoved m _ action hm' ha ⟨rfl, rfl⟩ fun hser => ?_⟩
  · intro hr
    rw [hr] at ha
    cases action <;> simp [userTransitions] at ha
  · intro hr
    rw [hr] at ha
    cases action <;> simp [userTransitions] at ha
  · rw [hw.still hser hser]
    exact hstart hser

end Money
