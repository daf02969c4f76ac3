import Freelancing.Money.DisputeSpec

/-!
# Obligations of the resolution of disputes

The journal of a resolution has a posting for each part that is not zero (`Credited`), the client's
part has been sent back by the provider before it is posted (`SentBack`), and everything commits at
once.
-/

namespace Money

variable {R : Rules} {i : Nat} {held held' : Set LockName} {pend : Db → Db} {b : Bool}
  {w w' : World}

/-! ## The parts of a resolution -/

/-- The posting of a part of `n`: a part that is zero has none. -/
def credit (k : AccountKey) (n : Int) : List Posting :=
  if n ≠ 0 then [⟨k.account, .credit, n⟩] else []

/-- The account `k` is credited with `n`: it is there, or inserted (`o`), unless `n` is zero. -/
def Credited (held : Set LockName) (d : Db) (k : AccountKey) (n : Int) (o : Option AccountKey) :
    Prop :=
  n = 0 ∧ o = none ∨ n ≠ 0 ∧ AccountReady d k o ∧ .account k ∈ held

section
variable {k : AccountKey} {n : Int} {o : Option AccountKey}

theorem Credited.later (h : Credited held w.1 k n o) (hm : Moved R held b w w')
    (hs : held ⊆ held') : Credited held' w'.1 k n o := by
  rcases h with h | ⟨hn, ha, hl⟩
  · exact .inl h
  · exact .inr ⟨hn, ha.later hm hl, hs hl⟩

theorem Credited.congr {d d' : Db} (h : Credited held d k n o)
    (hd : d'.account? k = d.account? k) : Credited held d' k n o := by
  rcases h with h | ⟨hn, ha, hl⟩
  · exact .inl h
  · exact .inr ⟨hn, ha.congr hd, hl⟩

theorem Credited.updates {d : Db} (h : Credited held d k n o) :
    Updates held d (whenSome (fun k => .addAccount k.account) o d) := by
  rcases h with ⟨-, rfl⟩ | ⟨-, ha, hl⟩
  · exact Relation.ReflTransGen.refl
  · exact ha.updates hl

theorem Credited.account {d : Db} (h : Credited held d k n o) (hn : n ≠ 0) :
    (whenSome (fun k => .addAccount k.account) o d).account? k = some k.account := by
  rcases h with ⟨h, -⟩ | ⟨-, ha, -⟩
  · exact absurd h hn
  · exact ha.account

theorem Credited.account_ne {d : Db} (h : Credited held d k n o) (d' : Db) {k' : AccountKey}
    (hk : k' ≠ k) :
    (whenSome (fun k => .addAccount k.account) o d').account? k' = d'.account? k' := by
  rcases h with ⟨-, rfl⟩ | ⟨-, ha, -⟩
  · rfl
  · exact ha.account_ne d' hk

theorem creditUnlessZero_spec (hi : Consistent w.1)
    (hp : ∀ d, (pend d).account? k = d.account? k) :
    Meets R i (creditUnlessZero k.account n) ⟨held, pend, R.mode.inTxn, w⟩ fun v' r =>
      ∃ w' held' o, Later R held R.mode.inTxn w w' ∧ held ⊆ held' ∧
        v' = ⟨held', whenSome (fun k => .addAccount k.account) o ∘ pend, R.mode.inTxn, w'⟩ ∧
        Credited held' w'.1 k n o ∧ r = credit k n := by
  unfold creditUnlessZero credit
  split
  · rename_i hn
    refine Meets.bind (getOrCreateAccount_spec hp) ?_
    rintro _ a ⟨w₁, o, h₁, rfl, ha, rfl⟩
    exact .pure ⟨w₁, _, o, h₁, Set.subset_insert _ _, rfl, .inr ⟨hn, ha, Set.mem_insert _ _⟩, rfl⟩
  · rename_i hn
    exact .pure ⟨w, held, none, .refl hi, subset_rfl, rfl, .inl ⟨not_not.1 hn, rfl⟩, rfl⟩

end

theorem freelancerPostings_spec {u : UserId} {c : Currency} {net commission : Int}
    (hi : Consistent w.1) (hp : ∀ d k, (pend d).account? k = d.account? k) :
    Meets R i (freelancerPostings u c net commission) ⟨held, pend, R.mode.inTxn, w⟩ fun v' r =>
      ∃ w' held' ow op, Later R held R.mode.inTxn w w' ∧ held ⊆ held' ∧
        v' = ⟨held', whenSome (fun k => .addAccount k.account) op ∘
          whenSome (fun k => .addAccount k.account) ow ∘ pend, R.mode.inTxn, w'⟩ ∧
        Credited held' w'.1 (.userWallet u c) net ow ∧
        Credited held' w'.1 (.platformCommission c) commission op ∧
        r = credit (.userWallet u c) net ++ credit (.platformCommission c) commission := by
  have hne : AccountKey.platformCommission c ≠ .userWallet u c := nofun
  refine Meets.bind (creditUnlessZero_spec (k := .userWallet u c) hi fun d => hp d _) ?_
  rintro _ r₁ ⟨w₁, held₁, ow, h₁, hs₁, rfl, hw, rfl⟩
  refine Meets.bind (creditUnlessZero_spec (k := .platformCommission c) h₁.inv fun d =>
    (hw.account_ne _ hne).trans (hp d _)) ?_
  rintro _ r₂ ⟨w₂, held₂, op, h₂, hs₂, rfl, hpl, rfl⟩
  exact .pure ⟨w₂, held₂, ow, op, h₁.trans h₂ hs₁, hs₁.trans hs₂, rfl, hw.later h₂.toMoved hs₂, hpl,
    rfl⟩

/-! ## The refund by the provider -/

/-- What a session that resolves the dispute `x` of the milestone `m` has checked and locked. -/
structure Resolving (R : Rules) (held : Set LockName) (d : Db) (x : Dispute) (m : Milestone)
    (c : Contract) (e : MilestoneEscrow) : Prop where
  dispute : d.dispute? x.id = some x
  disputeLock : .dispute x.id ∈ held
  review : x.status = .underReview
  milestone : d.milestone? m.id = some m
  milestoneLock : .milestone m.id ∈ held
  same : x.milestone = m.id
  disputed : m.status = .disputed
  contract : ∃ c', d.contract? m.contract = some c' ∧ c.Keeps c'
  escrow : d.escrow? m.id = some e
  funded : R.Serial → d.balance m.escrowKey = m.amountMinor
  positive : 0 < m.amountMinor

section
variable {x : Dispute} {m : Milestone} {c : Contract} {e : MilestoneEscrow}

theorem Resolving.later (h : Resolving R held w.1 x m c e) (hm : Moved R held R.mode.inTxn w w')
    (hs : held ⊆ held') : Resolving R held' w'.1 x m c e :=
  { h with
    dispute := (hm.dispute h.disputeLock).trans h.dispute
    disputeLock := hs h.disputeLock
    milestone := (hm.milestone h.milestoneLock).trans h.milestone
    milestoneLock := hs h.milestoneLock
    contract := by
      obtain ⟨c', hc, hk⟩ := h.contract
      obtain ⟨c'', hc', hk'⟩ := hm.frame.contracts.keep _ c' hc
      exact ⟨c'', hc', Contract.Keeps.trans _ _ _ hk hk'⟩
    escrow := hm.frame.escrows.eq_of_eq h.escrow
    funded := fun hser => by rw [hm.still hser hser]; exact h.funded hser }

/-- The client's part `n` has been sent back through `provider` to the intent that funded the
milestone, unless it is zero. -/
def SentBack (R : Rules) (held : Set LockName) (w : World) (x : DisputeId) (m : Milestone) (n : Int)
    (provider : Provider) (oc : Option AccountKey) (confirmed : Option ConfirmedRefund) : Prop :=
  n = 0 ∧ oc = none ∧ confirmed = none ∨
    n ≠ 0 ∧ AccountReady w.1 (.providerClearing provider m.currency) oc ∧
      .account (.providerClearing provider m.currency) ∈ held ∧
      (∃ reference, confirmed = some ⟨provider, reference⟩) ∧
      (R.Serial → (∃ i, latestCaptured (w.1.captured m.id) = some i ∧ i.provider = provider) ∧
        ∃ reference key res, R.Called (.refund (lower (strip provider)) reference n m.currency
          (.dispute x key) (.dispute x)) (.result res) w.2 ∧ res.status = "SUCCEEDED" ∧
          res.amountMinor = n)

theorem SentBack.later {n : Int} {provider : Provider} {oc : Option AccountKey}
    {confirmed : Option ConfirmedRefund} (h : SentBack R held w x.id m n provider oc confirmed)
    (hm : Later R held R.mode.inTxn w w') (hs : held ⊆ held') :
    SentBack R held' w' x.id m n provider oc confirmed := by
  rcases h with h | ⟨hn, ha, hl, hc, hser⟩
  · exact .inl h
  · refine .inr ⟨hn, ha.later hm.toMoved hl, hs hl, hc, fun hs => ?_⟩
    rw [hm.still hs hs, hm.env hs hs]
    exact hser hs

theorem SentBack.credited {n : Int} {provider : Provider} {oc : Option AccountKey}
    {confirmed : Option ConfirmedRefund} (h : SentBack R held w x.id m n provider oc confirmed) :
    Credited held w.1 (.providerClearing provider m.currency) n oc := by
  rcases h with ⟨hn, ho, -⟩ | ⟨hn, ha, hl, -⟩
  · exact .inl ⟨hn, ho⟩
  · exact .inr ⟨hn, ha, hl⟩

theorem clientRefund_spec {cfg : Config} {n : Int} {key : String} (hi : Consistent w.1)
    (h : Resolving R held w.1 x m c e) (hn : 0 ≤ n) (hle : n ≤ m.amountMinor)
    (hp : ∀ d p, (pend d).account? (.providerClearing p m.currency) =
      d.account? (.providerClearing p m.currency)) (hp' : ∀ d, (pend d).intents = d.intents) :
    Meets R i (clientRefund cfg x m n key) ⟨held, pend, R.mode.inTxn, w⟩ fun v' r =>
      ∃ w' held' oc provider, Moved R held R.mode.inTxn w w' ∧ held ⊆ held' ∧
        v' = ⟨held', whenSome (fun k => .addAccount k.account) oc ∘ pend, R.mode.inTxn, w'⟩ ∧
        SentBack R held' w' x.id m n provider oc r.1 ∧
        r.2 = credit (.providerClearing provider m.currency) n := by
  unfold clientRefund credit
  split
  case isFalse hz =>
    exact .pure ⟨w, held, none, "", (Later.refl hi).toMoved, subset_rfl, rfl,
      .inl ⟨not_not.1 hz, rfl, rfl⟩, rfl⟩
  case isTrue hz =>
  have hcap : ∀ d, (pend d).captured m.id = d.captured m.id := fun d => by
    rw [Db.captured, hp', Db.captured]
  refine Meets.bind (P := fun v' r => ∃ w' held' oc provider, Moved R held R.mode.inTxn w w' ∧
    held ⊆ held' ∧
    v' = ⟨held', whenSome (fun k => .addAccount k.account) oc ∘ pend, R.mode.inTxn, w'⟩ ∧
    SentBack R held' w' x.id m n provider oc (some r.1) ∧
    r.2 = ⟨(AccountKey.providerClearing provider m.currency).account, .credit, n⟩) ?_ ?_
  · refine Meets.bind .selectForUpdate ?_
    rintro v r ⟨w₁, h₁, hr, hv⟩
    rw [hcap] at hr
    cases r with
    | none => exact .raise
    | some f =>
    subst hv
    dsimp only
    split
    · exact .raise
    rename_i reference href
    refine Meets.bind getProvider_spec ?_
    rintro _ provider ⟨rfl, rfl⟩
    have hR₁ := h.later h₁.toMoved subset_rfl
    refine Meets.bind (.callProvider fun w' hw => ⟨⟨key, rfl⟩, fun hser => ⟨m, f, ?_⟩⟩) ?_
    · rw [hw.still hser hser]
      exact
        { dispute := ⟨x, hR₁.dispute, hR₁.review, hR₁.same⟩
          milestone := hR₁.milestone
          disputed := hR₁.disputed
          funded := hR₁.funded hser
          positive := by omega
          bounded := hle
          intent := hr.symm
          provider := rfl
          reference := href }
    rintro _ a ⟨w₂, h₂, hcalled, rfl⟩
    cases a with
    | temporary => exact .raise
    | failed => exact .raise
    | result res =>
    refine Meets.bind .require ?_
    rintro _ - ⟨rfl, hres⟩
    rw [show clearingAccount f.provider m.currency =
      (AccountKey.providerClearing f.provider m.currency).account from rfl]
    refine Meets.bind (getOrCreateAccount_spec fun d => hp d _) ?_
    rintro _ clearing ⟨w₃, oc, h₃, rfl, ha, rfl⟩
    have h₁₃ : Moved R _ _ w₁ w₃ := h₂.trans h₃.toMoved subset_rfl
    have hsub : held ⊆ insert (.account (.providerClearing f.provider m.currency))
      (insert (.intent f.id) held) := (Set.subset_insert _ _).trans (Set.subset_insert _ _)
    refine .pure ⟨w₃, _, oc, f.provider, h₁.toMoved.trans h₁₃ (Set.subset_insert _ _), hsub, rfl,
      .inr ⟨hz, ha, Set.mem_insert _ _, ⟨_, rfl⟩, fun hser => ⟨⟨f, ?_, rfl⟩, ?_⟩⟩, rfl⟩
    · rw [h₁₃.still hser hser]
      exact hr.symm
    · rw [h₃.env hser hser]
      simp only [decide_eq_true_eq] at hres
      exact ⟨reference, key, res, hcalled, hres.1, hres.2.1⟩
  · rintro _ ⟨confirmed, posting⟩ ⟨w₁, held₁, oc, provider, h₁, hs, rfl, hsb, rfl⟩
    exact .pure ⟨w₁, held₁, oc, provider, h₁, hs, rfl, hsb, rfl⟩

end

/-! ## The commit -/

theorem Consistent.no_resolution_journal {d : Db} (hd : Consistent d) {x : Dispute}
    (hx : d.dispute? x.id = some x) (hs : x.status ≠ .resolved) :
    d.journal? ⟨.disputeResolution, .dispute x.id⟩ = none := by
  refine hd.no_journal fun _ _ hk => ?_
  obtain ⟨y, hy, hr⟩ := hk
  cases hx.symm.trans hy
  exact hs hr

/-- What a resolution records of its refund. -/
def Recorded (held : Set LockName) (d : Db) (m : Milestone) (s : IdempotencyScope) (n : Int)
    (confirmed : Option ConfirmedRefund) (or : Option Refund) : Prop :=
  confirmed = none ∧ or = none ∨ ∃ cf r, confirmed = some cf ∧ or = some r ∧ r.milestone = m.id ∧
    r.currency = m.currency ∧ r.provider = cf.provider ∧ r.amountMinor = n ∧ r.status = .succeeded ∧
    r.idempotency = s ∧ d.refund? r.id = none ∧ .refund r.id ∈ held

theorem Recorded.later {m : Milestone} {s : IdempotencyScope} {n : Int}
    {confirmed : Option ConfirmedRefund} {or : Option Refund}
    (h : Recorded held w.1 m s n confirmed or) (hm : Moved R held b w w') (hs : held ⊆ held') :
    Recorded held' w'.1 m s n confirmed or := by
  rcases h with h | ⟨cf, r, h1, h2, h3, h4, h5, h6, h7, h8, h9, hl⟩
  · exact .inl h
  · exact .inr ⟨cf, r, h1, h2, h3, h4, h5, h6, h7, h8, (hm.refund hl).trans h9, hs hl⟩

/-- The entries of a resolution that awards `award` to the freelancer and sends `n` back. -/
def decidedEntries (m : Milestone) (c : Contract) (e : MilestoneEscrow) (award : Int)
    (provider : Provider) (n : Int) : List LedgerEntry :=
  resolutionEntries m m.amountMinor c.freelancer (award - commissionOf award e)
    (commissionOf award e) provider n

/-- What a resolution posts, with `ps` the client's part. -/
def resolutionPostings (m : Milestone) (c : Contract) (e : MilestoneEscrow) (award : Int)
    (ps : List Posting) : List Posting :=
  ⟨m.escrowKey.account, .debit, m.amountMinor⟩ ::
    (credit (.userWallet c.freelancer m.currency) (award - commissionOf award e) ++
      credit (.platformCommission m.currency) (commissionOf award e)) ++ ps

/-- What a resolution posts, with the client's part through `provider`. -/
def splitPostings (m : Milestone) (c : Contract) (e : MilestoneEscrow) (award n : Int)
    (provider : Provider) : List Posting :=
  resolutionPostings m c e award (credit (.providerClearing provider m.currency) n)

/-- What a resolution has checked and locked once the client's part is sent back. -/
structure Dividing (R : Rules) (held : Set LockName) (w : World) (x : Dispute) (m : Milestone)
    (c : Contract) (e : MilestoneEscrow) (award n : Int) (provider : Provider)
    (idem : FinancialIdempotencyKey) (o : Option FinancialIdempotencyKey)
    (ow op oc : Option AccountKey) (confirmed : Option ConfirmedRefund) : Prop where
  resolving : Resolving R held w.1 x m c e
  record : Claimed w.1 o idem
  recordLock : .record idem.scope ∈ held
  operation : idem.scope.operation = .disputeResolve
  wallet : Credited held w.1 (.userWallet c.freelancer m.currency) (award - commissionOf award e) ow
  platform : Credited held w.1 (.platformCommission m.currency) (commissionOf award e) op
  sentBack : SentBack R held w x.id m n provider oc confirmed
  split : award + n = m.amountMinor ∧ 0 ≤ award ∧ 0 ≤ n

/-- What a resolution has checked and locked when it commits. -/
structure Resolution (R : Rules) (held : Set LockName) (w : World) (x : Dispute) (m : Milestone)
    (c : Contract) (e : MilestoneEscrow) (award n : Int) (provider : Provider)
    (idem : FinancialIdempotencyKey) (o : Option FinancialIdempotencyKey)
    (ow op oc : Option AccountKey) (or : Option Refund) (confirmed : Option ConfirmedRefund) : Prop
    extends Dividing R held w x m c e award n provider idem o ow op oc confirmed where
  undecided : w.1.decision? x.id = none
  decisionLock : .decision x.id ∈ held
  journalLock : .journal ⟨.disputeResolution, .dispute x.id⟩ ∈ held
  recorded : Recorded held w.1 m idem.scope n confirmed or
  balanced : DoubleEntry.Balanced (decidedEntries m c e award provider n)

section
variable {x : Dispute} {m : Milestone} {c : Contract} {e : MilestoneEscrow} {award n : Int}
  {provider : Provider} {idem : FinancialIdempotencyKey} {o : Option FinancialIdempotencyKey}
  {ow op oc : Option AccountKey} {or : Option Refund} {confirmed : Option ConfirmedRefund}

theorem Dividing.later
    (h : Dividing R held w x m c e award n provider idem o ow op oc confirmed)
    (hm : Later R held R.mode.inTxn w w') (hs : held ⊆ held') :
    Dividing R held' w' x m c e award n provider idem o ow op oc confirmed :=
  { h with
    resolving := h.resolving.later hm.toMoved hs
    record := h.record.later hm.toMoved h.recordLock
    recordLock := hs h.recordLock
    wallet := h.wallet.later hm.toMoved hs
    platform := h.platform.later hm.toMoved hs
    sentBack := h.sentBack.later hm hs }

theorem decidedEntries_credit {y : LedgerEntry} (hy : y ∈ decidedEntries m c e award provider n)
    (hn : y.account ≠ m.escrowKey) : y.direction = .credit := by
  simp only [decidedEntries, resolutionEntries, awardEntries, clientEntries, List.cons_append,
    List.mem_cons, List.mem_append] at hy
  rcases hy with rfl | (hy | hy) | hy
  · exact absurd rfl hn
  all_goals
    split at hy
    · rw [List.mem_singleton] at hy
      subst hy
      rfl
    · cases hy

theorem Resolution.postable {d : Db} (h : Resolution R held w x m c e award n provider idem o ow op
    oc or confirmed) (hd : Consistent w.1) (hj : d.journals = w.1.journals)
    (hx : ∃ y, d.dispute? x.id = some y ∧ y.status = .resolved)
    (he : d.account? m.escrowKey = some m.escrowKey.account)
    (hw : award - commissionOf award e ≠ 0 → d.account? (.userWallet c.freelancer m.currency) =
      some (AccountKey.userWallet c.freelancer m.currency).account)
    (hp : commissionOf award e ≠ 0 → d.account? (.platformCommission m.currency) =
      some (AccountKey.platformCommission m.currency).account)
    (hc : n ≠ 0 → d.account? (.providerClearing provider m.currency) =
      some (AccountKey.providerClearing provider m.currency).account) :
    Postable held d ⟨⟨.disputeResolution, .dispute x.id⟩, none,
      decidedEntries m c e award provider n⟩ where
  lock := h.journalLock
  fresh := by
    rw [Db.journal?, hj]
    exact hd.no_resolution_journal h.resolving.dispute (by simp [h.resolving.review])
  balanced := h.balanced
  accounts := by
    intro y hy
    simp only [decidedEntries, resolutionEntries, awardEntries, clientEntries, List.cons_append,
      List.mem_cons, List.mem_append] at hy
    rcases hy with rfl | (hy | hy) | hy
    · exact ⟨he, rfl⟩
    all_goals
      split at hy
      case isFalse => cases hy
      rename_i hne
      rw [List.mem_singleton] at hy
      subst hy
    · exact ⟨hw hne, rfl⟩
    · exact ⟨hp hne, rfl⟩
    · exact ⟨hc hne, rfl⟩
  known := hx
  wallets u k := .inl (DoubleEntry.balance_nonneg fun y hy hv =>
    ⟨decidedEntries_credit hy (by simp [hv, Milestone.escrowKey]), h.balanced.positive y hy⟩)


/-- The accounts of a resolution, once they are there. -/
structure AccountsReady (d d₁ : Db) (m : Milestone) (c : Contract) (e : MilestoneEscrow)
    (award n : Int) (provider : Provider) : Prop where
  escrow : d₁.account? m.escrowKey = some m.escrowKey.account
  wallet : award - commissionOf award e ≠ 0 → d₁.account? (.userWallet c.freelancer m.currency) =
    some (AccountKey.userWallet c.freelancer m.currency).account
  platform : commissionOf award e ≠ 0 → d₁.account? (.platformCommission m.currency) =
    some (AccountKey.platformCommission m.currency).account
  clearing : n ≠ 0 → d₁.account? (.providerClearing provider m.currency) =
    some (AccountKey.providerClearing provider m.currency).account
  milestones : d₁.milestones = d.milestones
  disputes : d₁.disputes = d.disputes
  journals : d₁.journals = d.journals
  refunds : d₁.refunds = d.refunds
  decisions : d₁.decisions = d.decisions

theorem Resolution.accounts (h : Resolution R held w x m c e award n provider idem o ow op oc or
    confirmed) (hd : Consistent w.1) :
    Updates held w.1 (whenSome (fun k => .addAccount k.account) oc <|
      whenSome (fun k => .addAccount k.account) op <|
      whenSome (fun k => .addAccount k.account) ow <| whenSome .addRecord o w.1) ∧
    AccountsReady w.1 (whenSome (fun k => .addAccount k.account) oc <|
      whenSome (fun k => .addAccount k.account) op <|
      whenSome (fun k => .addAccount k.account) ow <| whenSome .addRecord o w.1) m c e award n
      provider := by
  have ho : ∀ k, (whenSome .addRecord o w.1).account? k = w.1.account? k := by
    cases o <;> exact fun _ => rfl
  have hpw : AccountKey.platformCommission m.currency ≠ .userWallet c.freelancer m.currency := nofun
  have hcw : AccountKey.providerClearing provider m.currency ≠ .userWallet
      c.freelancer m.currency :=
    nofun
  have hcp : AccountKey.providerClearing provider m.currency ≠ .platformCommission m.currency :=
    nofun
  have hew : m.escrowKey ≠ .userWallet c.freelancer m.currency := nofun
  have hep : m.escrowKey ≠ .platformCommission m.currency := nofun
  have hec : m.escrowKey ≠ .providerClearing provider m.currency := nofun
  have hw := h.wallet.congr (ho _)
  have hp := h.platform.congr ((hw.account_ne (whenSome .addRecord o w.1) hpw).trans (ho _))
  have hc := h.sentBack.credited.congr ((hp.account_ne _ hcp).trans
    ((hw.account_ne (whenSome .addRecord o w.1) hcw).trans (ho _)))
  refine ⟨(((h.record.updates rfl h.recordLock).trans hw.updates).trans hp.updates).trans
    hc.updates, ?_, fun hn => ?_, fun hn => ?_, hc.account, ?_, ?_, ?_, ?_, ?_⟩
  · rw [hc.account_ne _ hec, hp.account_ne _ hep, hw.account_ne _ hew, ho]
    exact (hd.escrow_key h.resolving.milestone h.resolving.escrow).2
  · rw [hc.account_ne _ hcw.symm, hp.account_ne _ hpw.symm]
    exact hw.account hn
  · rw [hc.account_ne _ hcp.symm]
    exact hp.account hn
  all_goals cases oc <;> cases op <;> cases ow <;> cases o <;> rfl

theorem Recorded.updates {d : Db} {s : IdempotencyScope} (h : Recorded held d m s n confirmed or)
    (hs : s.operation = .disputeResolve) (hm : d.milestone? m.id = some m) (hn : 0 ≤ n)
    (hz : confirmed ≠ none → n ≠ 0) : Updates held d (whenSome .addRefund or d) := by
  rcases h with ⟨-, rfl⟩ | ⟨cf, r, hcf, rfl, hmil, hcur, -, ha, hst, hid, hfresh, hl⟩
  · exact Relation.ReflTransGen.refl
  · have hne := hz (by rw [hcf]; nofun)
    exact .single (.addRefund r hl
      { fresh := hfresh
        positive := by omega
        milestone := ⟨m, hmil ▸ hm, hcur⟩
        cause := .inr ⟨hid ▸ hs, hst⟩ })

theorem Recorded.congr {d d' : Db} {s : IdempotencyScope} (h : Recorded held d m s n confirmed or)
    (hr : d'.refunds = d.refunds) : Recorded held d' m s n confirmed or := by
  simpa only [Recorded, Db.refund?, hr] using h

theorem addRefund_addJournal {d : Db} {j : JournalTransaction} :
    whenSome .addRefund or (d.addJournal j) = (whenSome .addRefund or d).addJournal j := by
  cases or <;> rfl

theorem Resolution.updates {dec : DisputeDecision} {ev : DisputeEvent} {v : MilestoneEvent}
    {users : List UserId} {eventType title body : String} {r : Response}
    (h : Resolution R held w x m c e award n provider idem o ow op oc or confirmed)
    (hd : Consistent w.1) (hdec : dec.dispute = x.id) :
    Updates held w.1 (.completeRecord idem.scope r <| notified x.id users eventType title body <|
      .addDisputeEvent x.id ev <| .addDecision dec <| .resolveDispute x.id <|
      .moveMilestone m.id v <| whenSome .addRefund or <|
      .addJournal ⟨⟨.disputeResolution, .dispute x.id⟩, none,
        decidedEntries m c e award provider n⟩ <|
      whenSome (fun k => .addAccount k.account) oc <|
      whenSome (fun k => .addAccount k.account) op <|
      whenSome (fun k => .addAccount k.account) ow <| whenSome .addRecord o w.1) := by
  obtain ⟨u₁, ha⟩ := h.accounts hd
  generalize whenSome (fun k => Db.addAccount k.account) oc
    (whenSome (fun k => Db.addAccount k.account) op
      (whenSome (fun k => Db.addAccount k.account) ow (whenSome .addRecord o w.1))) = d₁
    at u₁ ha ⊢
  have hzero : confirmed ≠ none → n ≠ 0 := by
    rcases h.sentBack with ⟨-, -, rfl⟩ | ⟨hn, -⟩
    · exact fun h => absurd rfl h
    · exact fun _ => hn
  have hm₁ : d₁.milestone? m.id = some m := by
    rw [Db.milestone?, ha.milestones]
    exact h.resolving.milestone
  have u₂ := u₁.trans ((h.recorded.congr ha.refunds).updates h.operation hm₁ h.split.2.2 hzero)
  have hsame : (whenSome .addRefund or d₁).accounts = d₁.accounts ∧
      (whenSome .addRefund or d₁).journals = d₁.journals ∧
      (whenSome .addRefund or d₁).milestones = d₁.milestones ∧
      (whenSome .addRefund or d₁).disputes = d₁.disputes ∧
      (whenSome .addRefund or d₁).decisions = d₁.decisions := by
    cases or <;> exact ⟨rfl, rfl, rfl, rfl, rfl⟩
  rw [addRefund_addJournal]
  change Updates held w.1
    (.completeRecord idem.scope r <| notified x.id users eventType title body <|
      .addDisputeEvent x.id ev <| .addDecision dec <| .moveMilestone m.id v <|
      .addJournal ⟨⟨.disputeResolution, .dispute x.id⟩, none,
        decidedEntries m c e award provider n⟩ <| .resolveDispute x.id <|
      whenSome .addRefund or d₁)
  generalize whenSome Db.addRefund or d₁ = d₂ at u₂ hsame ⊢
  obtain ⟨hacc, hj, hmil, hdis, hdec'⟩ := hsame
  -- the dispute is resolved before its journal is posted: both orders give the same tables
  have u₃ := u₂.trans (.single (.resolveDispute x.id h.resolving.disputeLock))
  have hx₃ : ∃ y, (d₂.resolveDispute x.id).dispute? x.id = some y ∧ y.status = .resolved := by
    have hx₂ : d₂.dispute? x.id = some x := by
      rw [Db.dispute?, hdis, ha.disputes]
      exact h.resolving.dispute
    rw [Db.dispute?_resolveDispute, hx₂]
    refine ⟨{ x with status := .resolved, resolvedAt := some d₂.clock }, ?_, rfl⟩
    rw [Option.map_some, if_pos rfl]
  have hpost : Postable held (d₂.resolveDispute x.id) _ := h.postable hd (hj.trans ha.journals) hx₃
    (by rw [← ha.escrow]; exact congrArg (Table.get _ _) hacc)
    (fun hn => by rw [← ha.wallet hn]; exact congrArg (Table.get _ _) hacc)
    (fun hn => by rw [← ha.platform hn]; exact congrArg (Table.get _ _) hacc)
    (fun hn => by rw [← ha.clearing hn]; exact congrArg (Table.get _ _) hacc)
  have hm₂ : d₂.milestone? m.id = some m := by
    rw [Db.milestone?, hmil]
    exact hm₁
  have hundecided : d₂.decision? dec.dispute = none := by
    rw [hdec, Db.decision?, hdec', ha.decisions]
    exact h.undecided
  have u₄ := u₃.trans (.single (.addJournal _ hpost))
  have u₅ := u₄.trans (.single (.moveMilestone m v h.resolving.milestoneLock hm₂
    (by rw [h.resolving.disputed]; nofun) (by rw [h.resolving.disputed]; nofun)))
  have u₆ := u₅.trans (.single (.addDecision dec (hdec ▸ h.decisionLock) hundecided))
  have u₇ := u₆.trans (.single (.addDisputeEvent x.id ev h.resolving.disputeLock))
  exact (u₇.trans .notified).trans (.single (.completeRecord idem.scope r h.recordLock))

theorem Recorded.refund {d : Db} {s : IdempotencyScope} {w : World}
    (h : Recorded held d m s n confirmed or) (hs : s.operation = .disputeResolve)
    (hb : SentBack R held w x.id m n provider oc confirmed) (hn : 0 ≤ n) :
    n = 0 ∧ or = none ∨ ∃ r, or = some r ∧ 0 < n ∧ r.milestone = m.id ∧ r.provider = provider ∧
      r.amountMinor = n ∧ r.status = .succeeded ∧ r.idempotency.operation = .disputeResolve ∧
      d.refund? r.id = none ∧
      (R.Serial → ∃ i, latestCaptured (w.1.captured m.id) = some i ∧ i.provider = provider) := by
  rcases hb with ⟨hz, -, hc⟩ | ⟨hz, -, -, ⟨reference, hc⟩, hser⟩
  · rcases h with ⟨-, hor⟩ | ⟨cf, r, hcf, -⟩
    · exact .inl ⟨hz, hor⟩
    · rw [hc] at hcf
      cases hcf
  · rcases h with ⟨hcf, -⟩ | ⟨cf, r, hcf, hor, hmil, -, hp, ha, hst, hid, hfresh, -⟩
    · rw [hc] at hcf
      cases hcf
    · rw [hc] at hcf
      cases hcf
      exact .inr ⟨r, hor, by omega, hmil, hp, ha, hst, hid ▸ hs, hfresh, fun hS => (hser hS).1⟩

variable (confirmed) in
theorem Resolution.ready {dec : DisputeDecision} {ev : DisputeEvent} {v : MilestoneEvent}
    {users : List UserId} {eventType title body : String} {r : Response}
    (h : ∀ w', Later R held b w w' →
      Resolution R held w' x m c e award n provider idem o ow op oc or confirmed)
    (hdec : dec.dispute = x.id ∧ dec.clientRefundMinor = n ∧ dec.freelancerAwardMinor = award)
    (hv : v.Goes .disputed .released) :
    Ready R (.disputeResolved x.id) ⟨held, .completeRecord idem.scope r ∘
      notified x.id users eventType title body ∘ .addDisputeEvent x.id ev ∘ .addDecision dec ∘
      .resolveDispute x.id ∘ .moveMilestone m.id v ∘ whenSome .addRefund or ∘
      .addJournal ⟨⟨.disputeResolution, .dispute x.id⟩, none,
        decidedEntries m c e award provider n⟩ ∘
      whenSome (fun k => .addAccount k.account) oc ∘
      whenSome (fun k => .addAccount k.account) op ∘
      whenSome (fun k => .addAccount k.account) ow ∘ whenSome .addRecord o, b, w⟩ := by
  intro w' hw
  have hf := h w' hw
  have hr := hf.resolving
  refine ⟨hf.updates hw.inv hdec.1, .disputeResolved
    (.trans (.trans (.trans (.record o) (.account ow)) (.account op)) (.account oc))
    idem.scope r x m c e award n provider or v dec ev users eventType title body hr.dispute
      hr.review hf.undecided hr.milestone hr.same
    hr.disputed hr.contract hr.escrow hr.funded
    ⟨hf.split.1, hf.split.2.1, hf.split.2.2, hr.positive⟩
    (hf.recorded.refund hf.operation hf.sentBack hf.split.2.2) (fun hser hn => ?_) hv hdec⟩
  rcases hf.sentBack with ⟨hz, -⟩ | ⟨-, -, -, -, hcalled⟩
  · exact absurd hz hn
  · exact (hcalled hser).2

end

/-! ## The request -/

theorem lockedFundedEscrow_spec {m : Milestone} (hm : w.1.milestone? m.id = some m)
    (hl : .milestone m.id ∈ held) (hp : ∀ d k, (pend d).escrow? k = d.escrow? k)
    (hp' : ∀ d k, (pend d).account? k = d.account? k)
    (hp'' : ∀ d k, (pend d).balance k = d.balance k) :
    Meets R i (lockedFundedEscrow m) ⟨held, pend, b, w⟩ fun v' r => ∃ w' held',
      Later R held b w w' ∧
      held ⊆ held' ∧ v' = ⟨held', pend, R.mode.inTxn, w'⟩ ∧ w'.1.escrow? m.id = some r.1 ∧
      r.2 = (m.escrowKey.account, m.amountMinor) ∧ 0 < m.amountMinor ∧
      (R.Serial → w'.1.balance m.escrowKey = m.amountMinor) := by
  refine Meets.bind .selectForUpdate ?_
  rintro v r ⟨w₁, h₁, hr, hv⟩
  rw [hp] at hr
  cases r with
  | none => exact .raiseApi
  | some e =>
  subst hv
  refine Meets.bind (lockedEscrowAccount_spec hp') ?_
  rintro _ a ⟨w₂, h₂, rfl, -, rfl⟩
  refine Meets.bind accountBalanceMinor_spec ?_
  rintro _ n ⟨w₃, h₃, rfl, hn⟩
  refine Meets.bind .require ?_
  rintro _ - ⟨rfl, hbal⟩
  obtain ⟨rfl, hpos⟩ := of_decide_eq_true hbal
  have hkey := (h₁.inv.escrow_key ((h₁.milestone hl).trans hm) hr.symm).1
  have h₁₃ := h₂.trans h₃ (Set.subset_insert _ _)
  refine .pure ⟨w₃, _, h₁.trans h₁₃ (Set.subset_insert _ _),
    (Set.subset_insert _ _).trans (Set.subset_insert _ _), rfl, h₁₃.frame.escrows.eq_of_eq hr.symm,
    by rw [hkey], hpos, fun _ => ?_⟩
  rw [hp'', AccountKey.account_key, hkey] at hn
  exact hn.symm

theorem resolutionAmounts_ok {outcome : String} {funded : Int} {a r : Option Int} {award n : Int}
    (h : resolutionAmounts outcome funded a r = .ok (award, n)) (hf : 0 < funded) :
    award + n = funded ∧ 0 ≤ award ∧ 0 ≤ n := by
  unfold resolutionAmounts at h
  split at h
  · split at h <;> cases h
    omega
  split at h
  · split at h <;> cases h
    omega
  split at h
  · split at h
    · cases h
    · split at h <;> cases h
      omega
  · cases h

theorem requireReviewableDispute_spec {x : Dispute} {dec : Option DisputeDecision} {v : TxView} :
    Meets R i (requireReviewableDispute x dec) v fun v' _ => v' = v ∧ x.status = .underReview := by
  refine Meets.bind .require ?_
  rintro _ - ⟨rfl, -⟩
  refine Meets.require.mono ?_
  rintro _ - ⟨rfl, hs⟩
  exact ⟨rfl, by simpa using hs⟩

theorem persistResolutionRefund_spec {m : Milestone} {employer : UserId} {s : IdempotencyScope}
    {j : JournalKey} {n : Int} {confirmed : Option ConfirmedRefund} {refundId : RefundId}
    (hi : Consistent w.1) (hp : ∀ d, (pend d).refunds = d.refunds) :
    Meets R i (persistResolutionRefund m employer s j n confirmed refundId)
      ⟨held, pend, R.mode.inTxn, w⟩ fun v' or => ∃ w' held', Later R held R.mode.inTxn w w' ∧
        held ⊆ held' ∧ v' = ⟨held', whenSome .addRefund or ∘ pend, R.mode.inTxn, w'⟩ ∧
        Recorded held' w'.1 m s n confirmed or := by
  unfold persistResolutionRefund
  split
  · exact .pure ⟨w, held, .refl hi, subset_rfl, rfl, .inl ⟨rfl, rfl⟩⟩
  · rename_i cf
    refine Meets.bind .reserve ?_
    rintro _ - ⟨w₁, h₁, rfl, hfresh⟩
    rw [Db.refund?, hp] at hfresh
    refine Meets.bind insertRefund_spec ?_
    rintro _ - ⟨w₂, held₂, h₂, rfl, hs, -⟩
    refine .pure ⟨w₂, held₂, h₁.trans h₂ (Set.subset_insert _ _),
      (Set.subset_insert _ _).trans hs, rfl,
        .inr ⟨cf, _, rfl, rfl, rfl, rfl, rfl, rfl, rfl, rfl, ?_, hs (Set.mem_insert _ _)⟩⟩
    exact (h₂.refund (Set.mem_insert _ _)).trans
      (Option.not_isSome_iff_eq_none.1 (Bool.eq_false_iff.1 hfresh))

theorem insertDecision_spec {dec : DisputeDecision} :
    Meets R i (insertDecision dec) ⟨held, pend, b, w⟩ fun v' _ => ∃ w', Later R held b w w' ∧
      v' = ⟨insert (.decision dec.dispute) held, .addDecision dec ∘ pend, R.mode.inTxn, w'⟩ ∧
      (pend w'.1).decision? dec.dispute = none := by
  refine Meets.bind .reserve ?_
  rintro _ - ⟨w₁, h₁, rfl, hn⟩
  refine Meets.write.mono ?_
  rintro _ - rfl
  exact ⟨w₁, h₁, rfl, Option.not_isSome_iff_eq_none.1 (Bool.eq_false_iff.1 hn)⟩

theorem decidedEntries_eq {m : Milestone} {c : Contract} {e : MilestoneEscrow} {award n : Int}
    {provider : Provider} {es : List LedgerEntry}
    (h : journalEntries (splitPostings m c e award n provider) = .ok es) :
    es = decidedEntries m c e award provider n ∧ DoubleEntry.Balanced es := by
  obtain ⟨he, hb, -⟩ := journalEntries_ok h
  refine ⟨he.trans ?_, hb⟩
  unfold credit decidedEntries resolutionEntries awardEntries clientEntries
  split <;> split <;> split <;> rfl

/-- The rest of a resolution, from the posting of its journal to the commit. -/
theorem recordResolution_spec {administrator : User} {employer : UserId} {x : Dispute}
    {m : Milestone} {c : Contract} {e : MilestoneEscrow} {award n : Int} {provider : Provider}
    {idem : FinancialIdempotencyKey} {o : Option FinancialIdempotencyKey}
    {ow op oc : Option AccountKey} {confirmed : Option ConfirmedRefund} {refundId : RefundId}
    {normalizedOutcome normalizedReason : String}
    (h : Dividing R held w x m c e award n provider idem o ow op oc confirmed) :
    Meets R i (do
      let journal ← postJournal .disputeResolution (.dispute x.id)
        (splitPostings m c e award n provider) none
      let refund ← persistResolutionRefund m employer idem.scope journal.key n confirmed refundId
      write (Db.moveMilestone m.id ⟨some administrator.id, .disputed, .released,
        "Dispute resolved with outcome " ++ normalizedOutcome⟩)
      write (Db.resolveDispute x.id)
      let decision := newDecision x administrator normalizedOutcome normalizedReason award
        (commissionOf award e) n m.currency journal.key (refund.map (·.id))
      insertDecision decision
      let event : DisputeEvent :=
        ⟨administrator.id, "RESOLVED", some .underReview, .resolved, normalizedReason⟩
      write (Db.addDisputeEvent x.id event)
      notifyParties x.id (x.parties.map Prod.fst) "dispute.resolved" "Dispute resolved"
        ("The dispute was resolved with outcome " ++ normalizedOutcome ++ ".")
      let response := serializeDispute
        { x with status := .resolved, events := x.events ++ [event] } (some decision)
      completeIdempotency idem 200 response
      commit (.disputeResolved x.id)
      pure (⟨response, 200⟩ : Response))
      ⟨held, whenSome (fun k => .addAccount k.account) oc ∘
        whenSome (fun k => .addAccount k.account) op ∘
        whenSome (fun k => .addAccount k.account) ow ∘ whenSome .addRecord o, R.mode.inTxn, w⟩
      fun _ _ => True := by
  refine Meets.bind (postJournal_new fun w' hw => ?_) ?_
  · have hn := hw.inv.no_resolution_journal (h.later hw subset_rfl).resolving.dispute
      (by rw [h.resolving.review]; nofun)
    cases oc <;> cases op <;> cases ow <;> cases o <;> exact hn
  rintro _ journal ⟨w₁, es, h₁, hes, rfl, rfl⟩
  obtain ⟨rfl, hb⟩ := decidedEntries_eq hes
  refine Meets.bind (persistResolutionRefund_spec h₁.inv fun d => by
    cases oc <;> cases op <;> cases ow <;> cases o <;> rfl) ?_
  rintro _ or ⟨w₂, held₂, h₂, hs₂, rfl, hrec⟩
  refine Meets.bind .write ?_
  rintro _ - rfl
  refine Meets.bind .write ?_
  rintro _ - rfl
  refine Meets.bind insertDecision_spec ?_
  rintro _ - ⟨w₃, h₃, rfl, hund⟩
  refine Meets.bind .write ?_
  rintro _ - rfl
  refine Meets.bind .write ?_
  rintro _ - rfl
  refine Meets.bind completeIdempotency_spec ?_
  rintro _ - ⟨w₄, h₄, rfl⟩
  refine Meets.bind (.commit (Resolution.ready confirmed (fun w' hw => ?_)
    ⟨rfl, rfl, rfl⟩ ⟨rfl, rfl⟩)) fun _ _ _ => .pure trivial
  have h₃' := h₄.trans hw (Set.subset_insert _ _)
  have h₂' := h₃.trans h₃' (Set.subset_insert _ _)
  have h₁' := h₁.trans (h₂.trans h₂' hs₂) (Set.subset_insert _ _)
  have hs₂' := (Set.subset_insert (LockName.decision x.id) held₂).trans
    (Set.subset_insert (.record idem.scope) _)
  exact
    { h.later h₁' (((Set.subset_insert _ _).trans hs₂).trans hs₂') with
      undecided := by
        refine (h₃'.decision (Set.mem_insert _ _)).trans (Eq.trans ?_ hund)
        cases or <;> cases oc <;> cases op <;> cases ow <;> cases o <;> rfl
      decisionLock := Set.mem_insert_of_mem _ (Set.mem_insert _ _)
      journalLock := hs₂' (hs₂ (Set.mem_insert _ _))
      recorded := hrec.later h₂'.toMoved hs₂'
      balanced := hb }

theorem resolveDispute_spec {cfg : Config} {administrator : User} {disputeId : DisputeId}
    {outcome reason : String} {a r : Option Int} {key : String} {refundId : RefundId} :
    Meets R i (resolveDispute cfg administrator disputeId outcome reason a r key refundId)
      ⟨∅, id, b, w⟩ fun _ _ => True := by
  refine Meets.bind .require ?_
  rintro _ - ⟨rfl, -⟩
  refine Meets.bind (lockedDispute_spec fun _ _ => rfl) ?_
  rintro _ x ⟨w₁, h₁, rfl, rfl, hx⟩
  refine Meets.bind .select ?_
  rintro _ decision ⟨w₂, h₂, rfl, -⟩
  refine Meets.bind requiredText_spec ?_
  rintro _ reason rfl
  refine Meets.bind (claimIdempotency_spec fun _ _ => rfl) ?_
  rintro _ ⟨idem, created⟩ ⟨w₃, o, h₃, rfl, hcl, hsc, -⟩
  dsimp only at hcl hsc ⊢
  split
  · exact .pure trivial
  refine Meets.bind requireReviewableDispute_spec ?_
  rintro _ - ⟨rfl, hreview⟩
  refine Meets.bind .require ?_
  rintro _ - ⟨rfl, -⟩
  have ho : ∀ d k, (whenSome .addRecord o d).account? k = d.account? k := by
    cases o <;> exact fun _ _ => rfl
  refine Meets.bind (lockedMilestone_spec (fun d k => by cases o <;> rfl) fun d k => by
    cases o <;> rfl) ?_
  rintro _ ⟨m, c⟩ ⟨w₄, h₄, rfl, hid, hm, hc⟩
  dsimp only at hid hm hc ⊢
  refine Meets.bind .require ?_
  rintro _ - ⟨rfl, hdisputed⟩
  rw [← hid] at hm
  refine Meets.bind (lockedFundedEscrow_spec hm (by simp [hid]) (fun d k => by cases o <;> rfl) ho
    fun d k => by cases o <;> rfl) ?_
  rintro _ ⟨e, account, funded⟩ ⟨w₅, held₅, h₅, hs₅, rfl, he, hfa, hpos, hfunded⟩
  cases hfa
  dsimp only at he ⊢
  split
  · exact .raise
  rename_i award n hamounts
  have hsplit := resolutionAmounts_ok hamounts hpos
  have h₃₅ : Moved R _ _ w₃ w₅ := h₄.toMoved.trans h₅.toMoved (Set.subset_insert _ _)
  have h₁₅ : Moved R _ _ w₁ w₅ := h₂.toMoved.trans (h₃.toMoved.trans h₃₅ (Set.subset_insert _ _))
    subset_rfl
  have hcl₅ := hcl.later h₃₅ (Set.mem_insert _ _)
  have hrl₅ : LockName.record idem.scope ∈ held₅ := hs₅ (by simp)
  have hR₅ : Resolving R held₅ w₅.1 x m c e :=
    { dispute := (h₁₅.dispute (Set.mem_insert _ _)).trans hx
      disputeLock := hs₅ (by simp)
      review := hreview
      milestone := (h₅.milestone (by simp [hid])).trans hm
      milestoneLock := hs₅ (by simp [hid])
      same := hid.symm
      disputed := by simpa using hdisputed
      contract := h₅.frame.contracts.keep _ c hc
      escrow := he
      funded := hfunded
      positive := hpos }
  refine Meets.bind (freelancerPostings_spec h₅.inv ho) ?_
  rintro _ part ⟨w₆, held₆, ow, op, h₆, hs₆, rfl, hW, hP, rfl⟩
  have hcw : ∀ p, AccountKey.providerClearing p m.currency ≠ .userWallet c.freelancer m.currency :=
    fun _ => nofun
  have hcp : ∀ p, AccountKey.providerClearing p m.currency ≠ .platformCommission m.currency :=
    fun _ => nofun
  have hR₆ := hR₅.later h₆.toMoved hs₆
  refine Meets.bind (clientRefund_spec h₆.inv hR₆ hsplit.2.2 (by omega) (fun d p =>
    (hP.account_ne _ (hcp p)).trans ((hW.account_ne _ (hcw p)).trans (ho d _))) fun d => by
      cases op <;> cases ow <;> cases o <;> rfl) ?_
  rintro _ ⟨confirmed, clientPart⟩ ⟨w₇, held₇, oc, provider, h₇, hs₇, rfl, hsent, rfl⟩
  exact recordResolution_spec
    { resolving := hR₆.later h₇ hs₇
      record := hcl₅.later (h₆.toMoved.trans h₇ hs₆) hrl₅
      recordLock := hs₇ (hs₆ hrl₅)
      operation := by rw [hsc]
      wallet := hW.later h₇ hs₇
      platform := hP.later h₇ hs₇
      sentBack := hsent
      split := hsplit }

end Money
