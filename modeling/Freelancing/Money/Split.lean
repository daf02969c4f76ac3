import Freelancing.Money.ResolutionSpec
import Freelancing.Money.Success

/-!
# The split of an escrow

When a release and a resolution succeed, served alone, and what they post: the release in one
journal of up to three entries, the resolution in one of up to four.
-/

namespace Money

open Text (upper)

variable {β γ : Type} {answer : Request → Answer} {d v d' : Db} {r : γ}

/-! ## Credits -/

/-- The account `k` as `creditUnlessZero` leaves it. -/
def Db.ensureCredited (k : AccountKey) (n : Int) (d : Db) : Db :=
  if n ≠ 0 then d.ensureAccount k.account else d

theorem AccountsOk.ensureCredited (h : AccountsOk d) (k : AccountKey) (n : Int) :
    AccountsOk (d.ensureCredited k n) := by
  unfold Db.ensureCredited
  split
  · exact h.ensureAccount k
  · exact h

theorem succeeds_creditUnlessZero (hv : AccountsOk v) {k : AccountKey} {n : Int}
    {f : List Posting → Tx γ} :
    Succeeds answer d v (creditUnlessZero k.account n >>= f) d' r ↔
      Succeeds answer d (v.ensureCredited k n) (f (credit k n)) d' r := by
  unfold creditUnlessZero Db.ensureCredited credit
  split
  · simp only [bind_assoc, pure_bind]
    exact succeeds_getOrCreateAccount (hv k)
  · rw [pure_bind]

theorem succeeds_freelancerPostings (hv : AccountsOk v) {u : UserId} {c : Currency}
    {net commission : Int} {f : List Posting → Tx γ} :
    Succeeds answer d v (freelancerPostings u c net commission >>= f) d' r ↔
      Succeeds answer d ((v.ensureCredited (.userWallet u c) net).ensureCredited
        (.platformCommission c) commission)
        (f (credit (.userWallet u c) net ++ credit (.platformCommission c) commission)) d' r := by
  unfold freelancerPostings
  simp only [bind_assoc, pure_bind]
  refine (succeeds_creditUnlessZero (k := .userWallet u c) hv).trans ?_
  exact succeeds_creditUnlessZero (k := .platformCommission c) (hv.ensureCredited _ _)

/-! ## The refund of a resolution -/

/-- The provider `name` can be called. -/
def Supported (cfg : Config) (name : String) : Prop :=
  cfg.paymentRuntimeEnabled = true ∧
    (lower (strip name) = "sandbox" ∨ lower (strip name) = "stripe")

theorem succeeds_getProvider {cfg : Config} {name : String} {f : Provider → Tx γ} :
    Succeeds answer d v (getProvider cfg name >>= f) d' r ↔
      Supported cfg name ∧ Succeeds answer d v (f (lower (strip name))) d' r := by
  unfold getProvider Supported raiseApi
  cases cfg.paymentRuntimeEnabled with
  | false => simp [succeeds_raise_bind]
  | true =>
    by_cases h : lower (strip name) = "sandbox" ∨ lower (strip name) = "stripe"
    · simp [h]
    · simp [h, succeeds_raise_bind]

/-- The provider of the captured intent `i` confirms the refund of `n` with `res`. -/
structure RefundConfirmed (cfg : Config) (answer : Request → Answer) (d : Db) (x : DisputeId)
    (m : Milestone) (n : Int) (key : String) (i : PaymentIntent) (res : ProviderResult) : Prop where
  captured : latestCaptured (d.captured m.id) = some i
  supported : Supported cfg i.provider
  answered : ∃ reference, i.providerReference = some reference ∧
    answer (.refund (lower (strip i.provider)) reference n m.currency (.dispute x key)
      (.dispute x)) = .result res
  status : res.status = "SUCCEEDED"
  amount : res.amountMinor = n
  currency : res.currency = m.currency

theorem succeeds_confirmProviderRefund (hv : AccountsOk v) {cfg : Config} {x : Dispute}
    {m : Milestone} {n : Int} {key : String} {f : ConfirmedRefund × Posting → Tx γ} :
    Succeeds answer d v (confirmProviderRefund cfg x m n key >>= f) d' r ↔
      ∃ i res, RefundConfirmed cfg answer v x.id m n key i res ∧
        Succeeds answer d (v.ensureAccount
          (AccountKey.providerClearing i.provider m.currency).account)
          (f (⟨i.provider, res.reference⟩,
            ⟨(AccountKey.providerClearing i.provider m.currency).account, .credit, n⟩)) d' r := by
  unfold confirmProviderRefund
  rw [bind_assoc, succeeds_selectForUpdate]
  cases hi : latestCaptured (v.captured m.id) with
  | none =>
    refine iff_of_false succeeds_raise_bind ?_
    rintro ⟨i, res, h, -⟩
    cases hi.symm.trans h.captured
  | some i =>
  dsimp only
  cases hr : i.providerReference with
  | none =>
    refine iff_of_false succeeds_raise_bind ?_
    rintro ⟨i', res, h, -⟩
    cases hi.symm.trans h.captured
    obtain ⟨reference, href, -⟩ := h.answered
    cases hr.symm.trans href
  | some reference =>
  simp only [bind_assoc]
  rw [succeeds_getProvider, succeeds_call]
  constructor
  · intro ⟨hsup, h⟩
    cases ha : answer (.refund (lower (strip i.provider)) reference n m.currency
        (.dispute x.id key) (.dispute x.id)) with
    | temporary =>
      rw [ha] at h
      exact absurd h succeeds_raise_bind
    | failed =>
      rw [ha] at h
      exact absurd h succeeds_raise_bind
    | result res =>
      rw [ha] at h
      simp only [bind_assoc, pure_bind] at h
      obtain ⟨hok, h⟩ := succeeds_require.1 h
      obtain ⟨hs, hn, hc⟩ := of_decide_eq_true hok
      exact ⟨i, res, ⟨hi, hsup, ⟨reference, hr, ha⟩, hs, hn, hc⟩,
        (succeeds_getOrCreateAccount (k := .providerClearing i.provider m.currency) (hv _)).1 h⟩
  · rintro ⟨i', res, hconf, h⟩
    cases hi.symm.trans hconf.captured
    obtain ⟨reference', href, ha⟩ := hconf.answered
    cases hr.symm.trans href
    refine ⟨hconf.supported, ?_⟩
    rw [ha]
    simp only [bind_assoc, pure_bind]
    refine succeeds_require.2 ⟨decide_eq_true ⟨hconf.status, hconf.amount, hconf.currency⟩, ?_⟩
    exact (succeeds_getOrCreateAccount (k := .providerClearing i.provider m.currency) (hv _)).2 h

/-- The client's part `n` of a resolution, with what the provider has confirmed of it, the postings
for it and the tables with their account. -/
inductive ClientPart (cfg : Config) (answer : Request → Answer) (x : DisputeId)
    (m : Milestone) (n : Int) (key : String) (v : Db) : Option ConfirmedRefund →
      List Posting → Db → Prop
  | nothing (zero : n = 0) : ClientPart cfg answer x m n key v none [] v
  | refund (i : PaymentIntent) (res : ProviderResult) (part : n ≠ 0)
      (confirmed : RefundConfirmed cfg answer v x m n key i res) :
      ClientPart cfg answer x m n key v (some ⟨i.provider, res.reference⟩)
        [⟨(AccountKey.providerClearing i.provider m.currency).account, .credit, n⟩]
        (v.ensureAccount (AccountKey.providerClearing i.provider m.currency).account)

theorem succeeds_clientRefund (hv : AccountsOk v) {cfg : Config} {x : Dispute} {m : Milestone}
    {n : Int} {key : String} {f : Option ConfirmedRefund × List Posting → Tx γ} :
    Succeeds answer d v (clientRefund cfg x m n key >>= f) d' r ↔ ∃ o ps v',
      ClientPart cfg answer x.id m n key v o ps v' ∧ Succeeds answer d v' (f (o, ps)) d' r := by
  unfold clientRefund
  by_cases hn : n = 0
  · rw [if_neg (not_not.2 hn), pure_bind]
    constructor
    · intro h
      exact ⟨_, _, _, .nothing hn, h⟩
    · rintro ⟨_, _, _, hp, h⟩
      cases hp with
      | nothing => exact h
      | refund i res part => exact absurd hn part
  · rw [if_pos hn]
    simp only [bind_assoc, pure_bind]
    refine (succeeds_confirmProviderRefund hv).trans ?_
    constructor
    · rintro ⟨i, res, hc, h⟩
      exact ⟨_, _, _, .refund i res hn hc, h⟩
    · rintro ⟨_, _, _, hp, h⟩
      cases hp with
      | nothing zero => exact absurd zero hn
      | refund i res part hc => exact ⟨i, res, hc, h⟩

/-! ## Rows of a resolution -/

theorem succeeds_requireReviewableDispute {x : Dispute} {o : Option DisputeDecision}
    {f : Unit → Tx γ} : Succeeds answer d v (requireReviewableDispute x o >>= f) d' r ↔
      x.status = .underReview ∧ o = none ∧ Succeeds answer d v (f ()) d' r := by
  unfold requireReviewableDispute
  rw [bind_assoc]
  refine succeeds_require.trans ((and_congr_right fun _ => succeeds_require).trans ?_)
  cases x.status <;> cases o <;> simp

theorem succeeds_lockedFundedEscrow {m : Milestone}
    {f : MilestoneEscrow × LedgerAccount × Int → Tx γ}
    (hv : ∀ e, v.escrow? m.id = some e → e.escrowAccount = m.escrowKey ∧
      v.account? m.escrowKey = some m.escrowKey.account) :
    Succeeds answer d v (lockedFundedEscrow m >>= f) d' r ↔ ∃ e, v.escrow? m.id = some e ∧
      v.balance m.escrowKey = m.amountMinor ∧ 0 < m.amountMinor ∧
      Succeeds answer d v (f (e, m.escrowKey.account, m.amountMinor)) d' r := by
  unfold lockedFundedEscrow accountBalanceMinor
  rw [bind_assoc, succeeds_selectForUpdate]
  cases he : v.escrow? m.id with
  | none =>
    refine iff_of_false succeeds_raise_bind ?_
    rintro ⟨e, h, -⟩
    cases h
  | some e =>
  obtain ⟨hkey, ha⟩ := hv e he
  have hbalance : v.balance m.escrowKey.account.key = v.balance m.escrowKey := by
    rw [AccountKey.account_key]
  simp only [bind_assoc, pure_bind, Option.some.injEq, exists_eq_left']
  rw [succeeds_lockedEscrowAccount]
  simp only [hkey, ha, Option.some.injEq, exists_eq_left', succeeds_select, succeeds_require,
    decide_eq_true_eq, hbalance]
  constructor
  · intro ⟨⟨hb, hpos⟩, h⟩
    rw [hb] at hpos h
    exact ⟨hb, hpos, h⟩
  · intro ⟨hb, hpos, h⟩
    rw [hb]
    exact ⟨⟨rfl, hpos⟩, h⟩

theorem succeeds_insertRefund {x : Refund} {f : Unit → Tx γ} :
    Succeeds answer d v (insertRefund x >>= f) d' r ↔ v.refundOfRecord? x.idempotency = none ∧
      (∀ reference, x.providerReference = some reference →
        v.refundOfReference? x.provider reference = none) ∧
      0 < x.amountMinor ∧ Succeeds answer d (v.addRefund x) (f ()) d' r := by
  unfold insertRefund reserveRefundReference
  simp only [bind_assoc]
  rw [succeeds_reserve]
  cases x.providerReference with
  | none =>
    simp only [pure_bind]
    rw [succeeds_require]
    simp [succeeds_write]
  | some reference =>
    dsimp only
    rw [succeeds_reserve, succeeds_require]
    simp [succeeds_write]

/-- What the row of the refund needs. -/
structure Insertable (v : Db) (id : RefundId) (s : IdempotencyScope) (n : Int)
    (c : ConfirmedRefund) : Prop where
  fresh : v.refund? id = none
  record : v.refundOfRecord? s = none
  reference : v.refundOfReference? c.provider c.reference = none
  positive : 0 < n

theorem succeeds_persistResolutionRefund {m : Milestone} {employer : UserId} {s : IdempotencyScope}
    {j : JournalKey} {n : Int} {o : Option ConfirmedRefund} {id : RefundId}
    {f : Option Refund → Tx γ} :
    Succeeds answer d v (persistResolutionRefund m employer s j n o id >>= f) d' r ↔
      (∀ c ∈ o, Insertable v id s n c) ∧
        Succeeds answer d (whenSome .addRefund (o.map (resolutionRefund id m employer s j n)) v)
          (f (o.map (resolutionRefund id m employer s j n))) d' r := by
  unfold persistResolutionRefund
  cases o with
  | none => simp [whenSome]
  | some c =>
    dsimp only [newUuid]
    simp only [bind_assoc, pure_bind]
    rw [succeeds_reserve, succeeds_insertRefund]
    constructor
    · intro ⟨hfresh, hrecord, href, hpos, h⟩
      refine ⟨fun c' hc => ?_, h⟩
      cases hc
      exact ⟨by simpa using hfresh, hrecord, href _ rfl, hpos⟩
    · intro ⟨hall, h⟩
      obtain ⟨hfresh, hrecord, href, hpos⟩ := hall c rfl
      refine ⟨by simpa using hfresh, hrecord, fun reference hr => ?_, hpos, h⟩
      cases hr
      exact href

theorem succeeds_insertDecision {x : DisputeDecision} {f : Unit → Tx γ} :
    Succeeds answer d v (insertDecision x >>= f) d' r ↔
      v.decision? x.dispute = none ∧ Succeeds answer d (v.addDecision x) (f ()) d' r := by
  unfold insertDecision
  rw [bind_assoc, succeeds_reserve]
  simp [succeeds_write]

/-! ## Tables with new records and accounts -/

theorem Prepared.ensureAccount (h : Prepared d v) (a : LedgerAccount) :
    Prepared d (v.ensureAccount a) := by
  refine h.trans ?_
  unfold Db.ensureAccount
  split
  · exact .refl
  · exact ⟨_, _, rfl⟩

theorem Prepared.ensureCredited (h : Prepared d v) (k : AccountKey) (n : Int) :
    Prepared d (v.ensureCredited k n) := by
  unfold Db.ensureCredited
  split
  · exact h.ensureAccount _
  · exact h

theorem ClientPart.prepared {w : Db} {cfg : Config} {x : DisputeId} {m : Milestone} {n : Int}
    {key : String} {o : Option ConfirmedRefund} {ps : List Posting}
    (h : ClientPart cfg answer x m n key v o ps w) (hv : Prepared d v) : Prepared d w := by
  cases h with
  | nothing => exact hv
  | refund => exact hv.ensureAccount _

/-! ## Release -/

/-- What a release requires of the milestone, its contract and its escrow. -/
structure Releasable (d : Db) (user : User) (m : Milestone) (c : Contract) (e : MilestoneEscrow) :
    Prop where
  milestone : d.milestone? m.id = some m
  approved : m.status = .approved
  contract : d.contract? m.contract = some c
  active : c.status = .active
  employer : user.id = c.employer
  escrow : d.escrow? m.id = some e
  funded : d.balance m.escrowKey = m.amountMinor

/-- No request has used the key. -/
structure Unused (d : Db) (s : IdempotencyScope) (rawKey : String) : Prop where
  valid : validText 200 rawKey = true
  fresh : d.record? s = none

theorem Unused.claim {user : UserId} {operation : IdempotentOperation} {rawKey : String}
    {s : IdempotencyScope} {request : Payload} {f : FinancialIdempotencyKey × Bool → Tx γ}
    (h : Unused d s rawKey) (hs : s = ⟨user, operation, strip rawKey⟩) :
    Succeeds answer d d (claimIdempotency user operation rawKey request >>= f) d' r ↔
      Succeeds answer d (d.addRecord ⟨s, request, none⟩) (f (⟨s, request, none⟩, true)) d' r := by
  refine succeeds_claimIdempotency.trans ?_
  rw [and_iff_right h.valid, ← hs]
  constructor
  · intro ⟨_, _, _, hc, hf⟩
    cases hc with
    | existing x hx => cases h.fresh.symm.trans hx
    | created => exact hf
  · intro hf
    exact ⟨_, _, _, .created h.fresh, hf⟩

/-- The tables with the record of a release and the accounts that it credits. -/
def releaseView (s : IdempotencyScope) (m : Milestone) (freelancer : UserId) (d : Db) : Db :=
  ((d.addRecord ⟨s, .release m.id, none⟩).ensureAccount
    (AccountKey.userWallet freelancer m.currency).account).ensureAccount
    (AccountKey.platformCommission m.currency).account

theorem prepared_releaseView (s : IdempotencyScope) (m : Milestone) (freelancer : UserId) :
    Prepared d (releaseView s m freelancer d) :=
  ((Prepared.record (some _)).ensureAccount _).ensureAccount _

/-- The tables before the response is stored. -/
def releasedDb (user : User) (m : Milestone) (es : List LedgerEntry) (v : Db) : Db :=
  .enqueue (.milestoneReleased m.id ⟨.milestoneRelease, .milestone m.id⟩) <|
    .moveMilestone m.id
      ⟨some user.id, .releasePending, .released, "Internal ledger release committed"⟩ <|
    .moveMilestone m.id
      ⟨some user.id, .approved, .releasePending, "Escrow release journal created"⟩ <|
    .addJournal ⟨⟨.milestoneRelease, .milestone m.id⟩, none, es⟩ v

theorem succeeds_releaseMilestone (hd : Consistent d) {user : User} {m : Milestone} {c : Contract}
    {e : MilestoneEscrow} {key : String} {s : IdempotencyScope} {resp : Response}
    (h : Releasable d user m c e) (hs : s = ⟨user.id, .milestoneRelease, strip key⟩)
    (hk : Unused d s key) :
    Succeeds answer d d (releaseMilestone user m.id key) d' resp ↔ ∃ es, journalEntries
        (releasePostings m e m.escrowKey.account (walletOf c.freelancer m.currency)
          (platformAccount m.currency)) = .ok es ∧
      ∃ st, (releasedDb user m es (releaseView s m c.freelancer d)).financialState?
          { m with status := .released } = some st ∧
        d' = .completeRecord s ⟨.financialState st, 200⟩
          (releasedDb user m es (releaseView s m c.freelancer d)) ∧
        resp = ⟨.financialState st, 200⟩ := by
  obtain ⟨hkey, ha⟩ := hd.escrow_key h.milestone h.escrow
  have haccounts : AccountsOk (d.addRecord ⟨s, .release m.id, none⟩) := hd.accountsOk
  unfold releaseMilestone requireActiveContract accountBalanceMinor canReleaseOrRefund
  refine succeeds_lockedMilestone.trans ?_
  simp only [h.milestone, h.contract, Option.some.injEq, exists_and_left, exists_eq_left']
  refine succeeds_require.trans ?_
  rw [and_iff_right (decide_eq_true h.active)]
  refine succeeds_require.trans ?_
  rw [and_iff_right (decide_eq_true h.employer)]
  refine (hk.claim hs).trans ?_
  simp only [storedResponse, if_true]
  rw [if_neg (by simp [h.approved])]
  refine succeeds_require.trans ?_
  rw [and_iff_right (decide_eq_true h.approved)]
  refine succeeds_requireEscrow.trans ?_
  change (∃ e', d.escrow? m.id = some e' ∧ _) ↔ _
  simp only [h.escrow, Option.some.injEq, exists_eq_left']
  refine succeeds_lockedEscrowAccount.trans ?_
  rw [hkey]
  change (∃ a, d.account? m.escrowKey = some a ∧ _) ↔ _
  simp only [ha, Option.some.injEq, exists_eq_left']
  refine succeeds_select.trans ?_
  refine succeeds_require.trans ?_
  rw [and_iff_right (decide_eq_true (by rw [AccountKey.account_key]; exact h.funded))]
  refine (succeeds_getOrCreateAccount (k := .userWallet c.freelancer m.currency)
    (haccounts _)).trans ?_
  refine (succeeds_getOrCreateAccount (k := .platformCommission m.currency)
    (haccounts.ensureAccount _ _)).trans ?_
  refine (succeeds_postJournal ?_).trans ?_
  · obtain ⟨_, _, hv⟩ := prepared_releaseView (d := d) s m c.freelancer
    change (releaseView s m c.freelancer d).journal? _ = none
    rw [hv]
    exact hd.no_release_journal h.milestone (by simp [h.approved])
  refine exists_congr fun es => and_congr_right fun _ => ?_
  refine succeeds_write.trans (succeeds_write.trans (succeeds_write.trans ?_))
  refine succeeds_financialState.trans ?_
  refine exists_congr fun st => and_congr_right fun _ => ?_
  refine succeeds_completeIdempotency.trans (succeeds_commit.trans succeeds_pure)

/-! ## Resolution -/

/-- The dispute `x` of the milestone `m` is under review, with all of its money in the escrow. -/
structure Resolvable (d : Db) (x : Dispute) (m : Milestone) (c : Contract) (e : MilestoneEscrow) :
    Prop where
  dispute : d.dispute? x.id = some x
  review : x.status = .underReview
  undecided : d.decision? x.id = none
  milestone : d.milestone? m.id = some m
  same : x.milestone = m.id
  disputed : m.status = .disputed
  contract : d.contract? m.contract = some c
  escrow : d.escrow? m.id = some e
  funded : d.balance m.escrowKey = m.amountMinor
  positive : 0 < m.amountMinor

/-- The tables with the accounts that a resolution credits. -/
def awardView (m : Milestone) (c : Contract) (e : MilestoneEscrow) (award : Int) (v : Db) : Db :=
  (v.ensureCredited (.userWallet c.freelancer m.currency)
    (award - commissionOf award e)).ensureCredited
    (.platformCommission m.currency) (commissionOf award e)

/-- What an administrator decides. -/
structure Ruling where
  administrator : User
  outcome : String
  reason : String
  award : Int
  refundMinor : Int

def Ruling.decision (q : Ruling) (x : Dispute) (m : Milestone) (e : MilestoneEscrow)
    (refund : Option Refund) : DisputeDecision :=
  newDecision x q.administrator q.outcome q.reason q.award (commissionOf q.award e) q.refundMinor
    m.currency ⟨.disputeResolution, .dispute x.id⟩ (refund.map (·.id))

def Ruling.event (q : Ruling) : DisputeEvent :=
  ⟨q.administrator.id, "RESOLVED", some .underReview, .resolved, q.reason⟩

def Ruling.response (q : Ruling) (x : Dispute) (m : Milestone) (e : MilestoneEscrow)
    (refund : Option Refund) : Response :=
  ⟨serializeDispute { x with status := .resolved, events := x.events ++ [q.event] }
    (some (q.decision x m e refund)), 200⟩

/-- The tables that a resolution leaves. -/
def resolvedDb (q : Ruling) (s : IdempotencyScope) (x : Dispute) (m : Milestone)
    (e : MilestoneEscrow) (es : List LedgerEntry) (refund : Option Refund) (v : Db) : Db :=
  .completeRecord s (q.response x m e refund) <|
    notified x.id (x.parties.map Prod.fst) "dispute.resolved" "Dispute resolved"
      ("The dispute was resolved with outcome " ++ q.outcome ++ ".") <|
    .addDisputeEvent x.id q.event <|
    .addDecision (q.decision x m e refund) <|
    .resolveDispute x.id <|
    .moveMilestone m.id ⟨some q.administrator.id, .disputed, .released,
      "Dispute resolved with outcome " ++ q.outcome⟩ <|
    whenSome .addRefund refund <|
    .addJournal ⟨⟨.disputeResolution, .dispute x.id⟩, none, es⟩ v

/-- The refund that is recorded. -/
def Ruling.refund (q : Ruling) (refundId : RefundId) (s : IdempotencyScope) (x : Dispute)
    (m : Milestone) (c : Contract) (o : Option ConfirmedRefund) : Option Refund :=
  o.map (resolutionRefund refundId m c.employer s ⟨.disputeResolution, .dispute x.id⟩ q.refundMinor)

theorem succeeds_resolveDispute (hd : Consistent d) {cfg : Config} {administrator : User}
    {id : DisputeId} {outcome reason key : String} {a n : Option Int} {refundId : RefundId}
    {resp : Response} :
    Succeeds answer d d (resolveDispute cfg administrator id outcome reason a n key refundId)
      d' resp ↔
      isAdmin administrator = true ∧ ∃ x, d.dispute? id = some x ∧ validText 4000 reason = true ∧
      validText 200 key = true ∧ ∃ idem b d₁,
        ClaimedAs d ⟨administrator.id, .disputeResolve, strip key⟩
          (.resolve x.id (upper (strip outcome)) (strip reason) a n) idem b d₁ ∧
        (storedResponse b idem = some resp ∧ d' = d ∨ storedResponse b idem = none ∧
          x.status = .underReview ∧ d.decision? x.id = none ∧
          disputeOutcomes.contains (upper (strip outcome)) = true ∧
          ∃ m c, d.milestone? x.milestone = some m ∧ d.contract? m.contract = some c ∧
            m.status = .disputed ∧ ∃ e, d.escrow? m.id = some e ∧
            d.balance m.escrowKey = m.amountMinor ∧ 0 < m.amountMinor ∧ ∃ award refundMinor,
            resolutionAmounts (upper (strip outcome)) m.amountMinor a n = .ok (award, refundMinor) ∧
            ∃ o ps v, ClientPart cfg answer x.id m refundMinor key
              (awardView m c e award d₁) o ps v ∧
            ∃ es, journalEntries (resolutionPostings m c e award ps) = .ok es ∧
              (∀ cf ∈ o, Insertable d refundId idem.scope refundMinor cf) ∧
              let q : Ruling := ⟨administrator, upper (strip outcome), strip reason,
                award, refundMinor⟩
              let refund := q.refund refundId idem.scope x m c o
              d' = resolvedDb q idem.scope x m e es refund v ∧ resp = q.response x m e refund) := by
  unfold resolveDispute requireAdmin
  refine succeeds_require.trans (and_congr_right fun _ => ?_)
  refine succeeds_lockedDispute.trans (exists_congr fun x => and_congr_right fun hx => ?_)
  have hid : x.id = id := Table.get_key hx
  refine succeeds_select.trans (succeeds_requiredText.trans (and_congr_right fun _ => ?_))
  refine succeeds_claimIdempotency.trans (and_congr_right fun _ => ?_)
  refine exists_congr fun idem => exists_congr fun b => exists_congr fun d₁ =>
    and_congr_right fun hclaim => ?_
  obtain ⟨-, rs, rfl⟩ := hclaim.eq
  dsimp only
  cases hstored : storedResponse b idem with
  | some response =>
    dsimp only
    rw [succeeds_pure]
    simp only [Option.some.injEq, reduceCtorEq, false_and, or_false]
    exact ⟨fun ⟨h, h'⟩ => ⟨h'.symm, h⟩, fun ⟨h, h'⟩ => ⟨h', h.symm⟩⟩
  | none =>
  simp only [reduceCtorEq, false_and, false_or, true_and]
  refine succeeds_requireReviewableDispute.trans (and_congr_right fun hreview =>
    and_congr_right fun hnone => ?_)
  refine succeeds_require.trans (and_congr_right fun _ => ?_)
  refine succeeds_lockedMilestone.trans (exists_congr fun m => exists_congr fun c =>
    and_congr_right fun hm => and_congr_right fun hc => ?_)
  replace hm : d.milestone? x.milestone = some m := hm
  have hmid : d.milestone? m.id = some m := by
    rw [Table.get_key hm]
    exact hm
  refine succeeds_require.trans (and_congr decide_eq_true_iff ?_)
  have hescrow : ∀ e, ({ d with idempotency := rs } : Db).escrow? m.id = some e →
      e.escrowAccount = m.escrowKey ∧
        ({ d with idempotency := rs } : Db).account? m.escrowKey = some m.escrowKey.account :=
    fun e he => hd.escrow_key hmid he
  refine (succeeds_lockedFundedEscrow hescrow).trans ?_
  refine exists_congr fun e => and_congr_right fun he => and_congr_right fun _ =>
    and_congr_right fun _ => ?_
  dsimp only
  cases hamounts : resolutionAmounts (upper (strip outcome)) m.amountMinor a n with
  | error err =>
    refine iff_of_false succeeds_raise ?_
    rintro ⟨award, refundMinor, h, -⟩
    cases h
  | ok p =>
  obtain ⟨award, refundMinor⟩ := p
  dsimp only
  have haccounts : AccountsOk { d with idempotency := rs } := hd.accountsOk
  have hview : Prepared d (awardView m c e award { d with idempotency := rs }) :=
    Prepared.ensureCredited (.ensureCredited ⟨rs, _, rfl⟩ _ _) _ _
  simp only [Except.ok.injEq, Prod.mk.injEq, and_assoc, exists_and_left, exists_eq_left']
  refine (succeeds_freelancerPostings haccounts).trans ?_
  refine (succeeds_clientRefund ((haccounts.ensureCredited _ _).ensureCredited _ _)).trans ?_
  refine exists_congr fun o => exists_congr fun ps => exists_congr fun v =>
    and_congr_right fun hpart => ?_
  obtain ⟨rs', as, rfl⟩ := hpart.prepared hview
  have hjournal : ({ d with idempotency := rs', accounts := as } : Db).journal?
      ⟨.disputeResolution, .dispute x.id⟩ = none :=
    hd.no_resolution_journal (hid ▸ hx) (by simp [hreview])
  refine (succeeds_postJournal hjournal).trans ?_
  refine exists_congr fun es => and_congr_right fun _ => ?_
  refine succeeds_persistResolutionRefund.trans ?_
  refine and_congr (forall_congr' fun cf => imp_congr_right fun _ => ?_) ?_
  · exact ⟨fun ⟨h1, h2, h3, h4⟩ => ⟨h1, h2, h3, h4⟩, fun ⟨h1, h2, h3, h4⟩ => ⟨h1, h2, h3, h4⟩⟩
  refine succeeds_write.trans (succeeds_write.trans (succeeds_insertDecision.trans ?_))
  refine (and_iff_right ?_).trans ?_
  · -- the other rows do not decide the dispute
    cases o <;> exact hnone
  refine succeeds_write.trans (succeeds_write.trans (succeeds_completeIdempotency.trans ?_))
  exact succeeds_commit.trans succeeds_pure

end Money
