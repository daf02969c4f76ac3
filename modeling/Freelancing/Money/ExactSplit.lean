import Freelancing.Money.Split
import Freelancing.Money.WebhookOrder

/-!
# Resolutions split exactly

A resolution that succeeds divides what is in the escrow, to the minor unit, between the freelancer,
the platform and the client; one that does not leaves no trace. A dispute that can be resolved is
resolved by exactly the amounts that fit its outcome.
-/

namespace Money

open Text (upper)

variable {answer : Request → Answer} {d v d' : Db}

/-! ## Amounts -/

/-- The amounts given agree with the outcome: all to the freelancer, all to the client, or two
positive parts. -/
def AmountsFit (outcome : String) (funded : Int) (award refund : Option Int) : Prop :=
  outcome = "RELEASE_TO_FREELANCER" ∧ (award = none ∨ award = some funded) ∧
      (refund = none ∨ refund = some 0) ∨
    outcome = "REFUND_CLIENT" ∧ (award = none ∨ award = some 0) ∧
      (refund = none ∨ refund = some funded) ∨
    outcome = "SPLIT" ∧ ∃ a r, award = some a ∧ refund = some r ∧ 0 < a ∧ 0 < r ∧ a + r = funded

theorem any_ne_eq_false {o : Option Int} {n : Int} :
    (o.any fun a => a ≠ n) = false ↔ o = none ∨ o = some n := by
  cases o <;> simp

theorem resolutionAmounts_iff {outcome : String} {funded : Int} {a r : Option Int} :
    disputeOutcomes.contains outcome = true ∧
        (∃ p, resolutionAmounts outcome funded a r = .ok p) ↔ AmountsFit outcome funded a r := by
  unfold AmountsFit
  by_cases hrelease : outcome = "RELEASE_TO_FREELANCER"
  · subst hrelease
    simp only [resolutionAmounts, if_true, ← any_ne_eq_false]
    cases ha : a.any fun a => a ≠ funded <;> cases hr : r.any fun r => r ≠ 0 <;>
      simp [*, disputeOutcomes]
  by_cases hrefund : outcome = "REFUND_CLIENT"
  · subst hrefund
    simp only [resolutionAmounts, ← any_ne_eq_false]
    cases ha : a.any fun a => a ≠ 0 <;> cases hr : r.any fun r => r ≠ funded <;>
      simp [*, disputeOutcomes]
  by_cases hsplit : outcome = "SPLIT"
  · subst hsplit
    simp only [resolutionAmounts, disputeOutcomes]
    cases a with
    | none => simp
    | some a =>
      cases r with
      | none => simp
      | some r =>
        by_cases hpos : a ≤ 0 ∨ r ≤ 0
        · have : ¬ (0 < a ∧ 0 < r) := by omega
          simp [hpos]
          omega
        · by_cases hsum : a + r = funded
          · simp [hpos, hsum]
            omega
          · simp [hpos, hsum]
  · simp [disputeOutcomes, hrelease, hrefund, hsplit]

/-! ## Postings -/

section
variable {m : Milestone} {c : Contract} {e : MilestoneEscrow} {award n : Int} {provider : Provider}
  {es : List LedgerEntry}

theorem commissionOf_bounds (hb : 0 ≤ e.commissionBps ∧ e.commissionBps ≤ 10000) (ha : 0 ≤ award) :
    0 ≤ commissionOf award e ∧ commissionOf award e ≤ award := by
  unfold commissionOf
  constructor
  · exact Int.ediv_nonneg (Int.mul_nonneg ha hb.1) (by omega)
  · refine Int.ediv_le_of_le_mul (by omega) ?_
    exact Int.mul_le_mul_of_nonneg_left hb.2 ha

theorem journalEntries_eq {p : Posting} {ps : List Posting}
    (h : ∀ x ∈ p :: ps, x.account.currency = p.account.currency ∧ 0 < x.amountMinor)
    (ht : DoubleEntry.total .debit ((p :: ps).map (Posting.entry p.account.currency)) =
      DoubleEntry.total .credit ((p :: ps).map (Posting.entry p.account.currency))) :
    journalEntries (p :: ps) = .ok ((p :: ps).map (Posting.entry p.account.currency)) := by
  have hcur : ¬ ((p :: ps).any fun x => x.account.currency ≠ p.account.currency) = true := by
    simp only [List.any_eq_true, decide_eq_true_eq, not_exists, not_and, not_not]
    exact fun x hx => (h x hx).1
  have hpos : ¬ (((p :: ps).map (Posting.entry p.account.currency)).any fun e => e.amount ≤ 0) =
      true := by
    simp only [List.any_map, List.any_eq_true, Function.comp_apply, decide_eq_true_eq, not_exists,
      not_and, not_le]
    exact fun x hx => (h x hx).2
  unfold journalEntries
  dsimp only
  rw [if_neg hcur, if_neg hpos, if_neg (not_not.2 ht)]

theorem mem_credit {k : AccountKey} {n : Int} {x : Posting} (h : x ∈ credit k n) :
    x = ⟨k.account, .credit, n⟩ ∧ n ≠ 0 := by
  unfold credit at h
  split at h
  · rename_i hn
    exact ⟨List.mem_singleton.1 h, hn⟩
  · cases h

theorem total_credit (cur : Currency) (k : AccountKey) (n : Int) :
    DoubleEntry.total .debit ((credit k n).map (Posting.entry cur)) = 0 ∧
      DoubleEntry.total .credit ((credit k n).map (Posting.entry cur)) = n := by
  unfold credit
  split
  · simp [DoubleEntry.total, Posting.entry]
  · rename_i h
    simp [DoubleEntry.total, not_not.1 h]

variable (c provider) in
theorem journalEntries_split (hsum : award + n = m.amountMinor) (hpos : 0 < m.amountMinor)
    (hn : 0 ≤ n) (hb : 0 ≤ e.commissionBps ∧ e.commissionBps ≤ 10000) (ha : 0 ≤ award) :
    ∃ es, journalEntries (splitPostings m c e award n provider) = .ok es := by
  obtain ⟨hc, hca⟩ := commissionOf_bounds hb ha
  refine ⟨_, journalEntries_eq (fun x hx => ?_) ?_⟩
  · rcases List.mem_cons.1 hx with rfl | hx
    · exact ⟨rfl, hpos⟩
    rcases List.mem_append.1 hx with hx | hx
    · rcases List.mem_append.1 hx with hx | hx
      · obtain ⟨rfl, hne⟩ := mem_credit hx
        exact ⟨rfl, by dsimp only; omega⟩
      · obtain ⟨rfl, hne⟩ := mem_credit hx
        exact ⟨rfl, by dsimp only; omega⟩
    · obtain ⟨rfl, hne⟩ := mem_credit hx
      exact ⟨rfl, by dsimp only; omega⟩
  · simp only [List.append_eq, List.map_cons, List.map_append, DoubleEntry.total_cons,
      DoubleEntry.total_append, total_credit]
    simp only [Posting.entry, reduceCtorEq, if_true, if_false]
    omega

theorem splitEntries_of_ok (h : journalEntries (splitPostings m c e award n provider) = .ok es) :
    es = decidedEntries m c e award provider n ∧ DoubleEntry.Balanced es :=
  decidedEntries_eq h

theorem ClientPart.postings {cfg : Config} {x : DisputeId} {key : String}
    {o : Option ConfirmedRefund} {ps : List Posting} {w : Db}
    (h : ClientPart cfg answer x m n key v o ps w) :
    ∃ provider, ps = credit (.providerClearing provider m.currency) n ∧
      (n ≠ 0 → ∃ i, latestCaptured (v.captured m.id) = some i ∧ i.provider = provider) := by
  cases h with
  | nothing zero => exact ⟨"", by simp [credit, zero], fun hne => absurd zero hne⟩
  | refund i res part hc =>
    exact ⟨i.provider, by simp [credit, part], fun _ => ⟨i, hc.captured, rfl⟩⟩

end

/-! ## What a resolution does -/

/-- The dispute is resolved: the escrow `e` of the milestone is divided into `award`, for the
freelancer of the contract and the platform, and `refundMinor`, through the provider that was paid
last. -/
structure SplitExactly (d d' : Db) (x : Dispute) (m : Milestone) (c : Contract)
    (e : MilestoneEscrow) (award refundMinor : Int) : Prop where
  amounts : award + refundMinor = d.balance m.escrowKey
  journal : ∃ provider, d'.journals = ⟨⟨.disputeResolution, .dispute x.id⟩, none,
      decidedEntries m c e award provider refundMinor⟩ :: d.journals ∧
    (refundMinor ≠ 0 → ∃ i, latestCaptured (d.captured m.id) = some i ∧ i.provider = provider) ∧
    DoubleEntry.Balanced (decidedEntries m c e award provider refundMinor)
  emptied : d'.balance m.escrowKey = 0
  released : ∃ m', d'.milestone? m.id = some m' ∧ m'.status = .released
  resolved : ∃ x', d'.dispute? x.id = some x' ∧ x'.status = .resolved
  decided : ∃ dec, d'.decisions.filter (fun y => y.dispute = x.id) = [dec] ∧
    dec.freelancerAwardMinor = award ∧ dec.clientRefundMinor = refundMinor ∧
    dec.commissionMinor = award * e.commissionBps / 10000 ∧
    dec.freelancerNetMinor + dec.commissionMinor = award

/-- The key was used for the same request before, and `resp` is what was answered. -/
def Replayed (d : Db) (s : IdempotencyScope) (request : Payload) (resp : Response) : Prop :=
  ∃ idem, d.record? s = some idem ∧ idem.request = request ∧ idem.response = some resp

theorem ClaimedAs.replayed {s : IdempotencyScope} {request : Payload}
    {x : FinancialIdempotencyKey} {b : Bool} {resp : Response} (h : ClaimedAs d s request x b v)
    (hs : storedResponse b x = some resp) : Replayed d s request resp := by
  cases h with
  | existing x hx hr => exact ⟨x, hx, hr, hs⟩
  | created => cases hs

section
variable {q : Ruling} {s : IdempotencyScope} {x : Dispute} {m : Milestone} {c : Contract}
  {e : MilestoneEscrow} {es : List LedgerEntry} {refund : Option Refund}

variable (q s e es refund) in
/-- The rows that a resolution leaves. -/
theorem resolvedDb_rows (hv : Prepared d v) (hm : d.milestone? m.id = some m)
    (hx : d.dispute? x.id = some x) :
    (resolvedDb q s x m e es refund v).journals =
        ⟨⟨.disputeResolution, .dispute x.id⟩, none, es⟩ :: d.journals ∧
      (resolvedDb q s x m e es refund v).decisions = q.decision x m e refund :: d.decisions ∧
      (∃ m', (resolvedDb q s x m e es refund v).milestone? m.id = some m' ∧
        m'.status = .released) ∧
      ∃ x', (resolvedDb q s x m e es refund v).dispute? x.id = some x' ∧ x'.status = .resolved := by
  obtain ⟨rs, as, rfl⟩ := hv
  unfold resolvedDb
  obtain ⟨o, ho⟩ := notified_eq x.id (x.parties.map Prod.fst) "dispute.resolved"
    "Dispute resolved" ("The dispute was resolved with outcome " ++ q.outcome ++ ".")
    (Db.addDisputeEvent x.id q.event <| .addDecision (q.decision x m e refund) <|
      .resolveDispute x.id <| .moveMilestone m.id ⟨some q.administrator.id, .disputed, .released,
        "Dispute resolved with outcome " ++ q.outcome⟩ <| whenSome .addRefund refund <|
      .addJournal ⟨⟨.disputeResolution, .dispute x.id⟩, none, es⟩
        { d with idempotency := rs, accounts := as })
  rw [ho]
  have hmilestone := Db.milestone?_moveMilestone d m.id m.id ⟨some q.administrator.id, .disputed,
    .released, "Dispute resolved with outcome " ++ q.outcome⟩
  rw [hm, Option.map_some, if_pos rfl] at hmilestone
  refine ⟨?_, ?_, ?_, ?_⟩
  · cases refund <;> rfl
  · cases refund <;> rfl
  · cases refund <;> exact ⟨_, hmilestone, rfl⟩
  · -- the two updates of the dispute
    have hrow : ∀ d₁ : Db, d₁.disputes = d.disputes →
        ((d₁.resolveDispute x.id).addDisputeEvent x.id q.event).dispute? x.id = some
          { x with status := .resolved, resolvedAt := some d₁.clock, events := x.events ++
            [q.event] } := by
      intro d₁ h
      have : d₁.dispute? x.id = some x := by
        rw [Db.dispute?, h]
        exact hx
      simp [this]
    cases refund <;> exact ⟨_, hrow (Db.moveMilestone _ _ _) rfl, rfl⟩

theorem newest_of_none (h : d.decision? x.id = none) {dec : DisputeDecision}
    (hdec : dec.dispute = x.id) :
    (dec :: d.decisions).filter (fun y => y.dispute = x.id) = [dec] := by
  rw [List.filter_cons, if_pos (by simpa using hdec), List.cons.injEq, List.filter_eq_nil_iff]
  refine ⟨rfl, fun y hy => ?_⟩
  simpa using Table.get_eq_none.1 h y hy

theorem splitExactly_resolvedDb (h : Resolvable d x m c e) (hv : Prepared d v)
    {provider : Provider} (hsum : q.award + q.refundMinor = m.amountMinor)
    (hpaid : q.refundMinor ≠ 0 →
      ∃ i, latestCaptured (d.captured m.id) = some i ∧ i.provider = provider)
    (hes : journalEntries (splitPostings m c e q.award q.refundMinor provider) = .ok es) :
    SplitExactly d (resolvedDb q s x m e es refund v) x m c e q.award q.refundMinor := by
  obtain ⟨hj, hdec, hm, hx⟩ := resolvedDb_rows q s e es refund hv h.milestone h.dispute
  obtain ⟨rfl, hbal⟩ := splitEntries_of_ok hes
  refine ⟨hsum.trans h.funded.symm, ⟨provider, hj, hpaid, hbal⟩, ?_, hm, hx,
    q.decision x m e refund, ?_, rfl, rfl, rfl, ?_⟩
  · rw [Db.balance, Db.entries, hj, List.flatMap_cons, DoubleEntry.balance_append]
    change DoubleEntry.balance (resolutionEntries _ _ _ _ _ _ _) _ + d.balance _ = 0
    rw [h.funded, Milestone.escrowKey, balance_resolutionEntries,
      if_pos (show m.escrowKey = .milestoneEscrow m.id m.currency from rfl)]
    omega
  · rw [hdec]
    exact newest_of_none h.undecided rfl
  · change q.award - commissionOf q.award e + commissionOf q.award e = q.award
    omega

end

/-! ## The request -/

section
open Txn.Prog (NoCommit)

-- no proof below looks into the text
attribute [local irreducible] strip

theorem noCommit_lockedDispute (id : DisputeId) : (lockedDispute id).NoCommit := by
  refine NoCommit.bind (noCommit_selectForUpdate _ _) fun o => ?_
  cases o <;> trivial

theorem noCommit_requiredText (value field : String) (maxLength : Nat) :
    (requiredText value field maxLength).NoCommit :=
  NoCommit.bind (noCommit_require _ _) fun _ => trivial

theorem noCommit_sameRequest (x : FinancialIdempotencyKey) (request : Payload) :
    (sameRequest x request).NoCommit := by
  unfold sameRequest
  split <;> trivial

theorem noCommit_claimIdempotency (user : UserId) (operation : IdempotentOperation)
    (rawKey : String) (request : Payload) :
    (claimIdempotency user operation rawKey request).NoCommit := by
  unfold claimIdempotency
  refine NoCommit.bind (noCommit_require _ _) fun _ => ?_
  refine NoCommit.bind (noCommit_selectForUpdate _ _) fun o => ?_
  cases o with
  | some x => exact noCommit_sameRequest _ _
  | none =>
    refine NoCommit.bind (noCommit_taken _ _) fun t => ?_
    split
    · refine NoCommit.bind (noCommit_selectForUpdate _ _) fun o => ?_
      cases o with
      | some x => exact noCommit_sameRequest _ _
      | none => trivial
    · exact NoCommit.bind (noCommit_write _) fun _ => trivial

theorem noCommit_completeIdempotency (x : FinancialIdempotencyKey) (status : Nat) (body : Body) :
    (completeIdempotency x status body).NoCommit := fun _ => trivial

theorem noCommit_requireReviewableDispute (x : Dispute) (o : Option DisputeDecision) :
    (requireReviewableDispute x o).NoCommit :=
  NoCommit.bind (noCommit_require _ _) fun _ => noCommit_require _ _

theorem noCommit_lockedFundedEscrow (m : Milestone) : (lockedFundedEscrow m).NoCommit := by
  unfold lockedFundedEscrow lockedEscrowAccount
  refine NoCommit.bind (noCommit_selectForUpdate _ _) fun o => ?_
  cases o with
  | none => trivial
  | some e =>
    refine NoCommit.bind (NoCommit.bind (noCommit_selectForUpdate _ _) fun o => ?_) fun _ =>
      NoCommit.bind (noCommit_select _) fun _ =>
        NoCommit.bind (noCommit_require _ _) fun _ => trivial
    cases o <;> trivial

theorem noCommit_creditUnlessZero (account : LedgerAccount) (n : Int) :
    (creditUnlessZero account n).NoCommit := by
  unfold creditUnlessZero
  split
  · exact NoCommit.bind (noCommit_getOrCreateAccount _) fun _ => trivial
  · trivial

theorem noCommit_freelancerPostings (u : UserId) (c : Currency) (net commission : Int) :
    (freelancerPostings u c net commission).NoCommit :=
  NoCommit.bind (noCommit_creditUnlessZero _ _) fun _ =>
    NoCommit.bind (noCommit_creditUnlessZero _ _) fun _ => trivial

theorem noCommit_confirmProviderRefund (cfg : Config) (x : Dispute) (m : Milestone) (n : Int)
    (key : String) : (confirmProviderRefund cfg x m n key).NoCommit := by
  unfold confirmProviderRefund
  refine NoCommit.bind (noCommit_selectForUpdate _ _) fun o => ?_
  cases o with
  | none => trivial
  | some i =>
  dsimp only
  split
  · trivial
  · rcases getProvider_eq cfg i.provider with ⟨err, he⟩ | he
    · rw [he]
      trivial
    · rw [he, pure_bind]
      refine NoCommit.bind (fun _ => trivial) fun answer => ?_
      cases answer with
      | result res =>
        exact NoCommit.bind (noCommit_require _ _) fun _ =>
          NoCommit.bind (noCommit_getOrCreateAccount _) fun _ => trivial
      | temporary => trivial
      | failed => trivial

theorem noCommit_clientRefund (cfg : Config) (x : Dispute) (m : Milestone) (n : Int)
    (key : String) : (clientRefund cfg x m n key).NoCommit := by
  unfold clientRefund
  split
  · exact NoCommit.bind (noCommit_confirmProviderRefund _ _ _ _ _) fun _ => trivial
  · trivial

theorem noCommit_insertRefund (r : Refund) : (insertRefund r).NoCommit := by
  unfold insertRefund reserveRefundReference
  refine NoCommit.bind (noCommit_reserve _ _) fun _ => NoCommit.bind ?_ fun _ =>
    NoCommit.bind (noCommit_require _ _) fun _ => noCommit_write _
  split
  · trivial
  · exact noCommit_reserve _ _

theorem noCommit_persistResolutionRefund (m : Milestone) (employer : UserId) (s : IdempotencyScope)
    (j : JournalKey) (n : Int) (o : Option ConfirmedRefund) (id : RefundId) :
    (persistResolutionRefund m employer s j n o id).NoCommit := by
  cases o with
  | none => trivial
  | some c =>
    exact NoCommit.bind (noCommit_reserve _ _) fun _ =>
      NoCommit.bind (noCommit_insertRefund _) fun _ => trivial

theorem noCommit_insertDecision (x : DisputeDecision) : (insertDecision x).NoCommit :=
  NoCommit.bind (noCommit_reserve _ _) fun _ => noCommit_write _

variable {cfg : Config} {administrator : User} {disputeId : DisputeId} {outcome reason key : String}
  {a n : Option Int} {refundId : RefundId}

theorem resolveDispute_ok (hd : Consistent d) {resp : Response}
    (h : (resolveDispute cfg administrator disputeId outcome reason a n key refundId).alone
      answer d id =
      ⟨d', .ok resp⟩) :
    d' = d ∧ Replayed d ⟨administrator.id, .disputeResolve, strip key⟩
        (.resolve disputeId (upper (strip outcome)) (strip reason) a n) resp ∨
      ∃ x m c e award refundMinor, Resolvable d x m c e ∧ x.id = disputeId ∧
        AmountsFit (upper (strip outcome)) m.amountMinor a n ∧
        SplitExactly d d' x m c e award refundMinor := by
  obtain ⟨-, x, hx, -, -, idem, b, d₁, hclaim, h⟩ :=
    (succeeds_resolveDispute hd).1 (succeeds_alone.2 h)
  have hid : x.id = disputeId := Table.get_key hx
  rcases h with ⟨hstored, rfl⟩ | ⟨-, hreview, hnone, hout, m, c, hm, hc, hdis, e, he, hbal, hpos,
    award, refundMinor, hamounts, o, ps, v, hpart, es, hes, -, rfl, -⟩
  · rw [← hid]
    exact .inl ⟨rfl, hclaim.replayed hstored⟩
  · have hmid : m.id = x.milestone := Table.get_key hm
    have hres : Resolvable d x m c e :=
      ⟨hid ▸ hx, hreview, hnone, hmid ▸ hm, hmid.symm, hdis, hc, he, hbal, hpos⟩
    obtain ⟨provider, rfl, hpaid⟩ := hpart.postings
    obtain ⟨-, rs, rfl⟩ := hclaim.eq
    have hview : Prepared d (awardView m c e award { d with idempotency := rs }) :=
      Prepared.ensureCredited (.ensureCredited ⟨rs, _, rfl⟩ _ _) _ _
    refine .inr ⟨x, m, c, e, award, refundMinor, hres, hid,
      resolutionAmounts_iff.1 ⟨hout, _, hamounts⟩, ?_⟩
    obtain ⟨rs', as, hv⟩ := hview
    rw [hv] at hpaid
    exact splitExactly_resolvedDb hres (hpart.prepared ⟨rs', as, hv⟩)
      (resolutionAmounts_ok hamounts hpos).1 hpaid hes

variable (cfg administrator disputeId outcome reason key a n refundId) in
/-- A resolution commits last. -/
theorem resolveDispute_commitsLast :
    (resolveDispute cfg administrator disputeId outcome reason a n key refundId).CommitsLast
      fun _ _ => True := by
  unfold resolveDispute
  refine NoCommit.bind (noCommit_require _ _) fun _ => ?_
  refine NoCommit.bind (noCommit_lockedDispute _) fun x => ?_
  refine NoCommit.bind (noCommit_select _) fun o => ?_
  dsimp only
  refine NoCommit.bind (noCommit_requiredText _ _ _) fun r => ?_
  refine NoCommit.bind (noCommit_claimIdempotency _ _ _ _) fun p => ?_
  split
  · trivial
  refine NoCommit.bind (noCommit_requireReviewableDispute _ _) fun _ => ?_
  refine NoCommit.bind (noCommit_require _ _) fun _ => ?_
  refine NoCommit.bind (noCommit_lockedMilestone _) fun mc => ?_
  refine NoCommit.bind (noCommit_require _ _) fun _ => ?_
  refine NoCommit.bind (noCommit_lockedFundedEscrow _) fun ea => ?_
  split
  · trivial
  refine NoCommit.bind (noCommit_freelancerPostings _ _ _ _) fun _ => ?_
  refine NoCommit.bind (noCommit_clientRefund _ _ _ _ _) fun _ => ?_
  refine NoCommit.bind (noCommit_postJournal _ _ _ _) fun _ => ?_
  refine NoCommit.bind (noCommit_persistResolutionRefund _ _ _ _ _ _ _) fun _ => ?_
  refine NoCommit.bind (noCommit_write _) fun _ => NoCommit.bind (noCommit_write _) fun _ => ?_
  refine NoCommit.bind (noCommit_insertDecision _) fun _ => ?_
  refine NoCommit.bind (noCommit_write _) fun _ => NoCommit.bind (noCommit_write _) fun _ => ?_
  refine NoCommit.bind (noCommit_completeIdempotency _ _ _) fun _ => ?_
  exact ⟨_, rfl, trivial⟩

/-- A request of an administrator to decide on the escrow `e`, with a new key and a reason. -/
structure Submitted (d : Db) (administrator : User) (e : MilestoneEscrow) (reason key : String)
    (refundId : RefundId) : Prop where
  admin : isAdmin administrator = true
  reason : validText 4000 reason = true
  unused : Unused d ⟨administrator.id, .disputeResolve, strip key⟩ key
  refunds : d.refundOfRecord? ⟨administrator.id, .disputeResolve, strip key⟩ = none
  fresh : d.refund? refundId = none
  admitted : 0 ≤ e.commissionBps ∧ e.commissionBps ≤ 10000

/-- The provider confirms the refund of `n`, under a new reference. -/
def Confirms (cfg : Config) (answer : Request → Answer) (d : Db) (x : Dispute) (m : Milestone)
    (key : String) (n : Int) : Prop :=
  ∃ i res, RefundConfirmed cfg answer d x.id m n key i res ∧
    d.refundOfReference? i.provider res.reference = none

theorem RefundConfirmed.prepared {x : DisputeId} {m : Milestone} {n : Int} {i : PaymentIntent}
    {res : ProviderResult} (h : RefundConfirmed cfg answer d x m n key i res) (hv : Prepared d v) :
    RefundConfirmed cfg answer v x m n key i res := by
  obtain ⟨_, _, rfl⟩ := hv
  exact ⟨h.captured, h.supported, h.answered, h.status, h.amount, h.currency⟩

/-- The client's part of a request that the provider confirms. -/
theorem Submitted.clientPart {x : Dispute} {m : Milestone} {e : MilestoneEscrow} {n : Int}
    (h : Submitted d administrator e reason key refundId) (hv : Prepared d v) (hn : 0 ≤ n)
    (hconf : 0 < n → Confirms cfg answer d x m key n) : ∃ o ps w,
      ClientPart cfg answer x.id m n key v o ps w ∧
      ∀ cf ∈ o, Insertable d refundId ⟨administrator.id, .disputeResolve, strip key⟩ n cf := by
  by_cases hzero : n = 0
  · exact ⟨_, _, _, .nothing hzero, fun _ hc => by cases hc⟩
  · obtain ⟨i, res, hc, href⟩ := hconf (by omega)
    refine ⟨_, _, _, .refund i res hzero (hc.prepared hv), fun cf hcf => ?_⟩
    cases hcf
    exact ⟨h.fresh, h.refunds, href, by omega⟩

variable (answer cfg) in
theorem resolveDispute_posts (hd : Consistent d) {x : Dispute} {m : Milestone} {c : Contract}
    {e : MilestoneEscrow} (hr : Resolvable d x m c e)
    (hs : Submitted d administrator e reason key refundId)
    (hout : disputeOutcomes.contains (upper (strip outcome)) = true) {award refundMinor : Int}
    (hamounts : resolutionAmounts (upper (strip outcome)) m.amountMinor a n =
      .ok (award, refundMinor))
    (hconf : 0 < refundMinor → Confirms cfg answer d x m key refundMinor) :
    ∃ d' resp provider,
      (resolveDispute cfg administrator x.id outcome reason a n key refundId).alone
        answer d id = ⟨d', .ok resp⟩ ∧
      d'.journals = ⟨⟨.disputeResolution, .dispute x.id⟩, none,
        decidedEntries m c e award provider refundMinor⟩ :: d.journals := by
  obtain ⟨hsum, hpart, hrefund⟩ := resolutionAmounts_ok hamounts hr.positive
  have hview : Prepared d (awardView m c e award (d.addRecord
      ⟨⟨administrator.id, .disputeResolve, strip key⟩,
        .resolve x.id (upper (strip outcome)) (strip reason) a n, none⟩)) :=
    Prepared.ensureCredited (.ensureCredited ⟨_, _, rfl⟩ _ _) _ _
  obtain ⟨o, ps, w, hclient, hinsert⟩ := hs.clientPart hview hrefund hconf
  have hw := hclient.prepared hview
  obtain ⟨provider, rfl, -⟩ := hclient.postings
  obtain ⟨es, hes⟩ := journalEntries_split c provider hsum hr.positive hrefund
    hs.admitted hpart
  refine ⟨_, _, provider, succeeds_alone.1 ((succeeds_resolveDispute hd).2 ⟨hs.admin, x, hr.dispute,
    hs.reason, hs.unused.valid, _, _, _, .created hs.unused.fresh, .inr ⟨rfl, hr.review,
    hr.undecided, hout, m, c, hr.same ▸ hr.milestone, hr.contract, hr.disputed, e, hr.escrow,
    hr.funded, hr.positive, award, refundMinor, hamounts, o, _, w, hclient, es, hes, hinsert, rfl,
    rfl⟩⟩), ?_⟩
  rw [(resolvedDb_rows _ _ _ _ _ hw hr.milestone hr.dispute).1, (splitEntries_of_ok hes).1]

theorem resolveDispute_accepts (hd : Consistent d) {x : Dispute} {m : Milestone} {c : Contract}
    {e : MilestoneEscrow} (hr : Resolvable d x m c e)
    (hs : Submitted d administrator e reason key refundId)
    (hconf : ∀ n, 0 < n → n ≤ m.amountMinor → Confirms cfg answer d x m key n) :
    (∃ d' resp, (resolveDispute cfg administrator x.id outcome reason a n key refundId).alone
      answer d id = ⟨d', .ok resp⟩) ↔ AmountsFit (upper (strip outcome)) m.amountMinor a n := by
  constructor
  · rintro ⟨d', resp, h⟩
    rcases resolveDispute_ok hd
      h with ⟨-, idem, hrecord, -⟩ | ⟨x', m', _, _, _, _, hr', hid, hfit, -⟩
    · cases hs.unused.fresh.symm.trans hrecord
    · obtain rfl : x' = x := Option.some.inj ((hid ▸ hr'.dispute).symm.trans hr.dispute)
      obtain rfl : m' = m := by
        have hm := hr'.milestone
        rw [← hr'.same, hr.same, hr.milestone] at hm
        exact (Option.some.inj hm).symm
      exact hfit
  · intro hfit
    obtain ⟨hout, ⟨award, refundMinor⟩, hamounts⟩ := resolutionAmounts_iff.2 hfit
    obtain ⟨hsum, hpart, -⟩ := resolutionAmounts_ok hamounts hr.positive
    obtain ⟨d', resp, _, h, -⟩ := resolveDispute_posts answer cfg hd hr hs hout hamounts
      fun hpos => hconf _ hpos (by omega)
    exact ⟨d', resp, h⟩

/-- **A resolution splits exactly**: one that succeeds answers what an earlier call with its key
was answered, or divides the escrow to the minor unit; one that fails changes nothing; and a
dispute that can be resolved is resolved by the amounts that fit the outcome. -/
theorem resolution_splits_exactly (hd : Consistent d) (cfg : Config) (answer : Request → Answer)
    (administrator : User) (disputeId : DisputeId) (outcome reason key : String) (a n : Option Int)
    (refundId : RefundId) :
    (∀ d' resp, (resolveDispute cfg administrator disputeId outcome reason a n key refundId).alone
        answer d id = ⟨d', .ok resp⟩ →
      d' = d ∧ Replayed d ⟨administrator.id, .disputeResolve, strip key⟩
          (.resolve disputeId (upper (strip outcome)) (strip reason) a n) resp ∨
        ∃ x m c e award refundMinor, Resolvable d x m c e ∧ x.id = disputeId ∧
          AmountsFit (upper (strip outcome)) m.amountMinor a n ∧
          SplitExactly d d' x m c e award refundMinor) ∧
    (∀ d' err, (resolveDispute cfg administrator disputeId outcome reason a n key refundId).alone
        answer d id = ⟨d', .error err⟩ → d' = d) ∧
    ∀ x m c e, x.id = disputeId → Resolvable d x m c e →
      Submitted d administrator e reason key refundId →
      (∀ n, 0 < n → n ≤ m.amountMinor → Confirms cfg answer d x m key n) →
      ((∃ d' resp, (resolveDispute cfg administrator disputeId outcome reason a n key
        refundId).alone answer d id = ⟨d', .ok resp⟩) ↔
          AmountsFit (upper (strip outcome)) m.amountMinor a n) := by
  refine ⟨fun d' resp h => resolveDispute_ok hd h, fun d' err h => ?_, ?_⟩
  · have hresult : ((resolveDispute cfg administrator disputeId outcome reason a n key
        refundId).alone answer d id).result = .error err := by rw [h]
    have hlast := (resolveDispute_commitsLast cfg administrator disputeId outcome reason key a n
      refundId).alone hresult
    rwa [h] at hlast
  · rintro x m c e rfl hr hs hconf
    exact resolveDispute_accepts hd hr hs hconf

end

/-! ## A dispute under review -/

/-- One milestone, with a platform commission. -/
def commissioned (bps : Int) : Db :=
  { oneMilestone with contracts := [⟨1, 1, 2, .active, .platformBps (some bps)⟩] }

theorem commissioned_activated (bps : Int) : Activated (commissioned bps) where
  contracts := List.nodup_singleton _
  milestones := List.nodup_singleton _
  created := by simp [commissioned, oneMilestone]
  empty := rfl

/-- The milestone is funded and disputed, and the dispute is reviewed. -/
def reviewOps : Nat → Operation
  | 0 => .fundMilestone anEmployer 1 "sandbox" "k1" 1
  | 1 => .webhook (captured100 "e1" "p1")
  | 2 => .openDispute anEmployer 1 "late" 1
  | 3 => .adminTransition anAdministrator 1 "EVIDENCE_COLLECTION" "look"
  | _ => .adminTransition anAdministrator 1 "UNDER_REVIEW" "read"

def reviewRun : List (Nat × Txn.Choice Answer Err Providers) :=
  Txn.Sys.goes 0 8 ++ answers100 0 "p1" "PENDING" :: Txn.Sys.goes 0 7 ++ Txn.Sys.goes 1 30 ++
    Txn.Sys.goes 2 10 ++ Txn.Sys.goes 3 5 ++ Txn.Sys.goes 4 5

/-- The sandbox: every refund asked for succeeds. -/
def confirming : Request → Answer
  | .refund _ _ amountMinor currency _ _ => .result ⟨"r1", "SUCCEEDED", amountMinor, currency⟩
  | _ => .failed

/-- Sixty for the freelancer, forty for the client. -/
def sixtyForty : Tx Response :=
  resolveDispute sandboxConfig anAdministrator 1 "split" "half done" (some 60) (some 40) "k9" 1

theorem resolution_splits_sixty_forty :
    ∃ d d' resp, sixtyForty.alone confirming d id = ⟨d', .ok resp⟩ ∧
    d'.balance (.userWallet 2 "USD") = 54 ∧ ∃ x m c e award refundMinor,
      SplitExactly d d' x m c e award refundMinor := by
  obtain ⟨s, hr, hp⟩ := Txn.Sys.exists_free_run .readCommitted
    (system sandboxConfig (commissioned 1000) noTransfers reviewOps) reviewRun
    (fun s => (sixtyForty.alone confirming s.db id).result.isOk &&
      decide ((sixtyForty.alone confirming s.db id).db.balance (.userWallet 2 "USD") = 54) &&
      decide (s.db.balance (.userWallet 2 "USD") = 0)) (by decide +kernel)
  simp only [Bool.and_eq_true, decide_eq_true_eq] at hp
  obtain ⟨⟨hok, hafter⟩, hbefore⟩ := hp
  have hd := (holds_of_reaches (commissioned_activated 1000).consistent hr).inv
  obtain ⟨hsplit, -, -⟩ := resolution_splits_exactly hd sandboxConfig confirming anAdministrator 1
    "split" "half done" "k9" (some 60) (some 40) 1
  cases ho : sixtyForty.alone confirming s.db id with
  | mk d' result =>
  rw [ho] at hok hafter
  cases result with
  | error err => cases hok
  | ok resp =>
  rcases hsplit d' resp ho with ⟨rfl, -⟩ | ⟨x, m, c, e, award, refundMinor, -, -, -, h⟩
  · cases hbefore.symm.trans hafter
  · exact ⟨s.db, d', resp, ho, hafter, x, m, c, e, award, refundMinor, h⟩

end Money
