import Freelancing.Money.ExactSplit
import Freelancing.Money.Settlement
import Freelancing.Total

/-!
# The life of a dispute

A dispute is opened on a milestone, moved by administrators and resolved by a decision. In every
state a milestone is `DISPUTED` for its one open dispute, a resolved dispute has released it by one
decision that splits its amount, and the client was sent back what was decided (`Judged`). This
holds whatever requests overlap, since whoever opens or resolves a dispute holds the milestone's
row.
-/

namespace Money

open Txn (Sys)
open Txn.Sys (goes)
open Table (total)

/-- The steps of a dispute. -/
def DisputeStatus.Goes (a b : DisputeStatus) : Prop :=
  b ∈ adminTransitions a ∨ a = .underReview ∧ b = .resolved

/-- What dispute refunds have sent back for the milestone. -/
def Refund.sentBack (m : MilestoneId) (r : Refund) : Int :=
  if r.milestone = m ∧ r.idempotency.operation = .disputeResolve then r.amountMinor else 0

def Db.sentBack (d : Db) (m : MilestoneId) : Int := total (Refund.sentBack m) d.refunds

/-! ## What a commit does to the disputes -/

/-- The parts of the tables that a dispute's life is about. -/
structure SameJudgements (d d' : Db) : Prop where
  decisions : ∀ k, d'.decision? k = d.decision? k
  refunds : ∀ m, d'.sentBack m = d.sentBack m

inductive DisputeEffect (d d' : Db) : CommitPoint → Prop
  | untouched (c : CommitPoint) (opened : ∀ k, c ≠ .disputeOpened k)
      (resolved : ∀ x, c ≠ .disputeResolved x) (rows : ∀ k, d'.dispute? k = d.dispute? k)
      (same : SameJudgements d d') : DisputeEffect d d' c
  | opened (x : Dispute) (m : Milestone) (v : MilestoneEvent) (ev : DisputeEvent)
      (fresh : d.dispute? x.id = none) (status : x.status = .opened)
      (milestone : x.milestone = m.id) (open_ : m.status ∈ openableMilestoneStates)
      (moves : Moves d d' m .disputed [v]) (rows : ∀ k, d'.dispute? k =
        if x.id = k then some { x with events := x.events ++ [ev] } else d.dispute? k)
      (same : SameJudgements d d') : DisputeEffect d d' (.disputeOpened m.id)
  | moved (x : Dispute) (target : DisputeStatus) (ev : DisputeEvent)
      (row : d.dispute? x.id = some x) (allowed : target ∈ adminTransitions x.status)
      (milestones : d'.milestones = d.milestones) (rows : ∀ k, d'.dispute? k = if x.id = k then
        some { x with status := target, events := x.events ++ [ev] } else d.dispute? k)
      (same : SameJudgements d d') : DisputeEffect d d' (.disputeMoved x.id)
  | resolved (x : Dispute) (m : Milestone) (v : MilestoneEvent) (ev : DisputeEvent) (t : Nat)
      (dec : DisputeDecision) (row : d.dispute? x.id = some x) (review : x.status = .underReview)
      (undecided : d.decision? x.id = none) (milestone : x.milestone = m.id)
      (disputed : m.status = .disputed) (moves : Moves d d' m .released [v])
      (decision : dec.dispute = x.id)
      (split : dec.freelancerAwardMinor + dec.clientRefundMinor = m.amountMinor ∧
        0 ≤ dec.freelancerAwardMinor ∧ 0 ≤ dec.clientRefundMinor)
      (rows : ∀ k, d'.dispute? k = if x.id = k then
        some { x with status := .resolved, resolvedAt := some t, events := x.events ++ [ev] }
        else d.dispute? k)
      (decisions : ∀ k, d'.decision? k = if x.id = k then some dec else d.decision? k)
      (refunds : ∀ k, d'.sentBack k = (if m.id = k then dec.clientRefundMinor else 0) +
        d.sentBack k) : DisputeEffect d d' (.disputeResolved x.id)

variable {R : Rules} {d d' : Db} {e : Providers} {c : CommitPoint}

theorem sentBack_of_rows {f : Refund → Refund} {id : RefundId}
    (h : d'.refunds = Table.modify Refund.id id f d.refunds)
    (hf : ∀ m r, (f r).sentBack m = r.sentBack m) (m : MilestoneId) :
    d'.sentBack m = d.sentBack m := by
  rw [Db.sentBack, h, Table.total_modify_same fun r => hf m r, Db.sentBack]

/-- Other commits send nothing back. -/
theorem RefundEffect.sentBack_same (h : RefundEffect R d d' c) (hx : ∀ x, c ≠ .disputeResolved x)
    (m : MilestoneId) : d'.sentBack m = d.sentBack m := by
  have hrefer : ∀ (d : Db) id reference, (d.referRefund id reference).sentBack m = d.sentBack m :=
    fun d id reference => sentBack_of_rows (f := fun r => { r with
      providerReference := some reference }) rfl (fun _ _ => rfl) m
  have hfinish : ∀ (d : Db) id s, (d.finishRefund id s).sentBack m = d.sentBack m :=
    fun d id s => sentBack_of_rows (f := fun r => { r with status := s }) rfl (fun _ _ => rfl) m
  cases h with
  | untouched c l o other rows => rw [Db.sentBack, rows, Db.sentBack]
  | reserved r m₁ fresh status operation positive milestone same funded all paid rows =>
    rw [Db.sentBack, rows, Table.total_cons, Db.sentBack]
    simp [Refund.sentBack, operation]
  | pending r reference row status rows =>
    rw [Db.sentBack, rows]
    exact hrefer d r.id reference
  | succeeded r m₁ reference row status operation milestone same v moved moves rows =>
    rw [Db.sentBack, rows]
    exact (hfinish _ r.id .succeeded).trans (hrefer d r.id reference)
  | failed r reference post row status operation posted reserved rows =>
    rw [Db.sentBack, rows]
    refine (hfinish _ r.id .failed).trans ?_
    cases reference with
    | none => rfl
    | some reference => exact hrefer d r.id reference
  | sentBack x => exact absurd rfl (hx x)

/-- A resolution writes the row of its dispute, the decision and, if anything, one refund. -/
theorem Effect.disputes_of_resolution {k : DisputeId} (h : Effect R e (.disputeResolved k) d d') :
    DisputeEffect d d' (.disputeResolved k) := by
  cases h with
  | disputeResolved pre s resp x m ct esc award refundMinor provider or v dec ev users
      eventType title body dispute review undecided milestone same disputed contract escrow
        funded split refund
      called moved decision =>
    obtain ⟨_, _, rfl⟩ := pre
    rw [(notified_eq _ _ _ _ _ _).choose_spec]
    generalize hd' : Db.completeRecord s resp _ = d'
    have hmoves : Moves d d' m .released [v] := by
      refine .move milestone (disputed ▸ moved) ?_
      subst hd'
      cases or <;> rfl
    obtain ⟨hdec, hrefund, haward⟩ := decision
    refine .resolved x m v ev (whenSome Db.addRefund or d).clock dec dispute review undecided same
      disputed hmoves hdec ?_ (fun k => ?_) (fun k => ?_) fun k => ?_
    · rw [hrefund, haward]
      exact ⟨split.1, split.2.1, split.2.2.1⟩
    · have hrow : d'.dispute? k = (Db.addDisputeEvent x.id ev <| .resolveDispute x.id
          { d with clock := (whenSome Db.addRefund or d).clock }).dispute? k := by
        subst hd'
        cases or <;> rfl
      have hbefore : ∀ n, Db.dispute? { d with clock := n } k = d.dispute? k := fun _ => rfl
      rw [hrow, Db.dispute?_addDisputeEvent, Db.dispute?_resolveDispute, hbefore]
      by_cases hk : x.id = k
      · subst hk
        simp [dispute]
      · simp [hk, Ne.symm hk]
    · have hrow : d'.decision? k = (d.addDecision dec).decision? k := by
        subst hd'
        cases or <;> rfl
      rw [hrow, Db.decision?_addDecision, hdec]
    · rw [hrefund]
      rcases refund with ⟨rfl, rfl⟩ | ⟨r, rfl, hpos, hm, rfl, rfl, hs, hop, -⟩
      · subst hd'
        rw [ite_self, Int.zero_add]
        rfl
      · have hrows : d'.refunds = { r with createdAt := d.clock } :: d.refunds := by
          subst hd'
          rfl
        rw [Db.sentBack, hrows, Table.total_cons, Db.sentBack]
        simp [Refund.sentBack, hop, hm]

/-- **What a commit does to the disputes.** -/
theorem Effect.disputes (h : Effect R e c d d') : DisputeEffect d d' c := by
  have h' := h
  have hsame : (∀ x, c ≠ .disputeResolved x) → d'.decisions = d.decisions → SameJudgements d d' :=
    fun hx hdec => ⟨fun k => by rw [Db.decision?, hdec, Db.decision?], h.refund.sentBack_same hx⟩
  have hother : (∀ k, c ≠ .disputeOpened k) → (∀ x, c ≠ .disputeResolved x) →
      d'.disputes = d.disputes → d'.decisions = d.decisions → DisputeEffect d d' c :=
    fun ho hx hrows hdec => .untouched c ho hx (fun k => by rw [Db.dispute?, hrows, Db.dispute?])
      (hsame hx hdec)
  cases h with
  | disputeOpened x m v ev users eventType title body fresh only status same milestone
      open_ moved =>
    rw [(notified_eq _ _ _ _ _ _).choose_spec] at hsame ⊢
    refine .opened x m v ev fresh status same open_ (.move milestone moved rfl) (fun k => ?_)
      (hsame (by simp) rfl)
    rw [show ∀ o, Db.dispute? { Db.addDisputeEvent x.id ev (Db.moveMilestone m.id v
      (Db.addDispute x d)) with outbox := o } k = (Db.addDisputeEvent x.id ev
      (Db.addDispute x d)).dispute? k from fun _ => rfl]
    rw [Db.dispute?_addDisputeEvent, Db.dispute?_addDispute]
    by_cases hk : x.id = k
    · simp [hk]
    · simp [hk, Ne.symm hk]
  | disputeMoved x target ev dispute allowed =>
    refine .moved x target ev dispute allowed rfl (fun k => ?_) (hsame (by simp) rfl)
    rw [Db.dispute?_addDisputeEvent, Db.dispute?_moveDispute]
    by_cases hk : x.id = k
    · subst hk
      simp [dispute]
    · simp [hk, Ne.symm hk]
  | disputeResolved pre s resp x => exact h'.disputes_of_resolution
  | webhookCaptured ev i m oe f mv n pre =>
    obtain ⟨_, _, rfl⟩ := pre
    exact hother (by simp) (by simp) (by cases oe <;> cases mv <;> rfl)
      (by cases oe <;> cases mv <;> rfl)
  | refundFailed pre s resp r reference post =>
    obtain ⟨_, _, rfl⟩ := pre
    exact hother (by simp) (by simp) (by cases reference <;> cases post <;> rfl)
      (by cases reference <;> cases post <;> rfl)
  | payoutFailed pre s resp p post =>
    obtain ⟨_, _, rfl⟩ := pre
    exact hother (by simp) (by simp) (by cases post <;> rfl) (by cases post <;> rfl)
  | webhookIgnored ev => exact hother (by simp) (by simp) rfl rfl
  | webhookFailed ev i => exact hother (by simp) (by simp) rfl rfl
  | milestoneMoved m v action => exact hother (by simp) (by simp) rfl rfl
  | contractCancelled ct => exact hother (by simp) (by simp) rfl rfl
  | replayed pre s r =>
    obtain ⟨_, _, rfl⟩ := pre
    exact hother (by simp) (by simp) rfl rfl
  | fundingStarted pre s r i m =>
    obtain ⟨_, _, rfl⟩ := pre
    exact hother (by simp) (by simp) rfl rfl
  | released pre s r m ct x v v' =>
    obtain ⟨_, _, rfl⟩ := pre
    exact hother (by simp) (by simp) rfl rfl
  | refundReserved pre r m =>
    obtain ⟨_, _, rfl⟩ := pre
    exact hother (by simp) (by simp) rfl rfl
  | refundPending pre r reference =>
    obtain ⟨_, _, rfl⟩ := pre
    exact hother (by simp) (by simp) rfl rfl
  | refundSucceeded pre s resp r m v reference =>
    obtain ⟨_, _, rfl⟩ := pre
    exact hother (by simp) (by simp) rfl rfl
  | payoutReserved pre p =>
    obtain ⟨_, _, rfl⟩ := pre
    exact hother (by simp) (by simp) rfl rfl
  | payoutUpgraded pre p x =>
    obtain ⟨_, _, rfl⟩ := pre
    exact hother (by simp) (by simp) rfl rfl
  | payoutSucceeded pre s resp p reference =>
    obtain ⟨_, _, rfl⟩ := pre
    exact hother (by simp) (by simp) rfl rfl

/-! ## One milestone -/

/-- `x` is the dispute of the milestone. -/
structure OnlyDispute (d : Db) (m : MilestoneId) (x : Dispute) : Prop where
  row : d.dispute? x.id = some x
  milestone : x.milestone = m
  only : ∀ k y, d.dispute? k = some y → y.milestone = m → k = x.id

/-- What a milestone has to do with disputes: there was none, or one is being reviewed, or one has
settled the milestone. -/
inductive Judged (d : Db) (m : Milestone) : Prop
  | undisputed (none : ∀ k y, d.dispute? k = some y → y.milestone ≠ m.id)
      (status : m.status ≠ .disputed) (sent : d.sentBack m.id = 0) : Judged d m
  | reviewed (x : Dispute) (dispute : OnlyDispute d m.id x) (open_ : x.status ≠ .resolved)
      (undecided : d.decision? x.id = none) (status : m.status = .disputed)
      (sent : d.sentBack m.id = 0) : Judged d m
  | decided (x : Dispute) (v : DisputeDecision) (dispute : OnlyDispute d m.id x)
      (resolved : x.status = .resolved) (decision : d.decision? x.id = some v)
      (status : m.status = .released)
      (split : v.freelancerAwardMinor + v.clientRefundMinor = m.amountMinor ∧
        0 ≤ v.freelancerAwardMinor ∧ 0 ≤ v.clientRefundMinor)
      (sent : d.sentBack m.id = v.clientRefundMinor) : Judged d m

section
variable {m m' : Milestone}

theorem OnlyDispute.congr {k : MilestoneId} {x : Dispute} (h : OnlyDispute d k x)
    (rows : ∀ j y, y.milestone = k → (d'.dispute? j = some y ↔ d.dispute? j = some y)) :
    OnlyDispute d' k x where
  row := (rows _ _ h.milestone).2 h.row
  milestone := h.milestone
  only j y hy hk := h.only j y ((rows j y hk).1 hy) hk

/-- A commit that leaves the milestone's disputes alone. -/
theorem Judged.congr (h : Judged d m) (hid : m'.id = m.id) (ha : m'.amountMinor = m.amountMinor)
    (hs : m'.status = .disputed ↔ m.status = .disputed)
    (hr : m.status = .released → m'.status = .released)
    (rows : ∀ k y, y.milestone = m.id → (d'.dispute? k = some y ↔ d.dispute? k = some y))
    (decisions : ∀ k y, d.dispute? k = some y → y.milestone = m.id → d'.decision? k = d.decision? k)
    (sent : d'.sentBack m.id = d.sentBack m.id) : Judged d' m' := by
  cases h with
  | undisputed none status hsent =>
    refine .undisputed (fun k y hy hk => ?_) (fun h => status (hs.1 h)) (by rw [hid, sent, hsent])
    rw [hid] at hk
    exact none k y ((rows k y hk).1 hy) hk
  | reviewed x dispute open_ undecided status hsent =>
    have hdec := decisions x.id x dispute.row dispute.milestone
    exact .reviewed x (hid ▸ dispute.congr rows) open_ (hdec.trans undecided) (hs.2 status)
      (by rw [hid, sent, hsent])
  | decided x v dispute resolved decision status split hsent =>
    have hdec := decisions x.id x dispute.row dispute.milestone
    exact .decided x v (hid ▸ dispute.congr rows) resolved (hdec.trans decision) (hr status)
      (by rw [ha]; exact split) (by rw [hid, sent, hsent])

/-- Other commits neither dispute a milestone nor end its dispute. -/
theorem Committed.disputed_iff (h : Committed R e c d d') (ho : ∀ k, c ≠ .disputeOpened k)
    (hx : ∀ x, c ≠ .disputeResolved x) (hm : d.milestone? m.id = some m)
    (hm' : d'.milestone? m.id = some m') : m'.status = .disputed ↔ m.status = .disputed := by
  rcases h.effect.life h.inv with hu | ⟨m₁, s, evs, n, ht, he⟩
  · rw [hu.rows, hm] at hm'
    cases hm'
    rfl
  · by_cases hk : m.id = m₁.id
    · have hrow := ht.row
      have hrow' := ht.row'
      rw [← hk, hm] at hrow
      rw [← hk, hm'] at hrow'
      cases hrow
      cases hrow'
      change s = .disputed ↔ _
      generalize evs.map MilestoneEvent.step = l at he
      cases he with
      | captured k i l s intent same open_ status =>
        rcases status with ⟨-, rfl⟩ | ⟨hs, -, rfl⟩
        · rfl
        · simp [hs]
      | released status => simp [status]
      | refundReserved r status => rfl
      | refundSucceeded r status => simp [status]
      | refundFailed r post => rfl
      | moved action allowed =>
        have hs : m.status ≠ .disputed := by
          intro hd
          rw [hd] at allowed
          cases action <;> simp [userTransitions] at allowed
        cases action <;> simp [MilestoneAction.target, hs]
      | disputed open_ => exact absurd rfl (ho _)
      | resolved x status => exact absurd rfl (hx _)
    · rw [ht.others _ hk, hm] at hm'
      cases hm'
      rfl

end

/-! ## All milestones -/

structure Judgements (d : Db) : Prop where
  each : ∀ k m, d.milestone? k = some m → Judged d m
  disputes : ∀ k x, d.dispute? k = some x → (d.milestone? x.milestone).isSome
  decisions : ∀ k, d.dispute? k = none → d.decision? k = none

/-- The dispute of a milestone that is under dispute. -/
theorem Judgements.reviewed (h : Judgements d) {x : Dispute} {m : Milestone}
    (hx : d.dispute? x.id = some x) (hm : d.milestone? m.id = some m) (hk : x.milestone = m.id)
    (hs : x.status ≠ .resolved) : OnlyDispute d m.id x ∧ d.decision? x.id = none ∧
      m.status = .disputed ∧ d.sentBack m.id = 0 := by
  cases h.each _ m hm with
  | undisputed none => exact absurd hk (none _ _ hx)
  | reviewed y dispute open_ undecided status sent =>
    have hid := dispute.only _ _ hx hk
    have hrow := dispute.row
    rw [← hid, hx] at hrow
    cases hrow
    exact ⟨dispute, undecided, status, sent⟩
  | decided y v dispute resolved =>
    have hid := dispute.only _ _ hx hk
    have hrow := dispute.row
    rw [← hid, hx] at hrow
    cases hrow
    exact absurd resolved hs

theorem adminTransitions_ne_resolved {a b : DisputeStatus} (h : b ∈ adminTransitions a) :
    a ≠ .resolved ∧ b ≠ .resolved := by
  cases a <;> simp [adminTransitions] at h <;> rcases h with rfl | rfl <;> simp

/-- The disputes after a commit that writes only the row of `x`. -/
theorem dispute?_of_rows {x y : Dispute} (hid : y.id = x.id) (hm : y.milestone = x.milestone)
    (hx : d.dispute? x.id = none ∨ d.dispute? x.id = some x)
    (rows : ∀ k, d'.dispute? k = if x.id = k then some y else d.dispute? k) :
    (d'.dispute? y.id = some y) ∧ (∀ k z, z.milestone ≠ x.milestone →
      (d'.dispute? k = some z ↔ d.dispute? k = some z)) ∧
    ∀ k z, d'.dispute? k = some z → k = y.id ∧ z = y ∨ d.dispute? k = some z := by
  refine ⟨by rw [rows, if_pos hid.symm], fun k z hz => ?_, fun k z hz => ?_⟩
  · rw [rows]
    by_cases hk : x.id = k
    · subst hk
      have hzy : y ≠ z := by
        intro he
        exact hz (he ▸ hm)
      have hzx : x ≠ z := by
        intro he
        exact hz (he ▸ rfl)
      rcases hx with hx | hx <;> simp [hx, hzy, hzx]
    · rw [if_neg hk]
  · rw [rows] at hz
    by_cases hk : x.id = k
    · rw [if_pos hk] at hz
      exact .inl ⟨by rw [hid, hk], (Option.some.inj hz).symm⟩
    · rw [if_neg hk] at hz
      exact .inr hz

theorem dispute?_none {x y : Dispute} {k : DisputeId}
    (rows : ∀ k, d'.dispute? k = if x.id = k then some y else d.dispute? k)
    (hk : d'.dispute? k = none) : x.id ≠ k ∧ d.dispute? k = none := by
  rw [rows] at hk
  by_cases hid : x.id = k
  · simp [hid] at hk
  · rw [if_neg hid] at hk
    exact ⟨hid, hk⟩

theorem Committed.milestone_isSome (h : Committed R e c d d') {k : MilestoneId}
    (hk : (d.milestone? k).isSome) : (d'.milestone? k).isSome := by
  obtain ⟨m, hm⟩ := Option.isSome_iff_exists.1 hk
  obtain ⟨m', hm', -⟩ := h.frame.milestones.keep _ m hm
  exact Option.isSome_iff_exists.2 ⟨m', hm'⟩

/-- Every dispute is of a milestone that is there, after a commit that writes only the row of
`x`. -/
theorem Judgements.disputes_after (hj : Judgements d) (h : Committed R e c d d') {x y : Dispute}
    (hcases : ∀ k z, d'.dispute? k = some z → k = y.id ∧ z = y ∨ d.dispute? k = some z)
    (hm : y.milestone = x.milestone) (hx : (d.milestone? x.milestone).isSome) (k : DisputeId)
    (z : Dispute) (hz : d'.dispute? k = some z) : (d'.milestone? z.milestone).isSome := by
  rcases hcases k z hz with ⟨-, rfl⟩ | hz
  · rw [hm]
    exact h.milestone_isSome hx
  · exact h.milestone_isSome (hj.disputes k z hz)

/-- No dispute is touched. -/
theorem Committed.judgements_untouched (h : Committed R e c d d') (hj : Judgements d)
    (opened : ∀ k, c ≠ .disputeOpened k) (resolved : ∀ x, c ≠ .disputeResolved x)
    (rows : ∀ k, d'.dispute? k = d.dispute? k) (same : SameJudgements d d') : Judgements d' := by
  refine ⟨fun k m' hm' => ?_, fun k x hx => ?_, fun k hk => ?_⟩
  · obtain ⟨m, hm, ⟨s, evs, rfl⟩, hrel⟩ := h.milestone_before hm'
    obtain rfl : m.id = k := Table.get_key hm
    refine (hj.each _ m hm).congr rfl rfl (h.disputed_iff opened resolved hm hm') (fun hs => ?_)
      (fun k y _ => by rw [rows]) (fun k _ _ _ => same.decisions k) (same.refunds _)
    rw [hrel hs]
    exact hs
  · rw [rows] at hx
    exact h.milestone_isSome (hj.disputes k x hx)
  · rw [rows] at hk
    rw [same.decisions]
    exact hj.decisions k hk

/-- The milestone of a new dispute had none: it could be disputed. -/
theorem Committed.judgements_opened {j : MilestoneId} (h : Committed R e (.disputeOpened j) d d')
    (hj : Judgements d) : Judgements d' := by
  cases h.effect.disputes with
  | untouched c opened => exact absurd rfl (opened j)
  | opened x m v ev fresh status milestone open_ moves rows same =>
    obtain ⟨hrow, hother, hcases⟩ := dispute?_of_rows (x := x)
      (y := { x with events := x.events ++ [ev] }) rfl rfl (.inl fresh) rows
    refine ⟨fun k m' hm' => ?_, hj.disputes_after h hcases (x := x) rfl ?_, fun k hk => ?_⟩
    · by_cases hk : k = m.id
      · subst hk
        obtain rfl := Option.some.inj (moves.row'.symm.trans hm')
        have hbefore := hj.each _ m moves.row
        cases hbefore with
        | undisputed none hs sent =>
          refine .reviewed _ ⟨hrow, milestone, fun k y hy hk => ?_⟩ (by simp [status]) ?_ rfl ?_
          · rcases hcases k y hy with ⟨hk, -⟩ | hy
            · exact hk
            · exact absurd hk (none k y hy)
          · rw [same.decisions]
            exact hj.decisions _ fresh
          · rw [same.refunds]
            exact sent
        | reviewed y dispute hs undecided status => simp [status, openableMilestoneStates] at open_
        | decided y v dispute resolved decision status =>
          simp [status, openableMilestoneStates] at open_
      · have hm := hm'
        rw [moves.others k hk] at hm
        obtain rfl : m'.id = k := Table.get_key hm
        refine (hj.each _ m' hm).congr rfl rfl Iff.rfl (fun h => h) (fun k y hy => hother k y ?_)
          (fun k _ _ _ => same.decisions k) (same.refunds _)
        rw [hy, milestone]
        exact hk
    · rw [milestone, moves.row]
      rfl
    · rw [same.decisions]
      exact hj.decisions k (dispute?_none rows hk).2

/-- A dispute that administrators move stays open. -/
theorem Committed.judgements_moved {j : DisputeId} (h : Committed R e (.disputeMoved j) d d')
    (hj : Judgements d) : Judgements d' := by
  cases h.effect.disputes with
  | untouched c opened resolved rows same =>
    exact h.judgements_untouched hj opened resolved rows same
  | moved x target ev row allowed milestones rows same =>
    obtain ⟨hs, htarget⟩ := adminTransitions_ne_resolved allowed
    obtain ⟨hrow, hother, hcases⟩ := dispute?_of_rows (x := x)
      (y := { x with status := target, events := x.events ++ [ev] }) rfl rfl (.inr row) rows
    refine ⟨fun k m hm => ?_, hj.disputes_after h hcases rfl (hj.disputes _ x row), fun k hk => ?_⟩
    · rw [Db.milestone?, milestones] at hm
      obtain rfl : m.id = k := Table.get_key hm
      by_cases hk : x.milestone = m.id
      · obtain ⟨hdispute, hundecided, hstatus, hsent⟩ := hj.reviewed row hm hk hs
        refine .reviewed _ ⟨hrow, hk, fun k y hy hk => ?_⟩ htarget ?_ hstatus ?_
        · rcases hcases k y hy with ⟨hk, -⟩ | hy
          · exact hk
          · exact hdispute.only k y hy hk
        · rw [same.decisions]
          exact hundecided
        · rw [same.refunds]
          exact hsent
      · refine (hj.each _ m hm).congr rfl rfl Iff.rfl (fun h => h) (fun k y hy => hother k y ?_)
          (fun k _ _ _ => same.decisions k) (same.refunds _)
        rw [hy]
        exact Ne.symm hk
    · rw [same.decisions]
      exact hj.decisions k (dispute?_none rows hk).2

/-- The decision settles the milestone of the dispute, and no other one. -/
theorem Committed.judgements_resolved {j : DisputeId} (h : Committed R e (.disputeResolved j) d d')
    (hj : Judgements d) : Judgements d' := by
  cases h.effect.disputes with
  | untouched c opened resolved => exact absurd rfl (resolved j)
  | resolved x m v ev t dec row review undecided milestone disputed moves decision split rows
      decisions refunds =>
    have hs : x.status ≠ .resolved := by simp [review]
    obtain ⟨hrow, hother, hcases⟩ := dispute?_of_rows (x := x) (y := { x with
      status := .resolved, resolvedAt := some t, events := x.events ++ [ev] }) rfl rfl
        (.inr row) rows
    refine ⟨fun k m' hm' => ?_, hj.disputes_after h hcases rfl (hj.disputes _ x row),
      fun k hk => ?_⟩
    · by_cases hk : k = m.id
      · subst hk
        obtain rfl := Option.some.inj (moves.row'.symm.trans hm')
        obtain ⟨hdispute, -, -, hsent⟩ := hj.reviewed row moves.row milestone hs
        refine .decided _ dec ⟨hrow, milestone, fun k y hy hk => ?_⟩ rfl ?_ rfl split ?_
        · rcases hcases k y hy with ⟨hk, -⟩ | hy
          · exact hk
          · exact hdispute.only k y hy hk
        · rw [decisions, if_pos rfl]
        · rw [refunds, if_pos rfl, hsent, Int.add_zero]
      · have hm := hm'
        rw [moves.others k hk] at hm
        obtain rfl : m'.id = k := Table.get_key hm
        refine (hj.each _ m' hm).congr rfl rfl Iff.rfl (fun h => h) (fun k y hy => hother k y ?_)
          (fun k y hy hk' => ?_) ?_
        · rw [hy, milestone]
          exact hk
        · rw [decisions, if_neg]
          intro hid
          rw [← hid, row] at hy
          cases hy
          exact hk (hk'.symm.trans milestone)
        · rw [refunds, if_neg (Ne.symm hk), Int.zero_add]
    · obtain ⟨hid, hk⟩ := dispute?_none rows hk
      rw [decisions, if_neg hid]
      exact hj.decisions k hk

/-- **A commit keeps the judgements.** -/
theorem Committed.judgements (h : Committed R e c d d') (hj : Judgements d) : Judgements d' := by
  cases h.effect.disputes with
  | untouched c opened resolved rows same =>
    exact h.judgements_untouched hj opened resolved rows same
  | opened x m => exact h.judgements_opened hj
  | moved x => exact h.judgements_moved hj
  | resolved x m => exact h.judgements_resolved hj

/-! ## The steps of a dispute -/

/-- `y` is the dispute `x`, some steps later. -/
def Dispute.Leads (x y : Dispute) : Prop :=
  y.milestone = x.milestone ∧ Relation.ReflTransGen DisputeStatus.Goes x.status y.status

/-- **A commit moves a dispute along its steps.** -/
theorem Effect.leads (h : Effect R e c d d') {k : DisputeId} {x : Dispute}
    (hx : d.dispute? k = some x) : ∃ y, d'.dispute? k = some y ∧ x.Leads y := by
  have hstays : ∀ rows : d'.dispute? k = d.dispute? k, ∃ y, d'.dispute? k = some y ∧ x.Leads y :=
    fun rows => ⟨x, rows.trans hx, rfl, .refl⟩
  cases h.disputes with
  | untouched c opened resolved rows => exact hstays (rows k)
  | opened y m v ev fresh status milestone open_ moves rows =>
    refine hstays ((rows k).trans (if_neg ?_))
    intro hk
    rw [← hk, fresh] at hx
    cases hx
  | moved y target ev row allowed milestones rows =>
    by_cases hk : y.id = k
    · rw [← hk, row] at hx
      cases hx
      exact ⟨_, (rows k).trans (if_pos hk), rfl, .single (.inl allowed)⟩
    · exact hstays ((rows k).trans (if_neg hk))
  | resolved y m v ev t dec row review undecided milestone disputed moves decision split rows =>
    by_cases hk : y.id = k
    · rw [← hk, row] at hx
      cases hx
      exact ⟨_, (rows k).trans (if_pos hk), rfl, .single (.inr ⟨review, rfl⟩)⟩
    · exact hstays ((rows k).trans (if_neg hk))

/-! ## Runs -/

/-- The dispute of `reviewOps` is resolved. -/
def resolvingOps : Nat → Operation
  | 5 => .resolveDispute anAdministrator 1 "split" "half done" (some 60) (some 40) "k9" 1
  | n => reviewOps n

def resolvedRun : List (Nat × Txn.Choice Answer Err Providers) :=
  goes 5 17 ++ (5, .answer (.result ⟨"r1", "SUCCEEDED", 40, "USD"⟩) noTransfers) :: goes 5 17

/-- **A milestone is settled by one dispute at most, as decided.** -/
theorem disputes_judged {mode : Txn.Mode} {cfg : Config} {ops : Nat → Operation} {s : System}
    (hd : Activated d) (hr : Reaches mode (system cfg d e ops) s) :
    ∀ m ∈ s.db.milestones, Judged s.db m := by
  have hk : ∀ i, (ops i).Keyed (anyRules mode).keys := fun i => (ops i).keyed_any
  have hs : Consistent s.db := consistent_of_run (R := anyRules mode) hd.consistent hk hr
  have hinv := invariant_of_run (R := anyRules mode)
      (P := fun d _ => Judgements d) hd.consistent hk hr
    (fun _ _ _ _ _ _ hc hP => hc.judgements hP) (fun _ _ _ _ _ _ _ _ _ hP => hP) ?_
  · exact fun m hm => hinv.each m.id m (Table.get_of_mem hs.keyed.milestones hm)
  · have hempty := hd.empty
    refine ⟨fun k m hm => .undisputed (fun k y hy => ?_) ?_ ?_, fun k y hy => ?_, fun k _ => ?_⟩
    · rw [hempty] at hy
      cases hy
    · simp [(hd.created m (Table.get_mem hm)).1]
    · rw [hempty]
      rfl
    · rw [hempty] at hy
      cases hy
    · rw [hempty]
      rfl

theorem disputes_judged_of_split : ∃ s : System, s.db.decisions.length = 1 ∧
    ∀ m ∈ s.db.milestones, Judged s.db m := by
  obtain ⟨s, hr, hp⟩ := Sys.exists_free_run .readCommitted
    (system sandboxConfig (commissioned 1000) noTransfers resolvingOps) (reviewRun ++ resolvedRun)
    (fun s => decide (s.db.decisions.length = 1)) (by decide +kernel)
  exact ⟨s, of_decide_eq_true hp, disputes_judged (commissioned_activated 1000) hr⟩

/-- **A dispute moves along its steps only, and keeps its decision.** -/
theorem disputes_lead {mode : Txn.Mode} {cfg : Config} {ops : Nat → Operation} {s s' : System}
    (hd : Activated d) (hr : Reaches mode (system cfg d e ops) s) (hr' : Reaches mode s s') :
    (∀ k x, s.db.dispute? k = some x → ∃ y, s'.db.dispute? k = some y ∧ x.Leads y) ∧
    ∀ k v, s.db.decision? k = some v → s'.db.decision? k = some v := by
  have hk : ∀ i, (ops i).Keyed (anyRules mode).keys := fun i => (ops i).keyed_any
  have hs := holds_of_run (R := anyRules mode) hd.consistent hk hr
  refine ⟨fun k x hx => ?_, fun k v hv => ?_⟩
  · refine keeps_of_run (R := anyRules mode)
      (P := fun d _ => ∃ y, d.dispute? k = some y ∧ x.Leads y)
      hs hr' (fun i c d d' e _ hc hP => ?_) (fun _ _ _ _ _ _ _ _ _ hP => hP) ⟨x, hx, rfl, .refl⟩
    obtain ⟨y, hy, hm, hsteps⟩ := hP
    obtain ⟨z, hz, hm', hstep⟩ := hc.effect.leads hy
    exact ⟨z, hz, hm'.trans hm, hsteps.trans hstep⟩
  · exact keeps_of_run (R := anyRules mode) (P := fun d _ => d.decision? k = some v) hs hr'
      (fun i c d d' e _ hc hP => hc.frame.decisions.eq_of_eq hP) (fun _ _ _ _ _ _ _ _ _ hP => hP) hv

theorem disputes_lead_to_resolved : ∃ s s' : System, (∃ x y, s.db.dispute? 1 = some x ∧
    x.status = .underReview ∧ s'.db.dispute? 1 = some y ∧ y.status = .resolved ∧ x.Leads y) := by
  obtain ⟨s, hr, hp⟩ := Sys.exists_free_run .readCommitted
    (system sandboxConfig (commissioned 1000) noTransfers resolvingOps) reviewRun
    (fun s => (s.db.dispute? 1).any (fun x => x.status = .underReview) &&
      (Sys.exec .readCommitted s resolvedRun).any fun r => r.2.all (fun _ => true) &&
        (r.1.db.dispute? 1).any fun x => x.status = .resolved) (by decide +kernel)
  obtain ⟨hreview, hrest⟩ := Bool.and_eq_true_iff.1 hp
  obtain ⟨s', hr', hp'⟩ := Sys.exists_run_of_exec (q := fun _ => true)
    (p := fun s : System => (s.db.dispute? 1).any fun x => x.status = .resolved) hrest
    fun _ _ => trivial
  obtain ⟨x, hx, hs⟩ := (Option.any_eq_true _ _).1 hreview
  obtain ⟨y, hy, hs'⟩ := (Option.any_eq_true _ _).1 hp'
  obtain ⟨z, hz, hleads⟩ := (disputes_lead (commissioned_activated 1000) hr hr').1 1 x hx
  obtain rfl := Option.some.inj (hz.symm.trans hy)
  exact ⟨s, s', x, z, hx, of_decide_eq_true hs, hy, of_decide_eq_true hs', hleads⟩

end Money
