import Freelancing.Money.RefundLife

/-!
# Settlement

A milestone is settled by its release or by the resolution of its dispute, and by one of them only
(`settled_once`); what its payments have brought in is on the escrow, or was paid out by the
settlement, or was refunded (`money_conserved`). Both hold whatever requests overlap.
-/

namespace Money

open Txn (Sys)
open Txn.Sys (goes)
open DoubleEntry (total)

/-! ## The journals of a milestone -/

/-- `j` is the `MILESTONE_FUND` journal of a payment for the milestone. -/
def Db.funds (d : Db) (m : MilestoneId) (j : JournalTransaction) : Bool :=
  match j.key with
  | ⟨.milestoneFund, .paymentIntent i⟩ => (d.intent? i).any fun x => x.milestone = m
  | _ => false

/-- `j` is the `MILESTONE_RELEASE` of the milestone or the `DISPUTE_RESOLUTION` of its dispute. -/
def Db.settles (d : Db) (m : MilestoneId) (j : JournalTransaction) : Bool :=
  match j.key with
  | ⟨.milestoneRelease, .milestone k⟩ => k = m
  | ⟨.disputeResolution, .dispute x⟩ => (d.dispute? x).any fun x => x.milestone = m
  | _ => false

def Db.settlements (d : Db) (m : MilestoneId) : List JournalTransaction :=
  d.journals.filter fun j => d.settles m j

/-- What a journal credits to wallets and to the platform. -/
def paidOut (j : JournalTransaction) : Int :=
  total .credit (j.entries.filter fun e =>
    match e.account with
    | .userWallet _ _ | .platformCommission _ => true
    | _ => false)

/-- A refund that has not been reversed. -/
def Db.standing (d : Db) (r : Refund) : Bool := (d.journal? ⟨.reversal, .refund r.id⟩).isNone

def Db.fundedTotal (d : Db) (m : MilestoneId) : Int :=
  (d.journals.map fun j => if d.funds m j then total .credit j.entries else 0).sum

def Db.settledTotal (d : Db) (m : MilestoneId) : Int :=
  (d.journals.map fun j => if d.settles m j then paidOut j else 0).sum

def Db.refundedTotal (d : Db) (m : MilestoneId) : Int :=
  (d.refunds.map fun r => if r.milestone = m ∧ d.standing r then r.amountMinor else 0).sum

def Conserved (d : Db) (m : Milestone) : Prop :=
  d.fundedTotal m.id = d.balance m.escrowKey + d.settledTotal m.id + d.refundedTotal m.id

variable {R : Rules} {d d' : Db} {e : Providers} {c : CommitPoint}

/-! ## What a journal stands for stays -/

theorem funds_stable (hf : Frame ∅ d d') {j : JournalTransaction} (hj : Known d j)
    (m : MilestoneId) : d'.funds m j = d.funds m j := by
  unfold Db.funds
  split
  · rename_i i hk
    obtain ⟨x, hx, -⟩ := (by simpa only [Known, hk] using hj : ∃ x, d.intent? i = some x ∧ _)
    obtain ⟨y, hy, ⟨_, _, rfl⟩, -⟩ := hf.intents.keep i x hx
    rw [show d'.intent? i = _ from hy, hx]
    rfl
  · rfl

theorem settles_stable (hf : Frame ∅ d d') {j : JournalTransaction} (hj : Known d j)
    (m : MilestoneId) : d'.settles m j = d.settles m j := by
  unfold Db.settles
  split
  · rfl
  · rename_i i hk
    obtain ⟨x, hx, -⟩ := (by simpa only [Known, hk] using hj : ∃ x, d.dispute? i = some x ∧ _)
    obtain ⟨y, hy, ⟨_, _, _, rfl⟩, -⟩ := hf.disputes.keep i x hx
    rw [show d'.dispute? i = _ from hy, hx]
    rfl
  · rfl

section
variable (h : Committed R e c d d') {l : List JournalTransaction}
include h

theorem Committed.fundedTotal (hl : d'.journals = l ++ d.journals) (m : MilestoneId) :
    d'.fundedTotal m =
      (l.map fun j => if d'.funds m j then total .credit j.entries else 0).sum +
        d.fundedTotal m := by
  rw [Db.fundedTotal, hl, List.map_append, List.sum_append, Db.fundedTotal]
  congr 2
  refine List.map_congr_left fun j hj => ?_
  rw [funds_stable h.frame (h.inv.journals j hj).known]

theorem Committed.settledTotal (hl : d'.journals = l ++ d.journals) (m : MilestoneId) :
    d'.settledTotal m = (l.map fun j => if d'.settles m j then paidOut j else 0).sum +
      d.settledTotal m := by
  rw [Db.settledTotal, hl, List.map_append, List.sum_append, Db.settledTotal]
  congr 2
  refine List.map_congr_left fun j hj => ?_
  rw [settles_stable h.frame (h.inv.journals j hj).known]

theorem Committed.settlements (hl : d'.journals = l ++ d.journals) (m : MilestoneId) :
    d'.settlements m = l.filter (fun j => d'.settles m j) ++ d.settlements m := by
  rw [Db.settlements, hl, List.filter_append, Db.settlements]
  congr 1
  refine List.filter_congr fun j hj => ?_
  rw [settles_stable h.frame (h.inv.journals j hj).known]

end

theorem balance_of_append {l : List JournalTransaction} (hl : d'.journals = l ++ d.journals)
    (k : AccountKey) :
    d'.balance k = DoubleEntry.balance (l.flatMap (·.entries)) k + d.balance k := by
  rw [Db.balance, Db.entries, hl, List.flatMap_append, DoubleEntry.balance_append, Db.balance,
    Db.entries]

/-! ## Refunds -/

/-- What the total of the refunds reads of a row. -/
def Refund.share (r : Refund) : RefundId × MilestoneId × Int := (r.id, r.milestone, r.amountMinor)

theorem share_modify {id : RefundId} {f : Refund → Refund} (hf : ∀ x, (f x).share = x.share)
    (l : List Refund) : (Table.modify Refund.id id f l).map Refund.share = l.map Refund.share := by
  rw [Table.modify, List.map_map]
  refine List.map_congr_left fun x _ => ?_
  dsimp only [Function.comp]
  split
  · exact hf x
  · rfl

theorem refundedTotal_eq (d : Db) (m : MilestoneId) : d.refundedTotal m =
    ((d.refunds.map Refund.share).map fun s =>
      if s.2.1 = m ∧ (d.journal? ⟨.reversal, .refund s.1⟩).isNone then s.2.2 else 0).sum := by
  rw [List.map_map]
  rfl

theorem refundedTotal_congr (hr : d'.refunds.map Refund.share = d.refunds.map Refund.share)
    (hj : ∀ id, d'.journal? ⟨.reversal, .refund id⟩ = d.journal? ⟨.reversal, .refund id⟩)
    (m : MilestoneId) : d'.refundedTotal m = d.refundedTotal m := by
  rw [refundedTotal_eq, refundedTotal_eq, hr]
  simp only [hj]

theorem refundedTotal_same (hr : d'.refunds.map Refund.share = d.refunds.map Refund.share)
    (hj : ∀ id, d'.journal? ⟨.reversal, .refund id⟩ = d.journal? ⟨.reversal, .refund id⟩)
    (m : MilestoneId) : d'.refundedTotal m = d.refundedTotal m + 0 := by
  rw [refundedTotal_congr hr hj, Int.add_zero]

@[simp] theorem share_referRefund (d : Db) (id : RefundId) (reference : String) :
    (d.referRefund id reference).refunds.map Refund.share = d.refunds.map Refund.share := by
  refine share_modify (fun _ => ?_) _
  rfl

@[simp] theorem share_finishRefund (d : Db) (id : RefundId) (s : TransferStatus) :
    (d.finishRefund id s).refunds.map Refund.share = d.refunds.map Refund.share := by
  refine share_modify (fun _ => ?_) _
  rfl

/-- A refund of a fresh id is recorded. -/
theorem refundedTotal_cons {r : Refund} (hd : Consistent d) (hfresh : d.refund? r.id = none)
    (hr : d'.refunds.map Refund.share = r.share :: d.refunds.map Refund.share)
    (hj : ∀ id, d'.journal? ⟨.reversal, .refund id⟩ = d.journal? ⟨.reversal, .refund id⟩)
    (m : MilestoneId) : d'.refundedTotal m =
      (if r.milestone = m then r.amountMinor else 0) + d.refundedTotal m := by
  have hnone : d.journal? ⟨.reversal, .refund r.id⟩ = none := by
    refine hd.no_journal fun _ _ hk => ?_
    obtain ⟨x, hx, -⟩ := hk
    cases hfresh.symm.trans hx
  rw [refundedTotal_eq, refundedTotal_eq, hr, List.map_cons, List.sum_cons]
  simp only [hj, Refund.share, hnone]
  simp

/-- A refund is reversed. -/
theorem sum_reverse {l : List (RefundId × MilestoneId × Int)} (hnd : (l.map Prod.fst).Nodup)
    {s : RefundId × MilestoneId × Int} (hs : s ∈ l) {p q : RefundId → Bool} (m : MilestoneId)
    (hp : p s.1 = true) (hq : ∀ id, q id = (p id && decide (id ≠ s.1))) :
    (l.map fun x => if x.2.1 = m ∧ q x.1 then x.2.2 else 0).sum + (if s.2.1 = m then s.2.2 else 0) =
      (l.map fun x => if x.2.1 = m ∧ p x.1 then x.2.2 else 0).sum := by
  induction l with
  | nil => cases hs
  | cons x l ih =>
    obtain ⟨hx, hnd⟩ := List.nodup_cons.1 hnd
    simp only [List.map_cons, List.sum_cons]
    rcases List.mem_cons.1 hs with rfl | hs
    · have hsame : (l.map fun x => if x.2.1 = m ∧ q x.1 then x.2.2 else 0) =
          l.map fun x => if x.2.1 = m ∧ p x.1 then x.2.2 else 0 := by
        refine List.map_congr_left fun y hy => ?_
        have hne : y.1 ≠ s.1 := fun h => hx (h ▸ List.mem_map_of_mem hy)
        simp [hq, hne]
      rw [hsame]
      simp [hq, hp]
      omega
    · have hne : x.1 ≠ s.1 := fun h => hx (h ▸ List.mem_map_of_mem hs)
      have := ih hnd hs
      simp only [hq, hne, ne_eq, not_false_eq_true, decide_true, Bool.and_true] at this ⊢
      omega

theorem refundedTotal_reverse {r : Refund} (hd : Consistent d) (hrow : d.refund? r.id = some r)
    (hr : d'.refunds.map Refund.share = d.refunds.map Refund.share)
    (hnone : d.journal? ⟨.reversal, .refund r.id⟩ = none) {j : JournalTransaction}
    (hkey : j.key = ⟨.reversal, .refund r.id⟩) (hj : d'.journals = j :: d.journals)
    (m : MilestoneId) : d'.refundedTotal m + (if r.milestone = m then r.amountMinor else 0) =
      d.refundedTotal m := by
  rw [refundedTotal_eq, refundedTotal_eq, hr]
  refine sum_reverse (s := r.share) (p := fun id => (d.journal? ⟨.reversal, .refund id⟩).isNone)
    (q := fun id => (d'.journal? ⟨.reversal, .refund id⟩).isNone) ?_ ?_ m ?_ fun id => ?_
  · rw [List.map_map]
    exact hd.keyed.refunds
  · exact List.mem_map_of_mem (Table.get_mem hrow)
  · simp [Refund.share, hnone]
  · have : d'.journal? ⟨.reversal, .refund id⟩ =
        (d.addJournal j).journal? ⟨.reversal, .refund id⟩ := by
      rw [Db.journal?, hj]
      rfl
    rw [this, Db.journal?_addJournal, hkey]
    by_cases hid : id = r.id
    · subst hid
      simp [Refund.share]
    · simp [Refund.share, hid, Ne.symm hid]

/-- Journals of other keys do not reverse a refund. -/
theorem reversal_of_append {l : List JournalTransaction} (hl : d'.journals = l ++ d.journals)
    (hn : ∀ j ∈ l, ∀ id, j.key ≠ ⟨.reversal, .refund id⟩) (id : RefundId) :
    d'.journal? ⟨.reversal, .refund id⟩ = d.journal? ⟨.reversal, .refund id⟩ := by
  rw [Db.journal?, hl, Table.get_append, Table.get_eq_none.2 fun j hj => hn j hj id]
  rfl

/-! ## What a commit books -/

/-- Does the commit settle the milestone? -/
def Db.settledBy (d : Db) (m : MilestoneId) : CommitPoint → Bool
  | .released k => k = m
  | .disputeResolved x => (d.dispute? x).any fun x => x.milestone = m
  | _ => false

/-- What a commit that posts `l` books for the milestone `m`: its refunds change by `r`. -/
structure Booked (d d' : Db) (l : List JournalTransaction) (m : Milestone) (r : Int)
    (settled : Bool) : Prop where
  refunds : d'.refundedTotal m.id = d.refundedTotal m.id + r
  flow : (l.map fun j => if d'.funds m.id j then total .credit j.entries else 0).sum =
    DoubleEntry.balance (l.flatMap (·.entries)) m.escrowKey +
      (l.map fun j => if d'.settles m.id j then paidOut j else 0).sum + r
  count : (l.filter fun j => d'.settles m.id j).length = if settled then 1 else 0
  status : ∀ m', d'.milestone? m.id = some m' →
    (m'.status = .released ↔ m.status = .released ∨ settled = true)
  before : settled = true → m.status ≠ .released

/-- The other commits release no milestone. -/
theorem Committed.not_released (h : Committed R e c d d') (hr : ∀ k, c ≠ .released k)
    (hx : ∀ x, c ≠ .disputeResolved x) {m m' : Milestone} (hm : d.milestone? m.id = some m)
    (hm' : d'.milestone? m.id = some m') :
    (m'.status = .released ↔ m.status = .released ∨ false = true) ∧
      (false = true → m.status ≠ .released) := by
  refine ⟨?_, nofun⟩
  simp only [Bool.false_eq_true, or_false]
  rcases h.effect.life h.inv with hu | ⟨m₁, s, evs, n, ht, he⟩
  · rw [hu.rows, hm] at hm'
    cases hm'
    rfl
  · by_cases hk : m.id = m₁.id
    · have hrow := ht.row
      have hrow' := ht.row'
      rw [← hk, hm] at hrow
      rw [← hk, hm'] at hrow'
      cases hrow
      cases hrow'
      change s = .released ↔ _
      generalize evs.map MilestoneEvent.step = l at he
      cases he with
      | captured k i l s intent same open_ status =>
        rcases status with ⟨-, rfl⟩ | ⟨hs, -, rfl⟩
        · rfl
        · simp [hs]
      | released status => exact absurd rfl (hr _)
      | refundReserved r status => rfl
      | refundSucceeded r status => simp [status]
      | refundFailed r post => rfl
      | moved action allowed =>
        have hs : m.status ≠ .released := by
          rintro hr
          rw [hr] at allowed
          cases action <;> simp [userTransitions] at allowed
        cases action <;> simp [MilestoneAction.target, hs]
      | disputed open_ =>
        have hs : m.status ≠ .released := by
          rintro hr
          simp [hr, openableMilestoneStates] at open_
        simp [hs]
      | resolved x status => exact absurd rfl (hx _)
    · rw [ht.others _ hk, hm] at hm'
      cases hm'
      rfl

/-- A commit that posts nothing, and changes at most the status of refunds. -/
theorem Booked.quiet (h : Committed R e c d d') (hr : ∀ k, c ≠ .released k)
    (hx : ∀ x, c ≠ .disputeResolved x) (hj : d'.journals = d.journals)
    (hs : d'.refunds.map Refund.share = d.refunds.map Refund.share) {m : Milestone}
    (hm : d.milestone? m.id = some m) : Booked d d' [] m 0 false where
  refunds := by
    rw [refundedTotal_congr hs (fun id => by rw [Db.journal?, hj, Db.journal?]), Int.add_zero]
  flow := rfl
  count := rfl
  status _ hm' := (h.not_released hr hx hm hm').1
  before := nofun

/-- A commit that posts one journal, neither of a payment nor of a settlement. -/
theorem Booked.single (h : Committed R e c d d') (hr : ∀ k, c ≠ .released k)
    (hx : ∀ x, c ≠ .disputeResolved x) {j : JournalTransaction}
    (hop : j.key.operation = .milestoneRefund ∨ j.key.operation = .payout ∨
      j.key.operation = .reversal)
    {m : Milestone} {r : Int} (hm : d.milestone? m.id = some m)
    (hs : d'.refundedTotal m.id = d.refundedTotal m.id + r)
    (hb : DoubleEntry.balance j.entries m.escrowKey = -r) : Booked d d' [j] m r false := by
  have hf : d'.funds m.id j = false := by
    unfold Db.funds
    split
    · rename_i hk
      rw [hk] at hop
      simp at hop
    · rfl
  have hse : d'.settles m.id j = false := by
    unfold Db.settles
    split
    · rename_i hk
      rw [hk] at hop
      simp at hop
    · rename_i hk
      rw [hk] at hop
      simp at hop
    · rfl
  refine ⟨hs, ?_, by simp [hse], fun m' hm' => (h.not_released hr hx hm hm').1, nofun⟩
  simp [hf, hse, hb]

theorem paidOut_release (k : JournalKey) (o : Option JournalKey) (m : Milestone)
    (x : MilestoneEscrow) (u : UserId) : paidOut ⟨k, o, releaseEntries m x u⟩ = m.amountMinor := by
  unfold paidOut releaseEntries
  dsimp only
  split <;> simp [total]
  omega

theorem paidOut_resolution (k : JournalKey) (o : Option JournalKey) (m : Milestone) (funded : Int)
    (u : UserId) (net commission : Int) (p : Provider) (refund : Int) :
    paidOut ⟨k, o, resolutionEntries m funded u net commission p refund⟩ = net + commission := by
  unfold paidOut resolutionEntries awardEntries clientEntries
  dsimp only
  split <;> split <;> split <;> simp_all [total]

/-- A capture. -/
theorem Booked.funded (h : Committed R e c d d') (hr : ∀ k, c ≠ .released k)
    (hx : ∀ x, c ≠ .disputeResolved x) {i : PaymentIntent} {m m₁ : Milestone}
    (intent : d.intent? i.id = some i) (milestone : d.milestone? m₁.id = some m₁)
    (same : i.milestone = m₁.id) {j : JournalTransaction}
    (hkey : j.key = ⟨.milestoneFund, .paymentIntent i.id⟩) (hent : j.entries = fundEntries i m₁)
    (hj : d'.journals = [j] ++ d.journals) (hrows : d'.refunds = d.refunds)
    (hm : d.milestone? m.id = some m) : Booked d d' [j] m 0 false := by
  obtain ⟨y, hy, ⟨_, _, rfl⟩, -⟩ := h.frame.intents.keep i.id i intent
  have hf : d'.funds m.id j = decide (m₁.id = m.id) := by
    simp only [Db.funds, hkey]
    rw [show d'.intent? i.id = _ from hy, Option.any_some, ← same]
  have hse : d'.settles m.id j = false := by simp only [Db.settles, hkey]
  refine ⟨?_, ?_, by simp [hse], fun m' hm' => (h.not_released hr hx hm hm').1, nofun⟩
  · exact refundedTotal_same (by rw [hrows]) (reversal_of_append hj (by simp [hkey])) _
  · simp only [List.map_cons, List.map_nil, List.sum_cons, List.sum_nil, List.flatMap_cons,
      List.flatMap_nil, List.append_nil, hf, hse, hent, Milestone.escrowKey, balance_fundEntries]
    by_cases hk : m₁.id = m.id
    · rw [hk, hm] at milestone
      cases milestone
      simp [fundEntries, total]
    · simp [hk]

/-- A settlement of `m₁` that refunds `r`. -/
theorem Booked.settled {evs : List MilestoneEvent} {m m₁ : Milestone} {r : Int}
    {j : JournalTransaction} (hf : ∀ k, d'.funds k j = false)
    (hse : ∀ k, d'.settles k j = decide (m₁.id = k)) (hpaid : paidOut j + r = m₁.amountMinor)
    (hbal : ∀ k cur, DoubleEntry.balance j.entries (.milestoneEscrow k cur) =
      if m₁.escrowKey = .milestoneEscrow k cur then -m₁.amountMinor else 0)
    (hr : ∀ k, d'.refundedTotal k = (if m₁.id = k then r else 0) + d.refundedTotal k)
    (hmove : Moves d d' m₁ .released evs) (hs : m₁.status ≠ .released)
    (hby : ∀ k, d.settledBy k c = decide (m₁.id = k)) (hm : d.milestone? m.id = some m) :
    Booked d d' [j] m (if m₁.id = m.id then r else 0) (d.settledBy m.id c) := by
  rw [hby]
  by_cases hk : m₁.id = m.id
  · have milestone := hmove.row
    have hrow := hmove.row'
    rw [hk, hm] at milestone
    cases milestone
    refine ⟨by rw [hr, Int.add_comm], ?_, by simp [hse], fun m' hm' => ?_, fun _ => hs⟩
    · simp only [List.map_cons, List.map_nil, List.sum_cons, List.sum_nil, List.flatMap_cons,
        List.flatMap_nil, List.append_nil, hf, hse, Milestone.escrowKey, hbal]
      simp
      omega
    · rw [hrow] at hm'
      cases hm'
      simp
  · refine ⟨by rw [hr, Int.add_comm], ?_, by simp [hse, hk], fun m' hm' => ?_, fun h => ?_⟩
    · simp only [List.map_cons, List.map_nil, List.sum_cons, List.sum_nil, List.flatMap_cons,
        List.flatMap_nil, List.append_nil, hf, hse, Milestone.escrowKey, hbal]
      simp [hk]
    · rw [hmove.others _ (Ne.symm hk), hm] at hm'
      cases hm'
      simp [hk]
    · simp [hk] at h

/-- The journals that a commit posts, and what they book for every milestone. -/
def Posted (c : CommitPoint) (d d' : Db) : Prop :=
  ∃ l, d'.journals = l ++ d.journals ∧
    ∀ m, d.milestone? m.id = some m → ∃ r, Booked d d' l m r (d.settledBy m.id c)

theorem settledBy_eq_false (hr : ∀ k, c ≠ .released k) (hx : ∀ x, c ≠ .disputeResolved x)
    (m : MilestoneId) : d.settledBy m c = false := by
  cases c with
  | released k => exact absurd rfl (hr k)
  | disputeResolved x => exact absurd rfl (hx x)
  | _ => rfl

theorem Posted.quiet (h : Committed R e c d d') (hr : ∀ k, c ≠ .released k)
    (hx : ∀ x, c ≠ .disputeResolved x) (hj : d'.journals = d.journals)
    (hs : d'.refunds.map Refund.share = d.refunds.map Refund.share) : Posted c d d' := by
  refine ⟨[], hj, fun m hm => ⟨0, ?_⟩⟩
  rw [settledBy_eq_false hr hx]
  exact .quiet h hr hx hj hs hm

/-- A webhook posts the journal of the payment that it captures. -/
theorem Committed.posted_webhook {k : EventKey} {captured : Option IntentId}
    (h : Committed R e (.webhookProcessed k captured) d d') :
    Posted (.webhookProcessed k captured) d d' := by
  have heff := h.effect
  cases heff with
  | webhookIgnored ev => exact .quiet h (by simp) (by simp) rfl rfl
  | webhookFailed ev i => exact .quiet h (by simp) (by simp) rfl rfl
  | webhookCaptured ev i m₁ oe f mv n pre fresh intent status milestone same =>
    obtain ⟨_, _, rfl⟩ := pre
    generalize hd' : Db.enqueue n _ = d' at h ⊢
    refine ⟨[⟨⟨.milestoneFund, .paymentIntent i.id⟩, none, fundEntries i m₁⟩], ?_, fun m hm =>
      ⟨0, .funded h (by simp) (by simp) intent milestone same rfl rfl ?_ ?_ hm⟩⟩
    all_goals
      subst hd'
      cases oe <;> cases mv <;> rfl

/-- A release posts the journal that settles the milestone. -/
theorem Committed.posted_release {k : MilestoneId} (h : Committed R e (.released k) d d') :
    Posted (.released k) d d' := by
  have heff := h.effect
  cases heff with
  | released pre s r m₁ c x v v' milestone status contract escrow funded moved moved' =>
    obtain ⟨_, _, rfl⟩ := pre
    have hmove : Moves d (d.moveMilestone m₁.id v) m₁ .releasePending [v] :=
      .move milestone (status ▸ moved) rfl
    generalize hd' : Db.completeRecord s r _ = d' at h ⊢
    let j : JournalTransaction :=
      ⟨⟨.milestoneRelease, .milestone m₁.id⟩, none, releaseEntries m₁ x c.freelancer⟩
    have hj : d'.journals = [j] ++ d.journals := by
      subst hd'
      rfl
    have hr : d'.refunds = d.refunds := by
      subst hd'
      rfl
    refine ⟨[j], hj, fun m hm => ⟨_, .settled (r := 0) (fun _ => rfl) (fun _ => rfl) ?_
      (fun k cur => balance_releaseEntries m₁ x c.freelancer k cur) (fun k => ?_)
      (hmove.again moved' ?_) (by simp [status]) (fun _ => rfl) hm⟩⟩
    · rw [paidOut_release, Int.add_zero]
    · rw [ite_self, Int.zero_add]
      exact refundedTotal_congr (by rw [hr]) (reversal_of_append hj (by simp [j])) k
    · subst hd'
      rfl

/-- A reservation takes the amount of the refund from the escrow. -/
theorem Committed.posted_reservation {k : RefundId} (h : Committed R e (.refundReserved k) d d') :
    Posted (.refundReserved k) d d' := by
  have heff := h.effect
  cases heff with
  | refundReserved pre r m₁ fresh status positive operation milestone same currency =>
    obtain ⟨_, _, rfl⟩ := pre
    refine ⟨[_], rfl, fun m hm => ⟨if r.milestone = m.id then r.amountMinor else 0, ?_⟩⟩
    refine .single h (by simp) (by simp) (.inl rfl) hm ?_ ?_
    · rw [Int.add_comm]
      exact refundedTotal_cons h.inv fresh rfl (reversal_of_append (l := [_]) rfl
        (by simp [Refund.reservationJournal, Refund.reservationKey])) _
    · by_cases hk : m.id = m₁.id
      · rw [hk, milestone] at hm
        cases hm
        simp [Refund.reservationJournal, Milestone.escrowKey, same, currency]
      · simp [Refund.reservationJournal, Milestone.escrowKey, same, Ne.symm hk]

/-- A reversal puts the amount of the refund back. -/
theorem Booked.reversed (h : Committed R e c d d') (hr : ∀ k, c ≠ .released k)
    (hx : ∀ x, c ≠ .disputeResolved x) {r : Refund} (refund : d.refund? r.id = some r)
    (hnone : d.journal? ⟨.reversal, .refund r.id⟩ = none)
    (hj : d'.journals = r.reversalJournal :: d.journals)
    (hs : d'.refunds.map Refund.share = d.refunds.map Refund.share) {m : Milestone}
    (hm : d.milestone? m.id = some m) :
    Booked d d' [r.reversalJournal] m
      (-(if r.milestone = m.id then r.amountMinor else 0)) false := by
  refine .single h hr hx (.inr (.inr rfl)) hm ?_ ?_
  · have := refundedTotal_reverse h.inv refund hs hnone (j := r.reversalJournal) rfl hj m.id
    omega
  · obtain ⟨m₁, hm₁, hc⟩ := (h.inv.refunds r (Table.get_mem refund)).milestone
    have hid : m₁.id = r.milestone := Table.get_key hm₁
    by_cases hk : r.milestone = m.id
    · rw [hk, hm] at hm₁
      cases hm₁
      simp [Refund.reversalJournal, Milestone.escrowKey, hk, hc]
    · simp [Refund.reversalJournal, Milestone.escrowKey, hk]

/-- A refund that fails is reversed, unless it has been before. -/
theorem Committed.posted_reversal {k : RefundId} (h : Committed R e (.refundFailed k) d d') :
    Posted (.refundFailed k) d d' := by
  have heff := h.effect
  cases heff with
  | refundFailed pre s resp r reference post refund status operation posted reserved =>
    obtain ⟨_, _, rfl⟩ := pre
    have hshare : ∀ d : Db, ((whenSome (Db.referRefund r.id) reference d).finishRefund r.id
        .failed).refunds.map Refund.share = d.refunds.map Refund.share := fun d => by
      refine (share_finishRefund _ r.id .failed).trans ?_
      cases reference with
      | none => rfl
      | some reference => exact share_referRefund d r.id reference
    cases post with
    | false =>
      refine .quiet h (by simp) (by simp) ?_ (Eq.trans ?_ (hshare d)) <;> cases reference <;> rfl
    | true =>
      have hnone : d.journal? ⟨.reversal, .refund r.id⟩ = none := by
        simpa [Refund.reversalJournal] using posted
      generalize hd' : Db.completeRecord s resp _ = d' at h ⊢
      have hj : d'.journals = r.reversalJournal :: d.journals := by
        subst hd'
        cases reference <;> rfl
      have hsh : d'.refunds.map Refund.share = d.refunds.map Refund.share := by
        refine Eq.trans ?_ (hshare d)
        subst hd'
        cases reference <;> rfl
      exact ⟨[r.reversalJournal], hj, fun m hm =>
        ⟨_, .reversed h (by simp) (by simp) refund hnone hj hsh hm⟩⟩

/-- A resolution posts the journal that settles the milestone, and refunds the client's part. -/
theorem Committed.posted_resolution {k : DisputeId} (h : Committed R e (.disputeResolved k) d d') :
    Posted (.disputeResolved k) d d' := by
  have heff := h.effect
  cases heff with
  | disputeResolved pre s resp x m₁ ct esc award refundMinor provider or v dec ev users
      eventType title body dispute review undecided milestone same disputed contract escrow
        funded split refund
      called moved =>
    obtain ⟨_, _, rfl⟩ := pre
    rw [(notified_eq _ _ _ _ _ _).choose_spec] at h ⊢
    generalize hd' : Db.completeRecord s resp _ = d' at h ⊢
    let j : JournalTransaction := ⟨⟨.disputeResolution, .dispute x.id⟩, none,
      resolutionEntries m₁ m₁.amountMinor ct.freelancer (award - commissionOf award esc)
        (commissionOf award esc) provider refundMinor⟩
    have hj : d'.journals = [j] ++ d.journals := by
      subst hd'
      cases or <;> rfl
    have hrev := reversal_of_append hj (by simp [j])
    have hmove : Moves d d' m₁ .released [v] := by
      refine .move milestone (disputed ▸ moved) ?_
      subst hd'
      cases or <;> rfl
    obtain ⟨y, hy, ⟨_, _, _, rfl⟩, -⟩ := h.frame.disputes.keep x.id x dispute
    refine ⟨[j], hj, fun m hm => ⟨_, .settled (r := refundMinor) (fun _ => rfl) (fun k => ?_) ?_
      (fun k cur => balance_resolutionEntries m₁ _ _ _ _ _ _ k cur) (fun k => ?_) hmove
      (by simp [disputed]) (fun k => ?_) hm⟩⟩
    · simp only [Db.settles, j]
      rw [show d'.dispute? x.id = _ from hy, Option.any_some, same]
    · rw [paidOut_resolution]
      omega
    · rcases refund with ⟨rfl, rfl⟩ | ⟨r, rfl, hpos, hm₁, rfl, ha, hs, hop, hfresh, hpaid⟩
      · rw [ite_self, Int.zero_add]
        refine refundedTotal_congr ?_ hrev k
        subst hd'
        rfl
      · rw [← hm₁, ← ha]
        refine refundedTotal_cons h.inv hfresh ?_ hrev k
        subst hd'
        rfl
    · simp only [Db.settledBy, dispute, Option.any_some, same]

/-- The journals of a payout touch no escrow. -/
theorem Posted.payout (h : Committed R e c d d') (hr : ∀ k, c ≠ .released k)
    (hx : ∀ x, c ≠ .disputeResolved x) {j : JournalTransaction}
    (hop : j.key.operation = .payout ∨ j.key.operation = .reversal)
    (hkey : ∀ id, j.key ≠ ⟨.reversal, .refund id⟩) (hj : d'.journals = [j] ++ d.journals)
    (hrows : d'.refunds = d.refunds)
    (hb : ∀ k cur, DoubleEntry.balance j.entries (.milestoneEscrow k cur) = 0) : Posted c d d' := by
  refine ⟨[j], hj, fun m hm => ⟨0, ?_⟩⟩
  rw [settledBy_eq_false hr hx]
  exact .single h hr hx (.inr hop) hm
    (refundedTotal_same (by rw [hrows]) (reversal_of_append hj (by simpa using hkey)) _) (hb _ _)

/-- **What a commit books balances.** -/
theorem Committed.booked (h : Committed R e c d d') : Posted c d d' := by
  have heff := h.effect
  cases heff with
  | replayed pre s r =>
    obtain ⟨_, _, rfl⟩ := pre
    exact .quiet h (by simp) (by simp) rfl rfl
  | fundingStarted pre s r i m =>
    obtain ⟨_, _, rfl⟩ := pre
    exact .quiet h (by simp) (by simp) rfl rfl
  | webhookIgnored ev => exact h.posted_webhook
  | webhookFailed ev i => exact h.posted_webhook
  | webhookCaptured ev i m oe f mv n => exact h.posted_webhook
  | released pre s r m => exact h.posted_release
  | refundReserved pre r m => exact h.posted_reservation
  | refundPending pre r reference =>
    obtain ⟨_, _, rfl⟩ := pre
    exact .quiet h (by simp) (by simp) rfl (share_referRefund d r.id reference)
  | refundSucceeded pre s resp r m v reference =>
    obtain ⟨_, _, rfl⟩ := pre
    exact .quiet h (by simp) (by simp) rfl
      ((share_finishRefund _ r.id .succeeded).trans (share_referRefund d r.id reference))
  | refundFailed pre s resp r => exact h.posted_reversal
  | milestoneMoved m v action => exact .quiet h (by simp) (by simp) rfl rfl
  | contractCancelled c => exact .quiet h (by simp) (by simp) rfl rfl
  | disputeOpened x m v ev users eventType title body =>
    obtain ⟨o, ho⟩ := notified_eq x.id users eventType title body
      (.addDisputeEvent x.id ev <| .moveMilestone m.id v <| .addDispute x d)
    rw [ho] at h ⊢
    exact .quiet h (by simp) (by simp) rfl rfl
  | disputeMoved x target ev => exact .quiet h (by simp) (by simp) rfl rfl
  | disputeResolved pre s resp x => exact h.posted_resolution
  | payoutReserved pre p =>
    obtain ⟨_, _, rfl⟩ := pre
    exact .payout h (by simp) (by simp) (.inl rfl)
      (by simp [Payout.reservationJournal, Payout.reservationKey]) rfl rfl
      (fun _ _ => balance_payout_reservation p _ _)
  | payoutUpgraded pre p x =>
    obtain ⟨_, _, rfl⟩ := pre
    exact .quiet h (by simp) (by simp) rfl rfl
  | payoutSucceeded pre s resp p reference =>
    obtain ⟨_, _, rfl⟩ := pre
    exact .quiet h (by simp) (by simp) rfl rfl
  | payoutFailed pre s resp p post =>
    obtain ⟨_, _, rfl⟩ := pre
    cases post with
    | false => exact .quiet h (by simp) (by simp) rfl rfl
    | true =>
      exact .payout h (by simp) (by simp) (.inr rfl) (by simp [Payout.reversalJournal]) rfl rfl
        (fun _ _ => balance_payout_reversal p _ _)

/-! ## Runs -/

/-- What the settlement of a milestone has to do with its status and its money. -/
structure SettledOnce (d : Db) (m : Milestone) : Prop where
  once : (d.settlements m.id).length ≤ 1
  released : m.status = .released ↔ (d.settlements m.id).length = 1
  conserved : Conserved d m

/-- The books of a milestone. -/
structure Books (d : Db) (m : Milestone) : Prop where
  count : (d.settlements m.id).length = if m.status = .released then 1 else 0
  conserved : Conserved d m

theorem Books.settledOnce {m : Milestone} (h : Books d m) : SettledOnce d m := by
  refine ⟨?_, ?_, h.conserved⟩ <;> rw [h.count] <;> split <;> simp_all

/-- **A commit keeps the books.** -/
theorem Committed.books (h : Committed R e c d d')
    (hb : ∀ k m, d.milestone? k = some m → Books d m) :
    ∀ k m, d'.milestone? k = some m → Books d' m := by
  intro k m hm
  obtain ⟨m₀, hm₀, hk⟩ := h.milestone_before hm
  have hid₀ : m₀.id = k := Table.get_key hm₀
  subst hid₀
  obtain ⟨l, hl, hbook⟩ := h.booked
  obtain ⟨r, hr⟩ := hbook m₀ hm₀
  obtain ⟨hcount, hcons⟩ := hb _ m₀ hm₀
  have hstatus := hr.status m hm
  obtain ⟨⟨s, evs, rfl⟩, -⟩ := hk
  refine ⟨?_, ?_⟩
  · change (d'.settlements m₀.id).length = if s = .released then 1 else 0
    rw [h.settlements hl, List.length_append, hr.count, hcount]
    have hbefore := hr.before
    change s = .released ↔ _ at hstatus
    cases hset : d.settledBy m₀.id c with
    | false => simp [hstatus, hset]
    | true => simp [hstatus, hset, hbefore hset]
  · have hflow := hr.flow
    have hrefunds := hr.refunds
    unfold Conserved at hcons ⊢
    change d'.fundedTotal m₀.id = d'.balance m₀.escrowKey + d'.settledTotal m₀.id +
      d'.refundedTotal m₀.id
    rw [h.fundedTotal hl, h.settledTotal hl, balance_of_append hl]
    omega

/-- **Settlement happens once and loses nothing.** -/
theorem settled_once {mode : Txn.Mode} {ok : Move → Bool} {cfg : Config} {ops : Nat → Operation}
    {s : System} (hd : Activated d)
    (hr : Sys.Run mode (fun mv => ok mv = true) (system cfg d e ops) s) :
    ∀ m ∈ s.db.milestones, SettledOnce s.db m := by
  let R := rules mode ok
  have hk : ∀ i, (ops i).Keyed R.keys := fun i => keyed_rules _
  have hs : Consistent s.db := consistent_of_run (R := R) hd.consistent hk hr
  have hinv := invariant_of_run (R := R)
      (P := fun d _ => ∀ k m, d.milestone? k = some m → Books d m)
    hd.consistent hk hr (fun i c d₁ d₂ e hok hc hP => hc.books hP)
      (fun _ _ _ _ _ _ _ _ _ hP => hP) ?_
  · exact fun m hm => (hinv m.id m (Table.get_of_mem hs.keyed.milestones hm)).settledOnce
  · intro k m hm
    have hc := (hd.created m (Table.get_mem hm)).1
    have he := hd.empty
    refine ⟨?_, ?_⟩
    · rw [he, hc]
      rfl
    · rw [he]
      rfl

theorem settled_once_by_release : ∃ s : System, (∃ m ∈ s.db.milestones, m.status = .released) ∧
    ∀ m ∈ s.db.milestones, SettledOnce s.db m := by
  obtain ⟨s, hr, hp⟩ := Sys.exists_run .readCommitted
    (system sandboxConfig oneMilestone noTransfers releasingOps) (fun _ => true) releasedRun
    (fun s => decide (∃ m ∈ s.db.milestones, m.status = .released)) (by decide +kernel)
  exact ⟨s, by simpa using hp, settled_once oneMilestone_activated hr⟩

end Money
