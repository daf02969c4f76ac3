import Freelancing.Money.PayoutSettlement
import Freelancing.Money.Settlement
import Freelancing.Total

/-!
# The clearing accounts

The account `provider_clearing` of a provider and a currency stands for the money that lies with the
provider. Its balance is determined by the rows of the services (`clearing_agrees`): it is debited
with the captured payments, and credited with the refunds and the payouts that no reversal has taken
back. This holds whatever requests overlap and however the provider answers.
-/

namespace Money

open Txn (Sys)
open Txn.Sys (goes)
open Table (total)

/-! ## The rows of a provider -/

def PaymentIntent.clears (p : Provider) (c : Currency) (i : PaymentIntent) : Int :=
  if i.status = .captured ∧ i.provider = p ∧ i.currency = c then i.amountMinor else 0

/-- Money that a refund or a payout takes from a provider. -/
structure Outflow where
  id : Nat
  provider : Provider
  currency : Currency
  amountMinor : Int

def Refund.outflow (r : Refund) : Outflow := ⟨r.id, r.provider, r.currency, r.amountMinor⟩

def Payout.outflow (x : Payout) : Outflow := ⟨x.id, x.provider, x.currency, x.amountMinor⟩

def Outflow.clears (p : Provider) (c : Currency) (o : Outflow) : Int :=
  if o.provider = p ∧ o.currency = c then o.amountMinor else 0

/-- What has left the provider, unless it was reversed. -/
def outgoing (reversed : Nat → Bool) (p : Provider) (c : Currency) (l : List Outflow) : Int :=
  total (fun o => if reversed o.id then 0 else o.clears p c) l

/-- A reversal was posted for the refund or the payout. -/
def Db.reversed (d : Db) (x : Reference) : Bool := (d.journal? ⟨.reversal, x⟩).isSome

/-- What was captured through the provider. -/
def Db.clearedIn (d : Db) (p : Provider) (c : Currency) : Int :=
  total (PaymentIntent.clears p c) d.intents

def Db.refundedOut (d : Db) (p : Provider) (c : Currency) : Int :=
  outgoing (fun id => d.reversed (.refund id)) p c (d.refunds.map Refund.outflow)

def Db.paidOut (d : Db) (p : Provider) (c : Currency) : Int :=
  outgoing (fun id => d.reversed (.payout id)) p c (d.payouts.map Payout.outflow)

/-- What the rows do not say of the account of the provider. -/
def Db.unexplained (d : Db) (p : Provider) (c : Currency) : Int :=
  d.balance (.providerClearing p c) + d.clearedIn p c - d.refundedOut p c - d.paidOut p c

/-! ## What the journals do to the account -/

section
variable (p : Provider) (c : Currency)

@[simp] theorem clearing_fundEntries (i : PaymentIntent) (m : Milestone) :
    DoubleEntry.balance (fundEntries i m) (.providerClearing p c) =
      if i.provider = p ∧ i.currency = c then -i.amountMinor else 0 := by
  simp [fundEntries, DoubleEntry.Entry.signed]

@[simp] theorem clearing_releaseEntries (m : Milestone) (x : MilestoneEscrow) (u : UserId) :
    DoubleEntry.balance (releaseEntries m x u) (.providerClearing p c) = 0 := by
  unfold releaseEntries
  dsimp only
  split <;> simp

@[simp] theorem clearing_resolutionEntries (m : Milestone) (funded : Int) (u : UserId)
    (net commission : Int) (q : Provider) (refund : Int) :
    DoubleEntry.balance (resolutionEntries m funded u net commission q refund)
      (.providerClearing p c) = if q = p ∧ m.currency = c then refund else 0 := by
  unfold resolutionEntries awardEntries clientEntries
  split <;> split <;> split <;> simp_all [DoubleEntry.Entry.signed]

@[simp] theorem clearing_refund_reservation (r : Refund) :
    DoubleEntry.balance r.reservation (.providerClearing p c) = r.outflow.clears p c := by
  by_cases h : r.provider = p ∧ r.currency = c <;>
    simp [Refund.reservation, Refund.outflow, Outflow.clears, DoubleEntry.Entry.signed, h]

@[simp] theorem clearing_refund_reversal (r : Refund) :
    DoubleEntry.balance r.reversal (.providerClearing p c) = -r.outflow.clears p c := by
  by_cases h : r.provider = p ∧ r.currency = c <;>
    simp [Refund.reversal, Refund.outflow, Outflow.clears, DoubleEntry.Entry.signed, h]

@[simp] theorem clearing_payout_reservation (x : Payout) :
    DoubleEntry.balance x.reservation (.providerClearing p c) = x.outflow.clears p c := by
  by_cases h : x.provider = p ∧ x.currency = c <;>
    simp [Payout.reservation, Payout.outflow, Outflow.clears, DoubleEntry.Entry.signed, h]

@[simp] theorem clearing_payout_reversal (x : Payout) :
    DoubleEntry.balance x.reversalEntries (.providerClearing p c) = -x.outflow.clears p c := by
  by_cases h : x.provider = p ∧ x.currency = c <;>
    simp [Payout.reversalEntries, Payout.outflow, Outflow.clears, DoubleEntry.Entry.signed, h]

end

/-! ## Outflows -/

section
variable {rev rev' : Nat → Bool} {p : Provider} {c : Currency} {l : List Outflow} {o : Outflow}

theorem outgoing_cons (h : rev o.id = false) :
    outgoing rev p c (o :: l) = o.clears p c + outgoing rev p c l := by
  simp [outgoing, h]

/-- One of them is reversed. -/
theorem outgoing_reverse (hnd : (l.map Outflow.id).Nodup) (ho : o ∈ l) (h : rev o.id = false)
    (h' : ∀ id, rev' id = (decide (id = o.id) || rev id)) :
    outgoing rev' p c l + o.clears p c = outgoing rev p c l := by
  have hother : ∀ x ∈ l, x.id ≠ o.id → (if rev' x.id then 0 else x.clears p c) =
      if rev x.id then 0 else x.clears p c := fun x _ hx => by simp [h', hx]
  have hsum := Table.total_update (w := fun o => if rev o.id then 0 else o.clears p c) hnd
    (Table.get_of_mem hnd ho) hother
  simpa [outgoing, h, h'] using hsum

end

/-! ## Reversals -/

section
variable {d d' : Db} {l : List JournalTransaction} {x : Reference}

theorem reversed_append (hl : d'.journals = l ++ d.journals) :
    d'.reversed x = (l.any (fun j => j.key = ⟨.reversal, x⟩) || d.reversed x) := by
  rw [Db.reversed, Db.journal?, hl, Table.get_append, Option.isSome_or, Db.reversed, Db.journal?]
  congr 1
  rw [Bool.eq_iff_iff, Table.get_isSome]
  simp

theorem reversed_same (hl : d'.journals = l ++ d.journals)
    (hn : ∀ j ∈ l, j.key.operation ≠ .reversal) : d'.reversed x = d.reversed x := by
  rw [reversed_append hl, List.any_eq_false.2, Bool.false_or]
  intro j hj
  simpa using fun he => hn j hj (by rw [he])

/-- The refund or the payout that a reversal takes back. -/
def Db.reversible (d : Db) : Reference → Bool
  | .refund id => (d.refund? id).isSome
  | .payout id => (d.payout? id).isSome
  | _ => false

theorem Consistent.reversible (hd : Consistent d) (h : d.reversed x = true) :
    d.reversible x = true := by
  obtain ⟨j, hj⟩ := Option.isSome_iff_exists.1 h
  have hknown := hd.known hj
  cases x with
  | refund id | payout id =>
    obtain ⟨r, hr, -⟩ := hknown
    exact Option.isSome_iff_exists.2 ⟨r, hr⟩
  | paymentIntent id | milestone id | dispute id => exact hknown.elim

end

/-! ## What a commit does to the account -/

section
variable {R : Rules} {d d' : Db} {e : Providers} {p : Provider} {c : Currency}
  {l : List JournalTransaction} {point : CommitPoint}

/-- Journals, payments and fresh refunds and payouts that account for each other. -/
theorem unexplained_append (l : List JournalTransaction) (rs xs : List Outflow) (hd : Consistent d)
    (hj : d'.journals = l ++ d.journals)
    (hl : ∀ j ∈ l, j.key.operation ≠ .reversal)
    (hr : d'.refunds.map Refund.outflow = rs ++ d.refunds.map Refund.outflow)
    (hx : d'.payouts.map Payout.outflow = xs ++ d.payouts.map Payout.outflow)
    (hrs : ∀ o ∈ rs, d.refund? o.id = none) (hxs : ∀ o ∈ xs, d.payout? o.id = none)
    (h : DoubleEntry.balance (l.flatMap (·.entries)) (.providerClearing p c) + d'.clearedIn p c =
      d.clearedIn p c + total (Outflow.clears p c) rs + total (Outflow.clears p c) xs) :
    d'.unexplained p c = d.unexplained p c := by
  have hnew : ∀ {rev : Nat → Bool} {os : List Outflow}, (∀ o ∈ os, rev o.id = false) →
      ∀ l, outgoing rev p c (os ++ l) = total (Outflow.clears p c) os + outgoing rev p c l := by
    intro rev os hos l
    induction os with
    | nil => simp
    | cons o os ih =>
      rw [List.cons_append, outgoing_cons (hos o List.mem_cons_self), Table.total_cons,
        ih fun o ho => hos o (List.mem_cons_of_mem _ ho)]
      omega
  have hrefunds : d'.refundedOut p c = total (Outflow.clears p c) rs + d.refundedOut p c := by
    simp only [Db.refundedOut, reversed_same hj hl, hr]
    refine hnew (fun o ho => ?_) _
    rw [← Bool.not_eq_true]
    intro hrev
    simpa [Db.reversible, hrs o ho] using hd.reversible hrev
  have hpayouts : d'.paidOut p c = total (Outflow.clears p c) xs + d.paidOut p c := by
    simp only [Db.paidOut, reversed_same hj hl, hx]
    refine hnew (fun o ho => ?_) _
    rw [← Bool.not_eq_true]
    intro hrev
    simpa [Db.reversible, hxs o ho] using hd.reversible hrev
  have hbal := balance_of_append hj (.providerClearing p c)
  simp only [Db.unexplained]
  omega

/-- A commit that posts nothing. -/
theorem unexplained_same (hd : Consistent d) (hj : d'.journals = d.journals)
    (hi : d'.clearedIn p c = d.clearedIn p c)
    (hr : d'.refunds.map Refund.outflow = d.refunds.map Refund.outflow)
    (hx : d'.payouts.map Payout.outflow = d.payouts.map Payout.outflow) :
    d'.unexplained p c = d.unexplained p c := by
  refine unexplained_append [] [] [] hd hj ?_ hr hx ?_ ?_ ?_
  · simp
  · simp
  · simp
  · simp [hi]

theorem outflow_referRefund (d : Db) (id : RefundId) (reference : String) :
    (d.referRefund id reference).refunds.map Refund.outflow = d.refunds.map Refund.outflow :=
  Table.map_modify fun _ => rfl

theorem outflow_finishRefund (d : Db) (id : RefundId) (s : TransferStatus) :
    (d.finishRefund id s).refunds.map Refund.outflow = d.refunds.map Refund.outflow :=
  Table.map_modify fun _ => rfl

theorem clearedIn_failIntent (hd : Consistent d) {i : PaymentIntent} (hi : d.intent? i.id = some i)
    (hs : i.status ≠ .captured) : (d.failIntent i.id).clearedIn p c = d.clearedIn p c := by
  have hsum := Table.total_modify (w := PaymentIntent.clears p c) (f := fun i =>
    { i with status := .failed }) hd.keyed.intents hi
  simp only [PaymentIntent.clears, hs, false_and, if_false] at hsum
  simp only [Db.clearedIn, Db.failIntent]
  simpa [PaymentIntent.clears] using hsum

theorem clearedIn_captureIntent (hd : Consistent d) {i : PaymentIntent}
    (hi : d.intent? i.id = some i) (hs : i.status ≠ .captured) :
    (d.captureIntent i.id).clearedIn p c =
      d.clearedIn p c + if i.provider = p ∧ i.currency = c then i.amountMinor else 0 := by
  have hsum := Table.total_modify (w := PaymentIntent.clears p c) (f := fun i =>
    { i with status := .captured, capturedAt := some d.clock }) hd.keyed.intents hi
  have hbefore : i.clears p c = 0 := by simp [PaymentIntent.clears, hs]
  rw [hbefore, Int.add_zero] at hsum
  simpa [Db.clearedIn, Db.captureIntent, PaymentIntent.clears] using hsum

/-- A refund is reversed. -/
theorem unexplained_refund (hd : Consistent d) {r : Refund} (hrow : d.refund? r.id = some r)
    (hnew : (d.journal? r.reversalJournal.key).isSome = false)
    (hj : d'.journals = r.reversalJournal :: d.journals)
    (hi : d'.clearedIn p c = d.clearedIn p c)
    (hr : d'.refunds.map Refund.outflow = d.refunds.map Refund.outflow)
    (hx : d'.payouts.map Payout.outflow = d.payouts.map Payout.outflow) :
    d'.unexplained p c = d.unexplained p c := by
  have hrev : ∀ x, d'.reversed x = (decide (.refund r.id = x) || d.reversed x) := fun x => by
    rw [reversed_append (l := [_]) hj]
    simp [Refund.reversalJournal]
  have hrefunds : d'.refundedOut p c + r.outflow.clears p c = d.refundedOut p c := by
    rw [Db.refundedOut, Db.refundedOut, hr]
    refine outgoing_reverse ?_ (List.mem_map_of_mem (Table.get_mem hrow)) hnew fun id => ?_
    · rw [List.map_map]
      exact hd.keyed.refunds
    · by_cases hid : id = r.id
      · simp [hrev, Refund.outflow, hid]
      · simp [hrev, Refund.outflow, hid, Ne.symm hid]
  have hpayouts : d'.paidOut p c = d.paidOut p c := by
    simp [Db.paidOut, hx, hrev]
  have hbal := balance_of_append (l := [_]) hj (.providerClearing p c)
  simp only [List.flatMap_cons, List.flatMap_nil, List.append_nil, Refund.reversalJournal,
    clearing_refund_reversal] at hbal
  simp only [Db.unexplained]
  omega

/-- A payout is reversed. -/
theorem unexplained_payout (hd : Consistent d) {x : Payout} (hrow : d.payout? x.id = some x)
    (hnew : (d.journal? x.reversalJournal.key).isSome = false)
    (hj : d'.journals = x.reversalJournal :: d.journals)
    (hi : d'.clearedIn p c = d.clearedIn p c)
    (hr : d'.refunds.map Refund.outflow = d.refunds.map Refund.outflow)
    (hx : d'.payouts.map Payout.outflow = d.payouts.map Payout.outflow) :
    d'.unexplained p c = d.unexplained p c := by
  have hrev : ∀ y, d'.reversed y = (decide (.payout x.id = y) || d.reversed y) := fun y => by
    rw [reversed_append (l := [_]) hj]
    simp [Payout.reversalJournal]
  have hrefunds : d'.refundedOut p c = d.refundedOut p c := by
    simp [Db.refundedOut, hr, hrev]
  have hpayouts : d'.paidOut p c + x.outflow.clears p c = d.paidOut p c := by
    rw [Db.paidOut, Db.paidOut, hx]
    refine outgoing_reverse ?_ (List.mem_map_of_mem (Table.get_mem hrow)) hnew fun id => ?_
    · rw [List.map_map]
      exact hd.keyed.payouts
    · by_cases hid : id = x.id
      · simp [hrev, Payout.outflow, hid]
      · simp [hrev, Payout.outflow, hid, Ne.symm hid]
  have hbal := balance_of_append (l := [_]) hj (.providerClearing p c)
  simp only [List.flatMap_cons, List.flatMap_nil, List.append_nil, Payout.reversalJournal,
    clearing_payout_reversal] at hbal
  simp only [Db.unexplained]
  omega

/-- A capture is debited to the account, and its payment counts from then on. -/
theorem Committed.unexplained_webhook {k : EventKey} {captured : Option IntentId}
    (h : Committed R e (.webhookProcessed k captured) d d') :
    d'.unexplained p c = d.unexplained p c := by
  have hd := h.inv
  have heff := h.effect
  cases heff with
  | webhookIgnored ev => exact unexplained_same hd rfl rfl rfl rfl
  | webhookFailed ev i fresh intent status =>
    exact unexplained_same hd rfl (clearedIn_failIntent hd intent status) rfl rfl
  | webhookCaptured ev i m oe f mv n pre fresh intent status =>
    obtain ⟨_, _, rfl⟩ := pre
    generalize hd' : Db.enqueue n _ = d' at h ⊢
    have hin : d'.clearedIn p c = (d.captureIntent i.id).clearedIn p c := by
      subst hd'
      cases oe <;> cases mv <;> rfl
    refine unexplained_append [⟨⟨.milestoneFund, .paymentIntent i.id⟩, none,
      fundEntries i m⟩] [] [] hd ?_ (by simp) ?_ ?_ (by simp) (by simp) ?_
    · subst hd'
      cases oe <;> cases mv <;> rfl
    · subst hd'
      cases oe <;> cases mv <;> rfl
    · subst hd'
      cases oe <;> cases mv <;> rfl
    · rw [hin, clearedIn_captureIntent hd intent status]
      simp only [List.flatMap_cons, List.flatMap_nil, List.append_nil, clearing_fundEntries,
        Table.total_nil]
      split <;> omega

/-- A reservation is credited to the account, and its refund counts from then on. -/
theorem Committed.unexplained_refundReserved {k : RefundId}
    (h : Committed R e (.refundReserved k) d d') : d'.unexplained p c = d.unexplained p c := by
  have heff := h.effect
  cases heff with
  | refundReserved pre r m fresh =>
    obtain ⟨_, _, rfl⟩ := pre
    refine unexplained_append [_] [r.outflow] [] h.inv rfl ?_ rfl rfl ?_ (by simp) ?_
    · simp [Refund.reservationJournal, Refund.reservationKey]
    · simpa [Refund.outflow] using fresh
    · simp only [List.flatMap_cons, List.flatMap_nil, List.append_nil, Refund.reservationJournal,
        clearing_refund_reservation, Table.total_cons, Table.total_nil, Int.add_zero]
      exact Int.add_comm _ _

theorem Committed.unexplained_payoutReserved {k : PayoutId}
    (h : Committed R e (.payoutReserved k) d d') : d'.unexplained p c = d.unexplained p c := by
  have heff := h.effect
  cases heff with
  | payoutReserved pre x fresh =>
    obtain ⟨_, _, rfl⟩ := pre
    refine unexplained_append [_] [] [x.outflow] h.inv rfl ?_ rfl rfl (by simp) ?_ ?_
    · simp [Payout.reservationJournal, Payout.reservationKey]
    · simpa [Payout.outflow] using fresh
    · simp only [List.flatMap_cons, List.flatMap_nil, List.append_nil, Payout.reservationJournal,
        clearing_payout_reservation, Table.total_cons, Table.total_nil, Int.add_zero]
      exact Int.add_comm _ _

theorem Committed.unexplained_refundFailed {k : RefundId}
    (h : Committed R e (.refundFailed k) d d') : d'.unexplained p c = d.unexplained p c := by
  have hd := h.inv
  have heff := h.effect
  cases heff with
  | refundFailed pre s resp r reference post refund status operation posted reserved =>
    obtain ⟨_, _, rfl⟩ := pre
    have hcolumns : ((whenSome (Db.referRefund r.id) reference d).finishRefund r.id
        .failed).refunds.map Refund.outflow = d.refunds.map Refund.outflow := by
      refine (outflow_finishRefund _ r.id .failed).trans ?_
      cases reference with
      | none => rfl
      | some reference => exact outflow_referRefund d r.id reference
    cases post with
    | false =>
      refine unexplained_same hd ?_ ?_ (Eq.trans ?_ hcolumns) ?_ <;> cases reference <;> rfl
    | true =>
      refine unexplained_refund hd refund (by simpa using posted) ?_ ?_
        (Eq.trans ?_ hcolumns) ?_ <;>
        cases reference <;> rfl

/-- A refund that a commit adds is in the currency of its milestone. -/
theorem Committed.currency_of_new (h : Committed R e point d d') {r : Refund} {m : Milestone}
    (hr : r ∈ d'.refunds) (hm : d.milestone? m.id = some m) (same : r.milestone = m.id) :
    r.currency = m.currency := by
  obtain ⟨m₁, hm₁, hcur⟩ := (h.inv'.refunds _ hr).milestone
  obtain ⟨m₀, hm₀, ⟨_, _, rfl⟩, -⟩ := h.frame.milestones.keep m.id m hm
  rw [same] at hm₁
  obtain rfl := Option.some.inj (hm₁.symm.trans hm₀)
  exact hcur

/-- A resolution credits what it refunds, if anything. -/
theorem Committed.unexplained_resolution {k : DisputeId}
    (h : Committed R e (.disputeResolved k) d d') : d'.unexplained p c = d.unexplained p c := by
  have hd := h.inv
  have heff := h.effect
  cases heff with
  | disputeResolved pre s resp x m ct esc award refundMinor provider or v dec ev users
      eventType title body dispute review undecided milestone same disputed contract escrow
      funded split refund =>
    obtain ⟨_, _, rfl⟩ := pre
    rw [(notified_eq _ _ _ _ _ _).choose_spec] at h ⊢
    generalize hd' : Db.completeRecord s resp _ = d' at h ⊢
    have hj : d'.journals = [⟨⟨.disputeResolution, .dispute x.id⟩, none,
        resolutionEntries m m.amountMinor ct.freelancer (award - commissionOf award esc)
          (commissionOf award esc) provider refundMinor⟩] ++ d.journals := by
      subst hd'
      cases or <;> rfl
    have hin : d'.clearedIn p c = d.clearedIn p c := by
      subst hd'
      cases or <;> rfl
    have hx : d'.payouts.map Payout.outflow = [] ++ d.payouts.map Payout.outflow := by
      subst hd'
      cases or <;> rfl
    rcases refund with ⟨rfl, rfl⟩ | ⟨r, rfl, hpos, hm, rfl, rfl, hs, hop, hfresh, hpaid⟩
    · refine unexplained_append _ [] [] hd hj (by simp) ?_ hx (by simp) (by simp) ?_
      · subst hd'
        rfl
      · simp [hin]
    · have hcur : r.currency = m.currency := by
        refine h.currency_of_new (r := { r with createdAt := d.clock }) ?_ milestone hm
        subst hd'
        exact List.mem_cons_self
      refine unexplained_append _ [r.outflow] [] hd hj (by simp) ?_ hx ?_ (by simp) ?_
      · subst hd'
        rfl
      · simpa [Refund.outflow] using hfresh
      · simp [hin, Outflow.clears, Refund.outflow, hcur, Int.add_comm]

/-- **A commit moves the account by what it does to the rows.** -/
theorem Committed.unexplained (h : Committed R e point d d') :
    d'.unexplained p c = d.unexplained p c := by
  have hd := h.inv
  have heff := h.effect
  cases heff with
  | replayed pre s r =>
    obtain ⟨_, _, rfl⟩ := pre
    exact unexplained_same hd rfl rfl rfl rfl
  | fundingStarted pre s r i m fresh status =>
    obtain ⟨_, _, rfl⟩ := pre
    refine unexplained_same hd rfl ?_ rfl rfl
    simp [Db.clearedIn, Db.completeRecord, Db.addIntent, PaymentIntent.clears, status]
  | webhookIgnored ev => exact h.unexplained_webhook
  | webhookFailed ev i => exact h.unexplained_webhook
  | webhookCaptured ev i m oe f mv n => exact h.unexplained_webhook
  | released pre s r m ct x v v' =>
    obtain ⟨_, _, rfl⟩ := pre
    refine unexplained_append [_] [] [] hd rfl (by simp) rfl rfl (by simp) (by simp) ?_
    simp
    rfl
  | refundReserved pre r m => exact h.unexplained_refundReserved
  | refundPending pre r reference =>
    obtain ⟨_, _, rfl⟩ := pre
    exact unexplained_same hd rfl rfl (outflow_referRefund d r.id reference) rfl
  | refundSucceeded pre s resp r m v reference =>
    obtain ⟨_, _, rfl⟩ := pre
    refine unexplained_same hd rfl rfl ?_ rfl
    exact (outflow_finishRefund _ r.id .succeeded).trans (outflow_referRefund d r.id reference)
  | refundFailed pre s resp r => exact h.unexplained_refundFailed
  | milestoneMoved m v action => exact unexplained_same hd rfl rfl rfl rfl
  | contractCancelled ct => exact unexplained_same hd rfl rfl rfl rfl
  | disputeOpened x m v ev users eventType title body =>
    obtain ⟨o, ho⟩ := notified_eq x.id users eventType title body
      (.addDisputeEvent x.id ev <| .moveMilestone m.id v <| .addDispute x d)
    rw [ho]
    exact unexplained_same hd rfl rfl rfl rfl
  | disputeMoved x target ev => exact unexplained_same hd rfl rfl rfl rfl
  | disputeResolved pre s resp x => exact h.unexplained_resolution
  | payoutReserved pre x => exact h.unexplained_payoutReserved
  | payoutUpgraded pre x y =>
    obtain ⟨_, _, rfl⟩ := pre
    exact unexplained_same hd rfl rfl rfl (Table.map_modify fun _ => rfl)
  | payoutSucceeded pre s resp x reference =>
    obtain ⟨_, _, rfl⟩ := pre
    exact unexplained_same hd rfl rfl rfl (Table.map_modify fun _ => rfl)
  | payoutFailed pre s resp x post payout status posted =>
    obtain ⟨_, _, rfl⟩ := pre
    cases post with
    | false => exact unexplained_same hd rfl rfl rfl (Table.map_modify fun _ => rfl)
    | true =>
      refine unexplained_payout hd payout (by simpa using posted) rfl rfl rfl ?_
      exact Table.map_modify fun _ => rfl

end

/-! ## Runs -/

/-- **The clearing accounts show what the rows say.** -/
theorem clearing_agrees {mode : Txn.Mode} {cfg : Config} {d : Db} {e : Providers}
    {ops : Nat → Operation} {s : System} (hd : Activated d)
    (hr : Reaches mode (system cfg d e ops) s) (p : Provider) (c : Currency) :
    s.db.balance (.providerClearing p c) + s.db.clearedIn p c =
      s.db.refundedOut p c + s.db.paidOut p c := by
  have hinv := invariant_of_run (R := anyRules mode) (P := fun d _ => d.unexplained p c = 0)
    hd.consistent (fun i => (ops i).keyed_any) hr
    (fun _ _ _ _ _ _ hc hP => hc.unexplained.trans hP) (fun _ _ _ _ _ _ _ _ _ hP => hP) ?_
  · simp only [Db.unexplained] at hinv
    omega
  · rw [hd.empty]
    rfl

/-- The milestone's payment is captured and paid out, and the payout is reversed. -/
theorem clearing_agrees_of_reversal : ∃ s : System,
    s.db.reversed (.payout 1) = true ∧ s.db.clearedIn "sandbox" "USD" = 100 ∧
    s.db.balance (.providerClearing "sandbox" "USD") + s.db.clearedIn "sandbox" "USD" =
      s.db.refundedOut "sandbox" "USD" + s.db.paidOut "sandbox" "USD" := by
  obtain ⟨s, hr, hp⟩ := Sys.exists_free_run .readCommitted
    (system sandboxConfig oneMilestone noTransfers payingOps)
    (releasedRun ++ goes 6 15 ++ (6, .answer .failed noTransfers) :: goes 6 12)
    (fun s => s.db.reversed (.payout 1) && decide (s.db.clearedIn "sandbox" "USD" = 100))
    (by decide +kernel)
  obtain ⟨hreversed, hin⟩ := Bool.and_eq_true_iff.1 hp
  exact ⟨s, hreversed, of_decide_eq_true hin, clearing_agrees oneMilestone_activated hr _ _⟩

end Money
