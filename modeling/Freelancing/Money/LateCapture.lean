import Freelancing.Money.WebhookOrder
import Freelancing.Money.EscrowBacking

/-!
# Captures are accepted

A pending payment finds room in the escrow of its milestone (`Room`), so that the capture which its
provider reports is accepted (`captures_accepted`), as long as the capture of a payment that was
marked as failed comes in while its milestone is not funded and has no other payment open. A late
capture that fills the escrow before the open payment strands that one (`captures_not_accepted`).
-/

namespace Money

open Txn (Sys)
open Txn.Sys (goes)

variable {R : Rules} {d d' : Db} {e : Providers} {c : CommitPoint}

/-! ## What a commit leaves pending -/

/-- A payment that is pending was so before, or it has just been started. -/
theorem IntentEffect.pending_before (h : IntentEffect R d d' c) {k : IntentId} {i : PaymentIntent}
    (hi : d'.intent? k = some i) (hp : i.status = .pending) :
    (d.intent? k = some i ∧ ∀ x, c ≠ .webhookProcessed x (some k)) ∨
      ∃ m, c = .fundingStarted k ∧ d.milestone? i.milestone = some m ∧ m.status = .created ∧
        (R.Serial → d.pendingIntent? m.id = none) := by
  unfold Db.intent? at hi ⊢
  cases h with
  | untouched c rows other => exact .inl ⟨by rw [← rows]; exact hi, fun x => other x k⟩
  | started i₁ m fresh status milestone amount active rows open_ only =>
    rw [rows, Table.get_cons] at hi
    split at hi
    · rename_i hk
      cases hi
      exact .inr ⟨m, by rw [hk], milestone, open_, only⟩
    · exact .inl ⟨hi, (by simp)⟩
  | failed x i₁ intent status rows =>
    change Table.get PaymentIntent.id k d'.intents = some i at hi
    rw [rows] at hi
    have hrow := Db.intent?_failIntent d i₁.id k
    rw [show (d.failIntent i₁.id).intent? k = some i from hi] at hrow
    obtain ⟨j, hj, hji⟩ := Option.map_eq_some_iff.1 hrow.symm
    split at hji
    · subst hji
      cases hp
    · exact .inl ⟨hji ▸ hj, (by simp)⟩
  | captured x i₁ m intent status milestone same active clock rows =>
    rw [rows] at hi
    have hrow := Db.intent?_captureIntent d i₁.id k
    rw [show (d.captureIntent i₁.id).intent? k = some i from hi] at hrow
    obtain ⟨j, hj, hji⟩ := Option.map_eq_some_iff.1 hrow.symm
    split at hji
    · subst hji
      cases hp
    · rename_i hk
      refine .inl ⟨hji ▸ hj, fun x' hx => hk ?_⟩
      cases hx
      rfl

/-- A refund is reserved from the escrow of a funded milestone, which it empties. -/
theorem Effect.refund_reserved {k : RefundId} (h : Effect R e (.refundReserved k) d d')
    (hser : R.Serial) {r : Refund} (hr : d'.refund? k = some r) : ∃ m,
      d'.milestone? r.milestone = some m ∧ d.milestone? r.milestone = some m ∧
      m.status = .funded ∧ 0 < d.balance m.escrowKey ∧ d'.balance m.escrowKey = 0 ∧
      ∀ k', k' ≠ k → d'.refund? k' = d.refund? k' := by
  cases h with
  | refundReserved pre r m fresh status positive operation milestone same currency funded all =>
    obtain ⟨_, _, rfl⟩ := pre
    rw [Db.refund?_addRefund, if_pos rfl] at hr
    cases hr
    rw [← same] at milestone
    have hall := all hser
    refine ⟨m, milestone, milestone, funded, by omega, ?_, fun k' hk => ?_⟩
    · change (Db.addJournal r.reservationJournal d).balance m.escrowKey = 0
      rw [Db.balance_addJournal, Milestone.escrowKey, ← same, ← currency]
      simp only [Refund.reservationJournal, balance_refund_reservation, and_self, if_true]
      rw [hall, Milestone.escrowKey, same, currency]
      omega
    · rw [Db.refund?_addRefund, if_neg (Ne.symm hk)]
      rfl

/-- A refund that has ended is not pending. -/
theorem Effect.refund_ended {k : RefundId} (h : Effect R e c d d')
    (hc : c = .refundSucceeded k ∨ c = .refundFailed k) {r : Refund}
    (hr : d'.refund? k = some r) : r.status ≠ .pending := by
  have hfinish : ∀ (x : Db) (s : TransferStatus), s ≠ .pending →
      (x.finishRefund k s).refund? k = some r → r.status ≠ .pending := by
    intro x s hs hx
    rw [Db.refund?_finishRefund] at hx
    obtain ⟨y, -, hy⟩ := Option.map_eq_some_iff.1 hx
    rw [if_pos rfl] at hy
    rw [← hy]
    exact hs
  rcases hc with rfl | rfl
  · cases h with
    | refundSucceeded pre s resp x m v reference => exact hfinish _ .succeeded nofun hr
  · cases h with
    | refundFailed pre s resp x reference post => exact hfinish _ .failed nofun hr

/-- A refund that is pending was so before, or it has just been reserved. -/
theorem Effect.pending_refund (h : Effect R e c d d') {k : RefundId} {r : Refund}
    (hr : d'.refund? k = some r) (hp : r.status = .pending) :
    (∃ r₀, d.refund? k = some r₀ ∧ r₀.status = .pending ∧ r₀.milestone = r.milestone) ∨
      c = .refundReserved k := by
  have hended := fun hc => h.refund_ended hc hr
  cases h.refund.move k with
  | same c row => exact .inl ⟨r, row ▸ hr, hp, rfl⟩
  | reserved x => exact .inr rfl
  | pending x reference before status row =>
    cases row.symm.trans hr
    exact .inl ⟨x, before, hp, rfl⟩
  | succeeded => exact absurd hp (hended (.inl rfl))
  | failed => exact absurd hp (hended (.inr rfl))
  | sentBack x y id fresh status operation row =>
    cases row.symm.trans hr
    rw [status] at hp
    cases hp

/-! ## The invariant -/

/-- The capture of a payment that was marked as failed finds its milestone not funded, and no other
payment of it open. -/
def lateCapturesFit : Move → Bool
  | .stmt _ (.commit (.webhookProcessed _ (some k))) d _ _ => (d.intent? k).all fun i =>
    i.status = .pending || (d.milestone? i.milestone).all (fun m => m.status = .created) &&
      (d.pendingIntent? i.milestone).isNone
  | _ => true

/-- What is pending for a milestone, and the room in its escrow. -/
structure Room (d : Db) : Prop where
  payment : ∀ k i, d.intent? k = some i → i.status = .pending →
    ∀ m, d.milestone? i.milestone = some m → m.status = .created
  onePayment : ∀ k k' i i', d.intent? k = some i → d.intent? k' = some i' → i.status = .pending →
    i'.status = .pending → i.milestone = i'.milestone → k = k'
  empty : ∀ k m, d.milestone? k = some m → m.status = .created → d.balance m.escrowKey = 0
  refund : ∀ k r, d.refund? k = some r → r.status = .pending →
    ∀ m, d.milestone? r.milestone = some m → m.status ≠ .created ∧ d.balance m.escrowKey = 0
  oneRefund : ∀ k k' r r', d.refund? k = some r → d.refund? k' = some r' → r.status = .pending →
    r'.status = .pending → r.milestone = r'.milestone → k = k'

theorem pendingIntent?_none {k : IntentId} {i : PaymentIntent} {m : MilestoneId}
    (hi : d.intent? k = some i) (hp : i.status = .pending) (hm : i.milestone = m) :
    d.pendingIntent? m ≠ none := by
  intro hn
  have := List.find?_eq_none.1 hn i (Table.get_mem hi)
  simp [hp, hm] at this

/-- What the run's condition and the invariant say of a payment that is captured. -/
theorem Room.captured (hb : Room d) {x : EventKey} {i : PaymentIntent} {m : Milestone} {n : Nat}
    {view : Db} (hi : d.intent? i.id = some i) (hm : d.milestone? i.milestone = some m)
    (hok : lateCapturesFit (.stmt n (.commit (.webhookProcessed x (some i.id))) d view e) = true) :
    m.status = .created ∧ ∀ k j, d.intent? k = some j → j.status = .pending →
      j.milestone = i.milestone → k = i.id := by
  simp only [lateCapturesFit, hi, Option.all_some, Bool.or_eq_true, decide_eq_true_eq,
    Bool.and_eq_true, hm, Option.isNone_iff_eq_none] at hok
  rcases hok with hp | ⟨hc, hn⟩
  · exact ⟨hb.payment _ i hi hp m hm, fun k j hj hjp hjm => hb.onePayment _ _ _ _ hj hi hjp hp hjm⟩
  · exact ⟨hc, fun k j hj hjp hjm => absurd hn (pendingIntent?_none hj hjp hjm)⟩

/-- Only a capture moves a milestone that is not funded. -/
theorem Committed.created_stays (h : Committed R e c d d') {k : MilestoneId} {m : Milestone}
    (hm : d.milestone? k = some m) (hs : m.status = .created)
    (hc : ∀ x i, c ≠ .webhookProcessed x (some i)) : d'.milestone? k = some m := by
  rcases h.effect.life h.inv with hu | ⟨m₁, s, evs, n, ht, he⟩
  · rw [hu.rows, hm]
  by_cases hk : k = m₁.id
  · subst hk
    cases ht.row.symm.trans hm
    have hrow := ht.row'
    generalize hl : evs.map MilestoneEvent.step = l at he
    cases he with
    | captured x i => exact absurd rfl (hc x i.id)
    | released status => rw [hs] at status; cases status
    | refundReserved r status => rw [hs] at status; cases status
    | refundSucceeded r status => rw [hs] at status; cases status
    | refundFailed r =>
      rw [List.map_eq_nil_iff.1 hl, List.append_nil] at hrow
      exact hrow
    | moved action allowed => rw [hs] at allowed; cases action <;> simp [userTransitions] at allowed
    | disputed open_ => simp [hs, openableMilestoneStates] at open_
    | resolved x status => rw [hs] at status; cases status
  · rw [ht.others k hk, hm]

/-- A capture touches the milestone of its payment only. -/
theorem Committed.captured_other (h : Committed R e c d d') {x : EventKey} {i : PaymentIntent}
    (hc : c = .webhookProcessed x (some i.id)) (hi : d.intent? i.id = some i) {k : MilestoneId}
    (hk : k ≠ i.milestone) : d'.milestone? k = d.milestone? k := by
  rcases h.effect.life h.inv with hu | ⟨m₁, s, evs, n, ht, he⟩
  · exact hu.rows k
  refine ht.others k fun hkm => hk ?_
  generalize evs.map MilestoneEvent.step = l at he
  cases he with
  | captured y j l s intent same =>
    simp only [CommitPoint.webhookProcessed.injEq, Option.some.injEq] at hc
    rw [hc.2, hi] at intent
    cases intent
    exact hkm.trans same.symm
  | _ => cases hc

/-- **A commit leaves a pending payment's milestone unfunded.** -/
theorem Committed.room_payment (h : Committed R e c d d') {n : Nat}
    (hok : lateCapturesFit (.stmt n (.commit c) d d' e) = true) (hb : Room d) {k : IntentId}
    {i : PaymentIntent} (hi : d'.intent? k = some i) (hp : i.status = .pending) {m : Milestone}
    (hm : d'.milestone? i.milestone = some m) : m.status = .created := by
  rcases h.effect.intents.pending_before hi hp with ⟨hi₀, hother⟩ | ⟨m₀, rfl, hm₀, hs, -⟩
  · obtain ⟨m₀, hm₀, -⟩ := h.milestone_before hm
    have hs := hb.payment k i hi₀ hp m₀ hm₀
    by_cases hc : ∃ x j, c = .webhookProcessed x (some j)
    · obtain ⟨x, j, rfl⟩ := hc
      have hint := h.effect.intents
      cases hint with
      | untouched _ _ other => exact absurd rfl (other x j)
      | captured _ i₁ m₁ intent =>
        obtain ⟨m₂, hm₂, -⟩ := (h.inv.intents i₁ (Table.get_mem intent)).milestone
        have hone := (hb.captured intent hm₂ hok).2 k i hi₀ hp
        have hne : i.milestone ≠ i₁.milestone := fun he => hother x (by rw [hone he])
        rw [h.captured_other rfl intent hne, hm₀] at hm
        cases hm
        exact hs
    · have hstay := h.created_stays hm₀ hs fun x j hx => hc ⟨x, j, hx⟩
      cases hstay.symm.trans hm
      exact hs
  · cases (h.created_stays hm₀ hs nofun).symm.trans hm
    exact hs

theorem Committed.room_onePayment (hR : R.Serial) (h : Committed R e c d d') (hb : Room d)
    {k k' : IntentId} {i i' : PaymentIntent} (hi : d'.intent? k = some i)
    (hi' : d'.intent? k' = some i') (hp : i.status = .pending) (hp' : i'.status = .pending)
    (hm : i.milestone = i'.milestone) : k = k' := by
  rcases h.effect.intents.pending_before hi hp with ⟨hi₀, -⟩ | ⟨m, hc, hm₀, -, hone⟩ <;>
    rcases h.effect.intents.pending_before hi' hp' with ⟨hi₀', -⟩ | ⟨m', hc', hm₀', -, hone'⟩
  · exact hb.onePayment k k' i i' hi₀ hi₀' hp hp' hm
  · exact absurd (hone' hR) (pendingIntent?_none hi₀ hp (hm.trans (Table.get_key hm₀').symm))
  · exact absurd (hone hR) (pendingIntent?_none hi₀' hp' (hm.symm.trans (Table.get_key hm₀).symm))
  · rw [hc] at hc'
    cases hc'
    rfl

theorem Consistent.intent_amount (hd : Consistent d) {i : PaymentIntent} {m : Milestone}
    (hi : d.intent? i.id = some i) (hm : d.milestone? m.id = some m) (hs : i.milestone = m.id) :
    i.amountMinor = m.amountMinor := by
  obtain ⟨m', hm', ha, -⟩ := (hd.intents i (Table.get_mem hi)).milestone
  rw [hs, hm] at hm'
  cases hm'
  exact ha

/-- **A milestone that is not funded has an empty escrow.** -/
theorem Committed.room_empty (hR : R.Serial) (h : Committed R e c d d') (hb : Room d) :
    ∀ k m, d'.milestone? k = some m → m.status = .created → d'.balance m.escrowKey = 0 := by
  have hf : R.RefundsFresh := .inl hR
  refine h.effect.each (P := fun d m => m.status = .created → d.balance m.escrowKey = 0) h.inv
    (fun m hbal _ hm hs => by rw [hbal]; exact hm hs) ?_ hb.empty
  intro m s evs n ht he hm hs
  have hbal := ht.balance
  change d'.balance m.escrowKey = 0
  change s = .created at hs
  generalize evs.map MilestoneEvent.step = l at he
  cases he with
  | captured x i l s intent same open_ status fits escrow active stays =>
    rcases status with ⟨rfl, rfl⟩ | ⟨-, -, rfl⟩
    · rcases stays rfl with hfunded | hne
      · rw [hs] at hfunded
        cases hfunded
      · have := hm hs
        have := h.inv.intent_amount intent ht.row same
        exact absurd (by omega) (hne hR)
    · cases hs
  | released => cases hs
  | refundReserved r status =>
    rw [status] at hs
    cases hs
  | refundSucceeded r status refund =>
    obtain ⟨y, hy, hym, hyp⟩ := refund
    have := (hb.refund r y hy (hyp hf) m (by rw [hym]; exact ht.row)).2
    omega
  | refundFailed r post refund same status =>
    exact absurd hs (hb.refund r.id r refund (status hf) m (by rw [same]; exact ht.row)).1
  | moved action => cases action <;> cases hs
  | disputed => cases hs
  | resolved => cases hs

/-- **A refund that is pending has emptied the escrow.** -/
theorem Committed.room_refund (hR : R.Serial) (h : Committed R e c d d') {i : Nat}
    (hok : lateCapturesFit (.stmt i (.commit c) d d' e) = true) (hb : Room d) {k : RefundId}
    {r : Refund} (hr : d'.refund? k = some r) (hp : r.status = .pending) {m : Milestone}
    (hm : d'.milestone? r.milestone = some m) :
    m.status ≠ .created ∧ d'.balance m.escrowKey = 0 := by
  have hf : R.RefundsFresh := .inl hR
  have hended := fun hc => h.effect.refund_ended hc hr
  rcases h.effect.pending_refund hr hp with ⟨r₀, hr₀, hp₀, hrm⟩ | rfl
  · -- it was pending before
    have hold : ∀ m₀, d.milestone? r.milestone = some m₀ →
        m₀.status ≠ .created ∧ d.balance m₀.escrowKey = 0 := fun m₀ hm₀ =>
      hb.refund k r₀ hr₀ hp₀ m₀ (hrm ▸ hm₀)
    rcases h.effect.life h.inv with hu | ⟨m₁, s, evs, n, ht, he⟩
    · rw [hu.rows] at hm
      rw [Milestone.escrowKey, hu.balances]
      exact hold m hm
    by_cases hk : r.milestone = m₁.id
    swap
    · rw [ht.others _ hk] at hm
      rw [Milestone.escrowKey, ht.balances _ _ (by rw [Table.get_key hm]; exact hk)]
      exact hold m hm
    rw [hk] at hm
    cases ht.row'.symm.trans hm
    obtain ⟨hs, hz⟩ := hold m₁ (by rw [hk]; exact ht.row)
    have hbal := ht.balance
    change s ≠ .created ∧ d'.balance m₁.escrowKey = 0
    have hmine : ∀ r' x, d.refund? r' = some x → x.milestone = m₁.id → x.status = .pending →
        r' = k := fun r' x hx hxm hxp => hb.oneRefund _ _ _ _ hx hr₀ hxp hp₀ (by
          rw [hxm, hrm, hk])
    generalize evs.map MilestoneEvent.step = l at he
    cases he with
    | captured x j l s intent same =>
      have hc := (hb.captured intent (by rw [same]; exact ht.row) hok).1
      exact absurd hc hs
    | released status funded =>
      have := funded hR
      exact ⟨(by simp), by omega⟩
    | refundReserved r' status all =>
      have := all hR
      exact ⟨hs, by omega⟩
    | refundSucceeded r' status refund =>
      obtain ⟨x, hx, hxm, hxp⟩ := refund
      obtain rfl := hmine _ x hx hxm (hxp hf)
      exact absurd hp (hended (.inl rfl))
    | refundFailed r' post refund same status =>
      obtain rfl := hmine _ r' refund same (status hf)
      exact absurd hp (hended (.inr rfl))
    | moved action => exact ⟨by cases action <;> simp [MilestoneAction.target], by omega⟩
    | disputed => exact ⟨(by simp), by omega⟩
    | resolved x status funded =>
      have := funded hR
      exact ⟨(by simp), by omega⟩
  · -- it has just been reserved
    obtain ⟨m₁, hm₁, -, hs, -, hz, -⟩ := h.effect.refund_reserved hR hr
    cases hm.symm.trans hm₁
    exact ⟨by simp [hs], hz⟩

theorem Committed.room_oneRefund (hR : R.Serial) (h : Committed R e c d d') (hb : Room d)
    {k k' : RefundId} {r r' : Refund} (hr : d'.refund? k = some r) (hr' : d'.refund? k' = some r')
    (hp : r.status = .pending) (hp' : r'.status = .pending) (hm : r.milestone = r'.milestone) :
    k = k' := by
  -- what is reserved was there, so nothing else was pending
  have hnew : ∀ {k k' : RefundId} {r r' x : Refund}, c = .refundReserved k →
      d'.refund? k = some r → d.refund? k' = some x → x.status = .pending →
      x.milestone = r'.milestone → r.milestone = r'.milestone → False := by
    rintro k k' r r' x rfl hr hx hxp hxm hm
    obtain ⟨m, -, hm₀, -, hpos, -⟩ := h.effect.refund_reserved hR hr
    have := (hb.refund k' x hx hxp m (by rw [hxm, ← hm]; exact hm₀)).2
    omega
  rcases h.effect.pending_refund hr hp with ⟨x, hx, hxp, hxm⟩ | hc <;>
    rcases h.effect.pending_refund hr' hp' with ⟨x', hx', hxp', hxm'⟩ | hc'
  · exact hb.oneRefund k k' x x' hx hx' hxp hxp' (by rw [hxm, hxm', hm])
  · exact (hnew hc' hr' hx hxp hxm hm.symm).elim
  · exact (hnew hc hr hx' hxp' hxm' hm).elim
  · rw [hc] at hc'
    cases hc'
    rfl

theorem Committed.room (hR : R.Serial) (h : Committed R e c d d') {i : Nat}
    (hok : lateCapturesFit (.stmt i (.commit c) d d' e) = true) (hb : Room d) : Room d' where
  payment _ _ hi hp _ hm := h.room_payment hok hb hi hp hm
  onePayment _ _ _ _ hi hi' hp hp' hm := h.room_onePayment hR hb hi hi' hp hp' hm
  empty := h.room_empty hR hb
  refund _ _ hr hp _ hm := h.room_refund hR hok hb hr hp hm
  oneRefund _ _ _ _ hr hr' hp hp' hm := h.room_oneRefund hR hb hr hr' hp hp' hm

/-! ## Runs -/

/-- A new `payment.captured` event of a provider that is served, for the payment `i` that is
pending, of an active contract. -/
structure ReportsPending (cfg : Config) (d : Db) (w : Delivery) (v : VerifiedWebhook)
    (i : PaymentIntent) : Prop where
  verified : w.verified = .ok v
  type : v.eventType = "payment.captured"
  provider : getProvider cfg w.providerName = pure i.provider
  fresh : d.event? ⟨i.provider, v.externalEventId⟩ = none
  reports : ∃ reference, Reports v.data reference i ∧
    d.intentOfReference? i.provider reference = some i
  referred : i.providerReference.isSome
  pending : i.status = .pending
  active : ∃ m c, d.milestone? i.milestone = some m ∧ d.contract? m.contract = some c ∧
    c.status = .active

/-- The contracts give a commission that a capture can read. -/
def CommissionsOk (d : Db) : Prop := ∀ k c, d.contract? k = some c → c.commission.bps?.isSome

theorem Committed.commissionsOk (h : Committed R e c d d') (hb : CommissionsOk d) :
    CommissionsOk d' := by
  intro k x hx
  rcases h.effect.contracts with hsame | ⟨y, -, rfl, -⟩
  · rw [Db.contract?, hsame] at hx
    exact hb k x hx
  · rw [Db.contract?_cancelContract] at hx
    obtain ⟨z, hz, hzx⟩ := Option.map_eq_some_iff.1 hx
    split at hzx
    · rw [← hzx]
      exact hb k z hz
    · rw [← hzx]
      exact hb k z hz

theorem Room.capturable (hb : Room d) (hd : Consistent d) (hc : CommissionsOk d) {cfg : Config}
    {w : Delivery} {v : VerifiedWebhook} {i : PaymentIntent} (h : ReportsPending cfg d w v i) :
    ∃ m c, Capturable d i m c := by
  obtain ⟨m, c, hm, hcon, hact⟩ := h.active
  obtain ⟨reference, -, hfind⟩ := h.reports
  have hi := hd.intent_of_find hfind
  have hs := hb.payment i.id i hi h.pending m hm
  have hamount := hd.intent_amount hi (Table.get_key hm ▸ hm) (Table.get_key hm).symm
  have hzero := hb.empty _ m hm hs
  exact ⟨m, c, hm, hcon, hact, .inl hs, h.referred, fun _ => hc _ c hcon, by omega⟩

variable {cfg : Config} {ops : Nat → Operation} {s : System}

/-- **The capture of a pending payment is accepted** and recorded in the ledger. -/
theorem captures_accepted (hd : Activated d) (hcom : CommissionsOk d)
    (hr : Sys.Run .serial (fun mv => lateCapturesFit mv = true) (system cfg d e ops) s) :
    ∀ answer w v i, ReportsPending cfg s.db w v i →
      (served cfg answer w s.db).result = .ok (processed ⟨i.provider, v.externalEventId⟩) ∧
      ((served cfg answer w s.db).db.intent? i.id).any (fun j => j.status = .captured) = true ∧
      ((served cfg answer w s.db).db.journal? i.fundKey).isSome := by
  let R := rules .serial lateCapturesFit
  have hk : ∀ i, (ops i).Keyed R.keys := fun i => keyed_rules _
  have hs : Consistent s.db := consistent_of_run (R := R) hd.consistent hk hr
  have hroom : Room s.db ∧ CommissionsOk s.db := by
    refine invariant_of_run (R := R) (P := fun d _ => Room d ∧ CommissionsOk d) hd.consistent hk hr
      (fun i c d d' e hok hc hP => ⟨hc.room serial_rules hok hP.1, hc.commissionsOk hP.2⟩)
      (fun _ _ _ _ _ _ _ _ _ hP => hP) ⟨?_, hcom⟩
    rw [hd.empty]
    exact
      { payment := fun _ _ h => by cases h
        onePayment := fun _ _ _ _ h => by cases h
        empty := fun _ _ _ _ => rfl
        refund := fun _ _ h => by cases h
        oneRefund := fun _ _ _ _ h => by cases h }
  intro answer w v i h
  obtain ⟨m, c, hcap⟩ := hroom.1.capturable hs hroom.2 h
  obtain ⟨reference, hrep, hfind⟩ := h.reports
  rcases served_captured answer h.provider h.verified h.type hs h.fresh hrep hfind with
    ⟨hst, -⟩ | ⟨-, ⟨hno, -⟩ | ⟨m', c', hcap', hserved⟩⟩
  · rw [h.pending] at hst
    cases hst
  · exact absurd hcap (hno m c)
  · rw [hserved]
    have hi : (s.db.addEvent (providerEvent i.provider v w.payloadHash)).intent? i.id = some i :=
      hs.intent_of_find hfind
    refine ⟨rfl, ?_, ?_⟩
    · dsimp only
      rw [intent?_capturedDb, hi]
      rfl
    · dsimp only
      rw [Db.journal?, journals_capturedDb, Table.get_cons, if_pos rfl]
      rfl

/-- `ReportsPending` of a capture over 100 USD of the sandbox, computed. -/
def reportsPending (d : Db) (eventId reference : String) : Bool :=
  (d.event? ⟨"sandbox", eventId⟩).isNone &&
    (d.intentOfReference? "sandbox" reference).any fun i =>
      i.provider = "sandbox" && i.providerReference.isSome && i.status = .pending &&
      i.amountMinor = 100 && i.currency = "USD" &&
      (d.milestone? i.milestone).any fun m => (d.contract? m.contract).any fun c =>
        c.status = .active

theorem reportsPending_sound {d : Db} {eventId reference : String} (hne : reference.isEmpty = false)
    (h : reportsPending d eventId reference = true) : ∃ v i,
      ReportsPending sandboxConfig d (captured100 eventId reference) v i := by
  unfold reportsPending at h
  simp only [Bool.and_eq_true, Option.isNone_iff_eq_none, Option.any_eq_true,
    decide_eq_true_eq] at h
  obtain ⟨hfresh, i, hi, ⟨⟨⟨⟨hprov, href⟩, hs⟩, hamount⟩, hcur⟩, m, hm, c, hc, hact⟩ := h
  refine ⟨_, i, rfl, rfl, ?_, ?_,
    ⟨reference, ⟨⟨rfl, hne⟩, by rw [hamount], "USD", rfl, rfl, ?_⟩, ?_⟩,
    href, hs, m, c, hm, hc, hact⟩
  · have hname : lower (strip "sandbox") = "sandbox" := by decide +kernel
    rw [hprov]
    simp [getProvider, captured100, sandboxConfig, hname]
  · rw [hprov]
    exact hfresh
  · rw [hcur]
    decide +kernel
  · rw [hprov]
    exact hi

theorem oneMilestone_commissionsOk : CommissionsOk oneMilestone := by
  intro k c hc
  have hm := Table.get_mem hc
  simp only [oneMilestone, List.mem_singleton] at hm
  subst hm
  rfl

/-- A second payment, after the first one has failed. -/
theorem captures_accepted_of_second : ∃ (s : System) (v : VerifiedWebhook) (i : PaymentIntent),
    ReportsPending sandboxConfig s.db (captured100 "e2" "p2") v i ∧
    (served sandboxConfig (fun _ => .failed) (captured100 "e2" "p2") s.db).result =
      .ok (processed ⟨i.provider, v.externalEventId⟩) := by
  obtain ⟨s, hr, hp⟩ := Sys.exists_run .serial
    (system sandboxConfig oneMilestone noTransfers lateCaptureOps) lateCapturesFit
    (goes 0 8 ++ answers100 0 "p1" "PENDING" :: goes 0 7 ++ goes 1 6 ++ goes 2 8 ++
      answers100 2 "p2" "PENDING" :: goes 2 7) (fun s => reportsPending s.db "e2" "p2")
    (by decide +kernel)
  obtain ⟨v, i, h⟩ := reportsPending_sound (by decide) hp
  exact ⟨s, v, i, h, (captures_accepted oneMilestone_activated oneMilestone_commissionsOk hr _ _ v i
    h).1⟩

/-- The first payment, marked as failed, is captured late and fills the escrow. -/
theorem captures_not_accepted : ¬ ∀ (cfg : Config) (d : Db) (e : Providers)
    (ops : Nat → Operation) (s : System), Activated d → CommissionsOk d →
      Reaches .serial (system cfg d e ops) s → ∀ answer w v i, ReportsPending cfg s.db w v i →
      ∃ r, (served cfg answer w s.db).result = .ok r := by
  intro h
  obtain ⟨s, hr, hp⟩ := Sys.exists_free_run .serial
    (system sandboxConfig oneMilestone noTransfers lateCaptureOps)
    (goes 0 8 ++ answers100 0 "p1" "PENDING" :: goes 0 7 ++ goes 1 6 ++ goes 2 8 ++
      answers100 2 "p2" "PENDING" :: goes 2 7 ++ goes 5 30)
    (fun s => reportsPending s.db "e2" "p2" && (match (served sandboxConfig (fun _ => .failed)
      (captured100 "e2" "p2") s.db).result with | .error _ => true | .ok _ => false))
    (by decide +kernel)
  obtain ⟨hp, hres⟩ := Bool.and_eq_true_iff.1 hp
  obtain ⟨v, i, hrep⟩ := reportsPending_sound (by decide) hp
  obtain ⟨r, hok⟩ := h _ _ _ _ s oneMilestone_activated oneMilestone_commissionsOk hr
    (fun _ => .failed) _ v i hrep
  rw [hok] at hres
  cases hres

end Money
