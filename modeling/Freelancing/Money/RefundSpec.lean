import Freelancing.Money.ReleaseSpec

/-!
# Obligations of refunds

A refund is reserved by one transaction and settled by another, which works on a copy of the
refund. `RefundCopy P d x`: the row of the copy `x` is in the table, and has the status of the copy
if `P` holds.
-/

namespace Money

variable {R : Rules} {i : Nat} {held held' : Set LockName} {pend : Db → Db} {b : Bool}
  {w w' : World}

/-! ## Copies -/

structure RefundCopy (P : Prop) (d : Db) (x : Refund) : Prop where
  row : ∃ y, d.refund? x.id = some y ∧ x.Keeps y ∧ (P → y.status = x.status)
  operation : x.idempotency.operation = .milestoneRefund

section
variable {P Q : Prop} {x : Refund}

theorem RefundCopy.weaken {d : Db} (h : RefundCopy P d x) (hpq : Q → P) : RefundCopy Q d x := by
  obtain ⟨⟨y, hy, hk, hs⟩, ho⟩ := h
  exact ⟨⟨y, hy, hk, fun hq => hs (hpq hq)⟩, ho⟩

/-- Within a transaction, when transactions do not overlap. -/
theorem RefundCopy.serial (h : RefundCopy R.Serial w.1 x) (hm : Moved R held R.mode.inTxn w w') :
    RefundCopy R.Serial w'.1 x := by
  obtain ⟨⟨y, hy, hk, hs⟩, ho⟩ := h
  obtain ⟨z, hz, hyz⟩ := hm.frame.refunds.keep _ y hy
  refine ⟨⟨z, hz, Refund.Keeps.trans _ _ _ hk hyz, fun hser => ?_⟩, ho⟩
  rw [Db.refund?, ← hm.still hser hser] at hy
  rw [show Table.get Refund.id x.id w'.1.refunds = w'.1.refund? x.id from rfl] at hz
  rw [show Table.get Refund.id x.id w'.1.refunds = w'.1.refund? x.id from rfl, hz] at hy
  cases hy
  exact hs hser

theorem RefundCopy.locked (h : RefundCopy P w.1 x) (hm : Moved R held b w w')
    (hl : .refund x.id ∈ held) : RefundCopy P w'.1 x := by
  obtain ⟨⟨y, hy, hk⟩, ho⟩ := h
  exact ⟨⟨y, (hm.refund hl).trans hy, hk⟩, ho⟩

/-- The attributes that a session sets on its copy. -/
theorem RefundCopy.refer {d : Db} {reference : Option String} (h : RefundCopy P d x) :
    RefundCopy P d { x with providerReference := reference } := by
  obtain ⟨⟨y, hy, ⟨ref, s, rfl⟩, hs⟩, ho⟩ := h
  exact ⟨⟨_, hy, ⟨_, _, rfl⟩, hs⟩, ho⟩

end

theorem relockRefund_spec {x : Refund} (reference : Option String)
    (h : RefundCopy R.Serial w.1 x) :
    Meets R i (relockRefund x) ⟨held, whenSome (.referRefund x.id) reference, R.mode.inTxn, w⟩
      fun v' r => ∃ w', Later R held R.mode.inTxn w w' ∧
        v' = ⟨insert (.refund x.id) held, whenSome (.referRefund x.id) reference,
          R.mode.inTxn, w'⟩ ∧
        r = x ∧ RefundCopy R.RefundsFresh w'.1 x := by
  refine Meets.bind (.relock fun _ _ h => by cases h) ?_
  rintro v₁ r ⟨w₁, h₁, hok, hr⟩
  cases r with
  | none => exact .raise
  | some c =>
    obtain ⟨rfl, rfl, -⟩ := hr
    have hs := h.serial h₁.toMoved
    obtain ⟨⟨y, hy, hk, hs⟩, ho⟩ := hs
    refine .pure ⟨w₁, h₁, rfl, rfl, ⟨y, hy, hk, ?_⟩, ho⟩
    rintro (hser | hfresh)
    · exact hs hser
    · have hn := hfresh _ hok
      cases reference with
      | none => exact hn y hy
      | some reference =>
        refine hn { y with providerReference := some reference } ?_
        change (w₁.1.referRefund c.id reference).refund? c.id = _
        rw [Db.refund?_referRefund, hy, Option.map_some, if_pos rfl]

/-! ## Replays -/

theorem completeRefundReplay_spec {x : Refund} {idem : FinancialIdempotencyKey} :
    Meets R i (completeRefundReplay x idem) ⟨held, id, b, w⟩ fun v' r =>
      r = none → v' = ⟨held, id, b, w⟩ ∧ x.status = .pending := by
  unfold completeRefundReplay
  split
  · exact (replayed_spec rfl .none).mono fun _ _ hr hn => by rw [hr] at hn; cases hn
  · exact (replayed_spec rfl .none).mono fun _ _ hr hn => by rw [hr] at hn; cases hn
  · rename_i hs
    exact .pure fun _ => ⟨rfl, hs⟩

theorem refundRecord_spec {x : Refund} :
    Meets R i (refundRecord x) ⟨held, pend, b, w⟩ fun v' r => ∃ w', Later R held b w w' ∧
      v' = ⟨held, pend, R.mode.inTxn, w'⟩ ∧ r.scope = x.idempotency := by
  refine Meets.bind .select ?_
  rintro _ r ⟨w₁, h₁, rfl, hr⟩
  cases r with
  | none => exact .raise
  | some record => exact .pure ⟨w₁, h₁, rfl, Table.get_key hr.symm⟩

theorem replayRefund_spec {x : Refund} :
    Meets R i (replayRefund x) ⟨held, id, b, w⟩ fun _ _ => True := by
  refine Meets.bind refundRecord_spec ?_
  rintro _ record ⟨w₁, h₁, rfl, -⟩
  refine Meets.bind completeRefundReplay_spec ?_
  rintro _ r -
  cases r with
  | none => exact .raise
  | some terminal => exact .pure trivial

/-! ## Failure -/

section
variable {P : Prop} {d : Db} {x : Refund}

/-- A refund's money comes from and goes back to the escrow of its milestone. -/
theorem RefundCopy.escrow (h : RefundCopy P d x) (hd : Consistent d) {e : MilestoneEscrow}
    (he : d.escrow? x.milestone = some e) :
    e.escrowAccount = .milestoneEscrow x.milestone x.currency := by
  obtain ⟨⟨y, hy, ⟨_, _, rfl⟩, -⟩, -⟩ := h
  obtain ⟨m, hm, hc⟩ := (hd.refunds _ (Table.get_mem hy)).milestone
  have hid : m.id = x.milestone := Table.get_key hm
  rw [← hid] at he
  rw [(hd.escrow_key (by rw [hid]; exact hm) he).1, Milestone.escrowKey, hid]
  exact congrArg _ hc.symm

theorem RefundCopy.journal (h : RefundCopy P d x) (hd : Consistent d) :
    x.journal = x.reservationKey := by
  obtain ⟨⟨y, hy, ⟨_, _, rfl⟩, -⟩, ho⟩ := h
  rcases (hd.refunds _ (Table.get_mem hy)).cause with ⟨-, hj, -⟩ | ⟨ho', -⟩
  · exact hj
  · rw [ho] at ho'
    cases ho'

/-- The reversal of a refund, if there is one, reverses its reservation. -/
theorem RefundCopy.reversal (h : RefundCopy P d x) (hd : Consistent d) {j : JournalTransaction}
    (hj : d.journal? ⟨.reversal, .refund x.id⟩ = some j) : j.entries = x.reversal := by
  obtain ⟨⟨y, hy, ⟨_, _, rfl⟩, -⟩, -⟩ := h
  have he := entries_of_row (f := Refund.reversal) hy (hd.known hj)
  exact he

end

/-- What the failure of a refund has checked and locked. -/
structure RefundFailure (R : Rules) (held : Set LockName) (d : Db) (x : Refund) (post : Bool) :
    Prop where
  copy : RefundCopy R.RefundsFresh d x
  lock : .refund x.id ∈ held
  pending : x.status = .pending
  reserved : (d.journal? x.reservationKey).isSome
  escrow : d.account? (.milestoneEscrow x.milestone x.currency) =
    some (AccountKey.milestoneEscrow x.milestone x.currency).account
  clearing : d.account? (.providerClearing x.provider x.currency) =
    some (AccountKey.providerClearing x.provider x.currency).account
  balanced : DoubleEntry.Balanced x.reversal
  posted : Reversing held d x.reversalJournal.key post

section
variable {x : Refund} {post : Bool}

theorem RefundFailure.later (h : RefundFailure R held w.1 x post) (hm : Moved R held b w w')
    (hs : held ⊆ held') : RefundFailure R held' w'.1 x post :=
  { h with
    lock := hs h.lock
    copy := h.copy.locked hm h.lock
    reserved := hm.frame.journal_isSome h.reserved
    escrow := hm.frame.account h.escrow
    clearing := hm.frame.account h.clearing
    posted := h.posted.later hm hs }

theorem RefundFailure.postable {d d' : Db} (h : RefundFailure R held d x true)
    (hj : d'.journals = d.journals) (ha : d'.accounts = d.accounts)
    (hr : ∃ y, d'.refund? x.id = some y ∧ x.Keeps y) : Postable held d' x.reversalJournal where
  lock := h.posted.fresh.2
  fresh := by
    rw [Db.journal?, hj]
    exact h.posted.fresh.1
  balanced := h.balanced
  accounts := by
    intro e he
    simp only [Refund.reversalJournal, Refund.reversal, List.mem_cons, List.not_mem_nil,
      or_false] at he
    rw [Db.account?, ha]
    rcases he with rfl | rfl
    · exact ⟨h.clearing, rfl⟩
    · exact ⟨h.escrow, rfl⟩
  known := by
    obtain ⟨y, hy, _, _, rfl⟩ := hr
    refine ⟨_, hy, rfl, rfl, ?_⟩
    rw [Db.journal?, hj]
    exact h.reserved
  wallets u c := .inl (by
    rw [balance_wallet]
    simp [Refund.reversalJournal, Refund.reversal])

theorem RefundFailure.ready {s : IdempotencyScope} {r : Response} {reference : Option String}
    (h : ∀ w', Later R held b w w' → RefundFailure R held w'.1 x post)
    (hl : .record s ∈ held) :
    Ready R (.refundFailed x.id) ⟨held, .completeRecord s r ∘ .finishRefund x.id .failed ∘
      (if post then .addJournal x.reversalJournal else id) ∘
      whenSome (.referRefund x.id) reference, b, w⟩ := by
  intro w' hw
  have hf := h w' hw
  obtain ⟨⟨y, hy, ⟨ref, st, rfl⟩, hs⟩, hop⟩ := hf.copy
  have u₁ : Updates held w'.1 (whenSome (.referRefund x.id) reference w'.1) := by
    cases reference with
    | none => exact Relation.ReflTransGen.refl
    | some reference => exact .single (.referRefund _ _ hf.lock)
  have hrow : ∃ ref' st', (whenSome (.referRefund x.id) reference w'.1).refund? x.id =
      some { x with providerReference := ref', status := st' } := by
    cases reference with
    | none => exact ⟨_, _, hy⟩
    | some reference =>
      refine ⟨some reference, st, (Db.refund?_referRefund _ _ _ _).trans ?_⟩
      rw [hy, Option.map_some, if_pos rfl]
  have hj : (whenSome (.referRefund x.id) reference w'.1).journals = w'.1.journals := by
    cases reference <;> rfl
  have ha : (whenSome (.referRefund x.id) reference w'.1).accounts = w'.1.accounts := by
    cases reference <;> rfl
  obtain ⟨ref', st', hrow⟩ := hrow
  have u₂ : Updates held (whenSome (.referRefund x.id) reference w'.1)
      ((if post then .addJournal x.reversalJournal else id) <|
        whenSome (.referRefund x.id) reference w'.1) := by
    cases post with
    | false => exact Relation.ReflTransGen.refl
    | true => exact .single (.addJournal _ (hf.postable hj ha ⟨_, hrow, _, _, rfl⟩))
  refine ⟨((u₁.trans u₂).trans (.single (.finishRefund
    { x with providerReference := ref', status := st' } .failed hf.lock ?_ hop))).trans
    (.single (.completeRecord s r hl)), ?_⟩
  · cases post <;> exact hrow
  · exact .refundFailed .refl s r { x with providerReference := ref, status := st }
      reference post hy (fun hF => (hs hF).trans hf.pending) hop hf.posted.eq hf.reserved

end

theorem failRefund_spec {x : Refund} (reference : Option String) (h : RefundCopy R.Serial w.1 x)
    (hs : reference = none ∨ x.status = .pending) :
    Meets R i (failRefund x) ⟨held, whenSome (.referRefund x.id) reference, R.mode.inTxn, w⟩
      fun _ _ => True := by
  have hpend : ∀ d, (whenSome (.referRefund x.id) reference d).journals = d.journals ∧
      (whenSome (.referRefund x.id) reference d).escrows = d.escrows ∧
      (whenSome (.referRefund x.id) reference d).accounts = d.accounts := by
    cases reference <;> exact fun _ => ⟨rfl, rfl, rfl⟩
  refine Meets.bind (relockRefund_spec reference h) ?_
  rintro _ x ⟨w₁, h₁, rfl, rfl, hc⟩
  split
  · rename_i hne
    rcases hs with rfl | hs
    · exact replayRefund_spec
    · exact absurd hs hne
  rename_i hpending
  refine Meets.bind .select ?_
  rintro _ journal ⟨w₂, h₂, rfl, hj⟩
  refine Meets.bind (requireEscrow_spec fun d k => by rw [Db.escrow?, (hpend d).2.1]; rfl) ?_
  rintro _ e ⟨w₃, h₃, rfl, he⟩
  refine Meets.bind .select ?_
  rintro _ escrowAccount ⟨w₄, h₄, rfl, hea⟩
  refine Meets.bind .select ?_
  rintro _ providerAccount ⟨w₅, h₅, rfl, hpa⟩
  rw [Db.journal?, (hpend _).1] at hj
  rw [Db.account?, (hpend _).2.2] at hea hpa
  cases journal with
  | none => exact .raise
  | some journal =>
  cases escrowAccount with
  | none => exact .raise
  | some escrowAccount =>
  cases providerAccount with
  | none => exact .raise
  | some providerAccount =>
  have h₁₅ : Moved R _ _ w₁ w₅ := h₂.toMoved.trans
      (h₃.toMoved.trans (h₄.trans h₅ subset_rfl).toMoved
    subset_rfl) subset_rfl
  have hl : LockName.refund x.id ∈ insert (LockName.refund x.id) held := Set.mem_insert _ _
  have hc₃ := (hc.locked h₂.toMoved hl).locked h₃.toMoved hl
  rw [hc₃.escrow h₃.inv he] at hea
  have hea' := h₄.inv.account hea.symm
  have hpa' := h₅.inv.account hpa.symm
  subst hea' hpa'
  have hjk := hc₃.journal h₃.inv
  have hkj : journal.key = x.reservationKey := (Table.get_key hj.symm).trans hjk
  have hres : (w₅.1.journal? x.reservationKey).isSome := by
    refine (h₃.toMoved.trans (h₄.trans h₅ subset_rfl).toMoved subset_rfl).frame.journal_isSome ?_
    rw [← hjk, Db.journal?, ← hj]
    rfl
  dsimp only
  rw [hkj]
  refine Meets.bind (postReversal_spec (l := x.reversal) (fun d => (hpend d).1) rfl
    fun w' hw j hj' => ?_) ?_
  · exact ((hc.locked h₁₅ hl).locked hw.toMoved hl).reversal hw.inv hj'
  rintro _ j ⟨w₆, held', post, h₆, hsub, rfl, -, hb, hpost⟩
  have hfacts : RefundFailure R held' w₆.1 x post :=
    { copy := (hc.locked h₁₅ hl).locked h₆.toMoved hl
      lock := hsub hl
      pending := not_not.1 hpending
      reserved := h₆.frame.journal_isSome hres
      escrow := (h₅.trans h₆ subset_rfl).frame.account hea.symm
      clearing := h₆.frame.account hpa.symm
      balanced := hb
      posted := hpost }
  refine Meets.bind .write ?_
  rintro _ - rfl
  refine Meets.bind refundRecord_spec ?_
  rintro _ record ⟨w₇, h₇, rfl, -⟩
  refine Meets.bind completeIdempotency_spec ?_
  rintro _ - ⟨w₈, h₈, rfl⟩
  refine Meets.bind (.commit (RefundFailure.ready (fun w' hw => ?_) (Set.mem_insert _ _)))
    fun _ _ _ => .pure trivial
  exact hfacts.later ((h₇.trans h₈ subset_rfl).trans hw (Set.subset_insert _ _)).toMoved
    (Set.subset_insert _ _)

/-! ## Reservation -/

/-- What the reservation of a refund has checked and locked. -/
structure Reservation (R : Rules) (held : Set LockName) (d : Db) (r : Refund) (m : Milestone)
    (x : FinancialIdempotencyKey) (o : Option FinancialIdempotencyKey) (oc : Option AccountKey) :
    Prop where
  record : Claimed d o x
  recordLock : .record x.scope ∈ held
  scope : r.idempotency = x.scope
  operation : x.scope.operation = .milestoneRefund
  request : x.request = .refund r.milestone r.provider
  milestone : d.milestone? m.id = some m
  same : r.milestone = m.id
  currency : r.currency = m.currency
  funded : m.status = .funded
  escrow : d.account? (.milestoneEscrow r.milestone r.currency) =
    some (AccountKey.milestoneEscrow r.milestone r.currency).account
  clearing : AccountReady d (.providerClearing r.provider r.currency) oc
  clearingLock : .account (.providerClearing r.provider r.currency) ∈ held
  fresh : d.refund? r.id = none
  lock : .refund r.id ∈ held
  journal : r.journal = r.reservationKey
  journalLock : .journal r.reservationKey ∈ held
  balanced : DoubleEntry.Balanced r.reservation
  positive : 0 < r.amountMinor
  pending : r.status = .pending
  all : R.Serial → r.amountMinor = d.balance m.escrowKey
  paid : R.Serial → ∃ i, latestCaptured (d.capturedThrough m.id r.provider) = some i

theorem Consistent.no_refund_journal {d : Db} (hd : Consistent d) {r : Refund}
    (hr : d.refund? r.id = none) : d.journal? r.reservationKey = none := by
  refine hd.no_journal fun _ _ hk => ?_
  obtain ⟨y, hy, -⟩ := hk
  cases hr.symm.trans hy

section
variable {r : Refund} {m : Milestone} {x : FinancialIdempotencyKey}
  {o : Option FinancialIdempotencyKey} {oc : Option AccountKey}

theorem Reservation.updates {d : Db} (h : Reservation R held d r m x o oc) (hd : Consistent d) :
    Updates held d (.addRefund r <| .addJournal r.reservationJournal <|
      whenSome (fun k => .addAccount k.account) oc <| whenSome .addRecord o d) := by
  have ho : ∀ k, (whenSome .addRecord o d).account? k = d.account? k := by
    cases o <;> exact fun _ => rfl
  have hc : AccountReady (whenSome .addRecord o d) (.providerClearing r.provider r.currency) oc :=
    h.clearing.congr (ho _)
  have hne : AccountKey.milestoneEscrow r.milestone r.currency ≠
    .providerClearing r.provider r.currency := nofun
  have u₁ := (h.record.updates rfl h.recordLock).trans (hc.updates h.clearingLock)
  generalize hd₁ : whenSome (fun k => Db.addAccount k.account) oc (whenSome .addRecord o d) = d₁
    at u₁ ⊢
  have hx₁ : d₁.record? x.scope = some x := by
    rw [← hd₁]
    refine Eq.trans ?_ h.record.record
    cases oc <;> rfl
  have hm₁ : d₁.milestone? r.milestone = some m := by
    rw [← hd₁, h.same]
    cases oc <;> cases o <;> exact h.milestone
  have hr₁ : d₁.refund? r.id = none := by
    rw [← hd₁]
    cases oc <;> cases o <;> exact h.fresh
  have hj₁ : d₁.journals = d.journals := by
    rw [← hd₁]
    cases oc <;> cases o <;> rfl
  have hc₁ : d₁.account? (.providerClearing r.provider r.currency) =
      some (AccountKey.providerClearing r.provider r.currency).account := by
    rw [← hd₁]
    exact hc.account
  have he₁ : d₁.account? (.milestoneEscrow r.milestone r.currency) =
      some (AccountKey.milestoneEscrow r.milestone r.currency).account := by
    rw [← hd₁, hc.account_ne _ hne, ho]
    exact h.escrow
  -- the refund is recorded before its journal is posted: both orders give the same tables
  have u₂ : Update held d₁ (d₁.addRefund r) := .addRefund r h.lock
    { fresh := hr₁
      positive := h.positive
      milestone := ⟨m, hm₁, h.currency⟩
      cause := .inl ⟨by rw [h.scope]; exact h.operation, h.journal, x, by rw [h.scope]; exact hx₁,
        h.request⟩ }
  have hpost : Postable held (d₁.addRefund r) r.reservationJournal :=
    { lock := h.journalLock
      fresh := by
        change Table.get _ _ d₁.journals = _
        rw [hj₁]
        exact hd.no_refund_journal h.fresh
      balanced := h.balanced
      accounts := by
        intro e he
        simp only [Refund.reservationJournal, Refund.reservation, List.mem_cons, List.not_mem_nil,
          or_false] at he
        rcases he with rfl | rfl
        · exact ⟨he₁, rfl⟩
        · exact ⟨hc₁, rfl⟩
      known := ⟨{ r with createdAt := d₁.clock }, by
        rw [Db.refund?_addRefund]
        exact if_pos rfl, rfl⟩
      wallets := fun u c => .inl (by
        rw [balance_wallet]
        simp [Refund.reservationJournal, Refund.reservation]) }
  exact (u₁.trans (.single u₂)).trans (.single (.addJournal _ hpost))

theorem Reservation.ready (h : ∀ w', Later R held b w w' → Reservation R held w'.1 r m x o oc) :
    Ready R (.refundReserved r.id) ⟨held, .addRefund r ∘ .addJournal r.reservationJournal ∘
      whenSome (fun k => .addAccount k.account) oc ∘ whenSome .addRecord o, b, w⟩ := by
  intro w' hw
  have hf := h w' hw
  exact ⟨hf.updates hw.inv, .refundReserved (.trans (.record o) (.account oc)) r m hf.fresh
    hf.pending hf.positive (by rw [hf.scope]; exact hf.operation) hf.milestone hf.same hf.currency
      hf.funded hf.all hf.paid⟩

end

theorem capturedFundingIntent_spec {m : MilestoneId} {p : Provider} :
    Meets R i (capturedFundingIntent m p) ⟨held, pend, b, w⟩ fun v' r => ∃ w', Later R held b w w' ∧
      v' = ⟨held, pend, R.mode.inTxn, w'⟩ ∧
      latestCaptured ((pend w'.1).capturedThrough m p) = some r := by
  refine Meets.bind .select ?_
  rintro _ r ⟨w₁, h₁, rfl, hr⟩
  cases r with
  | none => exact .raiseApi
  | some f => exact .pure ⟨w₁, h₁, rfl, hr.symm⟩

theorem insertRefund_spec {r : Refund} :
    Meets R i (insertRefund r) ⟨held, pend, b, w⟩ fun v' _ => ∃ w' held', Later R held b w w' ∧
      v' = ⟨held', .addRefund r ∘ pend, R.mode.inTxn, w'⟩ ∧ held ⊆ held' ∧ 0 < r.amountMinor := by
  refine Meets.bind .reserve ?_
  rintro _ - ⟨w₁, h₁, rfl, -⟩
  have hreference : Meets R i (reserveRefundReference r)
      ⟨insert (.refundOfRecord r.idempotency) held, pend, R.mode.inTxn, w₁⟩ fun v' _ =>
        ∃ w' held', Later R held b w w' ∧ v' = ⟨held', pend, R.mode.inTxn, w'⟩ ∧ held ⊆ held' := by
    unfold reserveRefundReference
    split
    · exact .pure ⟨w₁, _, h₁, rfl, Set.subset_insert _ _⟩
    · refine Meets.reserve.mono ?_
      rintro _ - ⟨w₂, h₂, rfl, -⟩
      exact ⟨w₂, _, h₁.trans h₂ (Set.subset_insert _ _), rfl,
        (Set.subset_insert _ _).trans (Set.subset_insert _ _)⟩
  refine Meets.bind hreference ?_
  rintro _ - ⟨w₂, held', h₂, rfl, hs⟩
  refine Meets.bind .require ?_
  rintro _ - ⟨rfl, hpos⟩
  refine Meets.write.mono ?_
  rintro _ - rfl
  exact ⟨w₂, held', h₂, rfl, hs, by simpa using hpos⟩

/-! ## The intent that is charged -/

theorem mem_capturedThrough {d : Db} {m : MilestoneId} {p : Provider} {f : PaymentIntent} :
    f ∈ d.capturedThrough m p ↔
      f ∈ d.intents ∧ f.milestone = m ∧ f.status = .captured ∧ f.provider = p := by
  simp [Db.capturedThrough]

theorem latestCaptured_mem {l : List PaymentIntent} {f : PaymentIntent}
    (h : latestCaptured l = some f) : f ∈ l := List.argmax_mem h

theorem latestCaptured_le {l : List PaymentIntent} {f x : PaymentIntent}
    (h : latestCaptured l = some f) (hx : x ∈ l) : x.capturedAt.getD 0 ≤ f.capturedAt.getD 0 :=
  List.le_of_mem_argmax hx h

/-- A captured intent is final. -/
theorem Frame.captured {d d' : Db} (h : Frame held d d') (hd : Keyed d) {f : PaymentIntent}
    (hf : f ∈ d.intents) (hs : f.status = .captured) : d'.intent? f.id = some f := by
  obtain ⟨y, hy, hk⟩ := h.intents.keep _ f (Table.get_of_mem hd.intents hf)
  rw [hk.2 hs] at hy
  exact hy

/-- Later captures do not change which intent a refund is charged for. -/
theorem ChargedFor.later {d d' : Db} {r : Refund} {f : PaymentIntent} (h : ChargedFor d r f)
    (hf : Frame held d d') (hd : Keyed d) (hr : r.createdAt ≤ d.clock) : ChargedFor d' r f := by
  obtain ⟨hm, ht, hall⟩ := h
  obtain ⟨hi, hmil, hs, hp⟩ := mem_capturedThrough.1 hm
  refine ⟨mem_capturedThrough.2 ⟨Table.get_mem (hf.captured hd hi hs), hmil, hs, hp⟩, ht, ?_⟩
  intro x hx hlt
  obtain ⟨hi', hmil', hs', hp'⟩ := mem_capturedThrough.1 hx
  rcases hf.captures x hi' hs' with hold | hnew
  · exact hall x (mem_capturedThrough.2 ⟨hold, hmil', hs', hp'⟩) hlt
  · omega

/-- A refund is charged to the intent that was captured last when it was recorded. -/
theorem Consistent.charged {d d' : Db} (hd : Consistent d) {r : Refund} {f : PaymentIntent}
    (hf : latestCaptured (d.capturedThrough r.milestone r.provider) = some f)
    (hi : d'.intents = d.intents) : ChargedFor d' { r with createdAt := d.clock } f := by
  have hm := latestCaptured_mem hf
  obtain ⟨hin, -, hs, -⟩ := mem_capturedThrough.1 hm
  have hd' : d'.capturedThrough r.milestone r.provider =
      d.capturedThrough r.milestone r.provider := by
    rw [Db.capturedThrough, hi, Db.capturedThrough]
  refine ⟨hd' ▸ hm, (hd.intents f hin).captured hs, fun x hx _ => latestCaptured_le hf ?_⟩
  exact hd' ▸ hx

/-- What a session that settles a refund knows: its copy `x`, and the intent `f` that the provider
is asked to send back. -/
structure Settling (R : Rules) (d : Db) (x : Refund) (f : PaymentIntent) (m : MilestoneId)
    (s : IdempotencyScope) : Prop where
  copy : RefundCopy R.Serial d x
  milestone : x.milestone = m
  scope : x.idempotency = s
  charged : R.Serial → ∀ y, d.refund? x.id = some y → ChargedFor d y f ∨
    y.status = .pending ∧ latestCaptured (d.capturedThrough y.milestone y.provider) = some f

/-- What the transaction that reserves a refund leaves behind. -/
theorem refund_left (d : Db) (r : Refund) (o : Option FinancialIdempotencyKey)
    (oc : Option AccountKey) :
    let d' : Db := .addRefund r <| .addJournal r.reservationJournal <|
      whenSome (fun k => .addAccount k.account) oc <| whenSome .addRecord o d
    d'.refund? r.id = some { r with createdAt := d.clock } ∧ d'.intents = d.intents ∧
      d'.clock = d.clock + 1 := by
  cases oc <;> cases o <;> exact ⟨(Db.refund?_addRefund _ _ _).trans (if_pos rfl), rfl, rfl⟩

/-- The copies that a session loads after it has committed the pending refund `q`, which is charged
to `f`. -/
theorem reloadRefund_spec {d : Db} {e : Providers} {q : Refund} {f : PaymentIntent}
    (hd : Consistent d) (hq : d.refund? q.id = some q) (hf : f ∈ d.intents)
    (hcaptured : f.status = .captured) (hop : q.idempotency.operation = .milestoneRefund)
    (hclock : q.createdAt ≤ d.clock) (hcharged : R.Serial → ChargedFor d q f) :
    Meets R i (do
      match ← select (fun d => d.intent? f.id) with
      | none => raise (.runtime "Reserved refund disappeared")
      | some fundingIntent =>
      match ← select (fun d => d.refund? q.id) with
      | none => raise (.runtime "Reserved refund disappeared")
      | some refund => pure (refund, fundingIntent)) ⟨∅, id, R.mode.inCall, (d, e)⟩
      fun v' r => ∃ w', v' = ⟨∅, id, R.mode.inTxn, w'⟩ ∧
        Settling R w'.1 r.1 r.2 q.milestone q.idempotency := by
  refine Meets.bind .select ?_
  rintro _ f' ⟨w₁, h₁, rfl, hf'⟩
  cases f' with
  | none => exact .raise
  | some f' =>
  refine Meets.bind .select ?_
  rintro _ r ⟨w₂, h₂, rfl, hr⟩
  cases r with
  | none => exact .raise
  | some r =>
  have h₁₂ := h₁.frame.trans h₂.frame
  obtain ⟨y, hy, ref, st, rfl⟩ := h₁₂.refunds.keep _ _ hq
  obtain rfl : r = _ := Option.some.inj (hr.trans hy)
  obtain rfl : f' = f := Option.some.inj (hf'.trans (h₁.frame.captured hd.keyed hf hcaptured))
  refine .pure ⟨w₂, rfl, ⟨⟨_, hy, .refl _, fun _ => rfl⟩, hop⟩, rfl, rfl, fun hser y hy' => .inl ?_⟩
  obtain rfl : _ = y := Option.some.inj (hy.symm.trans hy')
  exact (hcharged hser).later h₁₂ hd.keyed hclock

theorem reserveRefund_spec {user : User} {m : Milestone} {p : Provider}
    {x : FinancialIdempotencyKey} {o : Option FinancialIdempotencyKey} {refundId : RefundId}
    (hm : w.1.milestone? m.id = some m) (hl : .milestone m.id ∈ held) (hcl : Claimed w.1 o x)
    (hrl : .record x.scope ∈ held) (hop : x.scope.operation = .milestoneRefund)
    (hreq : x.request = .refund m.id p) :
    Meets R i (reserveRefund user m p x refundId) ⟨held, whenSome .addRecord o, R.mode.inTxn, w⟩
      fun v' r => ∃ w', v' = ⟨∅, id, R.mode.inTxn, w'⟩ ∧
        Settling R w'.1 r.1 r.2 m.id x.scope := by
  refine Meets.bind .require ?_
  rintro _ - ⟨rfl, hfunded⟩
  refine Meets.bind (requireEscrow_spec fun d k => by cases o <;> rfl) ?_
  rintro _ e ⟨w₁, h₁, rfl, he⟩
  have hm₁ : w₁.1.milestone? m.id = some m := (h₁.milestone hl).trans hm
  obtain ⟨hkey, hacc⟩ := h₁.inv.escrow_key hm₁ he
  refine Meets.bind (lockedEscrowAccount_spec fun d k => by cases o <;> rfl) ?_
  rintro _ a ⟨w₂, h₂, rfl, -, rfl⟩
  rw [hkey]
  refine Meets.bind accountBalanceMinor_spec ?_
  rintro _ n ⟨w₃, h₃, rfl, hn⟩
  refine Meets.bind .require ?_
  rintro _ - ⟨rfl, hpos⟩
  refine Meets.bind capturedFundingIntent_spec ?_
  rintro _ f ⟨w₄, h₄, rfl, hf⟩
  rw [show clearingAccount p m.currency =
    (AccountKey.providerClearing p m.currency).account from rfl]
  refine Meets.bind (getOrCreateAccount_spec fun d => by cases o <;> rfl) ?_
  rintro _ clearing ⟨w₅, oc, h₅, rfl, hC, rfl⟩
  refine Meets.bind .reserve ?_
  rintro _ - ⟨w₆, h₆, rfl, hfresh⟩
  have hfresh₆ : w₆.1.refund? refundId = none := by
    refine Eq.trans ?_ (Option.not_isSome_iff_eq_none.1 (by rw [hfresh]; simp))
    cases oc <;> cases o <;> rfl
  let r := newRefund refundId user m ⟨.milestoneRefund, .refund refundId⟩ x.scope p n
  refine Meets.bind (postJournal_new fun w' hw => ?_) ?_
  · have hnone := hw.inv.no_refund_journal (r := r)
      ((hw.refund (Set.mem_insert _ _)).trans hfresh₆)
    cases oc <;> cases o <;> exact hnone
  rintro _ journal ⟨w₇, es, h₇, hes, rfl, rfl⟩
  obtain ⟨rfl, hb⟩ := journalEntries_balanced (l := r.reservation) hes rfl
  refine Meets.bind insertRefund_spec ?_
  rintro _ - ⟨w₈, held₈, h₈, rfl, hs, -⟩
  have hs' := (Set.subset_insert _ _).trans hs
  have h₆₈ := h₇.trans h₈ (Set.subset_insert _ _)
  have h₅₈ := h₆.trans h₆₈ (Set.subset_insert _ _)
  have h₄₈ := h₅.trans h₅₈ (Set.subset_insert _ _)
  have h₃₈ := h₄.trans h₄₈ subset_rfl
  have h₁₈ := h₂.trans (h₃.trans h₃₈ subset_rfl) (Set.subset_insert _ _)
  have hsub : held ⊆ held₈ := fun k hk => hs' (by simp [hk])
  have hbal : ∀ d, (whenSome .addRecord o d).balance m.escrowKey = d.balance m.escrowKey := by
    cases o <;> exact fun _ => rfl
  have hcap : ∀ d, (whenSome .addRecord o d).capturedThrough m.id p = d.capturedThrough m.id p := by
    cases o <;> exact fun _ => rfl
  rw [AccountKey.account_key, hbal] at hn
  rw [hcap] at hf
  refine Meets.bind (.commit (Reservation.ready (m := m) (x := x) fun w' hw => ?_)) ?_
  · have h₀ := h₁.trans (h₁₈.trans hw hsub) subset_rfl
    exact
      { record := hcl.later h₀.toMoved hrl
        recordLock := hs' (by simp [hrl])
        scope := rfl
        operation := hop
        request := hreq
        milestone := (h₀.milestone hl).trans hm
        same := rfl
        currency := rfl
        funded := by simpa using hfunded
        escrow := (h₁₈.trans hw hsub).frame.account hacc
        clearing := hC.later (h₅₈.trans hw ((Set.subset_insert _ _).trans hs')).toMoved
          (Set.mem_insert _ _)
        clearingLock := hs' (Set.mem_insert_of_mem _ (Set.mem_insert _ _))
        fresh := ((h₆₈.trans hw hs').refund (Set.mem_insert _ _)).trans hfresh₆
        lock := hs' (Set.mem_insert _ _)
        journal := rfl
        journalLock := hs (Set.mem_insert _ _)
        balanced := hb
        positive := of_decide_eq_true hpos
        pending := rfl
        all := fun hser => by
          rw [(h₃₈.trans hw (fun k hk => hs' (by simp_all))).still hser hser]
          exact hn
        paid := fun hser => ⟨f, by
          rw [(h₄₈.trans hw (fun k hk => hs' (by simp_all))).still hser hser]
          exact hf⟩ }
  rintro _ - ⟨w₉, h₉, rfl, hinv⟩
  obtain ⟨hrow, hintents, hclock⟩ := refund_left w₉.1 r o oc
  have h₄₉ := h₄₈.trans h₉ (fun k hk => hs' (by simp_all))
  obtain ⟨hi, -, hs, -⟩ := mem_capturedThrough.1 (latestCaptured_mem hf)
  refine reloadRefund_spec (q := { r with createdAt := w₉.1.clock }) hinv hrow ?_ hs hop
    ((Nat.le_succ _).trans_eq hclock.symm) fun hser => ?_
  · exact hintents.symm ▸ Table.get_mem (h₄₉.frame.captured h₄.inv.keyed hi hs)
  · exact h₉.inv.charged (r := r) (h₄₉.still hser hser ▸ hf) hintents

/-! ## Settlement -/

theorem refundPending_ready {x : Refund} {reference : String}
    (h : ∀ w', Later R held b w w' → RefundCopy R.RefundsFresh w'.1 x) (hl : .refund x.id ∈ held)
    (hs : x.status = .pending) :
    Ready R (.refundPending x.id) ⟨held, .referRefund x.id reference, b, w⟩ := by
  intro w' hw
  obtain ⟨⟨y, hy, ⟨ref, st, rfl⟩, hst⟩, -⟩ := h w' hw
  exact ⟨.single (.referRefund _ _ hl), .refundPending .refl
    { x with providerReference := ref, status := st } reference hy fun hF => (hst hF).trans hs⟩

theorem refundSucceeded_ready {x : Refund} {m : Milestone} {s : IdempotencyScope} {r : Response}
    {v : MilestoneEvent} {reference : String}
    (h : ∀ w', Later R held b w w' → RefundCopy R.RefundsFresh w'.1 x ∧
      w'.1.milestone? m.id = some m)
    (hl : .refund x.id ∈ held) (hs : x.status = .pending) (hm : x.milestone = m.id)
    (hml : .milestone m.id ∈ held) (hf : m.status = .funded) (hrl : .record s ∈ held)
    (hv : v.Goes .funded .created) :
    Ready R (.refundSucceeded x.id) ⟨held, .completeRecord s r ∘
      .enqueue (.milestoneRefunded m.id x.id) ∘ .moveMilestone m.id v ∘
      .finishRefund x.id .succeeded ∘ .referRefund x.id reference, b, w⟩ := by
  intro w' hw
  obtain ⟨⟨⟨y, hy, ⟨ref, st, rfl⟩, hst⟩, ho⟩, hm'⟩ := h w' hw
  refine ⟨?_, .refundSucceeded .refl s r { x with providerReference := ref, status := st } m v
    reference hy (fun hF => (hst hF).trans hs) ho hm' hm hf hv⟩
  have u₁ : Updates held w'.1 (w'.1.referRefund x.id reference) := .single (.referRefund _ _ hl)
  have hy₁ : (w'.1.referRefund x.id reference).refund? x.id =
      some { x with providerReference := some reference, status := st } := by
    rw [Db.refund?_referRefund, hy, Option.map_some, if_pos rfl]
  have u₂ := u₁.trans (.single (.finishRefund
    { x with providerReference := some reference, status := st } .succeeded hl hy₁ ho))
  have u₃ := u₂.trans (.single (.moveMilestone m v hml hm' (by rw [hf]; nofun)
    (by rw [hf]; nofun)))
  exact (u₃.trans (.single (.enqueue _))).trans (.single (.completeRecord s r hrl))

theorem applyRefundResult_spec {user : User} {milestoneId : MilestoneId} {x : Refund}
    {result : ProviderResult} (h : RefundCopy R.Serial w.1 x) (hm : x.milestone = milestoneId) :
    Meets R i (applyRefundResult user milestoneId x result) ⟨held, id, R.mode.inTxn, w⟩
      fun _ _ => True := by
  refine Meets.bind (relockRefund_spec none h) ?_
  rintro _ x ⟨w₁, h₁, rfl, rfl, hc⟩
  refine Meets.bind (lockedMilestone_spec (fun _ _ => rfl) (fun _ _ => rfl)) ?_
  rintro _ ⟨m, c⟩ ⟨w₂, h₂, rfl, hid, hm₂, -⟩
  dsimp only at hid hm₂ ⊢
  subst hid
  have hl₁ : LockName.refund x.id ∈ insert (LockName.refund x.id) held := Set.mem_insert _ _
  have hc₂ := hc.locked h₂.toMoved hl₁
  have hser : R.Serial → R.RefundsFresh := .inl
  split
  · exact replayRefund_spec
  rename_i hpending
  have hpending := not_not.1 hpending
  split
  · exact failRefund_spec none (hc₂.weaken hser) (.inl rfl)
  refine Meets.bind .taken ?_
  rintro _ other ⟨w₃, h₃, rfl, -⟩
  refine Meets.bind .require ?_
  rintro _ - ⟨rfl, -⟩
  refine Meets.bind .write ?_
  rintro _ - rfl
  have hl₂ := Set.mem_insert_of_mem (LockName.milestone m.id) hl₁
  have hl₃ := Set.mem_insert_of_mem (LockName.refundReference x.provider result.reference) hl₂
  have hc₃ := hc₂.locked h₃.toMoved hl₂
  split
  · refine Meets.bind (.commit (refundPending_ready (fun w' hw => hc₃.locked hw.toMoved hl₃) hl₃
      hpending)) ?_
    rintro _ - ⟨w₄, h₄, rfl, -⟩
    refine Meets.bind .select ?_
    rintro _ r ⟨w₅, h₅, rfl, -⟩
    cases r with
    | none => exact .raise
    | some r => exact .pure trivial
  split
  · exact failRefund_spec (x := { x with providerReference := some result.reference })
      (some result.reference) (hc₃.refer.weaken hser) (.inr hpending)
  refine Meets.bind .require ?_
  rintro _ - ⟨rfl, hfunded⟩
  refine Meets.bind .write ?_
  rintro _ - rfl
  refine Meets.bind .write ?_
  rintro _ - rfl
  refine Meets.bind .write ?_
  rintro _ - rfl
  refine Meets.bind refundRecord_spec ?_
  rintro _ record ⟨w₄, h₄, rfl, -⟩
  refine Meets.bind completeIdempotency_spec ?_
  rintro _ - ⟨w₅, h₅, rfl⟩
  refine Meets.bind (.commit (refundSucceeded_ready (m := m) (fun w' hw => ?_)
    (Set.mem_insert_of_mem _ hl₃) hpending hm (by simp) (by simpa using hfunded)
    (Set.mem_insert _ _) ⟨rfl, rfl⟩)) fun _ _ _ => .pure trivial
  have h₃' := ((h₄.trans h₅ subset_rfl).trans hw (Set.subset_insert _ _)).toMoved
  refine ⟨hc₃.locked h₃' hl₃, ?_⟩
  rw [h₃'.milestone (by simp), h₃.milestone (Set.mem_insert _ _)]
  exact hm₂

theorem settleRefund_spec {cfg : Config} {user : User} {milestoneId : MilestoneId} {key : String}
    {x : Refund} {f : PaymentIntent} {s : IdempotencyScope}
    (h : Settling R w.1 x f milestoneId s) (hk : R.keys s key) :
    Meets R i (settleRefund cfg user milestoneId key x f) ⟨held, id, R.mode.inTxn, w⟩
      fun _ _ => True := by
  unfold settleRefund
  split
  · exact .raise
  rename_i reference href
  refine Meets.bind getProvider_spec ?_
  rintro _ provider ⟨rfl, rfl⟩
  split
  · refine Meets.bind (.callProvider fun _ _ => trivial) ?_
    rintro _ a ⟨w₁, h₁, -, rfl⟩
    cases a with
    | result result => exact applyRefundResult_spec (h.copy.serial h₁) h.milestone
    | temporary => exact .pure trivial
    | failed => exact .raise
  · refine Meets.bind (.callProvider fun w' hw => ?_) ?_
    · obtain ⟨⟨y, hy, ⟨ref, st, rfl⟩, hst⟩, -⟩ := h.copy
      obtain ⟨z, hz, ref', st', rfl⟩ := hw.frame.refunds.keep _ _ hy
      refine ⟨_, hz, rfl, rfl, rfl, ⟨key, rfl, ?_⟩, fun hser => ⟨f, href, ?_⟩⟩
      · exact h.scope ▸ hk
      · have hd := hw.still hser hser
        rw [hd] at hz ⊢
        exact h.charged hser _ hz
    · rintro _ a ⟨w₁, h₁, -, rfl⟩
      cases a with
      | result result => exact applyRefundResult_spec (h.copy.serial h₁) h.milestone
      | temporary => exact .pure trivial
      | failed => exact failRefund_spec none (h.copy.serial h₁) (.inl rfl)

/-- The refund that an earlier call has reserved: its record is there, with the same request. -/
theorem existing_refund {d : Db} (hd : Consistent d) {o : Option FinancialIdempotencyKey}
    {x : FinancialIdempotencyKey} (hcl : Claimed d o x) (hop : x.scope.operation = .milestoneRefund)
    {m : MilestoneId} {p : Provider} (hreq : x.request = .refund m p) {r : Refund}
    (hr : d.refundOfRecord? x.scope = some r) :
    o = none ∧ r.milestone = m ∧ r.idempotency = x.scope ∧ d.refund? r.id = some r := by
  have hm : r ∈ d.refunds := List.mem_of_find?_eq_some hr
  have hs : r.idempotency = x.scope := by simpa using List.find?_some hr
  rcases (hd.refunds r hm).cause with ⟨-, -, y, hy, hq⟩ | ⟨ho, -⟩
  · rw [hs] at hy
    rcases hcl with ⟨rfl, hx⟩ | ⟨rfl, hx⟩
    · rw [hx] at hy
      cases hy
      rw [hreq] at hq
      cases hq
      exact ⟨rfl, rfl, hs, Table.get_of_mem hd.keyed.refunds hm⟩
    · rw [hx] at hy
      cases hy
  · rw [hs, hop] at ho
    cases ho

theorem refundMilestone_spec {cfg : Config} {user : User} {milestoneId : MilestoneId}
    {providerName key : String} {refundId : RefundId}
    (hk : R.keys ⟨user.id, .milestoneRefund, strip key⟩ key) :
    Meets R i (refundMilestone cfg user milestoneId providerName key refundId) ⟨∅, id, b, w⟩
      fun _ _ => True := by
  refine Meets.bind (lockedMilestone_spec (fun _ _ => rfl) (fun _ _ => rfl)) ?_
  rintro _ ⟨m, c⟩ ⟨w₁, h₁, rfl, hid, hm, -⟩
  dsimp only at hid hm ⊢
  subst hid
  refine Meets.bind .require ?_
  rintro _ - ⟨rfl, -⟩
  refine Meets.bind .require ?_
  rintro _ - ⟨rfl, -⟩
  refine Meets.bind (claimIdempotency_spec fun _ _ => rfl) ?_
  rintro _ ⟨x, created⟩ ⟨w₂, o, h₂, rfl, hcl, hsc, hreq⟩
  dsimp only at hcl hsc hreq ⊢
  split
  · exact .pure trivial
  have hm₂ : w₂.1.milestone? m.id = some m := (h₂.milestone (Set.mem_insert _ _)).trans hm
  refine Meets.bind .selectForUpdate ?_
  rintro v r ⟨w₃, h₃, hr, hv⟩
  have hcl₃ := hcl.later h₃.toMoved (Set.mem_insert _ _)
  cases r with
  | none =>
    subst hv
    refine Meets.bind (reserveRefund_spec ((h₃.milestone (by simp)).trans hm₂) (by simp) hcl₃
      (by simp) (by rw [hsc]) hreq) ?_
    rintro _ ⟨r, f⟩ ⟨w₄, rfl, hset⟩
    exact settleRefund_spec hset (hsc ▸ hk)
  | some r =>
    subst hv
    have hr₃ : w₃.1.refundOfRecord? x.scope = some r := by
      refine Eq.trans ?_ hr.symm
      cases o <;> rfl
    obtain ⟨rfl, hmil, hrs, hrow⟩ := existing_refund h₃.inv hcl₃ (by rw [hsc]) hreq hr₃
    refine Meets.bind completeRefundReplay_spec ?_
    rintro v terminal hterminal
    cases terminal with
    | some terminal => exact .pure trivial
    | none =>
      obtain ⟨rfl, hpending⟩ := hterminal rfl
      refine Meets.bind capturedFundingIntent_spec ?_
      rintro _ f ⟨w₄, h₄, rfl, hf⟩
      have hrow₄ : w₄.1.refund? r.id = some r := (h₄.refund (Set.mem_insert _ _)).trans hrow
      refine settleRefund_spec ⟨⟨⟨r, hrow₄, .refl _, fun _ => rfl⟩, by rw [hrs, hsc]⟩, hmil, hrs,
        fun hser y hy => .inr ?_⟩ (hsc ▸ hk)
      rw [hrow₄] at hy
      cases hy
      exact ⟨hpending, hf⟩

end Money
