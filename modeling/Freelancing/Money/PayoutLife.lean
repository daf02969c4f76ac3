import Freelancing.Money.RefundLife

/-!
# The life of a payout

What a commit does to the payouts, their journals and the events that announce them
(`PayoutEffect`), like `RefundEffect` of the refunds.
-/

namespace Money

/-- The events announce no payout. -/
def NoPaid (o : List OutboxEvent) :
    Prop := ∀ p reference, OutboxEvent.payoutSucceeded p reference ∉ o

/-- No journal was posted for a payout. -/
def NoPayoutJournal (l : List JournalTransaction) : Prop :=
  ∀ j ∈ l, ∀ id, j.key.reference ≠ .payout id

inductive PayoutEffect (R : Rules) (e : Providers) (d d' : Db) : CommitPoint → Prop
  | untouched (c : CommitPoint) (l : List JournalTransaction) (o : List OutboxEvent)
      (rows : d'.payouts = d.payouts) (adds : Adds d d' l o) (journals : NoPayoutJournal l)
      (outbox : NoPaid o) : PayoutEffect R e d d' c
  | reserved (p : Payout) (fresh : d.payout? p.id = none) (status : p.status = .pending)
      (reversal : p.reversal = none)
      (covered : p.amountMinor ≤ d.balance (.userWallet p.freelancer p.currency))
      (only : R.Serial → d.payoutOfRecord? p.idempotency = none)
      (operation : p.idempotency.operation = .payoutCreate)
      (rows : d'.payouts = p :: d.payouts) (adds : Adds d d' [p.reservationJournal] []) :
      PayoutEffect R e d d' (.payoutReserved p.id)
  | upgraded (p : Payout) (x : Destination) (row : d.payout? p.id = some p)
      (legacy : p.destination = none) (status : p.status = .pending)
      (rows : d'.payouts = (d.setDestination p.id x).payouts) (adds : Adds d d' [] []) :
      PayoutEffect R e d d' (.payoutUpgraded p.id)
  | succeeded (p : Payout) (reference : String) (row : d.payout? p.id = some p)
      (status : R.PayoutsFresh → p.status = .pending)
      (called : R.Serial → ∃ q res, R.Called q (.result res) e ∧ PayoutCall R p q ∧
        res.amountMinor = p.amountMinor ∧ res.currency = p.currency)
      (rows : d'.payouts = (d.succeedPayout p.id reference).payouts)
      (adds : Adds d d' [] [.payoutSucceeded p.id reference]) :
      PayoutEffect R e d d' (.payoutSucceeded p.id)
  | failed (p : Payout) (post : Bool) (row : d.payout? p.id = some p)
      (status : R.PayoutsFresh → p.status = .pending)
      (posted : post = !(d.journal? p.reversalJournal.key).isSome)
      (reserved : (d.journal? p.reservationKey).isSome)
      (called : R.Serial → ∃ q a, R.Called q a e ∧ PayoutCall R p q ∧
        (a = .failed ∨ ∃ res, a = .result res ∧
          (res.amountMinor ≠ p.amountMinor ∨ res.currency ≠ p.currency)))
      (rows : d'.payouts = (d.failPayout p.id p.reversalJournal.key).payouts)
      (adds : Adds d d' (if post then [p.reversalJournal] else []) []) :
      PayoutEffect R e d d' (.payoutFailed p.id)

variable {R : Rules} {d d' : Db} {e : Providers}

theorem PayoutEffect.of_eq {c : CommitPoint} {l : List JournalTransaction} {o : List OutboxEvent}
    (rows : d'.payouts = d.payouts) (journals : d'.journals = l ++ d.journals)
    (outbox : d'.outbox = o ++ d.outbox) (hl : NoPayoutJournal l) (ho : NoPaid o) :
    PayoutEffect R e d d' c := .untouched c l o rows ⟨journals, outbox⟩ hl ho

theorem NoPayoutJournal.nil : NoPayoutJournal [] := fun _ h => by cases h

theorem NoPayoutJournal.single {j : JournalTransaction} (h : ∀ id, j.key.reference ≠ .payout id) :
    NoPayoutJournal [j] := fun x hx => by
  rw [List.mem_singleton.1 hx]
  exact h

theorem NoPaid.nil : NoPaid [] := fun _ _ h => by cases h

theorem NoPaid.single {n : OutboxEvent} (h : ∀ p reference, n ≠ .payoutSucceeded p reference) :
    NoPaid [n] := fun p reference hm => h p reference (List.mem_singleton.1 hm).symm

theorem Notices.noPaid {o : List OutboxEvent} (h : Notices o) : NoPaid o := by
  intro p reference hm
  obtain ⟨_, _, _, _, _, he⟩ := h _ hm
  cases he

/-- **What a commit does to the payouts.** -/
theorem Effect.payout {c : CommitPoint} (h : Effect R e c d d') : PayoutEffect R e d d' c := by
  cases h with
  | replayed pre s r =>
    obtain ⟨_, _, rfl⟩ := pre
    exact .of_eq (l := []) (o := []) rfl rfl rfl .nil .nil
  | fundingStarted pre s r i m =>
    obtain ⟨_, _, rfl⟩ := pre
    exact .of_eq (l := []) (o := []) rfl rfl rfl .nil .nil
  | webhookIgnored ev => exact .of_eq (l := []) (o := []) rfl rfl rfl .nil .nil
  | webhookFailed ev i => exact .of_eq (l := []) (o := []) rfl rfl rfl .nil .nil
  | webhookCaptured ev i m oe f mv n pre fresh intent status milestone same open_ active fits escrow
      funding moved stays outbox =>
    obtain ⟨_, _, rfl⟩ := pre
    obtain ⟨b, rfl⟩ := outbox
    exact .of_eq (l := [_]) (o := [_]) (by cases oe <;> cases mv <;> rfl)
      (by cases oe <;> cases mv <;> rfl) (by cases oe <;> cases mv <;> rfl) (.single (by simp))
      (.single (by simp))
  | released pre s r m c x v v' =>
    obtain ⟨_, _, rfl⟩ := pre
    exact .of_eq (l := [_]) (o := [_]) rfl rfl rfl (.single (by simp)) (.single (by simp))
  | refundReserved pre r m =>
    obtain ⟨_, _, rfl⟩ := pre
    exact .of_eq (l := [_]) (o := []) rfl rfl rfl
      (.single (by simp [Refund.reservationJournal, Refund.reservationKey])) .nil
  | refundPending pre r reference =>
    obtain ⟨_, _, rfl⟩ := pre
    exact .of_eq (l := []) (o := []) rfl rfl rfl .nil .nil
  | refundSucceeded pre s resp r m v reference =>
    obtain ⟨_, _, rfl⟩ := pre
    exact .of_eq (l := []) (o := [_]) rfl rfl rfl .nil (.single (by simp))
  | refundFailed pre s resp r reference post =>
    obtain ⟨_, _, rfl⟩ := pre
    cases post with
    | false =>
      exact .of_eq (l := []) (o := []) (by cases reference <;> rfl) (by cases reference <;> rfl)
        (by cases reference <;> rfl) .nil .nil
    | true =>
      exact .of_eq (l := [r.reversalJournal]) (o := []) (by cases reference <;> rfl)
        (by cases reference <;> rfl) (by cases reference <;> rfl)
        (.single (by simp [Refund.reversalJournal])) .nil
  | milestoneMoved m v action => exact .of_eq (l := []) (o := []) rfl rfl rfl .nil .nil
  | contractCancelled c => exact .of_eq (l := []) (o := []) rfl rfl rfl .nil .nil
  | disputeOpened x m v ev users eventType title body =>
    obtain ⟨o, ho, hd⟩ := notified_outbox x.id users eventType title body
      (.addDisputeEvent x.id ev <| .moveMilestone m.id v <| .addDispute x d)
    rw [hd]
    exact .of_eq (l := []) (o := o) rfl rfl rfl .nil ho.noPaid
  | disputeMoved x target ev => exact .of_eq (l := []) (o := []) rfl rfl rfl .nil .nil
  | disputeResolved pre s resp x m c esc award refundMinor provider or v dec ev users
      eventType title body =>
    obtain ⟨_, _, rfl⟩ := pre
    obtain ⟨o, ho, hd⟩ := notified_outbox x.id users eventType title body _
    rw [hd]
    exact .of_eq (l := [_]) (o := o) (by cases or <;> rfl) (by cases or <;> rfl)
      (by cases or <;> rfl) (.single (by simp)) ho.noPaid
  | payoutReserved pre p fresh status reversal covered only operation =>
    obtain ⟨_, _, rfl⟩ := pre
    exact .reserved p fresh status reversal covered only operation rfl ⟨rfl, rfl⟩
  | payoutUpgraded pre p x payout legacy status =>
    obtain ⟨_, _, rfl⟩ := pre
    exact .upgraded p x payout legacy status rfl ⟨rfl, rfl⟩
  | payoutSucceeded pre s resp p reference payout status called =>
    obtain ⟨_, _, rfl⟩ := pre
    exact .succeeded p reference payout status called rfl ⟨rfl, rfl⟩
  | payoutFailed pre s resp p post payout status posted reserved called =>
    obtain ⟨_, _, rfl⟩ := pre
    exact .failed p post payout status posted reserved called (by cases post <;> rfl)
      ⟨by cases post <;> rfl, by cases post <;> rfl⟩

/-- The payouts of `d'` are those of `d₁`. -/
theorem payout?_of_rows {d₁ : Db} (h : d'.payouts = d₁.payouts) (id : PayoutId) :
    d'.payout? id = d₁.payout? id := by
  rw [Db.payout?, h, Db.payout?]

/-! ## One payout -/

/-- The journals that were posted for a payout. -/
def Db.payoutJournals (d : Db) (id : PayoutId) : List JournalTransaction :=
  d.journals.filter fun j => j.key.reference = .payout id

/-- The event announces the payout. -/
def OutboxEvent.pays (id : PayoutId) : OutboxEvent → Bool
  | .payoutSucceeded p _ => p = id
  | _ => false

/-- The number of events that announce the payout. -/
def Db.paidEvents (d : Db) (id : PayoutId) : Nat := d.outbox.countP (OutboxEvent.pays id)

/-- What a commit does to the payout `k`. -/
inductive PayoutMove (R : Rules) (e : Providers) (d d' : Db) (k : PayoutId) : CommitPoint → Prop
  | same (c : CommitPoint) (row : d'.payout? k = d.payout? k)
      (journals : d'.payoutJournals k = d.payoutJournals k)
      (events : d'.paidEvents k = d.paidEvents k) : PayoutMove R e d d' k c
  | reserved (p : Payout) (id : p.id = k) (fresh : d.payout? k = none)
      (status : p.status = .pending) (reversal : p.reversal = none)
      (covered : p.amountMinor ≤ d.balance (.userWallet p.freelancer p.currency))
      (only : R.Serial → d.payoutOfRecord? p.idempotency = none)
      (operation : p.idempotency.operation = .payoutCreate)
      (row : d'.payout? k = some p)
      (journals : d'.payoutJournals k = p.reservationJournal :: d.payoutJournals k)
      (events : d'.paidEvents k = d.paidEvents k) : PayoutMove R e d d' k (.payoutReserved k)
  | upgraded (p : Payout) (x : Destination) (before : d.payout? k = some p)
      (status : p.status = .pending) (row : d'.payout? k = some { p with destination := some x })
      (journals : d'.payoutJournals k = d.payoutJournals k)
      (events : d'.paidEvents k = d.paidEvents k) : PayoutMove R e d d' k (.payoutUpgraded k)
  | succeeded (p : Payout) (reference : String) (t : Nat) (before : d.payout? k = some p)
      (status : R.PayoutsFresh → p.status = .pending)
      (called : R.Serial → ∃ q res, R.Called q (.result res) e ∧ PayoutCall R p q ∧
        res.amountMinor = p.amountMinor ∧ res.currency = p.currency)
      (row : d'.payout? k = some { p with
        providerReference := some reference, status := .succeeded, completedAt := some t })
      (journals : d'.payoutJournals k = d.payoutJournals k)
      (events : d'.paidEvents k = d.paidEvents k + 1) : PayoutMove R e d d' k (.payoutSucceeded k)
  | failed (p : Payout) (post : Bool) (t : Nat) (before : d.payout? k = some p)
      (status : R.PayoutsFresh → p.status = .pending)
      (posted : post = !(d.journal? p.reversalJournal.key).isSome)
      (reserved : (d.journal? p.reservationKey).isSome)
      (called : R.Serial → ∃ q a, R.Called q a e ∧ PayoutCall R p q ∧
        (a = .failed ∨ ∃ res, a = .result res ∧
          (res.amountMinor ≠ p.amountMinor ∨ res.currency ≠ p.currency)))
      (row : d'.payout? k = some { p with
        reversal := some p.reversalJournal.key, status := .failed, completedAt := some t })
      (journals : d'.payoutJournals k =
        (if post then [p.reversalJournal] else []) ++ d.payoutJournals k)
      (events : d'.paidEvents k = d.paidEvents k) : PayoutMove R e d d' k (.payoutFailed k)

theorem payoutJournals_of_adds {l : List JournalTransaction} {o : List OutboxEvent}
    (h : Adds d d' l o) (k : PayoutId) : d'.payoutJournals k =
      (l.filter fun j => j.key.reference = .payout k) ++ d.payoutJournals k := by
  rw [Db.payoutJournals, h.journals, List.filter_append, Db.payoutJournals]

theorem paidEvents_of_adds {l : List JournalTransaction} {o : List OutboxEvent}
    (h : Adds d d' l o) (k : PayoutId) :
    d'.paidEvents k = o.countP (OutboxEvent.pays k) + d.paidEvents k := by
  rw [Db.paidEvents, h.outbox, List.countP_append, Db.paidEvents]

theorem NoPayoutJournal.filter {l : List JournalTransaction} (h : NoPayoutJournal l)
    (k : PayoutId) : (l.filter fun j => j.key.reference = .payout k) = [] := by
  refine List.filter_eq_nil_iff.2 fun j hj => ?_
  simpa using h j hj k

theorem NoPaid.countP {o : List OutboxEvent} (h : NoPaid o) (k : PayoutId) :
    o.countP (OutboxEvent.pays k) = 0 := by
  refine List.countP_eq_zero.2 fun n hn => ?_
  cases n with
  | payoutSucceeded p reference => exact absurd hn (h p reference)
  | _ => simp [OutboxEvent.pays]

theorem PayoutEffect.move {c : CommitPoint} (h : PayoutEffect R e d d' c) (k : PayoutId) :
    PayoutMove R e d d' k c := by
  cases h with
  | untouched c l o rows adds journals outbox =>
    exact .same c (payout?_of_rows rows k)
      (by rw [payoutJournals_of_adds adds, journals.filter, List.nil_append])
      (by rw [paidEvents_of_adds adds, outbox.countP, Nat.zero_add])
  | reserved p fresh status reversal covered only operation rows adds =>
    have hrow : d'.payout? k = (d.addPayout p).payout? k := payout?_of_rows rows k
    have hj := payoutJournals_of_adds adds k
    have he : d'.paidEvents k = d.paidEvents k := by simp [paidEvents_of_adds adds]
    rw [Db.payout?_addPayout] at hrow
    by_cases hk : p.id = k
    · subst hk
      rw [if_pos rfl] at hrow
      exact .reserved p rfl fresh status reversal covered only operation hrow
        (by simpa [Payout.reservationJournal, Payout.reservationKey] using hj) he
    · rw [if_neg hk] at hrow
      exact .same _ hrow
        (by simpa [Payout.reservationJournal, Payout.reservationKey, hk] using hj) he
  | upgraded p x row legacy status rows adds =>
    have hrow := payout?_of_rows rows k
    have hj : d'.payoutJournals k = d.payoutJournals k := by simp [payoutJournals_of_adds adds]
    have he : d'.paidEvents k = d.paidEvents k := by simp [paidEvents_of_adds adds]
    rw [Db.payout?_setDestination] at hrow
    by_cases hk : p.id = k
    · subst hk
      rw [row, Option.map_some, if_pos rfl] at hrow
      exact .upgraded p x row status hrow hj he
    · simp only [Ne.symm hk, if_false, Option.map_id'] at hrow
      exact .same _ hrow hj he
  | succeeded p reference row status called rows adds =>
    have hrow := payout?_of_rows rows k
    have hj : d'.payoutJournals k = d.payoutJournals k := by simp [payoutJournals_of_adds adds]
    have he := paidEvents_of_adds adds k
    rw [Db.payout?_succeedPayout] at hrow
    by_cases hk : p.id = k
    · subst hk
      rw [row, Option.map_some, if_pos rfl] at hrow
      exact .succeeded p reference d.clock row status called hrow hj
        (by simpa [OutboxEvent.pays, Nat.add_comm] using he)
    · simp only [Ne.symm hk, if_false, Option.map_id'] at hrow
      exact .same _ hrow hj (by simpa [OutboxEvent.pays, hk] using he)
  | failed p post row status posted reserved called rows adds =>
    have hrow := payout?_of_rows rows k
    have hj := payoutJournals_of_adds adds k
    have he : d'.paidEvents k = d.paidEvents k := by simp [paidEvents_of_adds adds]
    rw [Db.payout?_failPayout] at hrow
    by_cases hk : p.id = k
    · subst hk
      rw [row, Option.map_some, if_pos rfl] at hrow
      refine .failed p post d.clock row status posted reserved called hrow ?_ he
      rw [hj]
      cases post <;> simp [Payout.reversalJournal]
    · simp only [Ne.symm hk, if_false, Option.map_id'] at hrow
      refine .same _ hrow ?_ he
      rw [hj]
      cases post <;> simp [Payout.reversalJournal, hk]

/-- A payout that a commit has recorded is covered by its wallet. -/
theorem PayoutMove.covered {c : CommitPoint} {k : PayoutId}
    (h : PayoutMove R e d d' k c) {p : Payout} (hp : d'.payout? k = some p)
    (hnone : d.payout? k = none) :
    p.amountMinor ≤ d.balance (.userWallet p.freelancer p.currency) := by
  cases h with
  | same c row => simp [row, hnone] at hp
  | reserved q id fresh status reversal covered only operation row =>
    obtain rfl : q = p := by simpa [row] using hp
    exact covered
  | upgraded q x before => simp [before] at hnone
  | succeeded q reference t before => simp [before] at hnone
  | failed q post t before => simp [before] at hnone

end Money
