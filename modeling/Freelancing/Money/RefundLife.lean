import Freelancing.Money.MilestoneLife

/-!
# The life of a refund

What a commit does to the refunds, their journals and the events that announce them
(`RefundEffect`): it leaves them alone, or it records a refund or changes one.
-/

namespace Money

/-- The events announce no refund of a milestone. -/
def NoRefunded (o : List OutboxEvent) : Prop := ∀ m r, OutboxEvent.milestoneRefunded m r ∉ o

/-- No journal was posted for a refund. -/
def NoRefundJournal (l : List JournalTransaction) : Prop :=
  ∀ j ∈ l, ∀ id, j.key.reference ≠ .refund id

/-- The journals `l` and the events `o` are new in `d'`. -/
structure Adds (d d' : Db) (l : List JournalTransaction) (o : List OutboxEvent) : Prop where
  journals : d'.journals = l ++ d.journals
  outbox : d'.outbox = o ++ d.outbox

inductive RefundEffect (R : Rules) (d d' : Db) : CommitPoint → Prop
  | untouched (c : CommitPoint) (l : List JournalTransaction) (o : List OutboxEvent)
      (other : ∀ r, c ≠ .refundSucceeded r) (rows : d'.refunds = d.refunds) (adds : Adds d d' l o)
      (journals : NoRefundJournal l) (outbox : NoRefunded o) : RefundEffect R d d' c
  | reserved (r : Refund) (m : Milestone) (fresh : d.refund? r.id = none)
      (status : r.status = .pending) (operation : r.idempotency.operation = .milestoneRefund)
      (positive : 0 < r.amountMinor) (milestone : d.milestone? m.id = some m)
      (same : r.milestone = m.id) (funded : m.status = .funded)
      (all : R.Serial → r.amountMinor = d.balance m.escrowKey)
      (paid : R.Serial → ∃ i, latestCaptured (d.capturedThrough m.id r.provider) = some i)
      (rows : d'.refunds = { r with createdAt := d.clock } :: d.refunds)
      (adds : Adds d d' [r.reservationJournal] []) : RefundEffect R d d' (.refundReserved r.id)
  | pending (r : Refund) (reference : String) (row : d.refund? r.id = some r)
      (status : R.RefundsFresh → r.status = .pending)
      (rows : d'.refunds = (d.referRefund r.id reference).refunds) (adds : Adds d d' [] []) :
      RefundEffect R d d' (.refundPending r.id)
  | succeeded (r : Refund) (m : Milestone) (reference : String) (row : d.refund? r.id = some r)
      (status : R.RefundsFresh → r.status = .pending)
      (operation : r.idempotency.operation = .milestoneRefund)
      (milestone : d.milestone? m.id = some m) (same : r.milestone = m.id)
      (v : MilestoneEvent) (moved : v.Goes .funded .created) (moves : Moves d d' m .created [v])
      (rows : d'.refunds = ((d.referRefund r.id reference).finishRefund r.id .succeeded).refunds)
      (adds : Adds d d' [] [.milestoneRefunded m.id r.id]) :
      RefundEffect R d d' (.refundSucceeded r.id)
  | failed (r : Refund) (reference : Option String) (post : Bool) (row : d.refund? r.id = some r)
      (status : R.RefundsFresh → r.status = .pending)
      (operation : r.idempotency.operation = .milestoneRefund)
      (posted : post = !(d.journal? r.reversalJournal.key).isSome)
      (reserved : (d.journal? r.reservationKey).isSome)
      (rows : d'.refunds =
        ((whenSome (Db.referRefund r.id) reference d).finishRefund r.id .failed).refunds)
      (adds : Adds d d' (if post then [r.reversalJournal] else []) []) :
      RefundEffect R d d' (.refundFailed r.id)
  | sentBack (x : DisputeId) (r : Refund) (m : Milestone) (l : List JournalTransaction)
      (o : List OutboxEvent) (fresh : d.refund? r.id = none) (status : r.status = .succeeded)
      (operation : r.idempotency.operation = .disputeResolve) (positive : 0 < r.amountMinor)
      (milestone : d.milestone? m.id = some m) (same : r.milestone = m.id)
      (disputed : m.status = .disputed) (bounded : r.amountMinor ≤ m.amountMinor)
      (funded : R.Serial → d.balance m.escrowKey = m.amountMinor)
      (paid : R.Serial → ∃ i, latestCaptured (d.captured m.id) = some i ∧ i.provider = r.provider)
      (rows : d'.refunds = { r with createdAt := d.clock } :: d.refunds)
      (adds : Adds d d' l o) (journals : NoRefundJournal l) (outbox : NoRefunded o) :
      RefundEffect R d d' (.disputeResolved x)

variable {R : Rules} {d d' : Db} {e : Providers}

/-- Nothing of a refund is in a journal or in an event that says so by its constructor. -/
theorem RefundEffect.of_eq {c : CommitPoint} {l : List JournalTransaction} {o : List OutboxEvent}
    (other : ∀ r, c ≠ .refundSucceeded r) (rows : d'.refunds = d.refunds)
    (journals : d'.journals = l ++ d.journals) (outbox : d'.outbox = o ++ d.outbox)
    (hl : NoRefundJournal l) (ho : NoRefunded o) :
    RefundEffect R d d' c := .untouched c l o other rows ⟨journals, outbox⟩ hl ho

theorem NoRefundJournal.nil : NoRefundJournal [] := fun _ h => by cases h

theorem NoRefundJournal.single {j : JournalTransaction} (h : ∀ id, j.key.reference ≠ .refund id) :
    NoRefundJournal [j] := fun x hx => by
  rw [List.mem_singleton.1 hx]
  exact h

theorem NoRefunded.nil : NoRefunded [] := fun _ _ h => by cases h

theorem NoRefunded.single {n : OutboxEvent} (h : ∀ m r, n ≠ .milestoneRefunded m r) :
    NoRefunded [n] := fun m r hm => h m r (List.mem_singleton.1 hm).symm

/-- The events are notices about a dispute. -/
def Notices (o : List OutboxEvent) : Prop :=
  ∀ n ∈ o, ∃ x user eventType title body, n = .notificationRequested x user eventType title body

theorem Notices.noRefunded {o : List OutboxEvent} (h : Notices o) : NoRefunded o := by
  intro m r hm
  obtain ⟨_, _, _, _, _, he⟩ := h _ hm
  cases he

theorem notified_outbox (x : DisputeId) (users : List UserId) (eventType title body : String)
    (d : Db) : ∃ o, Notices o ∧
      notified x users eventType title body d = { d with outbox := o ++ d.outbox } := by
  induction users generalizing d with
  | nil => exact ⟨[], by simp [Notices], rfl⟩
  | cons u users ih =>
    obtain ⟨o, ho, hd⟩ := ih (d.enqueue (.notificationRequested x u eventType title body))
    refine ⟨o ++ [.notificationRequested x u eventType title body], fun n hn => ?_, ?_⟩
    · rcases List.mem_append.1 hn with hn | hn
      · exact ho n hn
      · exact ⟨_, _, _, _, _, List.mem_singleton.1 hn⟩
    · rw [List.append_assoc]
      exact hd

/-- **What a commit does to the refunds.** -/
theorem Effect.refund {c : CommitPoint} (h : Effect R e c d d') : RefundEffect R d d' c := by
  cases h with
  | replayed pre s r =>
    obtain ⟨_, _, rfl⟩ := pre
    exact .of_eq (l := []) (o := []) nofun rfl rfl rfl .nil .nil
  | fundingStarted pre s r i m =>
    obtain ⟨_, _, rfl⟩ := pre
    exact .of_eq (l := []) (o := []) nofun rfl rfl rfl .nil .nil
  | webhookIgnored ev => exact .of_eq (l := []) (o := []) nofun rfl rfl rfl .nil .nil
  | webhookFailed ev i => exact .of_eq (l := []) (o := []) nofun rfl rfl rfl .nil .nil
  | webhookCaptured ev i m oe f mv n pre fresh intent status milestone same open_ active fits escrow
      funding moved stays outbox =>
    obtain ⟨_, _, rfl⟩ := pre
    obtain ⟨b, rfl⟩ := outbox
    exact .of_eq (l := [_]) (o := [_]) nofun (by cases oe <;> cases mv <;> rfl)
      (by cases oe <;> cases mv <;> rfl) (by cases oe <;> cases mv <;> rfl)
      (.single (by rintro _ ⟨⟩)) (.single (by rintro _ _ ⟨⟩))
  | released pre s r m c x v v' =>
    obtain ⟨_, _, rfl⟩ := pre
    exact .of_eq (l := [_]) (o := [_]) nofun rfl rfl rfl (.single (by rintro _ ⟨⟩))
      (.single (by rintro _ _ ⟨⟩))
  | refundReserved pre r m fresh status positive operation milestone same currency
      funded all paid =>
    obtain ⟨_, _, rfl⟩ := pre
    exact .reserved r m fresh status operation positive milestone same funded all paid
      rfl ⟨rfl, rfl⟩
  | refundPending pre r reference refund status =>
    obtain ⟨_, _, rfl⟩ := pre
    exact .pending r reference refund status rfl ⟨rfl, rfl⟩
  | refundSucceeded pre s resp r m v reference refund status operation milestone same
      funded moved =>
    obtain ⟨_, _, rfl⟩ := pre
    exact .succeeded r m reference refund status operation milestone same v moved
      (.move milestone (funded ▸ moved) rfl) rfl ⟨rfl, rfl⟩
  | refundFailed pre s resp r reference post refund status operation posted reserved =>
    obtain ⟨_, _, rfl⟩ := pre
    exact .failed r reference post refund status operation posted reserved
      (by cases post <;> cases reference <;> rfl)
      ⟨by cases post <;> cases reference <;> rfl, by cases post <;> cases reference <;> rfl⟩
  | milestoneMoved m v action => exact .of_eq (l := []) (o := []) nofun rfl rfl rfl .nil .nil
  | contractCancelled c => exact .of_eq (l := []) (o := []) nofun rfl rfl rfl .nil .nil
  | disputeOpened x m v ev users eventType title body =>
    obtain ⟨o, ho, hd⟩ := notified_outbox x.id users eventType title body
      (.addDisputeEvent x.id ev <| .moveMilestone m.id v <| .addDispute x d)
    rw [hd]
    exact .of_eq (l := []) (o := o) nofun rfl rfl rfl .nil ho.noRefunded
  | disputeMoved x target ev => exact .of_eq (l := []) (o := []) nofun rfl rfl rfl .nil .nil
  | disputeResolved pre s resp x m c esc award refundMinor provider or v dec ev users
      eventType title body dispute review undecided milestone same disputed contract escrow
      funded split refund =>
    obtain ⟨_, _, rfl⟩ := pre
    rcases refund with ⟨-, rfl⟩ | ⟨r, rfl, hpos, hm, rfl, ha, hs, hop, hfresh, hpaid⟩
    · obtain ⟨o, ho, hd⟩ := notified_outbox x.id users eventType title body _
      rw [hd]
      exact .of_eq (l := [_]) (o := o) nofun rfl rfl rfl (.single (by rintro _ ⟨⟩)) ho.noRefunded
    · obtain ⟨o, ho, hd⟩ := notified_outbox x.id users eventType title body _
      rw [hd]
      exact .sentBack x.id r m [_] o hfresh hs hop (by omega) milestone hm disputed
        (by omega) funded hpaid rfl ⟨rfl, rfl⟩ (.single (by rintro _ ⟨⟩)) ho.noRefunded
  | payoutReserved pre p =>
    obtain ⟨_, _, rfl⟩ := pre
    exact .of_eq (l := [_]) (o := []) nofun rfl rfl rfl (.single (by rintro _ ⟨⟩)) .nil
  | payoutUpgraded pre p x =>
    obtain ⟨_, _, rfl⟩ := pre
    exact .of_eq (l := []) (o := []) nofun rfl rfl rfl .nil .nil
  | payoutSucceeded pre s resp p reference =>
    obtain ⟨_, _, rfl⟩ := pre
    exact .of_eq (l := []) (o := [_]) nofun rfl rfl rfl .nil (.single (by rintro _ _ ⟨⟩))
  | payoutFailed pre s resp p post =>
    obtain ⟨_, _, rfl⟩ := pre
    cases post with
    | false => exact .of_eq (l := []) (o := []) nofun rfl rfl rfl .nil .nil
    | true => exact .of_eq (l := [_]) (o := []) nofun rfl rfl rfl (.single (by rintro _ ⟨⟩)) .nil

/-! ## The rows afterwards -/

theorem mem_modify_keeps {id : RefundId} {f : Refund → Refund} {l : List Refund} {r : Refund}
    (hf : ∀ x : Refund, x.Keeps (f x)) (h : r ∈ Table.modify Refund.id id f l) :
    ∃ x ∈ l, x.Keeps r := by
  obtain ⟨x, hx, rfl⟩ := Table.mem_modify.1 h
  refine ⟨x, hx, ?_⟩
  split
  · exact hf x
  · exact .refl x

/-- A refund was there before, or the commit has recorded it. -/
theorem RefundEffect.mem {c : CommitPoint} (h : RefundEffect R d d' c) {r : Refund}
    (hr : r ∈ d'.refunds) : (∃ x ∈ d.refunds, x.Keeps r) ∨
      ∃ m, d.milestone? m.id = some m ∧ r.milestone = m.id ∧
        (r.idempotency.operation = .disputeResolve ∧ m.status = .disputed ∨
          m.status = .funded ∧ 0 < r.amountMinor ∧
            (R.Serial → r.amountMinor = d.balance m.escrowKey)) := by
  have hsame : r ∈ d.refunds → ∃ x ∈ d.refunds, x.Keeps r := fun h => ⟨r, h, .refl r⟩
  have href : ∀ {id : RefundId} {reference : String}, r ∈ (d.referRefund id reference).refunds →
      ∃ x ∈ d.refunds, x.Keeps r := fun h => mem_modify_keeps (fun _ => ⟨_, _, rfl⟩) h
  cases h with
  | untouched c l o other rows => exact .inl (hsame (rows ▸ hr))
  | reserved r₁ m fresh status operation positive milestone same funded all paid rows =>
    rw [rows] at hr
    rcases List.mem_cons.1 hr with rfl | hr
    · exact .inr ⟨m, milestone, same, .inr ⟨funded, positive, all⟩⟩
    · exact .inl (hsame hr)
  | pending r₁ reference row status rows => exact .inl (href (rows ▸ hr))
  | succeeded r₁ m reference row status operation milestone same v moved moves rows =>
    rw [rows] at hr
    obtain ⟨y, hy, hyr⟩ := mem_modify_keeps (fun _ => ⟨_, _, rfl⟩) hr
    obtain ⟨x, hx, hxy⟩ := mem_modify_keeps (fun _ => ⟨_, _, rfl⟩) hy
    exact .inl ⟨x, hx, hxy.trans _ _ _ hyr⟩
  | failed r₁ reference post row status operation posted reserved rows =>
    rw [rows] at hr
    obtain ⟨y, hy, hyr⟩ := mem_modify_keeps (fun _ => ⟨_, _, rfl⟩) hr
    cases reference with
    | none => exact .inl ⟨y, hy, hyr⟩
    | some reference =>
      obtain ⟨x, hx, hxy⟩ := mem_modify_keeps (fun _ => ⟨_, _, rfl⟩) hy
      exact .inl ⟨x, hx, hxy.trans _ _ _ hyr⟩
  | sentBack x r₁ m l o fresh status operation positive milestone same disputed bounded funded paid
      rows =>
    rw [rows] at hr
    rcases List.mem_cons.1 hr with rfl | hr
    · exact .inr ⟨m, milestone, same, .inl ⟨operation, disputed⟩⟩
    · exact .inl (hsame hr)

/-! ## One refund -/

/-- A journal that is not among those of its reference has not been posted. -/
theorem Db.journal?_eq_none {d : Db} {op : JournalOperation} {ref : Reference}
    {l : List JournalTransaction} (hl : (d.journals.filter fun j => j.key.reference = ref) = l)
    (h : ∀ j ∈ l, j.key.operation ≠ op) : d.journal? ⟨op, ref⟩ = none := by
  refine Table.get_eq_none.2 fun j hj hk => h j ?_ (by rw [hk])
  rw [← hl]
  exact List.mem_filter.2 ⟨hj, by simp [hk]⟩

/-- The journals that were posted for a refund. -/
def Db.refundJournals (d : Db) (id : RefundId) : List JournalTransaction :=
  d.journals.filter fun j => j.key.reference = .refund id

/-- The event announces the refund. -/
def OutboxEvent.refunds (id : RefundId) : OutboxEvent → Bool
  | .milestoneRefunded _ r => r = id
  | _ => false

/-- The number of events that announce the refund. -/
def Db.refundedEvents (d : Db) (id : RefundId) : Nat := d.outbox.countP (OutboxEvent.refunds id)

/-- What a commit does to the refund `k`. -/
inductive RefundMove (R : Rules) (d d' : Db) (k : RefundId) : CommitPoint → Prop
  | same (c : CommitPoint) (row : d'.refund? k = d.refund? k)
      (journals : d'.refundJournals k = d.refundJournals k)
      (events : d'.refundedEvents k = d.refundedEvents k) : RefundMove R d d' k c
  | reserved (r : Refund) (id : r.id = k) (fresh : d.refund? k = none)
      (status : r.status = .pending) (operation : r.idempotency.operation = .milestoneRefund)
      (row : d'.refund? k = some { r with createdAt := d.clock })
      (journals : d'.refundJournals k = r.reservationJournal :: d.refundJournals k)
      (events : d'.refundedEvents k = d.refundedEvents k) : RefundMove R d d' k (.refundReserved k)
  | pending (r : Refund) (reference : String) (before : d.refund? k = some r)
      (status : R.RefundsFresh → r.status = .pending)
      (row : d'.refund? k = some { r with providerReference := some reference })
      (journals : d'.refundJournals k = d.refundJournals k)
      (events : d'.refundedEvents k = d.refundedEvents k) : RefundMove R d d' k (.refundPending k)
  | succeeded (r : Refund) (reference : String) (before : d.refund? k = some r)
      (status : R.RefundsFresh → r.status = .pending)
      (operation : r.idempotency.operation = .milestoneRefund)
      (row : d'.refund? k = some { r with
        providerReference := some reference, status := .succeeded })
      (journals : d'.refundJournals k = d.refundJournals k)
      (events : d'.refundedEvents k = d.refundedEvents k + 1) :
      RefundMove R d d' k (.refundSucceeded k)
  | failed (r : Refund) (reference : Option String) (post : Bool) (before : d.refund? k = some r)
      (status : R.RefundsFresh → r.status = .pending)
      (operation : r.idempotency.operation = .milestoneRefund)
      (posted : post = !(d.journal? r.reversalJournal.key).isSome)
      (row : d'.refund? k = some { r with providerReference := reference, status := .failed })
      (journals : d'.refundJournals k =
        (if post then [r.reversalJournal] else []) ++ d.refundJournals k)
      (events : d'.refundedEvents k = d.refundedEvents k) : RefundMove R d d' k (.refundFailed k)
  | sentBack (x : DisputeId) (r : Refund) (id : r.id = k) (fresh : d.refund? k = none)
      (status : r.status = .succeeded) (operation : r.idempotency.operation = .disputeResolve)
      (row : d'.refund? k = some { r with createdAt := d.clock })
      (journals : d'.refundJournals k = d.refundJournals k)
      (events : d'.refundedEvents k = d.refundedEvents k) : RefundMove R d d' k (.disputeResolved x)

theorem refund?_of_rows {d₁ : Db} (h : d'.refunds = d₁.refunds) (id : RefundId) :
    d'.refund? id = d₁.refund? id := by
  rw [Db.refund?, h, Db.refund?]

theorem refundJournals_of_adds {l : List JournalTransaction} {o : List OutboxEvent}
    (h : Adds d d' l o) (k : RefundId) : d'.refundJournals k =
      (l.filter fun j => j.key.reference = .refund k) ++ d.refundJournals k := by
  rw [Db.refundJournals, h.journals, List.filter_append, Db.refundJournals]

theorem refundedEvents_of_adds {l : List JournalTransaction} {o : List OutboxEvent}
    (h : Adds d d' l o) (k : RefundId) :
    d'.refundedEvents k = o.countP (OutboxEvent.refunds k) + d.refundedEvents k := by
  rw [Db.refundedEvents, h.outbox, List.countP_append, Db.refundedEvents]

theorem NoRefundJournal.filter {l : List JournalTransaction} (h : NoRefundJournal l)
    (k : RefundId) : (l.filter fun j => j.key.reference = .refund k) = [] := by
  refine List.filter_eq_nil_iff.2 fun j hj => ?_
  simpa using h j hj k

theorem NoRefunded.countP {o : List OutboxEvent} (h : NoRefunded o) (k : RefundId) :
    o.countP (OutboxEvent.refunds k) = 0 := by
  refine List.countP_eq_zero.2 fun n hn => ?_
  cases n with
  | milestoneRefunded m r => exact absurd hn (h m r)
  | _ => simp [OutboxEvent.refunds]

theorem RefundEffect.move {c : CommitPoint} (h : RefundEffect R d d' c) (k : RefundId) :
    RefundMove R d d' k c := by
  cases h with
  | untouched c l o other rows adds journals outbox =>
    exact .same c (refund?_of_rows rows k)
      (by rw [refundJournals_of_adds adds, journals.filter, List.nil_append])
      (by rw [refundedEvents_of_adds adds, outbox.countP, Nat.zero_add])
  | reserved r m fresh status operation positive milestone same funded all paid rows adds =>
    have hrow : d'.refund? k = (d.addRefund r).refund? k := refund?_of_rows rows k
    have hj := refundJournals_of_adds adds k
    have he : d'.refundedEvents k = d.refundedEvents k := by simp [refundedEvents_of_adds adds]
    rw [Db.refund?_addRefund] at hrow
    by_cases hk : r.id = k
    · subst hk
      rw [if_pos rfl] at hrow
      exact .reserved r rfl fresh status operation hrow
        (by simpa [Refund.reservationJournal, Refund.reservationKey] using hj) he
    · rw [if_neg hk] at hrow
      exact .same _ hrow
        (by simpa [Refund.reservationJournal, Refund.reservationKey, hk] using hj) he
  | pending r reference row status rows adds =>
    have hrow := refund?_of_rows rows k
    have hj : d'.refundJournals k = d.refundJournals k := by simp [refundJournals_of_adds adds]
    have he : d'.refundedEvents k = d.refundedEvents k := by simp [refundedEvents_of_adds adds]
    rw [Db.refund?_referRefund] at hrow
    by_cases hk : r.id = k
    · subst hk
      rw [row, Option.map_some, if_pos rfl] at hrow
      exact .pending r reference row status hrow hj he
    · simp only [Ne.symm hk, if_false, Option.map_id'] at hrow
      exact .same _ hrow hj he
  | succeeded r m reference row status operation milestone same v moved moves rows adds =>
    have hrow := refund?_of_rows rows k
    have hj : d'.refundJournals k = d.refundJournals k := by simp [refundJournals_of_adds adds]
    have he := refundedEvents_of_adds adds k
    rw [Db.refund?_finishRefund, Db.refund?_referRefund] at hrow
    by_cases hk : r.id = k
    · subst hk
      rw [row, Option.map_some, if_pos rfl, Option.map_some, if_pos rfl] at hrow
      exact .succeeded r reference row status operation hrow hj
        (by simpa [OutboxEvent.refunds, Nat.add_comm] using he)
    · simp only [Ne.symm hk, if_false, Option.map_id'] at hrow
      exact .same _ hrow hj (by simpa [OutboxEvent.refunds, hk] using he)
  | failed r reference post row status operation posted reserved rows adds =>
    have hrow := refund?_of_rows rows k
    have hj := refundJournals_of_adds adds k
    have he : d'.refundedEvents k = d.refundedEvents k := by simp [refundedEvents_of_adds adds]
    rw [Db.refund?_finishRefund] at hrow
    by_cases hk : r.id = k
    · subst hk
      have hj' : d'.refundJournals r.id =
          (if post then [r.reversalJournal] else []) ++ d.refundJournals r.id := by
        rw [hj]
        cases post <;> simp [Refund.reversalJournal]
      cases reference with
      | none =>
        rw [whenSome, row, Option.map_some, if_pos rfl] at hrow
        exact .failed r _ post row status operation posted hrow hj' he
      | some reference =>
        rw [whenSome, Db.refund?_referRefund, row, Option.map_some, if_pos rfl, Option.map_some,
          if_pos rfl] at hrow
        exact .failed r _ post row status operation posted hrow hj' he
    · have hrow' : d'.refund? k = d.refund? k := by
        rw [hrow]
        cases reference <;> simp [whenSome, Ne.symm hk]
      refine .same _ hrow' ?_ he
      rw [hj]
      cases post <;> simp [Refund.reversalJournal, hk]
  | sentBack x r m l o fresh status operation positive milestone same disputed bounded funded paid
      rows adds journals outbox =>
    have hrow : d'.refund? k = (d.addRefund r).refund? k := refund?_of_rows rows k
    have hj : d'.refundJournals k = d.refundJournals k := by
      rw [refundJournals_of_adds adds, journals.filter, List.nil_append]
    have he : d'.refundedEvents k = d.refundedEvents k := by
      rw [refundedEvents_of_adds adds, outbox.countP, Nat.zero_add]
    rw [Db.refund?_addRefund] at hrow
    by_cases hk : r.id = k
    · subst hk
      rw [if_pos rfl] at hrow
      exact .sentBack x r rfl fresh status operation hrow hj he
    · rw [if_neg hk] at hrow
      exact .same _ hrow hj he

end Money
