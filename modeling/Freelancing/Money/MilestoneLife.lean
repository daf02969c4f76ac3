import Freelancing.Money.Runs

/-!
# The life of a milestone

A milestone as its status and the balance of its escrow. Every commit leaves all milestones alone
(`Untouched`), or it touches one of them (`Touches`) in one of eight ways (`MilestoneEffect`).
-/

namespace Money

/-- No milestone has changed, nor has what is on the escrow accounts. -/
structure Untouched (d d' : Db) : Prop where
  rows : ∀ k, d'.milestone? k = d.milestone? k
  balances : ∀ k c, d'.balance (.milestoneEscrow k c) = d.balance (.milestoneEscrow k c)
  escrows : ∀ k, d'.escrow? k = d.escrow? k

/-- The events `evs` record the steps from `a` to `b`, one each. -/
inductive Trace : MilestoneStatus → List MilestoneEvent → MilestoneStatus → Prop
  | nil (a : MilestoneStatus) : Trace a [] a
  | cons {a b c : MilestoneStatus} {v : MilestoneEvent} {evs : List MilestoneEvent}
      (head : v.Goes a b) (tail : Trace b evs c) : Trace a (v :: evs) c

/-- The milestone `m` moves to the status `s`, no other does; each step is recorded. -/
structure Moves (d d' : Db) (m : Milestone) (s : MilestoneStatus) (evs : List MilestoneEvent) :
    Prop where
  row : d.milestone? m.id = some m
  row' : d'.milestone? m.id = some { m with status := s, events := m.events ++ evs }
  trace : Trace m.status evs s
  others : ∀ k, k ≠ m.id → d'.milestone? k = d.milestone? k

/-- The escrow of `m` changes by `n`, no other does. -/
structure Posts (d d' : Db) (m : Milestone) (n : Int) : Prop where
  balance : d'.balance m.escrowKey = d.balance m.escrowKey + n
  balances : ∀ k c, k ≠ m.id → d'.balance (.milestoneEscrow k c) = d.balance (.milestoneEscrow k c)

structure Touches (d d' : Db) (m : Milestone) (s : MilestoneStatus) (evs : List MilestoneEvent)
    (n : Int) : Prop extends Moves d d' m s evs, Posts d d' m n where
  escrows : ∀ k, (d.escrow? k).isSome → (d'.escrow? k).isSome

/-- The step that an event records. -/
def MilestoneEvent.step (v : MilestoneEvent) : MilestoneStatus × MilestoneStatus :=
  (v.fromStatus, v.toStatus)

theorem MilestoneEvent.Goes.step {v : MilestoneEvent} {a b : MilestoneStatus} (h : v.Goes a b) :
    v.step = (a, b) := by
  rw [MilestoneEvent.step, h.1, h.2]

/-- The ways in which a commit on `d` may touch the milestone `m`: the steps, the status they lead
to and the change of the escrow. -/
inductive MilestoneEffect (R : Rules) (d d' : Db) (m : Milestone) :
    CommitPoint → List (MilestoneStatus × MilestoneStatus) → MilestoneStatus → Int → Prop
  | captured (k : EventKey) (i : PaymentIntent) (l : List (MilestoneStatus × MilestoneStatus))
      (s : MilestoneStatus) (intent : d.intent? i.id = some i) (same : i.milestone = m.id)
      (open_ : m.status = .created ∨ m.status = .funded)
      (status : l = [] ∧ s = m.status ∨
        m.status = .created ∧ l = [(.created, .funded)] ∧ s = .funded)
      (fits : R.Serial → d.balance m.escrowKey + i.amountMinor ≤ m.amountMinor)
      (escrow : (d'.escrow? m.id).isSome)
      (active : R.ContractsFresh → ∃ c, d.contract? m.contract = some c ∧ c.status = .active)
      (stays : l = [] → m.status = .funded ∨
        (R.Serial → d.balance m.escrowKey + i.amountMinor ≠ m.amountMinor)) :
      MilestoneEffect R d d' m (.webhookProcessed k (some i.id)) l s i.amountMinor
  | released (status : m.status = .approved)
      (funded : R.Serial → d.balance m.escrowKey = m.amountMinor) :
      MilestoneEffect R d d' m (.released m.id)
        [(.approved, .releasePending), (.releasePending, .released)] .released (-m.amountMinor)
  | refundReserved (r : Refund) (status : m.status = .funded)
      (all : R.Serial → r.amountMinor = d.balance m.escrowKey)
      (row : ∃ x, d'.refund? r.id = some x ∧ x.milestone = m.id) :
      MilestoneEffect R d d' m (.refundReserved r.id) [] m.status (-r.amountMinor)
  | refundSucceeded (r : RefundId) (status : m.status = .funded)
      (refund : ∃ x, d.refund? r = some x ∧ x.milestone = m.id ∧
        (R.RefundsFresh → x.status = .pending)) :
      MilestoneEffect R d d' m (.refundSucceeded r) [(.funded, .created)] .created 0
  | refundFailed (r : Refund) (post : Bool) (refund : d.refund? r.id = some r)
      (same : r.milestone = m.id) (status : R.RefundsFresh → r.status = .pending)
      (operation : r.idempotency.operation = .milestoneRefund) :
      MilestoneEffect R d d' m (.refundFailed r.id) [] m.status (if post then r.amountMinor else 0)
  | moved (action : MilestoneAction) (allowed : m.status ∈ userTransitions action)
      (start : R.Serial → action = .start →
        (d.escrow? m.id).isSome ∧ d.balance m.escrowKey = m.amountMinor) :
      MilestoneEffect R d d' m (.milestoneMoved m.id) [(m.status, action.target)] action.target 0
  | disputed (open_ : m.status ∈ openableMilestoneStates) :
      MilestoneEffect R d d' m (.disputeOpened m.id) [(m.status, .disputed)] .disputed 0
  | resolved (x : DisputeId) (status : m.status = .disputed)
      (funded : R.Serial → d.balance m.escrowKey = m.amountMinor) :
      MilestoneEffect R d d' m (.disputeResolved x)
        [(.disputed, .released)] .released (-m.amountMinor)

/-! ## How an update touches -/

section
variable {d d' : Db}

theorem Untouched.of_eq (hm : d'.milestones = d.milestones) (hj : d'.journals = d.journals)
    (he : d'.escrows = d.escrows) : Untouched d d' where
  rows k := by rw [Db.milestone?, hm, Db.milestone?]
  balances k c := by rw [Db.balance, Db.entries, hj, Db.balance, Db.entries]
  escrows k := by rw [Db.escrow?, he, Db.escrow?]

theorem balance_of_journal {j : JournalTransaction} (hj : d'.journals = j :: d.journals)
    (k : AccountKey) : d'.balance k = DoubleEntry.balance j.entries k + d.balance k := by
  rw [← Db.balance_addJournal, Db.balance, Db.entries, hj]
  rfl

/-- A journal that leaves the escrows alone. -/
theorem Untouched.journal {j : JournalTransaction} (hm : d'.milestones = d.milestones)
    (hj : d'.journals = j :: d.journals) (he : d'.escrows = d.escrows)
    (hn : ∀ k c, DoubleEntry.balance j.entries (.milestoneEscrow k c) = 0) : Untouched d d' where
  rows k := by rw [Db.milestone?, hm, Db.milestone?]
  balances k c := by rw [balance_of_journal hj, hn, Int.zero_add]
  escrows k := by rw [Db.escrow?, he, Db.escrow?]

variable {m : Milestone} {v : MilestoneEvent} {n : Int}

theorem Moves.of_eq (hrow : d.milestone? m.id = some m) (hm : d'.milestones = d.milestones) :
    Moves d d' m m.status [] where
  row := hrow
  row' := by
    rw [Db.milestone?, hm, List.append_nil]
    exact hrow
  trace := .nil _
  others k _ := by rw [Db.milestone?, hm, Db.milestone?]

theorem Moves.move {s : MilestoneStatus} (hrow : d.milestone? m.id = some m)
    (hv : v.Goes m.status s) (hm : d'.milestones = (d.moveMilestone m.id v).milestones) :
    Moves d d' m s [v] := by
  have hrows : ∀ k, d'.milestone? k = (d.moveMilestone m.id v).milestone? k := fun k => by
    rw [Db.milestone?, hm, Db.milestone?]
  refine ⟨hrow, ?_, .cons hv (.nil s), fun k hk => ?_⟩
  · rw [hrows, Db.milestone?_moveMilestone, hrow, Option.map_some, if_pos rfl, hv.2]
  · rw [hrows, Db.milestone?_moveMilestone]
    simp [hk]

theorem Trace.snoc {a b c : MilestoneStatus} {evs : List MilestoneEvent} (h : Trace a evs b)
    (hv : v.Goes b c) : Trace a (evs ++ [v]) c := by
  induction h with
  | nil a => exact .cons hv (.nil c)
  | cons head _ ih => exact .cons head (ih hv)

theorem Moves.again {s s' : MilestoneStatus} {evs : List MilestoneEvent} {d'' : Db}
    (h : Moves d d' m s evs) (hv : v.Goes s s')
    (hm : d''.milestones = (d'.moveMilestone m.id v).milestones) :
    Moves d d'' m s' (evs ++ [v]) := by
  have hrows : ∀ k, d''.milestone? k = (d'.moveMilestone m.id v).milestone? k := fun k => by
    rw [Db.milestone?, hm, Db.milestone?]
  refine ⟨h.row, ?_, h.trace.snoc hv, fun k hk => ?_⟩
  · rw [hrows, Db.milestone?_moveMilestone, h.row', Option.map_some, if_pos rfl, hv.2,
      List.append_assoc]
  · rw [hrows, Db.milestone?_moveMilestone, ← h.others k hk]
    simp [hk]

theorem Posts.of_eq (hj : d'.journals = d.journals) : Posts d d' m 0 where
  balance := by rw [Db.balance, Db.entries, hj, Int.add_zero, Db.balance, Db.entries]
  balances k c _ := by rw [Db.balance, Db.entries, hj, Db.balance, Db.entries]

theorem Posts.journal {j : JournalTransaction} (hj : d'.journals = j :: d.journals)
    (hb : DoubleEntry.balance j.entries m.escrowKey = n)
    (hn : ∀ k c, k ≠ m.id → DoubleEntry.balance j.entries (.milestoneEscrow k c) = 0) :
    Posts d d' m n where
  balance := by rw [balance_of_journal hj, hb, Int.add_comm]
  balances k c hk := by rw [balance_of_journal hj, hn k c hk, Int.zero_add]

theorem escrows_of_eq (he : d'.escrows = d.escrows) (k : MilestoneId)
    (h : (d.escrow? k).isSome) : (d'.escrow? k).isSome := by
  rw [Db.escrow?, he]
  exact h

end

theorem notified_eq (x : DisputeId) (users : List UserId) (eventType title body : String) (d : Db) :
    ∃ o, notified x users eventType title body d = { d with outbox := o } := by
  induction users generalizing d with
  | nil => exact ⟨_, rfl⟩
  | cons u users ih =>
    obtain ⟨o, ho⟩ := ih (d.enqueue (.notificationRequested x u eventType title body))
    exact ⟨o, ho⟩

/-! ## What the journals do to the escrows -/

@[simp] theorem balance_fundEntries (i : PaymentIntent) (m : Milestone) (k : MilestoneId)
    (c : Currency) : DoubleEntry.balance (fundEntries i m) (.milestoneEscrow k c) =
      if m.escrowKey = .milestoneEscrow k c then i.amountMinor else 0 := by
  simp [fundEntries, Milestone.escrowKey, DoubleEntry.Entry.signed]

@[simp] theorem balance_releaseEntries (m : Milestone) (x : MilestoneEscrow) (u : UserId)
    (k : MilestoneId) (c : Currency) :
    DoubleEntry.balance (releaseEntries m x u) (.milestoneEscrow k c) =
      if m.escrowKey = .milestoneEscrow k c then -m.amountMinor else 0 := by
  unfold releaseEntries
  dsimp only
  split <;> simp [Milestone.escrowKey, DoubleEntry.Entry.signed]

@[simp] theorem balance_resolutionEntries (m : Milestone) (funded : Int) (u : UserId)
    (net commission : Int) (p : Provider) (refund : Int) (k : MilestoneId) (c : Currency) :
    DoubleEntry.balance (resolutionEntries m funded u net commission p refund)
      (.milestoneEscrow k c) = if m.escrowKey = .milestoneEscrow k c then -funded else 0 := by
  unfold resolutionEntries awardEntries clientEntries
  split <;> split <;> split <;> simp [Milestone.escrowKey, DoubleEntry.Entry.signed]

@[simp] theorem balance_refund_reservation (r : Refund) (k : MilestoneId) (c : Currency) :
    DoubleEntry.balance r.reservation (.milestoneEscrow k c) =
      if r.milestone = k ∧ r.currency = c then -r.amountMinor else 0 := by
  simp [Refund.reservation, DoubleEntry.Entry.signed]

@[simp] theorem balance_refund_reversal (r : Refund) (k : MilestoneId) (c : Currency) :
    DoubleEntry.balance r.reversal (.milestoneEscrow k c) =
      if r.milestone = k ∧ r.currency = c then r.amountMinor else 0 := by
  simp [Refund.reversal, DoubleEntry.Entry.signed]

@[simp] theorem balance_payout_reservation (p : Payout) (k : MilestoneId) (c : Currency) :
    DoubleEntry.balance p.reservation (.milestoneEscrow k c) = 0 := by
  simp [Payout.reservation]

@[simp] theorem balance_payout_reversal (p : Payout) (k : MilestoneId) (c : Currency) :
    DoubleEntry.balance p.reversalEntries (.milestoneEscrow k c) = 0 := by
  simp [Payout.reversalEntries]

/-! ## What a commit does to the milestones -/

theorem escrow?_whenSome {d : Db} {oe : Option MilestoneEscrow} {k : MilestoneId}
    (h : (d.escrow? k).isSome ∨ ∃ x, oe = some x ∧ x.milestone = k) :
    ((whenSome Db.addEscrow oe d).escrow? k).isSome := by
  cases oe with
  | none =>
    rcases h with h | ⟨_, hx, -⟩
    · exact h
    · cases hx
  | some x =>
    show ((d.addEscrow x).escrow? k).isSome
    rw [Db.escrow?_addEscrow]
    split
    · rfl
    · rename_i hne
      rcases h with h | ⟨y, hy, hk⟩
      · exact h
      · cases hy
        exact absurd hk hne

variable {R : Rules} {e : Providers} {d d' : Db}

/-- A capture touches its milestone. -/
theorem captured_life {m : Milestone} {ev : ProviderEvent} {i : PaymentIntent}
    {oe : Option MilestoneEscrow} {f : MilestoneFunding} {mv : Option MilestoneEvent}
    {n : OutboxEvent} {d₀ : Db} (pre : Prepared (whenSome .addEscrow oe <| .addEvent ev d) d₀)
    (intent : d.intent? i.id = some i) (milestone : d.milestone? m.id = some m)
    (same : i.milestone = m.id) (open_ : m.status = .created ∨ m.status = .funded)
    (active : R.ContractsFresh → ∃ c, d.contract? m.contract = some c ∧ c.status = .active)
    (fits : R.Serial → d.balance m.escrowKey + i.amountMinor ≤ m.amountMinor)
    (escrow : (d.escrow? m.id).isSome ∨ ∃ x, oe = some x ∧ x.milestone = m.id)
    (moved : ∀ v, mv = some v → m.status = .created ∧ v.Goes .created .funded)
    (stays : mv = none → m.status = .funded ∨
      (R.Serial → d.balance m.escrowKey + i.amountMinor ≠ m.amountMinor))
    (hd' : d' = (.enqueue n <| whenSome (.moveMilestone m.id) mv <| .captureIntent i.id <|
      .addFunding f <|
      .addJournal ⟨⟨.milestoneFund, .paymentIntent i.id⟩, none, fundEntries i m⟩ d₀)) :
    ∃ s evs, Touches d d' m s evs i.amountMinor ∧
      MilestoneEffect R d d' m (.webhookProcessed ev.key (some i.id))
        (evs.map MilestoneEvent.step) s
        i.amountMinor := by
  obtain ⟨_, _, rfl⟩ := pre
  have hj : d'.journals = ⟨⟨.milestoneFund, .paymentIntent i.id⟩, none, fundEntries i m⟩ ::
      d.journals := by
    subst hd'
    cases oe <;> cases mv <;> rfl
  have he : d'.escrows = (whenSome Db.addEscrow oe d).escrows := by
    subst hd'
    cases oe <;> cases mv <;> rfl
  have hescrow : ∀ k, (d.escrow? k).isSome ∨ (∃ x, oe = some x ∧ x.milestone = k) →
      (d'.escrow? k).isSome := fun k hk => by
    rw [Db.escrow?, he]
    exact escrow?_whenSome hk
  have hposts : Posts d d' m i.amountMinor :=
    .journal hj (by simp [Milestone.escrowKey]) fun k c hk => by
      simp [Milestone.escrowKey, Ne.symm hk]
  have htouch : ∀ s evs, Moves d d' m s evs → Touches d d' m s evs i.amountMinor :=
    fun s evs hm => ⟨hm, hposts, fun k hk => hescrow k (.inl hk)⟩
  cases mv with
  | none =>
    have hm : d'.milestones = d.milestones := by
      subst hd'
      cases oe <;> rfl
    exact ⟨_, _, htouch _ _ (.of_eq milestone hm),
      .captured _ _ _ _ intent same open_ (.inl ⟨rfl, rfl⟩) fits (hescrow _ escrow)
        active fun _ => stays rfl⟩
  | some v =>
    have hm : d'.milestones = (d.moveMilestone m.id v).milestones := by
      subst hd'
      cases oe <;> rfl
    obtain ⟨hs, hv⟩ := moved v rfl
    exact ⟨_, _, htouch _ _ (.move milestone (hs ▸ hv) hm),
      .captured _ _ _ _ intent same open_ (.inr ⟨hs, by simp [hv.step], rfl⟩) fits
        (hescrow _ escrow) active (by simp)⟩

/-- A failed refund touches its milestone: the escrow gets back what was reserved. -/
theorem refundFailed_life (hd : Consistent d) {d₀ : Db} (pre : Prepared d d₀) {s : IdempotencyScope}
    {resp : Response} {r : Refund} {reference : Option String} {post : Bool}
    (refund : d.refund? r.id = some r) (status : R.RefundsFresh → r.status = .pending)
    (operation : r.idempotency.operation = .milestoneRefund) :
    let d' := Db.completeRecord s resp <| .finishRefund r.id .failed <|
      (if post then .addJournal r.reversalJournal else id) <|
      whenSome (.referRefund r.id) reference d₀
    ∃ m s evs n, Touches d d' m s evs n ∧
      MilestoneEffect R d d' m (.refundFailed r.id) (evs.map MilestoneEvent.step) s n := by
  obtain ⟨_, _, rfl⟩ := pre
  obtain ⟨m, hm, hc⟩ := (hd.refunds r (Table.get_mem refund)).milestone
  have hk : m.id = r.milestone := Table.get_key hm
  rw [← hk] at hm
  refine ⟨m, _, _, _, ⟨.of_eq hm ?_, ?_, escrows_of_eq ?_⟩,
    .refundFailed r post refund hk.symm status operation⟩
  · cases post <;> cases reference <;> rfl
  · cases post with
    | false =>
      refine .of_eq ?_
      cases reference <;> rfl
    | true =>
      refine .journal (j := r.reversalJournal) ?_ ?_ fun k c hk' => ?_
      · cases reference <;> rfl
      · simp [Refund.reversalJournal, Milestone.escrowKey, hk, hc]
      · simp [Refund.reversalJournal, ← hk, Ne.symm hk']
  · cases post <;> cases reference <;> rfl

/-- **What a commit does to the milestones.** -/
theorem Effect.life {c : CommitPoint} (hd : Consistent d) (h : Effect R e c d d') :
    Untouched d d' ∨ ∃ m s evs n, Touches d d' m s evs n ∧
      MilestoneEffect R d d' m c (evs.map MilestoneEvent.step) s n := by
  cases h with
  | replayed pre s r =>
    obtain ⟨_, _, rfl⟩ := pre
    exact .inl (.of_eq rfl rfl rfl)
  | fundingStarted pre s r i m =>
    obtain ⟨_, _, rfl⟩ := pre
    exact .inl (.of_eq rfl rfl rfl)
  | webhookIgnored ev => exact .inl (.of_eq rfl rfl rfl)
  | webhookFailed ev i => exact .inl (.of_eq rfl rfl rfl)
  | webhookCaptured ev i m oe f mv n pre fresh intent status milestone same open_ active fits
      escrow funding moved stays outbox =>
    obtain ⟨s, evs, ht, he⟩ := captured_life (R := R) pre intent milestone same open_ active
      fits escrow moved stays rfl
    exact .inr ⟨m, s, evs, _, ht, he⟩
  | released pre s r m c x v v' milestone status contract escrow funded moved moved' =>
    obtain ⟨_, _, rfl⟩ := pre
    have hmove : Moves d (d.moveMilestone m.id v) m .releasePending [v] :=
      .move milestone (status ▸ moved) rfl
    refine .inr ⟨m, _, _, -m.amountMinor, ⟨hmove.again moved' rfl,
      .journal rfl (by simp [Milestone.escrowKey]) fun k c hk => ?_, escrows_of_eq rfl⟩, ?_⟩
    · simp [Milestone.escrowKey, Ne.symm hk]
    · rw [List.map_append, List.map_singleton, List.map_singleton, moved.step, moved'.step]
      exact .released status funded
  | refundReserved pre r m fresh status positive operation milestone same currency funded all =>
    obtain ⟨_, _, rfl⟩ := pre
    refine .inr ⟨m, _, _, _, ⟨.of_eq milestone rfl, .journal rfl ?_ fun k c hk => ?_,
      escrows_of_eq rfl⟩, .refundReserved r funded all
        ⟨_, Db.refund?_addRefund .. |>.trans (if_pos rfl), same⟩⟩
    · simp [Refund.reservationJournal, Milestone.escrowKey, same, currency]
    · simp [Refund.reservationJournal, same, Ne.symm hk]
  | refundPending pre r reference refund status =>
    obtain ⟨_, _, rfl⟩ := pre
    exact .inl (.of_eq rfl rfl rfl)
  | refundSucceeded pre s resp r m v reference refund status operation milestone same
      funded moved =>
    obtain ⟨_, _, rfl⟩ := pre
    refine .inr ⟨m, _, _, _,
      ⟨.move milestone (funded ▸ moved) rfl, .of_eq rfl, escrows_of_eq rfl⟩, ?_⟩
    rw [List.map_singleton, moved.step]
    exact .refundSucceeded r.id funded ⟨r, refund, same, status⟩
  | refundFailed pre s resp r reference post refund status operation posted reserved =>
    exact .inr (refundFailed_life hd pre refund status operation)
  | milestoneMoved m v action milestone allowed moved start =>
    refine .inr ⟨m, _, _, _, ⟨.move milestone moved rfl, .of_eq rfl, escrows_of_eq rfl⟩, ?_⟩
    rw [List.map_singleton, moved.step]
    refine .moved action allowed ?_
    intro hs ha
    obtain ⟨hx, hb⟩ := start hs ha
    exact ⟨Option.isSome_iff_exists.2 hx, hb⟩
  | contractCancelled c => exact .inl (.of_eq rfl rfl rfl)
  | disputeOpened x m v ev users eventType title body fresh only status same milestone
      open_ moved =>
    obtain ⟨_, ho⟩ := notified_eq x.id users eventType title body
      (.addDisputeEvent x.id ev <| .moveMilestone m.id v <| .addDispute x d)
    rw [ho]
    refine .inr ⟨m, _, _, _, ⟨.move milestone moved rfl, .of_eq rfl, escrows_of_eq rfl⟩, ?_⟩
    rw [List.map_singleton, moved.step]
    exact .disputed open_
  | disputeMoved x target ev dispute allowed => exact .inl (.of_eq rfl rfl rfl)
  | disputeResolved pre s resp x m c esc award refundMinor provider or v dec ev users
      eventType title body dispute review undecided milestone same disputed contract escrow
        funded split refund
      called moved decision =>
    obtain ⟨_, _, rfl⟩ := pre
    rw [(notified_eq _ _ _ _ _ _).choose_spec]
    refine .inr ⟨m, _, _, -m.amountMinor, ⟨.move milestone (disputed ▸ moved) (by cases or <;> rfl),
      .journal (by cases or <;> rfl) (by simp [Milestone.escrowKey]) fun k c hk => ?_,
      escrows_of_eq (by cases or <;> rfl)⟩, ?_⟩
    · simp [Milestone.escrowKey, Ne.symm hk]
    · rw [List.map_singleton, moved.step]
      exact .resolved x.id disputed funded
  | payoutReserved pre p fresh status reversal covered =>
    obtain ⟨_, _, rfl⟩ := pre
    exact .inl (.journal rfl rfl rfl fun k c => balance_payout_reservation p k c)
  | payoutUpgraded pre p x payout legacy status =>
    obtain ⟨_, _, rfl⟩ := pre
    exact .inl (.of_eq rfl rfl rfl)
  | payoutSucceeded pre s resp p reference payout status called =>
    obtain ⟨_, _, rfl⟩ := pre
    exact .inl (.of_eq rfl rfl rfl)
  | payoutFailed pre s resp p post payout status posted reserved called =>
    obtain ⟨_, _, rfl⟩ := pre
    cases post with
    | false => exact .inl (.of_eq rfl rfl rfl)
    | true => exact .inl (.journal rfl rfl rfl fun k c => balance_payout_reversal p k c)

/-- A milestone was there before, of the same contract and amount. -/
theorem Committed.milestone_before {c : CommitPoint} (h : Committed R e c d d') {k : MilestoneId}
    {m : Milestone}
    (hm : d'.milestone? k = some m) : ∃ m₀, d.milestone? k = some m₀ ∧ m₀.Keeps m := by
  obtain ⟨m₀, hm₀⟩ := Option.isSome_iff_exists.1 (h.frame.noNew k (by rw [hm]; rfl))
  obtain ⟨m', hm', hk⟩ := h.frame.milestones.keep k m₀ hm₀
  cases hm'.symm.trans hm
  exact ⟨m₀, hm₀, hk⟩

/-- What is said of a milestone by its row and its escrow is kept by a commit if it is kept for the
milestone that the commit touches. -/
theorem Effect.each {P : Db → Milestone → Prop} {c : CommitPoint} (hd : Consistent d)
    (h : Effect R e c d d')
    (keep : ∀ m, d'.balance m.escrowKey = d.balance m.escrowKey →
      ((d.escrow? m.id).isSome → (d'.escrow? m.id).isSome) → P d m → P d' m)
    (touch : ∀ m s evs n, Touches d d' m s evs n →
      MilestoneEffect R d d' m c (evs.map MilestoneEvent.step) s n → P d m →
        P d' { m with status := s, events := m.events ++ evs })
    (hP : ∀ k m, d.milestone? k = some m → P d m) (k : MilestoneId) (m : Milestone)
    (hm : d'.milestone? k = some m) : P d' m := by
  have hid : m.id = k := Table.get_key hm
  rcases h.life hd with hu | ⟨m₁, s, evs, n, ht, he⟩
  · rw [hu.rows] at hm
    exact keep m (hu.balances _ _) (fun hk => by rw [hu.escrows]; exact hk) (hP k m hm)
  · by_cases hk : k = m₁.id
    · subst hk
      cases ht.row'.symm.trans hm
      exact touch m₁ s evs n ht he (hP _ m₁ ht.row)
    · rw [ht.others k hk] at hm
      refine keep m (ht.balances _ _ ?_) (ht.escrows _) (hP k m hm)
      rwa [hid]

end Money
