import Freelancing.Money.FundingSpec

/-!
# Obligations of webhooks

A webhook inserts its event and, if it reports a capture, everything that makes the milestone
funded; all of it commits at once.
-/

namespace Money

variable {R : Rules} {i : Nat} {held held' : Set LockName} {pend : Db → Db} {b : Bool}
  {w w' : World}

/-! ## What an intent that is not captured rules out -/

theorem Consistent.no_funding {d : Db} (hd : Consistent d) {x : PaymentIntent}
    (hx : d.intent? x.id = some x) (hs : x.status ≠ .captured) : d.funding? x.id = none := by
  cases hf : d.funding? x.id with
  | none => rfl
  | some f =>
    obtain ⟨y, hy, hc⟩ := hd.fundings f (Table.get_mem hf)
    rw [Table.get_key hf, hx] at hy
    cases hy
    exact absurd hc hs

theorem Consistent.no_fund_journal {d : Db} (hd : Consistent d) {x : PaymentIntent}
    (hx : d.intent? x.id = some x) (hs : x.status ≠ .captured) :
    d.journal? ⟨.milestoneFund, .paymentIntent x.id⟩ = none := by
  refine hd.no_journal fun _ _ hk => ?_
  obtain ⟨y, hy, hc⟩ := hk
  cases hx.symm.trans hy
  exact hs hc

/-! ## The escrow of a capture -/

/-- The escrow `e` of `m` is there already, or is inserted with its account (`oe`, `oa`). -/
structure EscrowReady (held : Set LockName) (d : Db) (m : Milestone) (oa : Option AccountKey)
    (oe : Option MilestoneEscrow) (e : MilestoneEscrow) : Prop where
  milestone : e.milestone = m.id
  key : e.escrowAccount = m.escrowKey
  stored : (oa = none ∧ oe = none ∧ d.escrow? m.id = some e ∧
      d.account? m.escrowKey = some m.escrowKey.account) ∨
    (oe = some e ∧ d.escrow? m.id = none ∧ .escrow m.id ∈ held ∧
      AccountReady d m.escrowKey oa ∧ .account m.escrowKey ∈ held)

section
variable {m : Milestone} {oa : Option AccountKey} {oe : Option MilestoneEscrow}
  {e : MilestoneEscrow}

theorem EscrowReady.later (h : EscrowReady held w.1 m oa oe e) (hm : Moved R held b w w') :
    EscrowReady held w'.1 m oa oe e := by
  refine ⟨h.milestone, h.key, ?_⟩
  rcases h.stored with ⟨h1, h2, h3, h4⟩ | ⟨h1, h2, h3, h4, h5⟩
  · exact .inl ⟨h1, h2, hm.frame.escrows.eq_of_eq h3, hm.frame.account h4⟩
  · exact .inr ⟨h1, by rw [hm.escrow h3]; exact h2, h3, h4.later hm h5, h5⟩

theorem EscrowReady.mono (hs : held ⊆ held') {d : Db} (h : EscrowReady held d m oa oe e) :
    EscrowReady held' d m oa oe e := by
  refine ⟨h.milestone, h.key, ?_⟩
  rcases h.stored with h1 | ⟨h1, h2, h3, h4, h5⟩
  · exact .inl h1
  · exact .inr ⟨h1, h2, hs h3, h4, hs h5⟩

/-- The database with the escrow. -/
def withEscrow (oa : Option AccountKey) (oe : Option MilestoneEscrow) (d : Db) : Db :=
  whenSome .addEscrow oe <| whenSome (fun k => .addAccount k.account) oa d

theorem prepared_withEscrow {d : Db} :
    Prepared (whenSome .addEscrow oe d) (withEscrow oa oe d) := by
  cases oa <;> cases oe <;> exact ⟨_, _, rfl⟩

theorem EscrowReady.updates {d : Db} (h : EscrowReady held d m oa oe e)
    (hm : d.milestone? m.id = some m) : Updates held d (withEscrow oa oe d) := by
  rcases h.stored with ⟨rfl, rfl, -, -⟩ | ⟨rfl, hn, hl, ha, hl'⟩
  · exact Relation.ReflTransGen.refl
  · refine (ha.updates hl').trans (.single (.addEscrow e ?_ ?_ (m := m) ?_ h.key ?_))
    · rw [h.milestone]; exact hl
    · rw [h.milestone]
      cases oa <;> exact hn
    · rw [h.milestone]
      cases oa <;> exact hm
    · rw [h.key]
      exact ha.account

theorem EscrowReady.account {d : Db} (h : EscrowReady held d m oa oe e) :
    (withEscrow oa oe d).account? m.escrowKey = some m.escrowKey.account := by
  rcases h.stored with ⟨rfl, rfl, -, ha⟩ | ⟨rfl, -, -, ha, -⟩
  · exact ha
  · exact ha.account

theorem EscrowReady.account_ne {d : Db} (h : EscrowReady held d m oa oe e) (d' : Db)
    {k : AccountKey} (hk : k ≠ m.escrowKey) :
    (withEscrow oa oe d').account? k = d'.account? k := by
  rcases h.stored with ⟨rfl, rfl, -, -⟩ | ⟨rfl, -, -, ha, -⟩
  · rfl
  · exact ha.account_ne d' hk

end

theorem contractCommissionBps_spec {c : Contract} {v : TxView} :
    Meets R i (contractCommissionBps c) v fun v' _ => v' = v := by
  unfold contractCommissionBps
  split
  · exact .pure rfl
  · exact .raise
  · exact .raise
  · split
    · exact .raise
    · exact .pure rfl

theorem escrowAccountOf_eq (m : Milestone) : escrowAccountOf m = m.escrowKey.account := rfl

theorem captureEscrow_spec {m : Milestone} {c : Contract} (hm : w.1.milestone? m.id = some m)
    (hl : .milestone m.id ∈ held) (hp : ∀ d k, (pend d).escrow? k = d.escrow? k)
    (hp' : ∀ d k, (pend d).account? k = d.account? k) :
    Meets R i (captureEscrow m c) ⟨held, pend, b, w⟩ fun v' r => ∃ w' held' oa oe,
      Later R held b w w' ∧ v' = ⟨held', withEscrow oa oe ∘ pend, R.mode.inTxn, w'⟩ ∧
      held ⊆ held' ∧ EscrowReady held' w'.1 m oa oe r.1 ∧ r.2 = m.escrowKey.account := by
  refine Meets.bind .select ?_
  rintro _ r ⟨w₁, h₁, rfl, hr⟩
  rw [hp] at hr
  cases r with
  | some e =>
    refine Meets.bind escrowAccount_spec ?_
    rintro _ a ⟨w₂, h₂, rfl, ha⟩
    rw [hp'] at ha
    have h₁₂ := h₁.trans h₂ subset_rfl
    have he : w₂.1.escrow? m.id = some e := h₂.frame.escrows.eq_of_eq hr.symm
    obtain ⟨x, hx, hk, hacc⟩ := h₂.inv.escrows e (Table.get_mem he)
    have hem : e.milestone = m.id := Table.get_key he
    rw [hem, h₁₂.milestone hl, hm] at hx
    cases hx
    have hk' : e.escrowAccount = m.escrowKey := hk
    rw [hk'] at ha hacc
    refine .pure ⟨w₂, held, none, none, h₁₂, rfl, subset_rfl,
      ⟨hem, hk', .inl ⟨rfl, rfl, he, hacc⟩⟩, ?_⟩
    rw [ha] at hacc
    exact Option.some.inj hacc
  | none =>
    rw [escrowAccountOf_eq]
    refine Meets.bind (getOrCreateAccount_spec fun d => hp' d _) ?_
    rintro _ a ⟨w₂, oa, h₂, rfl, ha, rfl⟩
    refine Meets.bind contractCommissionBps_spec ?_
    rintro _ bps rfl
    refine Meets.bind .reserve ?_
    rintro _ - ⟨w₃, h₃, rfl, hf⟩
    refine Meets.bind .write ?_
    rintro _ - rfl
    have hs : held ⊆ insert (LockName.escrow m.id) (insert (.account m.escrowKey) held) :=
      (Set.subset_insert _ _).trans (Set.subset_insert _ _)
    refine .pure ⟨w₃, _, oa, some ⟨m.id, m.escrowKey, bps⟩,
      h₁.trans (h₂.trans h₃ (Set.subset_insert _ _)) subset_rfl, ?_, hs,
      ⟨rfl, rfl, .inr ⟨rfl, ?_, by simp, ha.later h₃.toMoved (by simp), by simp⟩⟩, rfl⟩
    · rw [AccountKey.account_key]
      rfl
    · rw [Option.isSome_eq_false_iff, Option.isNone_iff_eq_none] at hf
      rw [← hp]
      cases oa <;> exact hf

/-! ## Capture -/

theorem recordFunding_spec {e : MilestoneEscrow} {x : PaymentIntent} {j : JournalTransaction}
    (hnew : ∀ w', Later R held b w w' → (pend w'.1).funding? x.id = none) :
    Meets R i (recordFunding e x j) ⟨held, pend, b, w⟩ fun v' _ => ∃ w', Later R held b w w' ∧
      v' = ⟨insert (.funding x.id) held,
        .addFunding ⟨e.milestone, x.id, j.key, x.amountMinor⟩ ∘ pend,
        R.mode.inTxn, w'⟩ := by
  refine Meets.bind .select ?_
  rintro _ r ⟨w₁, h₁, rfl, hr⟩
  cases r with
  | some f =>
    rw [hnew w₁ h₁] at hr
    cases hr
  | none =>
    refine Meets.bind .reserve ?_
    rintro _ - ⟨w₂, h₂, rfl, -⟩
    refine Meets.write.mono ?_
    rintro _ - rfl
    exact ⟨w₂, h₁.trans h₂ subset_rfl, rfl⟩

theorem markFunded_spec {m : Milestone} {n : Int} {actor : Option UserId}
    (ho : m.status = .created ∨ m.status = .funded) :
    Meets R i (markFunded m n actor) ⟨held, pend, b, w⟩ fun v' r => ∃ mv,
      v' = ⟨held, whenSome (.moveMilestone m.id) mv ∘ pend, b, w⟩ ∧ r.id = m.id ∧
      (∀ x, mv = some x → m.status = .created ∧ x.Goes .created .funded) ∧
      (mv = none → m.status = .funded ∨ n ≠ m.amountMinor) := by
  unfold markFunded
  split
  case isTrue h =>
    have hs : m.status = .created := ho.resolve_right h.2
    refine Meets.bind .write ?_
    rintro _ - rfl
    refine .pure ⟨some _, rfl, rfl, fun x hx => ?_, fun h => by cases h⟩
    cases hx
    exact ⟨hs, hs, rfl⟩
  case isFalse h =>
    refine .pure ⟨none, rfl, rfl, (fun x hx => by cases hx), fun _ => ?_⟩
    by_cases hs : m.status = .funded
    · exact .inl hs
    · exact .inr fun hn => h ⟨hn, hs⟩

/-- The two accounts of a funding journal are of the intent's currency. -/
theorem fundEntries_ok {x : PaymentIntent} {m : Milestone} {es : List LedgerEntry}
    (h : journalEntries [⟨clearingAccount x.provider x.currency, .debit, x.amountMinor⟩,
      ⟨m.escrowKey.account, .credit, x.amountMinor⟩] = .ok es) :
    es = fundEntries x m ∧ DoubleEntry.Balanced es ∧ m.currency = x.currency := by
  obtain ⟨he, hb, hc⟩ := journalEntries_ok h
  have hm := hc ⟨m.escrowKey.account, .credit, x.amountMinor⟩ (by simp)
  exact ⟨he, hb, hm⟩

/-- What a capture has checked and locked when it posts its journal; `before` is what was on the
escrow. -/
structure Capturing (R : Rules) (held : Set LockName) (d : Db) (ev : ProviderEvent)
    (x : PaymentIntent) (m : Milestone) (oa oc : Option AccountKey) (oe : Option MilestoneEscrow)
    (e : MilestoneEscrow) (before : Int) : Prop where
  event : d.event? ev.key = none
  eventLock : .event ev.key ∈ held
  intent : d.intent? x.id = some x
  intentLock : .intent x.id ∈ held
  uncaptured : x.status ≠ .captured
  milestone : d.milestone? m.id = some m
  milestoneLock : .milestone m.id ∈ held
  contractLock : .contract m.contract ∈ held
  active : R.ContractsFresh → ∃ c, d.contract? m.contract = some c ∧ c.status = .active
  same : x.milestone = m.id
  open_ : m.status = .created ∨ m.status = .funded
  escrow : EscrowReady held d m oa oe e
  clearing : AccountReady d (.providerClearing x.provider x.currency) oc
  clearingLock : .account (.providerClearing x.provider x.currency) ∈ held
  funds : R.Serial → d.balance m.escrowKey = before

/-- What a capture has checked and locked when it commits. -/
structure CaptureFacts (R : Rules) (held : Set LockName) (d : Db) (ev : ProviderEvent)
    (x : PaymentIntent) (m : Milestone) (oa oc : Option AccountKey) (oe : Option MilestoneEscrow)
    (e : MilestoneEscrow) (before : Int) : Prop
    extends Capturing R held d ev x m oa oc oe e before where
  journalLock : .journal ⟨.milestoneFund, .paymentIntent x.id⟩ ∈ held
  fundingLock : .funding x.id ∈ held
  balanced : DoubleEntry.Balanced (fundEntries x m)
  currency : m.currency = x.currency

section
variable {ev : ProviderEvent} {x : PaymentIntent} {m : Milestone} {oa oc : Option AccountKey}
  {oe : Option MilestoneEscrow} {e : MilestoneEscrow} {before : Int}

theorem Capturing.later (h : Capturing R held w.1 ev x m oa oc oe e before)
    (hm : Moved R held R.mode.inTxn w w') (hs : held ⊆ held') :
    Capturing R held' w'.1 ev x m oa oc oe e before :=
  { h with
    event := (hm.event h.eventLock).trans h.event
    eventLock := hs h.eventLock
    intent := (hm.intent h.intentLock).trans h.intent
    intentLock := hs h.intentLock
    milestone := (hm.milestone h.milestoneLock).trans h.milestone
    milestoneLock := hs h.milestoneLock
    contractLock := hs h.contractLock
    active := fun hf => by
      rw [hm.contract h.contractLock]
      exact h.active hf
    escrow := (h.escrow.later hm).mono hs
    clearing := h.clearing.later hm h.clearingLock
    clearingLock := hs h.clearingLock
    funds := fun hser => by
      rw [hm.still hser hser]
      exact h.funds hser }

theorem EscrowReady.congr {d d' : Db} (h : EscrowReady held d m oa oe e)
    (he : d'.escrow? m.id = d.escrow? m.id)
    (ha : d'.account? m.escrowKey = d.account? m.escrowKey) : EscrowReady held d' m oa oe e := by
  refine ⟨h.milestone, h.key, ?_⟩
  rw [he, ha]
  refine h.stored.imp (fun h => h) ?_
  rintro ⟨h1, h2, h3, h4, h5⟩
  exact ⟨h1, h2, h3, h4.congr ha, h5⟩

theorem balance_wallet {es : List LedgerEntry} {u : UserId} {c : Currency}
    (h : ∀ e ∈ es, ∀ u c, e.account ≠ .userWallet u c) :
    DoubleEntry.balance es (.userWallet u c) = 0 :=
  DoubleEntry.balance_eq_zero fun e he => h e he u c

/-- The journal of a capture, once the intent is marked. -/
theorem CaptureFacts.postable {d d' : Db} (h : CaptureFacts R held d ev x m oa oc oe e before)
    (hd : Consistent d) (hj : d'.journals = d.journals)
    (hi : ∃ y, d'.intent? x.id = some y ∧ y.status = .captured)
    (ha : d'.account? (.providerClearing x.provider x.currency) =
      some (AccountKey.providerClearing x.provider x.currency).account)
    (he : d'.account? m.escrowKey = some m.escrowKey.account) :
    Postable held d' ⟨⟨.milestoneFund, .paymentIntent x.id⟩, none, fundEntries x m⟩ where
  lock := h.journalLock
  fresh := by
    rw [Db.journal?, hj]
    exact hd.no_fund_journal h.intent h.uncaptured
  balanced := h.balanced
  accounts := by
    intro y hy
    simp only [fundEntries, List.mem_cons, List.not_mem_nil, or_false] at hy
    rcases hy with rfl | rfl
    · exact ⟨ha, rfl⟩
    · exact ⟨he, h.currency.symm⟩
  known := hi
  wallets u c := .inl (by
    rw [balance_wallet]
    simp [fundEntries])

theorem CaptureFacts.updates {d : Db} (h : CaptureFacts R held d ev x m oa oc oe e before)
    (hd : Consistent d) {f : MilestoneFunding} (hf : f.intent = x.id) {mv : Option MilestoneEvent}
    {n : OutboxEvent} : Updates held d
      (.enqueue n <| whenSome (.moveMilestone m.id) mv <| .captureIntent x.id <| .addFunding f <|
        .addJournal ⟨⟨.milestoneFund, .paymentIntent x.id⟩, none, fundEntries x m⟩ <|
        whenSome (fun k => .addAccount k.account) oc <| withEscrow oa oe <| .addEvent ev d) := by
  have hne : AccountKey.providerClearing x.provider x.currency ≠ m.escrowKey := nofun
  have he : EscrowReady held (d.addEvent ev) m oa oe e := h.escrow.congr rfl rfl
  have hc : AccountReady (withEscrow oa oe (d.addEvent ev))
      (.providerClearing x.provider x.currency) oc := h.clearing.congr (he.account_ne _ hne)
  have u₁ : Updates held d (d.addEvent ev) := .single (.addEvent ev h.eventLock h.event)
  have u₂ := u₁.trans (he.updates h.milestone)
  have u₃ := u₂.trans (hc.updates h.clearingLock)
  generalize hd₃ : whenSome (fun k => Db.addAccount k.account) oc
    (withEscrow oa oe (d.addEvent ev)) = d₃ at u₃ ⊢
  have hi₃ : d₃.intent? x.id = some x := by
    rw [← hd₃]
    cases oc <;> cases oa <;> cases oe <;> exact h.intent
  have hm₃ : d₃.milestone? m.id = some m := by
    rw [← hd₃]
    cases oc <;> cases oa <;> cases oe <;> exact h.milestone
  have hf₃ : d₃.funding? x.id = none := by
    rw [← hd₃]
    cases oc <;> cases oa <;> cases oe <;> exact hd.no_funding h.intent h.uncaptured
  have hj₃ : d₃.journals = d.journals := by
    rw [← hd₃]
    cases oc <;> cases oa <;> cases oe <;> rfl
  have ha₃ : d₃.account? (.providerClearing x.provider x.currency) =
      some (AccountKey.providerClearing x.provider x.currency).account := by
    rw [← hd₃]
    exact hc.account
  have he₃ : d₃.account? m.escrowKey = some m.escrowKey.account := by
    rw [← hd₃, hc.account_ne _ hne.symm]
    exact he.account
  -- the intent is marked before its journal is posted: both orders give the same tables
  have u₄ := u₃.trans (.single (.captureIntent x h.intentLock hi₃ h.uncaptured))
  have hi₄ : ∃ y, (d₃.captureIntent x.id).intent? x.id = some y ∧ y.status = .captured := by
    rw [Db.intent?_captureIntent, hi₃]
    exact ⟨_, by rw [Option.map_some, if_pos rfl], rfl⟩
  have u₅ := u₄.trans (.single (.addJournal _ (h.postable hd hj₃ hi₄ ha₃ he₃)))
  obtain ⟨y, hy, hys⟩ := hi₄
  have u₆ := u₅.trans (.single (.addFunding f (by rw [hf]; exact h.fundingLock)
    (by rw [hf]; exact hf₃) (i := y) (by rw [hf]; exact hy) hys))
  refine (u₆.trans ?_).trans (.single (.enqueue n))
  cases mv with
  | none => exact Relation.ReflTransGen.refl
  | some v =>
    refine .single (.moveMilestone m v h.milestoneLock hm₃ ?_ fun _ => h.contractLock)
    rcases h.open_ with hs | hs <;> simp [hs]

theorem balance_withEscrow (d : Db) (k : AccountKey) :
    (withEscrow oa oe (d.addEvent ev)).balance k = d.balance k := by
  cases oa <;> cases oe <;> rfl

variable (e) in
/-- A capture may be committed. -/
theorem CaptureFacts.ready {f : MilestoneFunding} {mv : Option MilestoneEvent} {n : OutboxEvent}
    (h : ∀ w', Later R held b w w' → CaptureFacts R held w'.1 ev x m oa oc oe e before)
    (hfits : before + x.amountMinor ≤ m.amountMinor) (hf : f.intent = x.id)
    (hmv : ∀ v, mv = some v → m.status = .created ∧ v.Goes .created .funded)
    (hstay : mv = none → m.status = .funded ∨ before + x.amountMinor ≠ m.amountMinor)
    (hn : ∃ b, n = .milestoneFunded m.id x.id ⟨.milestoneFund, .paymentIntent x.id⟩ b) :
    Ready R (.webhookProcessed ev.key (some x.id)) ⟨held, .enqueue n ∘
      whenSome (.moveMilestone m.id) mv ∘ .captureIntent x.id ∘ .addFunding f ∘
      .addJournal ⟨⟨.milestoneFund, .paymentIntent x.id⟩, none, fundEntries x m⟩ ∘
      whenSome (fun k => .addAccount k.account) oc ∘ withEscrow oa oe ∘ .addEvent ev, b, w⟩ := by
  intro w' hw
  have hfacts := h w' hw
  refine ⟨hfacts.updates hw.inv hf, .webhookCaptured ev x m oe f mv n
    (prepared_withEscrow.trans (.account oc)) hfacts.event hfacts.intent hfacts.uncaptured
    hfacts.milestone hfacts.same hfacts.open_ hfacts.active (fun hser => ?_) ?_ hf hmv
    (fun hn => (hstay hn).imp_right fun hne hser => ?_) hn⟩
  · rw [hfacts.funds hser]
    exact hfits
  · rcases hfacts.escrow.stored with ⟨-, -, hes, -⟩ | ⟨rfl, -⟩
    · exact .inl (by rw [hes]; rfl)
    · exact .inr ⟨e, rfl, hfacts.escrow.milestone⟩
  · rw [hfacts.funds hser]
    exact hne

/-- The rest of a capture, from the posting of its journal on. -/
theorem recordCapture_spec {actor : Option UserId}
    (h : Capturing R held w.1 ev x m oa oc oe e before)
    (hfits : before + x.amountMinor ≤ m.amountMinor) :
    Meets R i (do
      let journal ← postJournal .milestoneFund (.paymentIntent x.id)
        [⟨clearingAccount x.provider x.currency, .debit, x.amountMinor⟩,
          ⟨m.escrowKey.account, .credit, x.amountMinor⟩] none
      recordFunding e x journal
      write (Db.captureIntent x.id)
      let after := before + x.amountMinor
      let milestone ← markFunded m after actor
      write (Db.enqueue (.milestoneFunded milestone.id x.id journal.key after))
      financialState milestone)
      ⟨held, whenSome (fun k => .addAccount k.account) oc ∘ withEscrow oa oe ∘ .addEvent ev,
        R.mode.inTxn, w⟩ fun v' _ => Ready R (.webhookProcessed ev.key (some x.id)) v' := by
  -- nobody has posted the journal: the intent is locked and not captured
  refine Meets.bind (postJournal_new fun w' hw => ?_) ?_
  · have hn := hw.inv.no_fund_journal (h.later hw.toMoved subset_rfl).intent h.uncaptured
    cases oc <;> cases oa <;> cases oe <;> exact hn
  rintro _ journal ⟨w₁, es, h₁, hes, rfl, rfl⟩
  obtain ⟨rfl, hb, hcur⟩ := fundEntries_ok hes
  refine Meets.bind (recordFunding_spec fun w' hw => ?_) ?_
  · have hk := h.later (h₁.trans hw (Set.subset_insert _ _)).toMoved subset_rfl
    have hn := hw.inv.no_funding hk.intent h.uncaptured
    cases oc <;> cases oa <;> cases oe <;> exact hn
  rintro _ - ⟨w₂, h₂, rfl⟩
  refine Meets.bind .write ?_
  rintro _ - rfl
  refine Meets.bind (markFunded_spec h.open_) ?_
  rintro _ m' ⟨mv, rfl, hid, hmv, hstay⟩
  refine Meets.bind .write ?_
  rintro _ - rfl
  refine financialState_spec.mono ?_
  rintro _ - ⟨w₃, h₃, rfl⟩
  refine CaptureFacts.ready e (fun w' hw => ?_) hfits rfl hmv hstay ⟨_, by rw [hid]⟩
  have h₁' := h₁.trans (h₂.trans (h₃.trans hw subset_rfl) (Set.subset_insert _ _))
    (Set.subset_insert _ _)
  exact
    { h.later h₁'.toMoved ((Set.subset_insert _ _).trans (Set.subset_insert _ _)) with
      journalLock := by simp
      fundingLock := by simp
      balanced := hb
      currency := hcur }

end

/-- What is known before an intent is captured. -/
structure EventFacts (held : Set LockName) (d : Db) (ev : ProviderEvent) (x : PaymentIntent) :
    Prop where
  event : d.event? ev.key = none
  eventLock : .event ev.key ∈ held
  intent : d.intent? x.id = some x
  intentLock : .intent x.id ∈ held

theorem EventFacts.later {ev : ProviderEvent} {x : PaymentIntent}
    (h : EventFacts held w.1 ev x) (hm : Moved R held b w w') (hs : held ⊆ held') :
    EventFacts held' w'.1 ev x where
  event := by rw [hm.event h.eventLock]; exact h.event
  eventLock := hs h.eventLock
  intent := by rw [hm.intent h.intentLock]; exact h.intent
  intentLock := hs h.intentLock

theorem webhookIgnored_ready {ev : ProviderEvent} (hev : w.1.event? ev.key = none)
    (hl : .event ev.key ∈ held) :
    Ready R (.webhookProcessed ev.key none) ⟨held, .addEvent ev, b, w⟩ := by
  intro w' hw
  have he : w'.1.event? ev.key = none := by rw [hw.event hl]; exact hev
  exact ⟨.single (.addEvent ev hl he), .webhookIgnored ev he⟩

/-- The capture of a payment that is not captured yet. -/
theorem captureIntent_new {ev : ProviderEvent} {x : PaymentIntent} {actor : Option UserId}
    (h : EventFacts held w.1 ev x) (hs : x.status ≠ .captured) :
    Meets R i (captureIntent x actor) ⟨held, .addEvent ev, b, w⟩ fun v' _ =>
      Ready R (.webhookProcessed ev.key (some x.id)) v' := by
  rw [captureIntent, if_neg hs]
  refine Meets.bind (lockedMilestone_spec (fun _ _ => rfl) (fun _ _ => rfl)) ?_
  rintro _ ⟨m, loaded⟩ ⟨w₁, h₁, rfl, hid, hm, hc⟩
  dsimp only at hc ⊢
  have hcid : loaded.id = m.contract := Table.get_key hc
  rw [← hcid] at hc
  refine Meets.bind (lockedContract_spec (fun _ _ => rfl) hc) ?_
  rintro _ c ⟨w₂, h₂, rfl, rfl, hactive⟩
  refine Meets.bind .require ?_
  rintro _ - ⟨rfl, hact⟩
  refine Meets.bind .require ?_
  rintro _ - ⟨rfl, hopen⟩
  refine Meets.bind .require ?_
  rintro _ - ⟨rfl, -⟩
  dsimp only at hid hm hopen ⊢
  have hm₂ : w₂.1.milestone? m.id = some m := by
    rw [hid, h₂.milestone (Set.mem_insert _ _)]
    exact hm
  refine Meets.bind (captureEscrow_spec hm₂ (by simp [hid]) (fun _ _ => rfl) fun _ _ => rfl) ?_
  rintro _ ⟨e, account⟩ ⟨w₃, held₃, oa, oe, h₃, rfl, hs₃, hE, ha⟩
  dsimp only at hE ha ⊢
  refine Meets.bind accountBalanceMinor_spec ?_
  rintro _ before ⟨w₄, h₄, rfl, hbefore⟩
  refine Meets.bind .require ?_
  rintro _ - ⟨rfl, hfits⟩
  have hne : AccountKey.providerClearing x.provider x.currency ≠ m.escrowKey := nofun
  refine Meets.bind (getOrCreateAccount_spec (k := .providerClearing x.provider x.currency)
    fun d => hE.account_ne _ hne) ?_
  rintro _ clearing ⟨w₅, oc, h₅, rfl, hC, rfl⟩
  rw [ha] at hbefore ⊢
  have h₃₅ : Moved R held₃ R.mode.inTxn w₃ w₅ := (h₄.trans h₅ subset_rfl).toMoved
  have h₀₅ : Moved R held b w w₅ := h₁.toMoved.trans (h₂.toMoved.trans (h₃.toMoved.trans h₃₅ hs₃)
    (Set.subset_insert _ _)) (Set.subset_insert _ _)
  have hs₀₃ : held ⊆ held₃ :=
    ((Set.subset_insert _ _).trans (Set.subset_insert _ _)).trans hs₃
  have hk := h.later h₀₅ (hs₀₃.trans
    (Set.subset_insert (.account (.providerClearing x.provider x.currency)) _))
  exact recordCapture_spec
    { event := hk.event
      eventLock := hk.eventLock
      intent := hk.intent
      intentLock := hk.intentLock
      uncaptured := hs
      milestone := by
        rw [h₃₅.milestone (hs₃ (by simp [hid])), h₃.milestone (by simp [hid])]
        exact hm₂
      milestoneLock := Set.mem_insert_of_mem _ (hs₃ (by simp [hid]))
      contractLock := Set.mem_insert_of_mem _ (hs₃ (by simp [hcid]))
      active := fun hf => by
        rw [← hcid, h₃₅.contract (hs₃ (by simp)), h₃.contract (by simp)]
        exact hactive hf (by simpa using hact)
      same := hid.symm
      open_ := by simpa using hopen
      escrow := (hE.later h₃₅).mono (Set.subset_insert _ _)
      clearing := hC
      clearingLock := Set.mem_insert _ _
      funds := fun hser => by
        rw [h₅.still hser hser, hbefore, AccountKey.account_key]
        exact (balance_withEscrow _ _).symm } (by simpa using hfits)

theorem captureIntent_spec {ev : ProviderEvent} {x : PaymentIntent} {actor : Option UserId}
    (h : EventFacts held w.1 ev x) :
    Meets R i (captureIntent x actor) ⟨held, .addEvent ev, b, w⟩ fun v' _ =>
      Ready R (.webhookProcessed ev.key (if x.status = .captured then none else some x.id)) v' := by
  by_cases hs : x.status = .captured
  · rw [if_pos hs, captureIntent, if_pos hs]
    refine Meets.bind findMilestone_spec ?_
    rintro _ m ⟨w₁, h₁, rfl⟩
    refine financialState_spec.mono ?_
    rintro _ - ⟨w₂, h₂, rfl⟩
    have h₀₂ := (h₁.trans h₂ subset_rfl).toMoved
    exact webhookIgnored_ready (h.later h₀₂ subset_rfl).event h.eventLock
  · rw [if_neg hs]
    exact captureIntent_new h hs

/-! ## The events -/

theorem webhookString_spec {value : Option String} {key : String} {v : TxView} :
    Meets R i (webhookString value key) v fun v' _ => v' = v := by
  unfold webhookString
  split
  · split
    · exact .raiseApi
    · exact .pure rfl
  · exact .raiseApi

theorem webhookInt_spec {value : Option Int} {key : String} {v : TxView} :
    Meets R i (webhookInt value key) v fun v' _ => v' = v := by
  unfold webhookInt
  split
  · exact .pure rfl
  · exact .raiseApi

theorem Consistent.intent_of_find {d : Db} (hd : Consistent d) {q : PaymentIntent → Bool}
    {x : PaymentIntent} (h : d.intents.find? q = some x) : d.intent? x.id = some x :=
  Table.get_of_mem hd.keyed.intents (List.mem_of_find?_eq_some h)

section
variable {ev : ProviderEvent} {p : Provider} {data : WebhookData}

/-- The intent of the event's reference, locked. -/
theorem lockedIntent_spec {reference : String} (hev : w.1.event? ev.key = none)
    (hl : .event ev.key ∈ held) :
    Meets R i (selectForUpdate (fun x => .intent x.id) fun d => d.intentOfReference? p reference)
      ⟨held, .addEvent ev, b, w⟩ fun v' r => ∃ w', w'.1.event? ev.key = none ∧
        match r with
        | none => v' = ⟨held, .addEvent ev, R.mode.inTxn, w'⟩
        | some x => v' = ⟨insert (.intent x.id) held, .addEvent ev, R.mode.inTxn, w'⟩ ∧
            EventFacts (insert (.intent x.id) held) w'.1 ev x := by
  refine Meets.selectForUpdate.mono ?_
  rintro v r ⟨w₁, h₁, hr, hv⟩
  have hev₁ : w₁.1.event? ev.key = none := by rw [h₁.event hl]; exact hev
  refine ⟨w₁, hev₁, ?_⟩
  cases r with
  | none => exact hv
  | some x =>
    exact ⟨hv, hev₁, Set.mem_insert_of_mem _ hl, h₁.inv.intent_of_find hr.symm,
      Set.mem_insert _ _⟩

theorem processCaptured_spec (hev : w.1.event? ev.key = none) (hl : .event ev.key ∈ held) :
    Meets R i (processCaptured p data) ⟨held, .addEvent ev, b, w⟩ fun v' r =>
      Ready R (.webhookProcessed ev.key r) v' := by
  refine Meets.bind webhookString_spec ?_
  rintro _ reference rfl
  refine Meets.bind webhookInt_spec ?_
  rintro _ amount rfl
  refine Meets.bind webhookString_spec ?_
  rintro _ currency rfl
  refine Meets.bind (lockedIntent_spec hev hl) ?_
  rintro v₁ r ⟨w₁, hev₁, hr⟩
  cases r with
  | none => exact .raiseApi
  | some x =>
    obtain ⟨rfl, hx⟩ := hr
    refine Meets.bind .require ?_
    rintro _ - ⟨rfl, -⟩
    refine Meets.bind (captureIntent_spec hx) ?_
    rintro v₂ - hready
    exact .pure hready

theorem processFailed_spec (hev : w.1.event? ev.key = none) (hl : .event ev.key ∈ held) :
    Meets R i (processFailed p data) ⟨held, .addEvent ev, b, w⟩ fun v' _ =>
      Ready R (.webhookProcessed ev.key none) v' := by
  refine Meets.bind webhookString_spec ?_
  rintro _ reference rfl
  refine Meets.bind (lockedIntent_spec hev hl) ?_
  rintro v₁ r ⟨w₁, hev₁, hr⟩
  cases r with
  | none =>
    rw [show v₁ = _ from hr]
    exact .pure (webhookIgnored_ready hev₁ hl)
  | some x =>
    obtain ⟨rfl, hx⟩ := hr
    dsimp only
    split
    · rename_i hs
      refine Meets.write.mono ?_
      rintro _ - rfl
      intro w' hw
      have hx' := hx.later hw.toMoved subset_rfl
      exact ⟨(Updates.single (.addEvent ev hx'.eventLock hx'.event)).trans
        (.single (.failIntent x hx'.intentLock hx'.intent hs)),
        .webhookFailed ev x hx'.event hx'.intent hs⟩
    · exact .pure (webhookIgnored_ready hx.event hx.eventLock)

theorem processProviderEvent_spec {verified : VerifiedWebhook} (hev : w.1.event? ev.key = none)
    (hl : .event ev.key ∈ held) :
    Meets R i (processProviderEvent p verified) ⟨held, .addEvent ev, b, w⟩ fun v' r =>
      Ready R (.webhookProcessed ev.key r) v' := by
  unfold processProviderEvent
  split
  · exact processCaptured_spec hev hl
  · split
    · exact Meets.bind (processFailed_spec hev hl) fun v' _ h => .pure h
    · exact .pure (webhookIgnored_ready hev hl)

end

theorem duplicateProviderEvent_spec {e : ProviderEvent} {hash : String} {v : TxView} :
    Meets R i (duplicateProviderEvent e hash) v fun v' _ => v' = v := by
  unfold duplicateProviderEvent
  split
  · exact .raiseApi
  · exact .pure rfl

theorem processProviderWebhook_spec {cfg : Config} {delivery : Delivery} :
    Meets R i (processProviderWebhook cfg delivery) ⟨∅, id, b, w⟩ fun _ _ => True := by
  refine Meets.bind getProvider_spec ?_
  rintro _ provider ⟨rfl, -⟩
  split
  · exact .raise
  rename_i verified _
  refine Meets.bind .select ?_
  rintro _ r ⟨w₁, h₁, rfl, -⟩
  split
  · exact duplicateProviderEvent_spec.mono fun _ _ _ => trivial
  refine Meets.bind .taken ?_
  rintro _ t ⟨w₂, h₂, rfl, ht⟩
  dsimp only
  split
  · refine Meets.bind .select ?_
    rintro _ r ⟨w₃, h₃, rfl, -⟩
    split
    · exact .raise
    · exact duplicateProviderEvent_spec.mono fun _ _ _ => trivial
  · rename_i hf
    refine Meets.bind .write ?_
    rintro _ - rfl
    have hev : w₂.1.event? ⟨provider, verified.externalEventId⟩ = none := by
      rw [ht] at hf
      simpa using hf
    refine Meets.bind (processProviderEvent_spec hev (Set.mem_insert _ _)) ?_
    rintro v captured hready
    exact Meets.bind (.commit hready) fun _ _ _ => .pure trivial

end Money
