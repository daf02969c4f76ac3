import Freelancing.Money.ReleaseSpec

/-!
# Obligations of payouts

As a refund, a payout is reserved by one transaction and settled by another, on a copy of the payout
(`PayoutCopy`) that the lock after the provider's answer does not refresh.
-/

namespace Money

variable {R : Rules} {i : Nat} {held held' : Set LockName} {pend : Db → Db} {b : Bool}
  {w w' : World}

/-! ## Copies -/

/-- The row of the copy `x` is in the table, and has the status of the copy if `P` holds. -/
def PayoutCopy (P : Prop) (d : Db) (x : Payout) : Prop :=
  ∃ y, d.payout? x.id = some y ∧ x.Keeps y ∧ (P → y.status = x.status)

section
variable {P Q : Prop} {x y : Payout}

theorem Payout.Keeps.id_eq (h : x.Keeps y) : y.id = x.id := by
  obtain ⟨⟨_, _, _, _, _, rfl⟩, -⟩ := h
  rfl

theorem Payout.Keeps.reversalJournal (h : x.Keeps y) : y.reversalJournal = x.reversalJournal := by
  obtain ⟨⟨_, _, _, _, _, rfl⟩, -⟩ := h
  rfl

theorem Payout.Keeps.reservationKey (h : x.Keeps y) : y.reservationKey = x.reservationKey := by
  obtain ⟨⟨_, _, _, _, _, rfl⟩, -⟩ := h
  rfl

theorem PayoutCopy.weaken {d : Db} (h : PayoutCopy P d x) (hpq : Q → P) : PayoutCopy Q d x := by
  obtain ⟨y, hy, hk, hs⟩ := h
  exact ⟨y, hy, hk, fun hq => hs (hpq hq)⟩

/-- Within a transaction, when transactions do not overlap. -/
theorem PayoutCopy.serial (h : PayoutCopy R.Serial w.1 x) (hm : Moved R held R.mode.inTxn w w') :
    PayoutCopy R.Serial w'.1 x := by
  obtain ⟨y, hy, hk, hs⟩ := h
  obtain ⟨z, hz, hyz⟩ := hm.frame.payouts.keep _ y hy
  refine ⟨z, hz, Payout.Keeps.trans _ _ _ hk hyz, fun hser => ?_⟩
  rw [← hm.still hser hser, show w'.1.payout? x.id = some z from hz] at hy
  cases hy
  exact hs hser

theorem PayoutCopy.locked (h : PayoutCopy P w.1 x) (hm : Moved R held b w w')
    (hl : .payout x.id ∈ held) : PayoutCopy P w'.1 x := by
  obtain ⟨y, hy, hk⟩ := h
  exact ⟨y, (hm.payout hl).trans hy, hk⟩

/-- A request for the copy is a request for the row. -/
theorem PayoutCall.keeps {q : Request} (h : PayoutCall R x q) (hk : x.Keeps y) :
    PayoutCall R y q := by
  obtain ⟨dest, key, rfl, hdest, hkey⟩ := h
  have hd := hk.2 (by rw [hdest]; rfl)
  obtain ⟨⟨_, _, _, _, _, rfl⟩, -⟩ := hk
  exact ⟨dest, key, rfl, hd.trans hdest, hkey⟩

theorem PayoutCopy.journal {d : Db} (h : PayoutCopy P d x) (hd : Consistent d) :
    x.journal = x.reservationKey := by
  obtain ⟨y, hy, ⟨⟨_, _, _, _, _, rfl⟩, -⟩, -⟩ := h
  exact (hd.payouts _ (Table.get_mem hy)).journal

/-- The reversal of a payout, if there is one, reverses its reservation. -/
theorem PayoutCopy.reversal {d : Db} (h : PayoutCopy P d x) (hd : Consistent d)
    {j : JournalTransaction} (hj : d.journal? ⟨.reversal, .payout x.id⟩ = some j) :
    j.entries = x.reversalEntries := by
  obtain ⟨y, hy, ⟨⟨_, _, _, _, _, rfl⟩, -⟩, -⟩ := h
  have he := entries_of_row (f := Payout.reversalEntries) hy (hd.known hj)
  exact he

end

theorem relockPayout_spec {x : Payout} (h : PayoutCopy R.Serial w.1 x)
    (hp : ∀ d k, (pend d).payout? k = d.payout? k) :
    Meets R i (relockPayout x) ⟨held, pend, R.mode.inTxn, w⟩ fun v' r => ∃ w',
      Later R held R.mode.inTxn w w' ∧ v' = ⟨insert (.payout x.id) held, pend, R.mode.inTxn, w'⟩ ∧
      r = x ∧ PayoutCopy R.PayoutsFresh w'.1 x := by
  refine Meets.bind (.relock fun _ _ h => by cases h) ?_
  rintro v₁ r ⟨w₁, h₁, hok, hr⟩
  cases r with
  | none => exact .raise
  | some c =>
    obtain ⟨rfl, rfl, -⟩ := hr
    obtain ⟨y, hy, hk, hs⟩ := h.serial h₁.toMoved
    refine .pure ⟨w₁, h₁, rfl, rfl, y, hy, hk, ?_⟩
    rintro (hser | hfresh)
    · exact hs hser
    · exact hfresh _ hok y ((hp _ _).trans hy)

/-! ## Replays -/

section
variable {o : Option FinancialIdempotencyKey}

theorem completeTerminalReplay_spec {x : Payout} {idem : FinancialIdempotencyKey}
    (hpend : pend = whenSome .addRecord o) (ho : RecordReady held w.1 o) :
    Meets R i (completeTerminalReplay x idem) ⟨held, pend, b, w⟩ fun v' r =>
      r = none → v' = ⟨held, pend, b, w⟩ ∧ x.status = .pending := by
  unfold completeTerminalReplay
  split
  · exact (replayed_spec hpend ho).mono fun _ _ hr hn => by rw [hr] at hn; cases hn
  · exact (replayed_spec hpend ho).mono fun _ _ hr hn => by rw [hr] at hn; cases hn
  · rename_i hs
    exact .pure fun _ => ⟨rfl, hs⟩

theorem payoutRecord_spec {x : Payout} :
    Meets R i (payoutRecord x) ⟨held, pend, b, w⟩ fun v' _ => ∃ w', Later R held b w w' ∧
      v' = ⟨held, pend, R.mode.inTxn, w'⟩ := by
  refine Meets.bind .select ?_
  rintro _ r ⟨w₁, h₁, rfl, -⟩
  cases r with
  | none => exact .raise
  | some record => exact .pure ⟨w₁, h₁, rfl⟩

theorem replayPayout_spec {x : Payout} (hpend : pend = whenSome .addRecord o)
    (ho : RecordReady held w.1 o) :
    Meets R i (replayPayout x) ⟨held, pend, b, w⟩ fun _ _ => True := by
  refine Meets.bind payoutRecord_spec ?_
  rintro _ record ⟨w₁, h₁, rfl⟩
  refine Meets.bind (completeTerminalReplay_spec hpend (ho.later h₁.toMoved subset_rfl)) ?_
  rintro _ r -
  cases r with
  | none => exact .raise
  | some terminal => exact .pure trivial

/-! ## Failure -/

/-- What the failure of a payout has checked and locked. -/
structure PayoutFailure (R : Rules) (held : Set LockName) (w : World) (x : Payout) (post : Bool)
    (o : Option FinancialIdempotencyKey) : Prop where
  copy : PayoutCopy R.PayoutsFresh w.1 x
  lock : .payout x.id ∈ held
  pending : x.status = .pending
  record : RecordReady held w.1 o
  reserved : (w.1.journal? x.reservationKey).isSome
  wallet : w.1.account? (.userWallet x.freelancer x.currency) =
    some (AccountKey.userWallet x.freelancer x.currency).account
  clearing : w.1.account? (.providerClearing x.provider x.currency) =
    some (AccountKey.providerClearing x.provider x.currency).account
  balanced : DoubleEntry.Balanced x.reversalEntries
  posted : Reversing held w.1 x.reversalJournal.key post
  called : R.Serial → ∃ q a, R.Called q a w.2 ∧ PayoutCall R x q ∧ (a = .failed ∨ ∃ res,
    a = .result res ∧ (res.amountMinor ≠ x.amountMinor ∨ res.currency ≠ x.currency))

variable {x : Payout} {post : Bool}

theorem PayoutFailure.later (h : PayoutFailure R held w x post o)
    (hm : Later R held R.mode.inTxn w w') (hs : held ⊆ held') :
    PayoutFailure R held' w' x post o :=
  { h with
    lock := hs h.lock
    copy := h.copy.locked hm.toMoved h.lock
    record := h.record.later hm.toMoved hs
    reserved := hm.frame.journal_isSome h.reserved
    wallet := hm.frame.account h.wallet
    clearing := hm.frame.account h.clearing
    posted := h.posted.later hm.toMoved hs
    called := fun hser => by rw [hm.env hser hser]; exact h.called hser }

theorem PayoutFailure.postable {d : Db} (h : PayoutFailure R held w x true o)
    (hj : d.journals = w.1.journals) (ha : d.accounts = w.1.accounts)
    (hp : ∃ y, d.payout? x.id = some y ∧ x.Keeps y) : Postable held d x.reversalJournal where
  lock := h.posted.fresh.2
  fresh := by
    rw [Db.journal?, hj]
    exact h.posted.fresh.1
  balanced := h.balanced
  accounts := by
    intro e he
    simp only [Payout.reversalJournal, Payout.reversalEntries, List.mem_cons, List.not_mem_nil,
      or_false] at he
    rw [Db.account?, ha]
    rcases he with rfl | rfl
    · exact ⟨h.clearing, rfl⟩
    · exact ⟨h.wallet, rfl⟩
  known := by
    obtain ⟨y, hy, ⟨⟨_, _, _, _, _, rfl⟩, -⟩⟩ := hp
    refine ⟨_, hy, rfl, rfl, ?_⟩
    rw [Db.journal?, hj]
    exact h.reserved
  wallets u c := .inl (DoubleEntry.balance_nonneg fun e he hv => by
    refine ⟨?_, h.balanced.positive e he⟩
    simp only [Payout.reversalJournal, Payout.reversalEntries, List.mem_cons, List.not_mem_nil,
      or_false] at he
    rcases he with rfl | rfl
    · cases hv
    · rfl)

theorem PayoutFailure.ready {s : IdempotencyScope} {r : Response}
    (h : ∀ w', Later R held b w w' → PayoutFailure R held w' x post o) (hl : .record s ∈ held) :
    Ready R (.payoutFailed x.id) ⟨held, .completeRecord s r ∘
      .failPayout x.id x.reversalJournal.key ∘
      (if post then .addJournal x.reversalJournal else id) ∘ whenSome .addRecord o, b, w⟩ := by
  intro w' hw
  have hf := h w' hw
  obtain ⟨y, hy, hk, hs⟩ := hf.copy
  have u₁ := hf.record.updates
  have hsame : (whenSome .addRecord o w'.1).journals = w'.1.journals ∧
      (whenSome .addRecord o w'.1).accounts = w'.1.accounts ∧
      (whenSome .addRecord o w'.1).payout? x.id = some y := by
    cases o <;> exact ⟨rfl, rfl, hy⟩
  have u₂ : Updates held (whenSome .addRecord o w'.1)
      ((if post then .addJournal x.reversalJournal else id) <| whenSome .addRecord o w'.1) := by
    cases post with
    | false => exact Relation.ReflTransGen.refl
    | true =>
      exact .single (.addJournal _ (hf.postable hsame.1 hsame.2.1 ⟨y, hsame.2.2, hk⟩))
  refine ⟨((u₁.trans u₂).trans (.single (.failPayout x.id _ hf.lock))).trans
    (.single (.completeRecord s r hl)), ?_⟩
  have heff := Effect.payoutFailed (R := R) (e := w'.2) (.record o) s r y post (hk.id_eq.symm ▸ hy)
    (fun hF => (hs hF).trans hf.pending) ?_ ?_ ?_
  · rw [hk.id_eq, hk.reversalJournal] at heff
    exact heff
  · rw [hk.reversalJournal]
    exact hf.posted.eq
  · rw [hk.reservationKey]
    exact hf.reserved
  · intro hser
    obtain ⟨q, a, hc, hcall, ha⟩ := hf.called hser
    refine ⟨q, a, hc, hcall.keeps hk, ?_⟩
    obtain ⟨⟨_, _, _, _, _, rfl⟩, -⟩ := hk
    exact ha

theorem failPayout_spec (h : PayoutCopy R.Serial w.1 x) (hpend : pend = whenSome .addRecord o)
    (ho : RecordReady held w.1 o)
    (hcalled : R.Serial → ∃ q a, R.Called q a w.2 ∧ PayoutCall R x q ∧ (a = .failed ∨ ∃ res,
      a = .result res ∧ (res.amountMinor ≠ x.amountMinor ∨ res.currency ≠ x.currency))) :
    Meets R i (failPayout x) ⟨held, pend, R.mode.inTxn, w⟩ fun _ _ => True := by
  have hsame : ∀ d, (pend d).journals = d.journals ∧ (pend d).accounts = d.accounts ∧
      (pend d).payouts = d.payouts := by
    rw [hpend]
    cases o <;> exact fun _ => ⟨rfl, rfl, rfl⟩
  refine Meets.bind (relockPayout_spec h fun d k => by rw [Db.payout?, (hsame d).2.2]; rfl) ?_
  rintro _ x ⟨w₁, h₁, rfl, rfl, hc⟩
  split
  · exact replayPayout_spec hpend (ho.later h₁.toMoved (Set.subset_insert _ _))
  rename_i hpending
  refine Meets.bind .select ?_
  rintro _ wallet ⟨w₂, h₂, rfl, hwa⟩
  refine Meets.bind .select ?_
  rintro _ clearing ⟨w₃, h₃, rfl, hca⟩
  refine Meets.bind .select ?_
  rintro _ original ⟨w₄, h₄, rfl, hj⟩
  rw [Db.account?, (hsame _).2.1] at hwa hca
  rw [Db.journal?, (hsame _).1] at hj
  cases wallet with
  | none => exact .raise
  | some wallet =>
  cases clearing with
  | none => exact .raise
  | some clearing =>
  cases original with
  | none => exact .raise
  | some original =>
  have hwa' := h₂.inv.account hwa.symm
  have hca' := h₃.inv.account hca.symm
  subst hwa' hca'
  have hl : LockName.payout x.id ∈ insert (LockName.payout x.id) held := Set.mem_insert _ _
  have h₁₄ := h₂.trans (h₃.trans h₄ subset_rfl) subset_rfl
  have hjk := hc.journal h₁.inv
  have hkj : original.key = x.reservationKey := (Table.get_key hj.symm).trans hjk
  have hres : (w₄.1.journal? x.reservationKey).isSome := by
    rw [← hjk, Db.journal?, ← hj]
    rfl
  dsimp only
  rw [hkj]
  refine Meets.bind (postReversal_spec (l := x.reversalEntries) (fun d => (hsame d).1) rfl
    fun w' hw j hj' => ?_) ?_
  · exact ((hc.locked h₁₄.toMoved hl).locked hw.toMoved hl).reversal hw.inv hj'
  rintro _ j ⟨w₅, held', post, h₅, hsub, rfl, hkey, hb, hpost⟩
  have h₁₅ := h₁₄.trans h₅ subset_rfl
  have hfacts : PayoutFailure R held' w₅ x post o :=
    { copy := hc.locked h₁₅.toMoved hl
      lock := hsub hl
      pending := not_not.1 hpending
      record := (ho.later h₁.toMoved (Set.subset_insert _ _)).later h₁₅.toMoved hsub
      reserved := h₅.frame.journal_isSome hres
      wallet := (h₃.trans (h₄.trans h₅ subset_rfl) subset_rfl).frame.account hwa.symm
      clearing := (h₄.trans h₅ subset_rfl).frame.account hca.symm
      balanced := hb
      posted := hpost
      called := fun hser => by
        rw [h₁₅.env hser hser, h₁.env hser hser]
        exact hcalled hser }
  refine Meets.bind .write ?_
  rintro _ - rfl
  refine Meets.bind payoutRecord_spec ?_
  rintro _ record ⟨w₆, h₆, rfl⟩
  refine Meets.bind completeIdempotency_spec ?_
  rintro _ - ⟨w₇, h₇, rfl⟩
  rw [hkey, hpend]
  refine Meets.bind (.commit (PayoutFailure.ready (fun w' hw => ?_) (Set.mem_insert _ _)))
    fun _ _ _ => .pure trivial
  exact hfacts.later ((h₆.trans h₇ subset_rfl).trans hw (Set.subset_insert _ _))
    (Set.subset_insert _ _)

/-! ## Settlement -/

theorem serial_of_inCall (h : R.mode.inCall = true) : R.Serial := by
  unfold Rules.Serial
  revert h
  cases R.mode <;> decide

theorem payoutSucceeded_ready {s : IdempotencyScope} {r : Response} {reference : String}
    (h : ∀ w', Later R held b w w' → PayoutCopy R.PayoutsFresh w'.1 x ∧ RecordReady held w'.1 o ∧
      (R.Serial → ∃ q res, R.Called q (.result res) w'.2 ∧ PayoutCall R x q ∧
        res.amountMinor = x.amountMinor ∧ res.currency = x.currency))
    (hl : .payout x.id ∈ held) (hs : x.status = .pending) (hrl : .record s ∈ held) :
    Ready R (.payoutSucceeded x.id) ⟨held, .completeRecord s r ∘
      .enqueue (.payoutSucceeded x.id reference) ∘ .succeedPayout x.id reference ∘
      whenSome .addRecord o, b, w⟩ := by
  intro w' hw
  obtain ⟨⟨y, hy, hk, hst⟩, ho, hcalled⟩ := h w' hw
  refine ⟨((ho.updates.trans (.single (.succeedPayout _ reference hl))).trans
    (.single (.enqueue _))).trans (.single (.completeRecord s r hrl)), ?_⟩
  have heff := Effect.payoutSucceeded (R := R) (e := w'.2)
      (.record o) s r y reference (hk.id_eq.symm ▸ hy)
    (fun hF => (hst hF).trans hs) fun hser => ?_
  · rw [hk.id_eq] at heff
    exact heff
  · obtain ⟨q, res, hc, hcall, ha⟩ := hcalled hser
    refine ⟨q, res, hc, hcall.keeps hk, ?_⟩
    obtain ⟨⟨_, _, _, _, _, rfl⟩, -⟩ := hk
    exact ha

theorem applyPayoutResult_spec {result : ProviderResult} (h : PayoutCopy R.Serial w.1 x)
    (hpend : pend = whenSome .addRecord o) (ho : RecordReady held w.1 o)
    (hcalled : R.Serial → ∃ q, R.Called q (.result result) w.2 ∧ PayoutCall R x q) :
    Meets R i (applyPayoutResult x result) ⟨held, pend, R.mode.inTxn, w⟩ fun _ _ => True := by
  subst hpend
  refine Meets.bind (relockPayout_spec h fun d k => by cases o <;> rfl) ?_
  rintro _ x ⟨w₁, h₁, rfl, rfl, hc⟩
  have ho₁ := ho.later h₁.toMoved (Set.subset_insert (.payout x.id) _)
  split
  · exact replayPayout_spec rfl ho₁
  rename_i hpending
  split
  · rename_i hne
    refine failPayout_spec (hc.weaken .inl) rfl ho₁ fun hser => ?_
    rw [h₁.env hser hser]
    obtain ⟨q, hq, hcall⟩ := hcalled hser
    exact ⟨q, _, hq, hcall, .inr ⟨result, rfl, hne⟩⟩
  rename_i heq
  refine Meets.bind .taken ?_
  rintro _ other ⟨w₂, h₂, rfl, -⟩
  refine Meets.bind .require ?_
  rintro _ - ⟨rfl, -⟩
  refine Meets.bind .write ?_
  rintro _ - rfl
  refine Meets.bind .write ?_
  rintro _ - rfl
  refine Meets.bind payoutRecord_spec ?_
  rintro _ record ⟨w₃, h₃, rfl⟩
  refine Meets.bind completeIdempotency_spec ?_
  rintro _ - ⟨w₄, h₄, rfl⟩
  have hl₁ : LockName.payout x.id ∈ insert (LockName.payout x.id) held := Set.mem_insert _ _
  refine Meets.bind (.commit (payoutSucceeded_ready (x := x) (fun w' hw => ?_) (by simp)
    (not_not.1 hpending) (Set.mem_insert _ _))) fun _ _ _ => .pure trivial
  have h₂' := (h₃.trans h₄ subset_rfl).trans hw (Set.subset_insert _ _)
  have h₁' := h₂.trans h₂' (Set.subset_insert _ _)
  refine ⟨hc.locked h₁'.toMoved hl₁, ho₁.later h₁'.toMoved
    ((Set.subset_insert _ _).trans (Set.subset_insert _ _)), fun hser => ?_⟩
  rw [h₁'.env hser hser, h₁.env hser hser]
  obtain ⟨q, hq, hcall⟩ := hcalled hser
  have heq' := not_or.1 heq
  exact ⟨q, result, hq, hcall, not_not.1 heq'.1, not_not.1 heq'.2⟩

theorem settlePayout_spec {cfg : Config} {key : String} (h : PayoutCopy R.Serial w.1 x)
    (hpend : pend = whenSome .addRecord o) (ho : RecordReady held w.1 o)
    (hk : R.keys x.idempotency key) (hp : R.mode.inCall = true → x.status = .pending) :
    Meets R i (settlePayout cfg key x) ⟨held, pend, R.mode.inTxn, w⟩ fun _ _ => True := by
  unfold settlePayout
  split
  · exact .raise
  rename_i destination hdest
  refine Meets.bind getProvider_spec ?_
  rintro _ provider ⟨rfl, rfl⟩
  have hcall : PayoutCall R x
      (.payout (lower (strip x.provider)) destination x.amountMinor x.currency
    (.raw key)) := ⟨destination, key, rfl, hdest, hk⟩
  refine Meets.bind (.callProvider fun w' hw => ?_) ?_
  · obtain ⟨y, hy, hkeep, hst⟩ := h.serial hw.toMoved
    refine ⟨y, hkeep.id_eq.symm ▸ hy, hcall.keeps hkeep, fun hc =>
      (hst (serial_of_inCall hc)).trans (hp hc)⟩
  rintro _ a ⟨w₁, h₁, hcalled, rfl⟩
  have hc₁ := h.serial h₁
  have ho₁ := ho.later h₁ subset_rfl
  cases a with
  | result result => exact applyPayoutResult_spec hc₁ hpend ho₁ fun _ => ⟨_, hcalled, hcall⟩
  | temporary =>
    refine Meets.bind .rollback ?_
    rintro _ - ⟨w₂, h₂, rfl⟩
    refine Meets.bind .select ?_
    rintro _ r ⟨w₃, h₃, rfl, -⟩
    cases r with
    | none => exact .raise
    | some persisted => exact .pure trivial
  | failed => exact failPayout_spec hc₁ hpend ho₁ fun _ => ⟨_, _, hcalled, hcall, .inl rfl⟩

end

/-! ## Reservation -/

theorem Consistent.no_payout_journal {d : Db} (hd : Consistent d) {p : Payout}
    (hp : d.payout? p.id = none) : d.journal? p.reservationKey = none := by
  refine hd.no_journal fun _ _ hk => ?_
  obtain ⟨y, hy, -⟩ := hk
  cases hp.symm.trans hy

/-- What the reservation of a payout has checked and locked. -/
structure PayoutReservation (held : Set LockName) (d : Db) (p : Payout)
    (o : Option FinancialIdempotencyKey) (oc : Option AccountKey) : Prop where
  record : RecordReady held d o
  wallet : d.account? (.userWallet p.freelancer p.currency) =
    some (AccountKey.userWallet p.freelancer p.currency).account
  walletLock : .account (.userWallet p.freelancer p.currency) ∈ held
  covered : p.amountMinor ≤ d.balance (.userWallet p.freelancer p.currency)
  clearing : AccountReady d (.providerClearing p.provider p.currency) oc
  clearingLock : .account (.providerClearing p.provider p.currency) ∈ held
  fresh : d.payout? p.id = none
  lock : .payout p.id ∈ held
  journal : p.journal = p.reservationKey
  journalLock : .journal p.reservationKey ∈ held
  balanced : DoubleEntry.Balanced p.reservation
  positive : 0 < p.amountMinor
  pending : p.status = .pending
  open_ : p.reversal = none

section
variable {p : Payout} {o : Option FinancialIdempotencyKey} {oc : Option AccountKey}

theorem PayoutReservation.updates {d : Db} (h : PayoutReservation held d p o oc)
    (hd : Consistent d) : Updates held d (.addPayout p <| .addJournal p.reservationJournal <|
      whenSome (fun k => .addAccount k.account) oc <| whenSome .addRecord o d) := by
  have ho : ∀ k, (whenSome .addRecord o d).account? k = d.account? k := by
    cases o <;> exact fun _ => rfl
  have hc : AccountReady (whenSome .addRecord o d) (.providerClearing p.provider p.currency) oc :=
    h.clearing.congr (ho _)
  have hne : AccountKey.userWallet p.freelancer p.currency ≠
    .providerClearing p.provider p.currency := nofun
  have u₁ := h.record.updates.trans (hc.updates h.clearingLock)
  generalize hd₁ : whenSome (fun k => Db.addAccount k.account) oc (whenSome .addRecord o d) = d₁
    at u₁ ⊢
  have hp₁ : d₁.payout? p.id = none := by
    rw [← hd₁]
    cases oc <;> cases o <;> exact h.fresh
  have hj₁ : d₁.journals = d.journals := by
    rw [← hd₁]
    cases oc <;> cases o <;> rfl
  have hc₁ : d₁.account? (.providerClearing p.provider p.currency) =
      some (AccountKey.providerClearing p.provider p.currency).account := by
    rw [← hd₁]
    exact hc.account
  have hw₁ : d₁.account? (.userWallet p.freelancer p.currency) =
      some (AccountKey.userWallet p.freelancer p.currency).account := by
    rw [← hd₁, hc.account_ne _ hne, ho]
    exact h.wallet
  -- the payout is recorded before its journal is posted: both orders give the same tables
  have u₂ : Update held d₁ (d₁.addPayout p) := .addPayout p h.lock hp₁ h.positive h.journal
  have hpost : Postable held (d₁.addPayout p) p.reservationJournal :=
    { lock := h.journalLock
      fresh := by
        change Table.get _ _ d₁.journals = _
        rw [hj₁]
        exact hd.no_payout_journal h.fresh
      balanced := h.balanced
      accounts := by
        intro e he
        simp only [Payout.reservationJournal, Payout.reservation, List.mem_cons, List.not_mem_nil,
          or_false] at he
        rcases he with rfl | rfl
        · exact ⟨hw₁, rfl⟩
        · exact ⟨hc₁, rfl⟩
      known := ⟨p, by
        rw [Db.payout?_addPayout]
        exact if_pos rfl, rfl⟩
      wallets := fun u c => by
        have hbal : (d₁.addPayout p).balance (.userWallet u c) = d.balance (.userWallet u c) := by
          change DoubleEntry.balance (d₁.journals.flatMap (·.entries)) _ = _
          rw [hj₁]
          rfl
        rw [hbal]
        by_cases hk : AccountKey.userWallet p.freelancer p.currency = .userWallet u c
        · rw [← hk]
          refine .inr ⟨h.walletLock, ?_⟩
          have hcov := h.covered
          simp [Payout.reservationJournal, Payout.reservation, DoubleEntry.Entry.signed]
          omega
        · refine .inl ?_
          simp [Payout.reservationJournal, Payout.reservation, hk] }
  exact (u₁.trans (.single u₂)).trans (.single (.addJournal _ hpost))

theorem PayoutReservation.ready
    (h : ∀ w', Later R held b w w' → PayoutReservation held w'.1 p o oc)
    (only : ∀ w', Later R held b w w' → R.Serial → w'.1.payoutOfRecord? p.idempotency = none)
    (operation : p.idempotency.operation = .payoutCreate) :
    Ready R (.payoutReserved p.id) ⟨held, .addPayout p ∘ .addJournal p.reservationJournal ∘
      whenSome (fun k => .addAccount k.account) oc ∘ whenSome .addRecord o, b, w⟩ := by
  intro w' hw
  have hf := h w' hw
  exact ⟨hf.updates hw.inv, .payoutReserved (.trans (.record o) (.account oc)) p hf.fresh hf.pending
    hf.open_ hf.covered (only w' hw) operation⟩

end

theorem resolvePayoutDestination_spec {u : UserId} {name : String} (hi : Consistent w.1) :
    Meets R i (resolvePayoutDestination u name) ⟨held, pend, R.mode.inTxn, w⟩ fun v' _ => ∃ w',
      Later R held R.mode.inTxn w w' ∧ v' = ⟨held, pend, R.mode.inTxn, w'⟩ := by
  unfold resolvePayoutDestination
  dsimp only
  split
  · exact .pure ⟨w, .refl hi, rfl⟩
  · refine Meets.bind .select ?_
    rintro _ r ⟨w₁, h₁, rfl, -⟩
    cases r with
    | none => exact .raiseApi
    | some a => exact .pure ⟨w₁, h₁, rfl⟩

theorem lockedWallet_spec {u : UserId} {c : Currency}
    (hp : ∀ d k, (pend d).account? k = d.account? k) :
    Meets R i (lockedWallet u c) ⟨held, pend, b, w⟩ fun v' r => ∃ w', Later R held b w w' ∧
      v' = ⟨insert (.account (.userWallet u c)) held, pend, R.mode.inTxn, w'⟩ ∧
      w'.1.account? (.userWallet u c) = some r ∧ r = (AccountKey.userWallet u c).account := by
  refine Meets.bind .selectForUpdate ?_
  rintro v₁ r ⟨w₁, h₁, hr, hv₁⟩
  rw [hp] at hr
  cases r with
  | none => exact .raiseApi
  | some a =>
    have ha := (Option.filter_eq_some_iff.1 hr.symm).1
    have hk := h₁.inv.account ha
    subst hk
    rw [show v₁ = _ from hv₁, AccountKey.account_key]
    exact .pure ⟨w₁, h₁, rfl, ha, rfl⟩

theorem requireSufficientBalance_spec {a : LedgerAccount} {n : Int} :
    Meets R i (requireSufficientBalance a n) ⟨held, pend, b, w⟩ fun v' _ => ∃ w',
      Later R held b w w' ∧ v' = ⟨held, pend, R.mode.inTxn, w'⟩ ∧
        n ≤ (pend w'.1).balance a.key := by
  refine Meets.bind accountBalanceMinor_spec ?_
  rintro _ balance ⟨w₁, h₁, rfl, rfl⟩
  refine Meets.require.mono ?_
  rintro _ - ⟨rfl, hn⟩
  exact ⟨w₁, h₁, rfl, of_decide_eq_true hn⟩

theorem insertPayout_spec {p : Payout} :
    Meets R i (insertPayout p) ⟨held, pend, b, w⟩ fun v' _ => ∃ w', Later R held b w w' ∧
      v' = ⟨insert (.payoutOfRecord p.idempotency) held, .addPayout p ∘ pend, R.mode.inTxn, w'⟩ ∧
      0 < p.amountMinor ∧ (pend w'.1).payoutOfRecord? p.idempotency = none := by
  refine Meets.bind .reserve ?_
  rintro _ - ⟨w₁, h₁, rfl, hnone⟩
  refine Meets.bind .require ?_
  rintro _ - ⟨rfl, hpos⟩
  refine Meets.write.mono ?_
  rintro _ - rfl
  exact ⟨w₁, h₁, rfl, of_decide_eq_true hpos, by simpa using hnone⟩

/-- The copy that a session loads after it has committed the pending payout `q`. -/
theorem reloadPayout_spec {d : Db} {e : Providers} {q : Payout} (hq : d.payout? q.id = some q)
    (hs : q.status = .pending) :
    Meets R i (do
      match ← select (fun d => d.payout? q.id) with
      | none => raise payoutDisappeared
      | some payout => pure payout) ⟨∅, id, R.mode.inCall, (d, e)⟩ fun v' r => ∃ w',
        v' = ⟨∅, id, R.mode.inTxn, w'⟩ ∧ PayoutCopy R.Serial w'.1 r ∧
        r.idempotency = q.idempotency ∧ (R.mode.inCall = true → r.status = .pending) := by
  refine Meets.bind .select ?_
  rintro _ p ⟨w₁, h₁, rfl, hp⟩
  cases p with
  | none => exact .raise
  | some p =>
  have hp₁ : w₁.1.payout? q.id = some p := hp.symm
  obtain ⟨y, hy, hk⟩ := h₁.frame.payouts.keep _ _ hq
  obtain rfl : p = y := Option.some.inj (hp.trans hy)
  refine .pure ⟨w₁, rfl, ⟨p, by rw [hk.id_eq]; exact hp₁, .refl _, fun _ => rfl⟩, ?_, fun hc => ?_⟩
  · obtain ⟨⟨_, _, _, _, _, rfl⟩, -⟩ := hk
    rfl
  · have hd : w₁.1 = d := h₁.still (serial_of_inCall hc) hc
    rw [hd, hq] at hp₁
    cases hp₁
    exact hs

theorem reservePayout_spec {user : User} {amount : Int} {c : Currency} {provider : Provider}
    {idem : FinancialIdempotencyKey} {o : Option FinancialIdempotencyKey} {payoutId : PayoutId}
    (hi : Consistent w.1) (ho : RecordReady held w.1 o)
    (hop : idem.scope.operation = .payoutCreate) :
    Meets R i (reservePayout user amount c provider idem payoutId)
      ⟨held, whenSome .addRecord o, R.mode.inTxn, w⟩ fun v' r => ∃ w',
        v' = ⟨∅, id, R.mode.inTxn, w'⟩ ∧ PayoutCopy R.Serial w'.1 r ∧
        r.idempotency = idem.scope ∧ (R.mode.inCall = true → r.status = .pending) := by
  have hacc : ∀ d k, (whenSome .addRecord o d).account? k = d.account? k := by
    cases o <;> exact fun _ _ => rfl
  refine Meets.bind (resolvePayoutDestination_spec hi) ?_
  rintro _ destination ⟨w₁, h₁, rfl⟩
  refine Meets.bind (lockedWallet_spec hacc) ?_
  rintro _ wallet ⟨w₂, h₂, rfl, hwal, rfl⟩
  refine Meets.bind requireSufficientBalance_spec ?_
  rintro _ - ⟨w₃, h₃, rfl, hcov⟩
  rw [AccountKey.account_key, show (whenSome .addRecord o w₃.1).balance _ = w₃.1.balance _ by
    cases o <;> rfl] at hcov
  rw [show clearingAccount provider c = (AccountKey.providerClearing provider c).account from rfl]
  refine Meets.bind (getOrCreateAccount_spec fun d => hacc d _) ?_
  rintro _ clearing ⟨w₄, oc, h₄, rfl, hC, rfl⟩
  refine Meets.bind .reserve ?_
  rintro _ - ⟨w₅, h₅, rfl, hfresh⟩
  have hfresh₅ : w₅.1.payout? payoutId = none := by
    refine Eq.trans ?_ (Option.not_isSome_iff_eq_none.1 (Bool.eq_false_iff.1 hfresh))
    cases oc <;> cases o <;> rfl
  let q := newPayout payoutId user idem.scope ⟨.payout, .payout payoutId⟩ provider
    destination amount c
  refine Meets.bind (postJournal_new fun w' hw => ?_) ?_
  · have hn := hw.inv.no_payout_journal (p := q)
      ((hw.payout (Set.mem_insert _ _)).trans hfresh₅)
    cases oc <;> cases o <;> exact hn
  rintro _ journal ⟨w₆, es, h₆, hes, rfl, rfl⟩
  obtain ⟨rfl, hb⟩ := journalEntries_balanced (l := q.reservation) hes rfl
  refine Meets.bind insertPayout_spec ?_
  rintro _ - ⟨w₇, h₇, rfl, hpos, hnone⟩
  have honly : w₇.1.payoutOfRecord? idem.scope = none := by
    refine Eq.trans ?_ hnone
    cases oc <;> cases o <;> rfl
  refine Meets.bind
    (.commit (PayoutReservation.ready (fun w' hw => ?_) (fun w' hw hser => ?_) hop)) ?_
  · have h₆' := h₇.trans hw (Set.subset_insert _ _)
    have h₅' := h₆.trans h₆' (Set.subset_insert _ _)
    have h₄' := h₅.trans h₅' (Set.subset_insert _ _)
    have h₃' := h₄.trans h₄' (Set.subset_insert _ _)
    have h₂' := h₃.trans h₃' subset_rfl
    have h₀' := h₁.trans (h₂.trans h₂' (Set.subset_insert _ _)) subset_rfl
    exact
      { record := ho.later h₀'.toMoved fun k hk => by simp [hk]
        wallet := h₂'.frame.account hwal
        walletLock := by simp [newPayout]
        covered := hcov.trans (h₃'.frame.wallets _ _ (Set.mem_insert _ _))
        clearing := hC.later h₄'.toMoved (Set.mem_insert _ _)
        clearingLock := by simp [newPayout]
        fresh := (h₅'.payout (Set.mem_insert _ _)).trans hfresh₅
        lock := by simp [newPayout]
        journal := rfl
        journalLock := by simp [newPayout, Payout.reservationKey]
        balanced := hb
        positive := hpos
        pending := rfl
        open_ := rfl }
  · rw [hw.still hser hser]
    exact honly
  rintro v - ⟨w₈, h₈, hv, hinv⟩
  -- what the first transaction has left behind
  have hleft : ∃ d, v = ⟨∅, id, R.mode.inCall, (d, w₈.2)⟩ ∧ d.payout? payoutId = some q :=
    ⟨_, hv, (Db.payout?_addPayout _ _ _).trans (if_pos rfl)⟩
  obtain ⟨d, rfl, hq⟩ := hleft
  exact reloadPayout_spec (q := q) hq rfl

theorem upgradeLegacyDestinationSnapshot_spec {x : Payout} {o : Option FinancialIdempotencyKey}
    (hx : w.1.payout? x.id = some x) (hl : .payout x.id ∈ held) (hs : x.status = .pending)
    (ho : RecordReady held w.1 o) :
    Meets R i (upgradeLegacyDestinationSnapshot x) ⟨held, whenSome .addRecord o, R.mode.inTxn, w⟩
      fun v' r => ∃ w' held' o', v' = ⟨held', whenSome .addRecord o', R.mode.inTxn, w'⟩ ∧
        RecordReady held' w'.1 o' ∧ PayoutCopy R.Serial w'.1 r ∧ r.idempotency = x.idempotency ∧
        (R.mode.inCall = true → r.status = .pending) := by
  unfold upgradeLegacyDestinationSnapshot
  split
  · exact .pure ⟨w, held, o, rfl, ho, ⟨x, hx, .refl _, fun _ => rfl⟩, rfl, fun _ => hs⟩
  · rename_i hn
    refine Meets.bind .require ?_
    rintro _ - ⟨rfl, -⟩
    refine Meets.bind .write ?_
    rintro _ - rfl
    refine Meets.bind (.commit fun w' hw => ?_) ?_
    · have hx' := (hw.payout hl).trans hx
      have hx'' : (whenSome .addRecord o w'.1).payout? x.id = some x := by
        cases o <;> exact hx'
      exact ⟨(ho.later hw.toMoved subset_rfl).updates.trans
        (.single (.setDestination x (.user x.freelancer) hl hx'' hn)),
        .payoutUpgraded (.record o) x _ hx' hn hs⟩
    rintro v - ⟨w₁, h₁, hv, -⟩
    have hleft : ∃ d, v = ⟨∅, id, R.mode.inCall, (d, w₁.2)⟩ ∧
        d.payout? x.id = some { x with destination := some (.user x.freelancer) } := by
      refine ⟨_, hv, ?_⟩
      have hx' : (whenSome .addRecord o w₁.1).payout? x.id = some x := by
        refine Eq.trans ?_ ((h₁.payout hl).trans hx)
        cases o <;> rfl
      refine (Db.payout?_setDestination _ _ _ _).trans ?_
      rw [show (whenSome Db.addRecord o w₁.1).payout? x.id = _ from hx',
        Option.map_some, if_pos rfl]
    obtain ⟨d, rfl, hq⟩ := hleft
    refine (reloadPayout_spec (q := { x with destination := some (.user x.freelancer) }) hq hs).mono
      ?_
    rintro _ r ⟨w₂, rfl, hcopy, hid, hp⟩
    exact ⟨w₂, _, none, rfl, .none, hcopy, hid, hp⟩

theorem createPayout_spec {cfg : Config} {user : User} {amount : Int}
    {currency providerName key : String} {payoutId : PayoutId}
    (hk : R.keys ⟨user.id, .payoutCreate, strip key⟩ key) :
    Meets R i (createPayout cfg user amount currency providerName key payoutId) ⟨∅, id, b, w⟩
      fun _ _ => True := by
  refine Meets.bind .require ?_
  rintro _ - ⟨rfl, -⟩
  refine Meets.bind .require ?_
  rintro _ - ⟨rfl, -⟩
  refine Meets.bind (claimIdempotency_spec fun _ _ => rfl) ?_
  rintro _ ⟨idem, created⟩ ⟨w₁, o, h₁, rfl, hcl, hsc, -⟩
  dsimp only at hcl hsc ⊢
  split
  · exact .pure trivial
  have ho := hcl.ready (Set.mem_insert (LockName.record idem.scope) ∅)
  refine Meets.bind .selectForUpdate ?_
  rintro v r ⟨w₂, h₂, hr, hv⟩
  have ho₂ := ho.later h₂.toMoved subset_rfl
  cases r with
  | none =>
    subst hv
    refine Meets.bind (reservePayout_spec h₂.inv ho₂ (by rw [hsc])) ?_
    rintro _ p ⟨w₃, rfl, hcopy, hid, hp⟩
    exact settlePayout_spec hcopy rfl .none (by rw [hid, hsc]; exact hk) hp
  | some p =>
    subst hv
    have hr₂ : w₂.1.payoutOfRecord? idem.scope = some p := by
      refine Eq.trans ?_ hr.symm
      cases o <;> rfl
    have hrow : w₂.1.payout? p.id = some p :=
      Table.get_of_mem h₂.inv.keyed.payouts (List.mem_of_find?_eq_some hr₂)
    have hscope : p.idempotency = idem.scope := by simpa using List.find?_some hr₂
    have ho₂' := ho.later h₂.toMoved (Set.subset_insert (LockName.payout p.id) _)
    refine Meets.bind (completeTerminalReplay_spec rfl ho₂') ?_
    rintro v terminal hterminal
    cases terminal with
    | some terminal => exact .pure trivial
    | none =>
      obtain ⟨rfl, hpending⟩ := hterminal rfl
      refine Meets.bind (upgradeLegacyDestinationSnapshot_spec hrow (Set.mem_insert _ _)
        hpending ho₂') ?_
      rintro _ q ⟨w₃, held₃, o₃, rfl, ho₃, hcopy, hid, hp⟩
      exact settlePayout_spec hcopy rfl ho₃ (by rw [hid, hscope, hsc]; exact hk) hp

end Money
