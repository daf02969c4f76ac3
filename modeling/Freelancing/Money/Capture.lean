import Freelancing.Money.Alone
import Freelancing.Money.WebhookSpec
import Freelancing.Txn.Atomic

/-!
# A capture served alone

`Capturable d i m c`: the checks that `_capture_intent` makes of an intent that is not captured yet.
Served alone on consistent tables a capture is refused where one of them fails, and otherwise makes
the writes `capturedDb` (`captureIntent_alone`).
-/

namespace Money

variable {γ : Type} {answer : Request → Answer} {d : Db} {pend : Db → Db}

/-! ## Rows that are read -/

section
variable {m : Milestone} {c : Contract}

theorem findMilestone_alone {id : MilestoneId} {f : Milestone → Tx γ}
    (hm : (pend d).milestone? id = some m) :
    (findMilestone id >>= f).alone answer d pend = (f m).alone answer d pend := by
  unfold findMilestone
  rw [bind_assoc, alone_select, hm]
  rfl

theorem lockedMilestone_alone {id : MilestoneId} {f : Milestone × Contract → Tx γ}
    (hm : (pend d).milestone? id = some m) (hc : (pend d).contract? m.contract = some c) :
    (lockedMilestone id >>= f).alone answer d pend = (f (m, c)).alone answer d pend := by
  unfold lockedMilestone contractOf
  rw [bind_assoc, alone_selectForUpdate, hm]
  simp only [bind_assoc]
  rw [alone_select, hc]
  rfl

/-- A milestone whose contract is missing. -/
theorem lockedMilestone_none {id : MilestoneId} {f : Milestone × Contract → Tx γ}
    (hm : (pend d).milestone? id = some m) (hc : (pend d).contract? m.contract = none) :
    ∃ e, (lockedMilestone id >>= f).alone answer d pend = ⟨d, .error e⟩ := by
  unfold lockedMilestone contractOf
  rw [bind_assoc, alone_selectForUpdate, hm]
  simp only [bind_assoc]
  rw [alone_select, hc]
  exact ⟨_, rfl⟩

theorem lockedContract_alone {f : Contract → Tx γ} (hc : (pend d).contract? c.id = some c) :
    (lockedContract c >>= f).alone answer d pend = (f c).alone answer d pend := by
  unfold lockedContract
  rw [bind_assoc, alone_relock, hc]
  rfl

theorem contract?_id {k : ContractId} (hc : d.contract? k = some c) :
    d.contract? c.id = some c := by
  rw [Table.get_key hc]
  exact hc

theorem financialState_alone (answer : Request → Answer) {f : FinancialState → Tx γ}
    (hx : ∀ x, (pend d).escrow? m.id = some x → ((pend d).account? x.escrowAccount).isSome) :
    ∃ st, (financialState m >>= f).alone answer d pend = (f st).alone answer d pend := by
  unfold financialState escrowAccount accountBalanceMinor
  rw [bind_assoc, alone_select]
  cases he : (pend d).escrow? m.id with
  | none => exact ⟨_, rfl⟩
  | some x =>
    obtain ⟨a, ha⟩ := Option.isSome_iff_exists.1 (hx x he)
    simp only [bind_assoc]
    rw [alone_select, ha]
    exact ⟨_, rfl⟩

end

/-! ## Rows that are inserted if they are missing -/

/-- `get_or_create_account`. -/
def Db.ensureAccount (a : LedgerAccount) (d : Db) : Db :=
  if (d.account? a.key).isSome then d else d.addAccount a

theorem account?_ensureAccount {k : AccountKey} :
    (d.ensureAccount k.account).account? k ≠ none := by
  unfold Db.ensureAccount
  split
  · rename_i h
    simpa [Option.isSome_iff_ne_none] using h
  · simp

theorem account?_ensureAccount_of {a : LedgerAccount} {k : AccountKey}
    (h : (d.account? k).isSome) : ((d.ensureAccount a).account? k).isSome := by
  unfold Db.ensureAccount
  split
  · exact h
  · rw [Db.account?_addAccount]
    split
    · rfl
    · exact h

theorem getOrCreateAccount_alone {k : AccountKey} {f : LedgerAccount → Tx γ}
    (ha : ∀ a, (pend d).account? k = some a → a = k.account) :
    (getOrCreateAccount k.account >>= f).alone answer d pend =
      (f k.account).alone answer d (.ensureAccount k.account ∘ pend) := by
  unfold getOrCreateAccount
  rw [bind_assoc, alone_selectForUpdate, AccountKey.account_key]
  cases hk : (pend d).account? k with
  | some a =>
    obtain rfl := ha a hk
    dsimp only
    rw [show sameIdentity k.account k.account = pure k.account by simp [sameIdentity], pure_bind]
    exact Txn.Prog.alone_congr _ (by simp [Db.ensureAccount, hk])
  | none =>
    dsimp only
    rw [bind_assoc, alone_taken, hk]
    simp only [Option.isSome_none, Bool.false_eq_true, if_false, bind_assoc, pure_bind]
    rw [alone_write]
    exact Txn.Prog.alone_congr _ (by simp [Db.ensureAccount, hk])

theorem postJournal_alone {op : JournalOperation} {ref : Reference} {ps : List Posting}
    {rev : Option JournalKey} {es : List LedgerEntry} {f : JournalTransaction → Tx γ}
    (hes : journalEntries ps = .ok es) (hj : (pend d).journal? ⟨op, ref⟩ = none) :
    (postJournal op ref ps rev >>= f).alone answer d pend =
      (f ⟨⟨op, ref⟩, rev, es⟩).alone answer d (.addJournal ⟨⟨op, ref⟩, rev, es⟩ ∘ pend) := by
  unfold postJournal
  rw [hes]
  dsimp only
  rw [bind_assoc, alone_read, hj]
  dsimp only
  rw [bind_assoc, alone_reserve (by simp [hj]), bind_assoc, alone_write, pure_bind]

/-- A posting in one currency of one amount. -/
theorem journalEntries_pair {a b : LedgerAccount} {n : Int} (hn : 0 < n)
    (hc : b.currency = a.currency) :
    journalEntries [⟨a, .debit, n⟩, ⟨b, .credit, n⟩] =
      .ok [⟨a.key, .debit, n, a.currency⟩, ⟨b.key, .credit, n, a.currency⟩] := by
  simp [journalEntries, hc, Posting.entry, DoubleEntry.total, not_le.2 hn]

theorem recordFunding_alone {x : MilestoneEscrow} {i : PaymentIntent} {j : JournalTransaction}
    {f : Unit → Tx γ} (hf : (pend d).funding? i.id = none) :
    (recordFunding x i j >>= f).alone answer d pend =
      (f ()).alone answer d (.addFunding ⟨x.milestone, i.id, j.key, i.amountMinor⟩ ∘ pend) := by
  unfold recordFunding
  rw [bind_assoc, alone_select, hf]
  dsimp only
  rw [bind_assoc, alone_reserve (by simp [hf]), alone_write]

/-! ## The escrow -/

/-- The basis points that the contract's snapshot gives, if it is well formed. -/
def Commission.bps? : Commission → Option Int
  | .absent => some 0
  | .platformBps (some value) => if value < 0 ∨ 10000 < value then none else some value
  | _ => none

theorem contractCommissionBps_alone (answer : Request → Answer) (d : Db) (pend : Db → Db)
    {c : Contract} {f : Int → Tx γ} :
    c.commission.bps? = none ∧
        (∃ e, (contractCommissionBps c >>= f).alone answer d pend = ⟨d, .error e⟩) ∨
      ∃ v, c.commission.bps? = some v ∧
        (contractCommissionBps c >>= f).alone answer d pend = (f v).alone answer d pend := by
  unfold contractCommissionBps
  cases c.commission with
  | absent => exact .inr ⟨0, rfl, rfl⟩
  | notObject => exact .inl ⟨rfl, _, rfl⟩
  | platformBps o =>
    cases o with
    | none => exact .inl ⟨rfl, _, rfl⟩
    | some v =>
      dsimp only [Commission.bps?]
      by_cases hv : v < 0 ∨ 10000 < v
      · rw [if_pos hv, if_pos hv]
        exact .inl ⟨rfl, _, rfl⟩
      · rw [if_neg hv, if_neg hv]
        exact .inr ⟨v, rfl, rfl⟩

/-- The escrow of the milestone and its account, inserted by the first capture. -/
def Db.ensureEscrow (m : Milestone) (bps : Int) (d : Db) : Db :=
  if (d.escrow? m.id).isSome then d
  else (d.ensureAccount m.escrowKey.account).addEscrow ⟨m.id, m.escrowKey, bps⟩

section
variable {m : Milestone} {bps : Int}

@[simp] theorem journals_ensureAccount (a : LedgerAccount) :
    (d.ensureAccount a).journals = d.journals := by
  unfold Db.ensureAccount
  split <;> rfl

@[simp] theorem journals_ensureEscrow : (d.ensureEscrow m bps).journals = d.journals := by
  unfold Db.ensureEscrow
  split
  · rfl
  · exact journals_ensureAccount _

@[simp] theorem fundings_ensureEscrow : (d.ensureEscrow m bps).fundings = d.fundings := by
  unfold Db.ensureEscrow Db.ensureAccount
  split
  · rfl
  · split <;> rfl

@[simp] theorem fundings_ensureAccount (a : LedgerAccount) :
    (d.ensureAccount a).fundings = d.fundings := by
  unfold Db.ensureAccount
  split <;> rfl

@[simp] theorem escrows_ensureAccount (a : LedgerAccount) :
    (d.ensureAccount a).escrows = d.escrows := by
  unfold Db.ensureAccount
  split <;> rfl

/-- Every account has the identity that its key stands for. -/
def AccountsOk (d : Db) : Prop := ∀ k a, d.account? k = some a → a = k.account

theorem Consistent.accountsOk (hd : Consistent d) : AccountsOk d := fun _ _ h => hd.account h

theorem AccountsOk.ensureAccount (h : AccountsOk d) (k : AccountKey) :
    AccountsOk (d.ensureAccount k.account) := by
  unfold Db.ensureAccount
  split
  · exact h
  · intro k' a ha
    rw [Db.account?_addAccount, AccountKey.account_key] at ha
    split at ha
    · rename_i hk
      rw [← Option.some.inj ha, hk]
    · exact h k' a ha

theorem AccountsOk.ensureEscrow (h : AccountsOk d) : AccountsOk (d.ensureEscrow m bps) := by
  unfold Db.ensureEscrow
  split
  · exact h
  · exact h.ensureAccount m.escrowKey

/-- The escrow's row and account after the first capture. -/
theorem escrow?_ensureEscrow (bps : Int) (hd : Consistent d) (hm : d.milestone? m.id = some m) :
    ∃ x, (d.ensureEscrow m bps).escrow? m.id = some x ∧ x.milestone = m.id ∧
      x.escrowAccount = m.escrowKey ∧
      ((d.ensureEscrow m bps).account? m.escrowKey).isSome := by
  unfold Db.ensureEscrow
  cases he : d.escrow? m.id with
  | some x =>
    obtain ⟨m', hm', hkey, hacc⟩ := hd.escrows x (Table.get_mem he)
    have hid : x.milestone = m.id := Table.get_key he
    rw [hid, hm] at hm'
    cases hm'
    refine ⟨x, he, hid, hkey, ?_⟩
    rw [hkey] at hacc
    exact Option.isSome_iff_exists.2 ⟨_, hacc⟩
  | none =>
    refine ⟨⟨m.id, m.escrowKey, bps⟩, by simp, rfl, rfl, ?_⟩
    exact Option.isSome_iff_ne_none.2 account?_ensureAccount

theorem captureEscrow_alone (answer : Request → Answer) {c : Contract}
    {f : MilestoneEscrow × LedgerAccount → Tx γ} (hd : Consistent (pend d))
    (hm : (pend d).milestone? m.id = some m) :
    ((pend d).escrow? m.id = none ∧ c.commission.bps? = none ∧
        ∃ e, (captureEscrow m c >>= f).alone answer d pend = ⟨d, .error e⟩) ∨
      ((pend d).escrow? m.id = none → c.commission.bps?.isSome) ∧
        ∃ x, x.milestone = m.id ∧ (captureEscrow m c >>= f).alone answer d pend =
          (f (x, m.escrowKey.account)).alone answer d
            (.ensureEscrow m (c.commission.bps?.getD 0) ∘ pend) := by
  unfold captureEscrow
  rw [bind_assoc, alone_select]
  cases he : (pend d).escrow? m.id with
  | some x =>
    obtain ⟨m', hm', hkey, hacc⟩ := hd.escrows x (Table.get_mem he)
    rw [Table.get_key he, hm] at hm'
    cases hm'
    refine .inr ⟨nofun, x, Table.get_key he, ?_⟩
    unfold escrowAccount
    simp only [bind_assoc, pure_bind]
    rw [alone_select, hacc]
    dsimp only
    rw [pure_bind, hkey]
    exact Txn.Prog.alone_congr _ (by simp [Db.ensureEscrow, he])
  | none =>
    dsimp only
    simp only [bind_assoc, pure_bind, escrowAccountOf_eq]
    rw [getOrCreateAccount_alone fun a ha => hd.account ha]
    rcases contractCommissionBps_alone answer d (.ensureAccount m.escrowKey.account ∘ pend) with
      ⟨hb, hr⟩ | ⟨v, hb, hr⟩
    · exact .inl ⟨trivial, hb, hr⟩
    · refine .inr ⟨fun _ => by rw [hb]; rfl, ⟨m.id, m.escrowKey, v⟩, rfl, ?_⟩
      have hnone : (Db.ensureAccount m.escrowKey.account (pend d)).escrow? m.id = none := by
        unfold Db.ensureAccount
        split <;> exact he
      rw [hr, alone_reserve (by simp [hnone]), alone_write, hb]
      exact Txn.Prog.alone_congr _ (by simp [Db.ensureEscrow, he])

end

/-! ## The capture -/

/-- The checks that a capture passes. -/
structure Capturable (d : Db) (i : PaymentIntent) (m : Milestone) (c : Contract) : Prop where
  milestone : d.milestone? i.milestone = some m
  contract : d.contract? m.contract = some c
  active : c.status = .active
  open_ : m.status = .created ∨ m.status = .funded
  referred : i.providerReference.isSome
  commission : d.escrow? m.id = none → c.commission.bps?.isSome
  fits : d.balance m.escrowKey + i.amountMinor ≤ m.amountMinor

/-- The status change of a milestone whose escrow has reached the contracted amount. -/
def Db.markFunded (m : Milestone) (after : Int) (actor : Option UserId) (d : Db) : Db :=
  if after = m.amountMinor ∧ m.status ≠ .funded then
    d.moveMilestone m.id ⟨actor, m.status, .funded,
      "Full contracted milestone amount captured into escrow"⟩
  else d

section
variable {m : Milestone} {after : Int} {actor : Option UserId}

@[simp] theorem escrows_markFunded : (d.markFunded m after actor).escrows = d.escrows := by
  unfold Db.markFunded
  split <;> rfl

@[simp] theorem accounts_markFunded : (d.markFunded m after actor).accounts = d.accounts := by
  unfold Db.markFunded
  split <;> rfl

end

def PaymentIntent.fundKey (i : PaymentIntent) : JournalKey := ⟨.milestoneFund, .paymentIntent i.id⟩

def capturedDb (i : PaymentIntent) (m : Milestone) (bps : Int) (actor : Option UserId) (d : Db) :
    Db :=
  let after := d.balance m.escrowKey + i.amountMinor
  .enqueue (.milestoneFunded m.id i.id i.fundKey after) <| .markFunded m after actor <|
    .captureIntent i.id <| .addFunding ⟨m.id, i.id, i.fundKey, i.amountMinor⟩ <|
    .addJournal ⟨i.fundKey, none, fundEntries i m⟩ <|
    .ensureAccount (AccountKey.providerClearing i.provider i.currency).account <|
    .ensureEscrow m bps d

theorem markFunded_alone (answer : Request → Answer) (d : Db) (m : Milestone)
    (actor : Option UserId) {after : Int} {f : Milestone → Tx γ} : ∃ m', m'.id = m.id ∧
      (markFunded m after actor >>= f).alone answer d pend =
        (f m').alone answer d (.markFunded m after actor ∘ pend) := by
  unfold markFunded
  by_cases h : after = m.amountMinor ∧ m.status ≠ .funded
  · rw [if_pos h, bind_assoc, alone_write]
    exact ⟨{ m with status := .funded, events := _ }, rfl,
      Txn.Prog.alone_congr _ (by simp [Db.markFunded, h])⟩
  · rw [if_neg h]
    exact ⟨m, rfl, Txn.Prog.alone_congr _ (by simp [Db.markFunded, h])⟩

theorem Consistent.intent_mem (hd : Consistent d) {i : PaymentIntent}
    (hi : d.intent? i.id = some i) : IntentOk d i := hd.intents i (Table.get_mem hi)

/-- The account of an escrow that a capture has made sure of. -/
theorem escrow_account_capturedDb (hd : Consistent d) {i : PaymentIntent} {m : Milestone}
    {bps : Int} {actor : Option UserId} (hm : d.milestone? m.id = some m) :
    ∀ x, (capturedDb i m bps actor d).escrow? m.id = some x →
      ((capturedDb i m bps actor d).account? x.escrowAccount).isSome := by
  obtain ⟨y, hy, -, hkey, hacc⟩ := escrow?_ensureEscrow bps hd hm
  have hescrow : (capturedDb i m bps actor d).escrows = (d.ensureEscrow m bps).escrows :=
    escrows_markFunded.trans (escrows_ensureAccount _)
  have haccount : (capturedDb i m bps actor d).accounts = ((d.ensureEscrow m bps).ensureAccount
      (AccountKey.providerClearing i.provider i.currency).account).accounts := accounts_markFunded
  intro x hx
  rw [Db.escrow?, hescrow, ← Db.escrow?, hy] at hx
  cases hx
  rw [Db.account?, haccount, ← Db.account?, hkey]
  exact account?_ensureAccount_of hacc

/-- **A capture served alone** is refused where a check fails, and otherwise makes its writes. -/
theorem captureIntent_alone (answer : Request → Answer) {i : PaymentIntent} (actor : Option UserId)
    {f : FinancialState → Tx γ} (hd : Consistent (pend d)) (hi : (pend d).intent? i.id = some i)
    (hs : i.status ≠ .captured) : (∀ m c, ¬ Capturable (pend d) i m c) ∧
        (∃ e, (captureIntent i actor >>= f).alone answer d pend = ⟨d, .error e⟩) ∨
      ∃ m c, Capturable (pend d) i m c ∧ ∃ st, (captureIntent i actor >>= f).alone answer d pend =
        (f st).alone answer d (capturedDb i m (c.commission.bps?.getD 0) actor ∘ pend) := by
  obtain ⟨hpos, ⟨m, hm, hamount, hcur⟩, -⟩ := hd.intent_mem hi
  have hmid : (pend d).milestone? m.id = some m := by
    rw [Table.get_key hm]
    exact hm
  unfold captureIntent
  rw [if_neg hs]
  simp only [bind_assoc]
  cases hc : (pend d).contract? m.contract with
  | none =>
    refine .inl ⟨fun m' c' h => ?_, lockedMilestone_none hm hc⟩
    cases hm.symm.trans h.milestone
    cases hc.symm.trans h.contract
  | some c =>
  rw [lockedMilestone_alone hm hc, lockedContract_alone (contract?_id hc)]
  -- what a capture that is possible says of the rows just read
  have same : ∀ {m' c'}, Capturable (pend d) i m' c' → m' = m ∧ c' = c := fun h => by
    cases hm.symm.trans h.milestone
    cases hc.symm.trans h.contract
    exact ⟨rfl, rfl⟩
  unfold requireActiveContract
  by_cases hact : c.status = .active
  case neg =>
    refine .inl ⟨fun m' c' h => ?_, _, alone_require_not (decide_eq_false hact) _ _⟩
    obtain ⟨rfl, rfl⟩ := same h
    exact hact h.active
  rw [alone_require (decide_eq_true hact)]
  by_cases hopen : m.status = .created ∨ m.status = .funded
  case neg =>
    refine .inl ⟨fun m' c' h => ?_, _, alone_require_not (decide_eq_false hopen) _ _⟩
    obtain ⟨rfl, rfl⟩ := same h
    exact hopen h.open_
  rw [alone_require (decide_eq_true hopen)]
  by_cases href : i.providerReference.isSome = true
  case neg =>
    refine .inl ⟨fun m' c' h => href h.referred, _,
      alone_require_not (Bool.eq_false_iff.2 href) _ _⟩
  rw [alone_require href]
  rcases captureEscrow_alone answer (c := c) hd hmid with
    ⟨hnone, hbps, hr⟩ | ⟨hbps, x, hx, hr⟩
  · refine .inl ⟨fun m' c' h => ?_, hr⟩
    obtain ⟨rfl, rfl⟩ := same h
    simpa [hbps] using h.commission hnone
  rw [hr]
  dsimp only
  set bps := c.commission.bps?.getD 0
  have hbal : ((Db.ensureEscrow m bps ∘ pend) d).balance m.escrowKey =
      (pend d).balance m.escrowKey := by
    simp [Db.balance, Db.entries]
  unfold accountBalanceMinor
  rw [alone_select, AccountKey.account_key, hbal]
  by_cases hfits : (pend d).balance m.escrowKey + i.amountMinor ≤ m.amountMinor
  case neg =>
    refine .inl ⟨fun m' c' h => ?_, _, alone_require_not (decide_eq_false hfits) _ _⟩
    obtain ⟨rfl, rfl⟩ := same h
    exact hfits h.fits
  rw [alone_require (decide_eq_true hfits)]
  refine .inr ⟨m, c, ⟨hm, hc, hact, hopen, href, hbps, hfits⟩, ?_⟩
  have hacc : AccountsOk ((Db.ensureEscrow m bps ∘ pend) d) := hd.accountsOk.ensureEscrow
  rw [show clearingAccount i.provider i.currency =
      (AccountKey.providerClearing i.provider i.currency).account from rfl,
    getOrCreateAccount_alone (hacc _)]
  have hjournal := hd.no_fund_journal hi hs
  have hfunding := hd.no_funding hi hs
  rw [postJournal_alone (journalEntries_pair hpos hcur.symm)
      (by simpa [Db.journal?] using hjournal),
    recordFunding_alone (by simpa [Db.funding?, Db.addJournal] using hfunding), alone_write]
  obtain ⟨m', hm', hr'⟩ := markFunded_alone answer d m actor
  rw [hr', alone_write]
  have hescrow : ∀ y, ((capturedDb i m bps actor ∘ pend) d).escrow? m'.id = some y →
      (((capturedDb i m bps actor ∘ pend) d).account? y.escrowAccount).isSome := by
    rw [hm']
    exact escrow_account_capturedDb hd hmid
  obtain ⟨st, hst⟩ := financialState_alone answer (f := f) hescrow
  refine ⟨st, Eq.trans (Txn.Prog.alone_congr _ ?_) hst⟩
  simp [capturedDb, fundEntries, PaymentIntent.fundKey, hm', hx, hcur, AccountKey.account,
    clearingAccount, Milestone.escrowKey]

end Money
