import Freelancing.Money.Steps

/-!
# Obligations of idempotency records and the ledger

One specification for each function of `Freelancing.Money.Ledger`: what its session holds
afterwards, what it has written, and what it knows of the committed database.
-/

namespace Money

variable {R : Rules} {i : Nat} {held : Set LockName} {pend : Db → Db} {b : Bool} {w w' : World}

/-! ## What a lock keeps -/

section
variable (h : Moved R held b w w')
include h

theorem Moved.contract {k : ContractId} (hk : .contract k ∈ held) :
    w'.1.contract? k = w.1.contract? k := h.frame.contracts.own k hk

theorem Moved.milestone {k : MilestoneId} (hk : .milestone k ∈ held) :
    w'.1.milestone? k = w.1.milestone? k := h.frame.milestones.own k hk

theorem Moved.record {k : IdempotencyScope} (hk : .record k ∈ held) :
    w'.1.record? k = w.1.record? k := h.frame.records.own k hk

theorem Moved.intent {k : IntentId} (hk : .intent k ∈ held) :
    w'.1.intent? k = w.1.intent? k := h.frame.intents.own k hk

theorem Moved.event {k : EventKey} (hk : .event k ∈ held) :
    w'.1.event? k = w.1.event? k := h.frame.events.own k hk

theorem Moved.account {k : AccountKey} (hk : .account k ∈ held) :
    w'.1.account? k = w.1.account? k := h.frame.accounts.own k hk

theorem Moved.journal {k : JournalKey} (hk : .journal k ∈ held) :
    w'.1.journal? k = w.1.journal? k := h.frame.journals.own k hk

theorem Moved.escrow {k : MilestoneId} (hk : .escrow k ∈ held) :
    w'.1.escrow? k = w.1.escrow? k := h.frame.escrows.own k hk

theorem Moved.refund {k : RefundId} (hk : .refund k ∈ held) :
    w'.1.refund? k = w.1.refund? k := h.frame.refunds.own k hk

theorem Moved.payout {k : PayoutId} (hk : .payout k ∈ held) :
    w'.1.payout? k = w.1.payout? k := h.frame.payouts.own k hk

theorem Moved.dispute {k : DisputeId} (hk : .dispute k ∈ held) :
    w'.1.dispute? k = w.1.dispute? k := h.frame.disputes.own k hk

theorem Moved.decision {k : DisputeId} (hk : .decision k ∈ held) :
    w'.1.decision? k = w.1.decision? k := h.frame.decisions.own k hk

end

/-! ## Idempotency -/

/-- The record `x` is there already, or is inserted by this transaction (`o`). -/
def Claimed (d : Db) (o : Option FinancialIdempotencyKey) (x : FinancialIdempotencyKey) : Prop :=
  o = none ∧ d.record? x.scope = some x ∨ o = some x ∧ d.record? x.scope = none

theorem sameRequest_spec {x : FinancialIdempotencyKey} {request : Payload} {v : TxView} :
    Meets R i (sameRequest x request) v fun v' r => v' = v ∧ r.1 = x ∧ x.request = request := by
  unfold sameRequest
  split
  · exact .raiseApi
  · rename_i h
    exact .pure ⟨rfl, rfl, by simpa using h⟩

theorem claimIdempotency_spec {user : UserId} {op : IdempotentOperation} {rawKey : String}
    {request : Payload} (hp : ∀ d s, (pend d).record? s = d.record? s) :
    Meets R i (claimIdempotency user op rawKey request) ⟨held, pend, b, w⟩ fun v' r =>
      ∃ w' o, Later R held b w w' ∧
        v' = ⟨insert (.record r.1.scope) held, whenSome .addRecord o ∘ pend, R.mode.inTxn, w'⟩ ∧
        Claimed w'.1 o r.1 ∧ r.1.scope = ⟨user, op, strip rawKey⟩ ∧ r.1.request = request := by
  refine Meets.bind .require ?_
  rintro _ - ⟨rfl, -⟩
  refine Meets.bind .selectForUpdate ?_
  rintro v₁ r ⟨w₁, h₁, hr, hv₁⟩
  rw [hp] at hr
  cases r with
  | some x =>
    subst hv₁
    have hx : x.scope = ⟨user, op, strip rawKey⟩ := Table.get_key hr.symm
    refine sameRequest_spec.mono ?_
    rintro _ r ⟨rfl, rfl, hq⟩
    exact ⟨w₁, none, h₁, rfl, .inl ⟨rfl, by rw [hx]; exact hr.symm⟩, hx, hq⟩
  | none =>
    subst hv₁
    refine Meets.bind .taken ?_
    rintro _ t ⟨w₂, h₂, rfl, ht⟩
    have h₁₂ := h₁.trans h₂ subset_rfl
    rw [hp] at ht
    split
    · refine Meets.bind .selectForUpdate ?_
      rintro v₃ r ⟨w₃, h₃, hr₃, hv₃⟩
      rw [hp] at hr₃
      cases r with
      | none => exact .raise
      | some x =>
        subst hv₃
        have hx : x.scope = ⟨user, op, strip rawKey⟩ := Table.get_key hr₃.symm
        refine sameRequest_spec.mono ?_
        rintro _ r ⟨rfl, rfl, hq⟩
        refine ⟨w₃, none, h₁₂.trans h₃ (Set.subset_insert _ _), ?_,
          .inl ⟨rfl, by rw [hx]; exact hr₃.symm⟩, hx, hq⟩
        rw [hx, Set.insert_idem]
        rfl
    · rename_i hf
      refine Meets.bind .write ?_
      rintro _ - rfl
      refine Meets.pure ⟨w₂, some ⟨⟨user, op, strip rawKey⟩, request, none⟩, h₁₂, rfl,
        .inr ⟨rfl, ?_⟩, rfl, rfl⟩
      rw [ht] at hf
      simpa using hf

theorem completeIdempotency_spec {x : FinancialIdempotencyKey} {status : Nat} {body : Body} :
    Meets R i (completeIdempotency x status body) ⟨held, pend, b, w⟩ fun v' _ =>
      ∃ w', Later R held b w w' ∧
        v' = ⟨insert (.record x.scope) held, .completeRecord x.scope ⟨body, status⟩ ∘ pend,
          R.mode.inTxn, w'⟩ := .update

/-! ## Accounts -/

/-- The account `k` is there already, or is inserted by this transaction (`o`). -/
def AccountReady (d : Db) (k : AccountKey) (o : Option AccountKey) : Prop :=
  o = none ∧ d.account? k = some k.account ∨ o = some k ∧ d.account? k = none

theorem Consistent.account {d : Db} (hd : Consistent d) {k : AccountKey} {a : LedgerAccount}
    (h : d.account? k = some a) : a = k.account := by
  rw [← Table.get_key h]
  exact hd.accounts a (Table.get_mem h)

theorem sameIdentity_spec {a requested : LedgerAccount} {v : TxView} :
    Meets R i (sameIdentity a requested) v fun v' r => v' = v ∧ r = a := by
  unfold sameIdentity
  split
  · exact .raise
  · exact .pure ⟨rfl, rfl⟩

theorem getOrCreateAccount_spec {k : AccountKey} (hp : ∀ d, (pend d).account? k = d.account? k) :
    Meets R i (getOrCreateAccount k.account) ⟨held, pend, b, w⟩ fun v' r =>
      ∃ w' o, Later R held b w w' ∧
        v' = ⟨insert (.account k) held, whenSome (fun k => .addAccount k.account) o ∘ pend,
          R.mode.inTxn, w'⟩ ∧ AccountReady w'.1 k o ∧ r = k.account := by
  have hk : k.account.key = k := k.account_key
  unfold getOrCreateAccount
  rw [hk]
  refine Meets.bind .selectForUpdate ?_
  rintro v₁ r ⟨w₁, h₁, hr, hv₁⟩
  rw [hp] at hr
  cases r with
  | some a =>
    subst hv₁
    have ha := h₁.inv.account hr.symm
    subst ha
    refine sameIdentity_spec.mono ?_
    rintro _ r ⟨rfl, rfl⟩
    exact ⟨w₁, none, h₁, by rw [hk]; rfl, .inl ⟨rfl, hr.symm⟩, rfl⟩
  | none =>
    subst hv₁
    refine Meets.bind .taken ?_
    rintro _ t ⟨w₂, h₂, rfl, ht⟩
    have h₁₂ := h₁.trans h₂ subset_rfl
    rw [hp] at ht
    split
    · refine Meets.bind .selectForUpdate ?_
      rintro v₃ r ⟨w₃, h₃, hr₃, hv₃⟩
      rw [hp] at hr₃
      cases r with
      | none => exact .raise
      | some a =>
        subst hv₃
        have ha := h₃.inv.account hr₃.symm
        subst ha
        refine sameIdentity_spec.mono ?_
        rintro _ r ⟨rfl, rfl⟩
        refine ⟨w₃, none, h₁₂.trans h₃ (Set.subset_insert _ _), ?_, .inl ⟨rfl, hr₃.symm⟩, rfl⟩
        rw [hk, Set.insert_idem]
        rfl
    · rename_i hf
      refine Meets.bind .write ?_
      rintro _ - rfl
      refine Meets.pure ⟨w₂, some k, h₁₂, rfl, .inr ⟨rfl, ?_⟩, rfl⟩
      rw [ht] at hf
      simpa using hf

theorem accountBalanceMinor_spec {a : LedgerAccount} :
    Meets R i (accountBalanceMinor a) ⟨held, pend, b, w⟩ fun v' r => ∃ w', Later R held b w w' ∧
      v' = ⟨held, pend, R.mode.inTxn, w'⟩ ∧ r = (pend w'.1).balance a.key := .select

/-! ## Journals -/

theorem journalEntries_ok {p : Posting} {ps : List Posting} {es : List LedgerEntry}
    (h : journalEntries (p :: ps) = .ok es) :
    es = (p :: ps).map (Posting.entry p.account.currency) ∧ DoubleEntry.Balanced es ∧
      ∀ x ∈ p :: ps, x.account.currency = p.account.currency := by
  simp only [journalEntries] at h
  split at h
  · cases h
  rename_i hcur
  split at h
  · cases h
  rename_i hpos
  split at h
  · cases h
  rename_i hbal
  cases h
  have hpos' : ∀ e ∈ (p :: ps).map (Posting.entry p.account.currency), 0 < e.amount := by
    intro e he
    by_contra hn
    exact hpos (List.any_eq_true.2 ⟨e, he, by simpa using hn⟩)
  refine ⟨rfl, ⟨?_, hpos', ?_, by simpa using hbal⟩, ?_⟩
  · exact DoubleEntry.two_le_length (by simp) hpos' (by simpa using hbal)
  · intro e he e' he'
    obtain ⟨x, -, rfl⟩ := List.mem_map.1 he
    obtain ⟨y, -, rfl⟩ := List.mem_map.1 he'
    rfl
  · intro x hx
    by_contra hn
    exact hcur (List.any_eq_true.2 ⟨x, hx, by simpa using hn⟩)

/-- The entries of accepted postings, written out. -/
theorem journalEntries_balanced {p : Posting} {ps : List Posting} {es l : List LedgerEntry}
    (h : journalEntries (p :: ps) = .ok es)
    (hl : (p :: ps).map (Posting.entry p.account.currency) = l) :
    es = l ∧ DoubleEntry.Balanced l := by
  obtain ⟨rfl, hb, -⟩ := journalEntries_ok h
  exact ⟨hl, hl ▸ hb⟩

/-- A journal is posted unless there is one of its key, which must then be the one requested. -/
theorem postJournal_spec {op : JournalOperation} {ref : Reference} {p : Posting}
    {ps : List Posting} {rev : Option JournalKey}
    (hc : ∀ w' es, Later R held b w w' → journalEntries (p :: ps) = .ok es →
      ∀ j, (pend w'.1).journal? ⟨op, ref⟩ = some j → j.entries = es) :
    Meets R i (postJournal op ref (p :: ps) rev) ⟨held, pend, b, w⟩ fun v' r =>
      ∃ w' es, Later R held b w w' ∧ journalEntries (p :: ps) = .ok es ∧
        (v' = ⟨held, pend, R.mode.inTxn, w'⟩ ∧ (pend w'.1).journal? ⟨op, ref⟩ = some r ∨
          v' = ⟨insert (.journal ⟨op, ref⟩) held, .addJournal ⟨⟨op, ref⟩, rev, es⟩ ∘ pend,
            R.mode.inTxn, w'⟩ ∧ (pend w'.1).journal? ⟨op, ref⟩ = none ∧
          r = ⟨⟨op, ref⟩, rev, es⟩) := by
  unfold postJournal
  dsimp only
  cases hj : journalEntries (p :: ps) with
  | error e => exact .raise
  | ok es =>
    dsimp only
    refine Meets.bind (P := fun v' r => ∃ w', Later R held b w w' ∧
      v' = ⟨held, pend, R.mode.inTxn, w'⟩ ∧ r = (pend w'.1).journal? ⟨op, ref⟩) ?_ ?_
    · refine ⟨fun w₁ hn _ => ⟨?_, w₁, .of_next hn, rfl, rfl⟩⟩
      rintro k es' ⟨⟩
      exact hc w₁ es (.of_next hn) hj
    · rintro _ r ⟨w₁, h₁, rfl, hr⟩
      cases r with
      | some j => exact Meets.pure ⟨w₁, es, h₁, rfl, .inl ⟨rfl, hr.symm⟩⟩
      | none =>
        refine Meets.bind .reserve ?_
        rintro _ - ⟨w₂, h₂, rfl, hf⟩
        refine Meets.bind .write ?_
        rintro _ - rfl
        exact Meets.pure ⟨w₂, es, h₁.trans h₂ subset_rfl, rfl,
          .inr ⟨rfl, by simpa using hf, rfl⟩⟩

/-- A journal whose key nobody has posted yet. -/
theorem postJournal_new {op : JournalOperation} {ref : Reference} {p : Posting}
    {ps : List Posting} {rev : Option JournalKey}
    (hnew : ∀ w', Later R held b w w' → (pend w'.1).journal? ⟨op, ref⟩ = none) :
    Meets R i (postJournal op ref (p :: ps) rev) ⟨held, pend, b, w⟩ fun v' r =>
      ∃ w' es, Later R held b w w' ∧ journalEntries (p :: ps) = .ok es ∧
        v' = ⟨insert (.journal ⟨op, ref⟩) held, .addJournal ⟨⟨op, ref⟩, rev, es⟩ ∘ pend,
          R.mode.inTxn, w'⟩ ∧ r = ⟨⟨op, ref⟩, rev, es⟩ := by
  refine (postJournal_spec fun w' es hl _ j hj => ?_).mono ?_
  · rw [hnew w' hl] at hj
    cases hj
  · rintro v' r ⟨w', es, hl, hes, ⟨-, hj⟩ | ⟨hv, -, hr⟩⟩
    · rw [hnew w' hl] at hj
      cases hj
    · exact ⟨w', es, hl, hes, hv, hr⟩

/-! ## Reversals -/

/-- The journal at `k` is being posted, or somebody has posted it. -/
def Reversing (held : Set LockName) (d : Db) (k : JournalKey) (post : Bool) : Prop :=
  post = true ∧ d.journal? k = none ∧ .journal k ∈ held ∨ post = false ∧ (d.journal? k).isSome

section
variable {held' : Set LockName} {k : JournalKey} {post : Bool}

theorem Reversing.later (h : Reversing held w.1 k post) (hm : Moved R held b w w')
    (hs : held ⊆ held') : Reversing held' w'.1 k post := by
  rcases h with ⟨hp, hn, hl⟩ | ⟨hp, hj⟩
  · exact .inl ⟨hp, (hm.journal hl).trans hn, hs hl⟩
  · exact .inr ⟨hp, hm.frame.journal_isSome hj⟩

theorem Reversing.fresh {d : Db} (h : Reversing held d k true) :
    d.journal? k = none ∧ .journal k ∈ held := by
  rcases h with ⟨-, hn, hl⟩ | ⟨hp, -⟩
  · exact ⟨hn, hl⟩
  · cases hp

theorem Reversing.eq {d : Db} (h : Reversing held d k post) : post = !(d.journal? k).isSome := by
  rcases h with ⟨rfl, hn, -⟩ | ⟨rfl, hj⟩
  · rw [hn]
    rfl
  · rw [hj]
    rfl

end

/-- A reversal is posted by the first session that fails the transfer. -/
theorem postReversal_spec {ref : Reference} {p : Posting} {ps : List Posting} {k : JournalKey}
    {l : List LedgerEntry} (hpend : ∀ d, (pend d).journals = d.journals)
    (hl : (p :: ps).map (Posting.entry p.account.currency) = l)
    (hfound : ∀ w', Later R held b w w' → ∀ j, w'.1.journal? ⟨.reversal, ref⟩ = some j →
      j.entries = l) :
    Meets R i (postJournal .reversal ref (p :: ps) (some k)) ⟨held, pend, b, w⟩ fun v' r =>
      ∃ w' held' post, Later R held b w w' ∧ held ⊆ held' ∧
        v' = ⟨held', (if post then .addJournal ⟨⟨.reversal, ref⟩, some k, l⟩ else id) ∘ pend,
          R.mode.inTxn, w'⟩ ∧
        r.key = ⟨.reversal, ref⟩ ∧ DoubleEntry.Balanced l ∧
        Reversing held' w'.1 ⟨.reversal, ref⟩ post := by
  have hjournal : ∀ d k, (pend d).journal? k = d.journal? k := fun d k => by
    rw [Db.journal?, hpend, Db.journal?]
  refine (postJournal_spec fun w' es hw hes j hj => ?_).mono ?_
  · rw [(journalEntries_balanced hes hl).1]
    exact hfound w' hw j (hjournal _ _ ▸ hj)
  · rintro _ j ⟨w', es, hw, hes, hcase⟩
    obtain ⟨rfl, hb⟩ := journalEntries_balanced hes hl
    rw [hjournal] at hcase
    rcases hcase with ⟨rfl, hj⟩ | ⟨rfl, hj, rfl⟩
    · refine ⟨w', held, false, hw, subset_rfl, rfl, Table.get_key hj, hb, .inr ⟨rfl, ?_⟩⟩
      rw [hj]
      rfl
    · exact ⟨w', _, true, hw, Set.subset_insert _ _, rfl, rfl, hb,
        .inl ⟨rfl, hj, Set.mem_insert _ _⟩⟩

end Money
