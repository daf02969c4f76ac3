import Freelancing.Money.ExactSplit

/-!
# The release and the resolution in the freelancer's favour

Both pay out the whole escrow, less the commission. They post the same, unless the commission is
all of the amount: the release then posts a zero to the wallet and is refused.
-/

namespace Money

open Text (upper)

variable {answer answer' : Request → Answer} {d d' d₂ : Db} {user : User} {m : Milestone}
  {c : Contract} {e : MilestoneEscrow} {key : String}

theorem releaseFee_eq : releaseFee m e = commissionOf m.amountMinor e := rfl

/-- Below a full commission some of the amount is left. -/
theorem commissionOf_lt (hlt : e.commissionBps < 10000) (hpos : 0 < m.amountMinor) :
    commissionOf m.amountMinor e < m.amountMinor := by
  refine Int.ediv_lt_of_lt_mul (by omega) ?_
  exact Int.mul_lt_mul_of_pos_left hlt hpos

theorem commissionOf_full (h : e.commissionBps = 10000) :
    commissionOf m.amountMinor e = m.amountMinor := by
  unfold commissionOf
  rw [h]
  exact Int.mul_ediv_cancel _ (by omega)

/-! ## What a release posts -/

/-- The milestone is paid out in one journal: the commission to the platform, the rest to the
freelancer. -/
structure PaidOut (d d' : Db) (m : Milestone) (c : Contract) (e : MilestoneEscrow) : Prop where
  journal : ∃ j, d'.journals = j :: d.journals ∧ DoubleEntry.Balanced j.entries
  escrow : d'.balance m.escrowKey = d.balance m.escrowKey - m.amountMinor
  wallet : d'.balance (.userWallet c.freelancer m.currency) =
    d.balance (.userWallet c.freelancer m.currency) +
      (m.amountMinor - m.amountMinor * e.commissionBps / 10000)
  platform : d'.balance (.platformCommission m.currency) =
    d.balance (.platformCommission m.currency) + m.amountMinor * e.commissionBps / 10000

theorem releasePostings_eq (h : m.amountMinor - commissionOf m.amountMinor e ≠ 0) :
    releasePostings m e m.escrowKey.account (walletOf c.freelancer m.currency)
      (platformAccount m.currency) = splitPostings m c e m.amountMinor 0 "" := by
  unfold releasePostings splitPostings resolutionPostings credit
  rw [releaseFee_eq, if_pos h, if_neg (not_not.2 rfl)]
  simp only [List.append_nil]
  rfl

/-- A posting of zero is refused. -/
theorem releasePostings_refused (h : commissionOf m.amountMinor e = m.amountMinor)
    (hpos : 0 < m.amountMinor) : ∃ err, journalEntries (releasePostings m e m.escrowKey.account
      (walletOf c.freelancer m.currency) (platformAccount m.currency)) = .error err := by
  refine ⟨.value "Ledger posting amount must be positive", ?_⟩
  have hfee : releaseFee m e ≠ 0 := by
    rw [releaseFee_eq, h]
    omega
  have hcur : m.escrowKey.account.currency = m.currency := rfl
  simp only [releasePostings, if_pos hfee, journalEntries]
  simp [hcur, walletOf, platformAccount, Posting.entry, releaseFee_eq, h]

theorem balance_of_cons {j : JournalTransaction} (h : d'.journals = j :: d.journals)
    (k : AccountKey) : d'.balance k = DoubleEntry.balance j.entries k + d.balance k := by
  rw [Db.balance, Db.entries, h, List.flatMap_cons, DoubleEntry.balance_append]
  rfl

theorem balance_credit (a k : AccountKey) (n : Int) (cur : Currency) :
    DoubleEntry.balance (if n ≠ 0 then [(⟨a, .credit, n, cur⟩ : LedgerEntry)] else []) k =
      if a = k then n else 0 := by
  split
  · simp [DoubleEntry.Entry.signed]
  · rename_i h
    simp [not_not.1 h]

/-- What a payment to the freelancer does to an account. -/
theorem balance_decidedEntries (k : AccountKey) :
    DoubleEntry.balance (decidedEntries m c e m.amountMinor "" 0) k =
      (if m.escrowKey = k then -m.amountMinor else 0) +
      (if .userWallet c.freelancer m.currency = k then
        m.amountMinor - m.amountMinor * e.commissionBps / 10000 else 0) +
      if .platformCommission m.currency = k then m.amountMinor * e.commissionBps / 10000
        else 0 := by
  unfold decidedEntries resolutionEntries awardEntries clientEntries
  rw [List.cons_append, DoubleEntry.balance_cons, DoubleEntry.balance_append,
    DoubleEntry.balance_append, balance_credit, balance_credit, balance_credit]
  simp only [DoubleEntry.Entry.signed, ite_self, Milestone.escrowKey, commissionOf, Int.add_zero,
    Int.add_assoc]
  rfl

theorem paidOut_of_journal {k : JournalKey}
    (hj : d'.journals = ⟨k, none, decidedEntries m c e m.amountMinor "" 0⟩ :: d.journals)
    (hbal : DoubleEntry.Balanced (decidedEntries m c e m.amountMinor "" 0)) :
    PaidOut d d' m c e := by
  have hb : ∀ k, d'.balance k = _ + d.balance k := fun k =>
    (balance_of_cons hj k).trans (congrArg (· + d.balance k) (balance_decidedEntries k))
  refine ⟨⟨_, hj, hbal⟩, ?_, ?_, ?_⟩
  · rw [hb]
    simp [Milestone.escrowKey]
    omega
  · rw [hb]
    simp [Milestone.escrowKey]
    omega
  · rw [hb]
    simp [Milestone.escrowKey]
    omega

/-- The account of the escrow is there when the response is made. -/
theorem financialState?_releasedDb (hd : Consistent d) (h : Releasable d user m c e)
    (es : List LedgerEntry) (s : IdempotencyScope) :
    ∃ st, (releasedDb user m es (releaseView s m c.freelancer d)).financialState?
      { m with status := .released } = some st := by
  obtain ⟨hkey, ha⟩ := hd.escrow_key h.milestone h.escrow
  have haccount : ((releaseView s m c.freelancer d).account? e.escrowAccount).isSome := by
    unfold releaseView
    refine account?_ensureAccount_of (account?_ensureAccount_of ?_)
    change (d.account? e.escrowAccount).isSome
    rw [hkey, ha]
    rfl
  have hescrow : (releasedDb user m es (releaseView s m c.freelancer d)).escrow? m.id = some e := by
    obtain ⟨rs, as, hv⟩ := prepared_releaseView (d := d) s m c.freelancer
    rw [hv]
    exact h.escrow
  obtain ⟨a, ha⟩ := Option.isSome_iff_exists.1 haccount
  unfold Db.financialState?
  rw [hescrow]
  exact ⟨_, congrArg (Option.map _) ha⟩

theorem releaseMilestone_lt (hd : Consistent d) (h : Releasable d user m c e)
    (hk : Unused d ⟨user.id, .milestoneRelease, strip key⟩ key) (hpos : 0 < m.amountMinor)
    (hb : e.commissionBps ≤ 10000) {resp : Response}
    (hok : (releaseMilestone user m.id key).alone answer d id = ⟨d', .ok resp⟩) :
    e.commissionBps < 10000 := by
  obtain ⟨es, hes, -⟩ := (succeeds_releaseMilestone hd h rfl hk).1 (succeeds_alone.2 hok)
  by_contra hge
  have hfull : e.commissionBps = 10000 := by omega
  obtain ⟨err, herr⟩ := releasePostings_refused (c := c) (commissionOf_full hfull) hpos
  cases hes.symm.trans herr

theorem releaseMilestone_ok (answer : Request → Answer) (hd : Consistent d)
    (h : Releasable d user m c e) (hk : Unused d ⟨user.id, .milestoneRelease, strip key⟩ key)
    (hpos : 0 < m.amountMinor) (hb : 0 ≤ e.commissionBps) (hlt : e.commissionBps < 10000) :
    ∃ d' resp, (releaseMilestone user m.id key).alone answer d id = ⟨d', .ok resp⟩ ∧
      d'.journals = ⟨⟨.milestoneRelease, .milestone m.id⟩, none,
        decidedEntries m c e m.amountMinor "" 0⟩ :: d.journals ∧ PaidOut d d' m c e := by
  have hnet := commissionOf_lt hlt hpos
  obtain ⟨es, hes⟩ := journalEntries_split (m := m) (e := e) c ""
    (Int.add_zero _) hpos (Int.le_refl 0) ⟨hb, Int.le_of_lt hlt⟩ (Int.le_of_lt hpos)
  obtain ⟨rfl, hbal⟩ := splitEntries_of_ok hes
  rw [← releasePostings_eq (by omega)] at hes
  obtain ⟨rs, as, hv⟩ := prepared_releaseView (d := d)
    ⟨user.id, .milestoneRelease, strip key⟩ m c.freelancer
  obtain ⟨st, hst⟩ := financialState?_releasedDb hd h (decidedEntries m c e m.amountMinor "" 0)
    ⟨user.id, .milestoneRelease, strip key⟩
  refine ⟨_, _, succeeds_alone.1 ((succeeds_releaseMilestone hd h rfl hk).2
    ⟨_, hes, st, hst, rfl, rfl⟩), ?_⟩
  have hj : (Db.completeRecord ⟨user.id, .milestoneRelease, strip key⟩ ⟨.financialState st, 200⟩
      (releasedDb user m (decidedEntries m c e m.amountMinor "" 0) (releaseView
        ⟨user.id, .milestoneRelease, strip key⟩ m c.freelancer d))).journals =
      ⟨⟨.milestoneRelease, .milestone m.id⟩, none,
        decidedEntries m c e m.amountMinor "" 0⟩ :: d.journals := by
    rw [hv]
    rfl
  exact ⟨hj, paidOut_of_journal hj hbal⟩

/-! ## What a resolution posts -/

theorem resolutionAmounts_release {funded : Int} {a n : Option Int}
    (h : AmountsFit "RELEASE_TO_FREELANCER" funded a n) :
    resolutionAmounts "RELEASE_TO_FREELANCER" funded a n = .ok (funded, 0) := by
  rcases h with ⟨-, ha, hn⟩ | ⟨h, -⟩ | ⟨h, -⟩
  · unfold resolutionAmounts
    rw [if_pos rfl, any_ne_eq_false.2 ha, any_ne_eq_false.2 hn]
    rfl
  · exact absurd h (by decide)
  · exact absurd h (by decide)

/-- **The release is total and agrees with the resolution** in the freelancer's favour exactly below
a full commission. -/
theorem release_agrees_iff (answer : Request → Answer) (hd : Consistent d)
    (h : Releasable d user m c e) (hk : Unused d ⟨user.id, .milestoneRelease, strip key⟩ key)
    (hpos : 1 ≤ m.amountMinor) (hb : 0 ≤ e.commissionBps ∧ e.commissionBps ≤ 10000) :
    (∃ d' resp, (releaseMilestone user m.id key).alone answer d id = ⟨d', .ok resp⟩ ∧
      PaidOut d d' m c e ∧
      ∀ cfg answer₂ d₂ administrator x events c₂ outcome reason a n key₂ refundId, Consistent d₂ →
        Resolvable d₂ x { m with status := .disputed, events := events } c₂ e →
        c₂.freelancer = c.freelancer → Submitted d₂ administrator e reason key₂ refundId →
        upper (strip outcome) = "RELEASE_TO_FREELANCER" →
        AmountsFit "RELEASE_TO_FREELANCER" m.amountMinor a n →
        ∃ d₂' resp₂, (resolveDispute cfg administrator x.id outcome reason a n key₂ refundId).alone
            answer₂ d₂ id = ⟨d₂', .ok resp₂⟩ ∧
          ∀ k, d'.balance k - d.balance k = d₂'.balance k - d₂.balance k) ↔
      e.commissionBps < 10000 := by
  constructor
  · rintro ⟨d', resp, hok, -⟩
    exact releaseMilestone_lt hd h hk hpos hb.2 hok
  · intro hlt
    obtain ⟨d', resp, hok, hj, hpaid⟩ := releaseMilestone_ok answer hd h hk hpos hb.1 hlt
    refine ⟨d', resp, hok, hpaid, ?_⟩
    intro cfg answer₂ d₂ administrator x events c₂ outcome reason a n key₂ refundId hd₂ hr hfree hs
      hout hfit
    have hamounts := resolutionAmounts_release hfit
    rw [← hout] at hamounts
    obtain ⟨d₂', resp₂, provider, hok₂, hj₂⟩ := resolveDispute_posts answer₂ cfg
      hd₂ hr hs (by rw [hout]; decide) hamounts fun h => absurd h (Int.lt_irrefl 0)
    refine ⟨d₂', resp₂, hok₂, fun k => ?_⟩
    have hentries : decidedEntries { m with status := .disputed, events := events } c₂ e
        m.amountMinor provider 0 = decidedEntries m c e m.amountMinor "" 0 := by
      unfold decidedEntries
      rw [hfree]
      rfl
    have hk₁ := balance_of_cons hj k
    have hk₂ := balance_of_cons hj₂ k
    rw [hentries] at hk₂
    dsimp only at hk₁ hk₂
    omega

/-! ## An approved milestone -/

def approvedRun : List (Nat × Txn.Choice Answer Err Providers) :=
  startedRun ++ Txn.Sys.goes 3 4 ++ Txn.Sys.goes 4 4

/-- The milestone 1 is approved and funded, under the commission `bps`. -/
def approvedAt (bps : Int) (d : Db) : Bool :=
  (d.milestone? 1).any fun m => m.status = .approved && m.amountMinor = 100 &&
    d.balance m.escrowKey = 100 && (d.contract? m.contract).any (fun c => c.status = .active &&
      c.employer = 1) && (d.escrow? 1).any (fun e => e.commissionBps = bps) &&
    (d.record? ⟨1, .milestoneRelease, strip "k2"⟩).isNone

theorem releasable_of_approvedAt {bps : Int} (h : approvedAt bps d = true) : ∃ m c e,
    Releasable d anEmployer m c e ∧ Unused d ⟨1, .milestoneRelease, strip "k2"⟩ "k2" ∧ m.id = 1 ∧
      m.amountMinor = 100 ∧ e.commissionBps = bps := by
  simp only [approvedAt, Option.any_eq_true, Bool.and_eq_true, decide_eq_true_eq,
    Option.isNone_iff_eq_none] at h
  obtain ⟨m, hm, ⟨⟨⟨⟨hs, hamount⟩, hbal⟩, c, hc, hactive, hemployer⟩, e, he, hbps⟩, hrecord⟩ := h
  have hid : m.id = 1 := Table.get_key hm
  refine ⟨m, c, e, ⟨?_, hs, hc, hactive, hemployer.symm, ?_, hbal.trans hamount.symm⟩,
    ⟨by decide +kernel, hrecord⟩, hid, hamount, hbps⟩
  · rw [hid]
    exact hm
  · rw [hid]
    exact he

theorem release_agrees_ten_percent :
    ∃ d d' resp m c e, e.commissionBps = 1000 ∧ m.amountMinor = 100 ∧
    (releaseMilestone anEmployer 1 "k2").alone confirming d id = ⟨d', .ok resp⟩ ∧
    PaidOut d d' m c e := by
  obtain ⟨s, hr, hp⟩ := Txn.Sys.exists_free_run .readCommitted
    (system sandboxConfig (commissioned 1000) noTransfers releasingOps) approvedRun
    (fun s => approvedAt 1000 s.db) (by decide +kernel)
  have hd := (holds_of_reaches (commissioned_activated 1000).consistent hr).inv
  obtain ⟨m, c, e, h, hk, hid, hamount, hbps⟩ := releasable_of_approvedAt hp
  obtain ⟨d', resp, hok, hpaid, -⟩ := (release_agrees_iff confirming hd h hk (by omega)
    (by omega)).2 (by omega)
  rw [hid] at hok
  exact ⟨s.db, d', resp, m, c, e, hbps, hamount, hok, hpaid⟩

/-- A platform that takes all cannot release. -/
theorem release_refused_at_full_commission : ¬ ∀ (answer : Request → Answer) (d : Db) (user : User)
    (m : Milestone) (c : Contract) (e : MilestoneEscrow) (key : String), Consistent d →
    Releasable d user m c e → Unused d ⟨user.id, .milestoneRelease, strip key⟩ key →
    1 ≤ m.amountMinor → 0 ≤ e.commissionBps ∧ e.commissionBps ≤ 10000 →
    ∃ d' resp, (releaseMilestone user m.id key).alone answer d id = ⟨d', .ok resp⟩ ∧
      PaidOut d d' m c e := by
  intro hall
  obtain ⟨s, hr, hp⟩ := Txn.Sys.exists_free_run .readCommitted
    (system sandboxConfig (commissioned 10000) noTransfers releasingOps) approvedRun
    (fun s => approvedAt 10000 s.db) (by decide +kernel)
  have hd := (holds_of_reaches (commissioned_activated 10000).consistent hr).inv
  obtain ⟨m, c, e, h, hk, -, hamount, hbps⟩ := releasable_of_approvedAt hp
  obtain ⟨d', resp, hok, -⟩ :=
    hall confirming s.db anEmployer m c e "k2" hd h hk (by omega) (by omega)
  have := releaseMilestone_lt hd h hk (by omega) (by omega) hok
  omega

end Money
