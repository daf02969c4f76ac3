import Freelancing.Money.LedgerSpec

/-!
# Obligations of funding

The shared reads of `Freelancing.Money.Payments`, `fundMilestone`, and the capture of an intent by
a webhook.
-/

namespace Money

variable {R : Rules} {i : Nat} {held held' : Set LockName} {pend : Db → Db} {b : Bool}
  {w w' : World}

/-! ## Reads -/

theorem contractOf_spec {m : Milestone} (hp : ∀ d k, (pend d).contract? k = d.contract? k) :
    Meets R i (contractOf m) ⟨held, pend, b, w⟩ fun v' r => ∃ w', Later R held b w w' ∧
      v' = ⟨held, pend, R.mode.inTxn, w'⟩ ∧ w'.1.contract? m.contract = some r := by
  refine Meets.bind .select ?_
  rintro _ r ⟨w₁, h₁, rfl, hr⟩
  rw [hp] at hr
  cases r with
  | none => exact .raise
  | some c => exact .pure ⟨w₁, h₁, rfl, hr.symm⟩

theorem findMilestone_spec {id : MilestoneId} :
    Meets R i (findMilestone id) ⟨held, pend, b, w⟩ fun v' _ => ∃ w', Later R held b w w' ∧
      v' = ⟨held, pend, R.mode.inTxn, w'⟩ := by
  refine Meets.bind .select ?_
  rintro _ r ⟨w₁, h₁, rfl, -⟩
  cases r with
  | none => exact .raise
  | some m => exact .pure ⟨w₁, h₁, rfl⟩

theorem lockedMilestone_spec {id : MilestoneId} (hp : ∀ d k, (pend d).milestone? k = d.milestone? k)
    (hp' : ∀ d k, (pend d).contract? k = d.contract? k) :
    Meets R i (lockedMilestone id) ⟨held, pend, b, w⟩ fun v' r => ∃ w', Later R held b w w' ∧
      v' = ⟨insert (.milestone id) held, pend, R.mode.inTxn, w'⟩ ∧ r.1.id = id ∧
      w'.1.milestone? id = some r.1 ∧ w'.1.contract? r.1.contract = some r.2 := by
  refine Meets.bind .selectForUpdate ?_
  rintro v₁ r ⟨w₁, h₁, hr, hv₁⟩
  rw [hp] at hr
  cases r with
  | none => exact .raise
  | some m =>
    have hid : m.id = id := Table.get_key hr.symm
    rw [show v₁ = _ from hv₁, hid]
    refine Meets.bind (contractOf_spec hp') ?_
    rintro _ c ⟨w₂, h₂, rfl, hc⟩
    refine .pure ⟨w₂, h₁.trans h₂ (Set.subset_insert _ _), rfl, hid, ?_, hc⟩
    rw [h₂.milestone (Set.mem_insert _ _)]
    exact hr.symm

theorem lockedContract_spec {loaded : Contract} (hp : ∀ d k, (pend d).contract? k = d.contract? k)
    (hc : w.1.contract? loaded.id = some loaded) :
    Meets R i (lockedContract loaded) ⟨held, pend, R.mode.inTxn, w⟩ fun v' r =>
      ∃ w', Later R held R.mode.inTxn w w' ∧
        v' = ⟨insert (.contract loaded.id) held, pend, R.mode.inTxn, w'⟩ ∧ r = loaded ∧
        (R.ContractsFresh → loaded.status = .active →
          ∃ c, w'.1.contract? loaded.id = some c ∧ c.status = .active) := by
  refine Meets.bind (.relock fun _ _ h => by cases h) ?_
  rintro v₁ r ⟨w₁, h₁, hok, hr⟩
  cases r with
  | none => exact .raise
  | some c =>
    obtain ⟨rfl, rfl, y, hy⟩ := hr
    refine .pure ⟨w₁, h₁, rfl, rfl, fun hf ha => ?_⟩
    rcases hf with hser | hf
    · rw [h₁.still hser hser]
      exact ⟨c, hc, ha⟩
    · rw [hp] at hy
      exact ⟨y, hy, hf _ hok y (by rw [hp]; exact hy) ha⟩

theorem requireEscrow_spec {m : MilestoneId} (hp : ∀ d k, (pend d).escrow? k = d.escrow? k) :
    Meets R i (requireEscrow m) ⟨held, pend, b, w⟩ fun v' r => ∃ w', Later R held b w w' ∧
      v' = ⟨held, pend, R.mode.inTxn, w'⟩ ∧ w'.1.escrow? m = some r := by
  refine Meets.bind .select ?_
  rintro _ r ⟨w₁, h₁, rfl, hr⟩
  rw [hp] at hr
  cases r with
  | none => exact .raiseApi
  | some e => exact .pure ⟨w₁, h₁, rfl, hr.symm⟩

theorem escrowAccount_spec {e : MilestoneEscrow} :
    Meets R i (escrowAccount e) ⟨held, pend, b, w⟩ fun v' r => ∃ w', Later R held b w w' ∧
      v' = ⟨held, pend, R.mode.inTxn, w'⟩ ∧ (pend w'.1).account? e.escrowAccount = some r := by
  refine Meets.bind .select ?_
  rintro _ r ⟨w₁, h₁, rfl, hr⟩
  cases r with
  | none => exact .raise
  | some a => exact .pure ⟨w₁, h₁, rfl, hr.symm⟩

theorem lockedEscrowAccount_spec {e : MilestoneEscrow}
    (hp : ∀ d k, (pend d).account? k = d.account? k) :
    Meets R i (lockedEscrowAccount e) ⟨held, pend, b, w⟩ fun v' r => ∃ w', Later R held b w w' ∧
      v' = ⟨insert (.account e.escrowAccount) held, pend, R.mode.inTxn, w'⟩ ∧
      w'.1.account? e.escrowAccount = some r ∧ r = e.escrowAccount.account := by
  refine Meets.bind .selectForUpdate ?_
  rintro v₁ r ⟨w₁, h₁, hr, hv₁⟩
  rw [hp] at hr
  cases r with
  | none => exact .raise
  | some a =>
    have ha := h₁.inv.account hr.symm
    subst ha
    rw [show v₁ = _ from hv₁, AccountKey.account_key]
    exact .pure ⟨w₁, h₁, rfl, hr.symm, rfl⟩

/-- The response is computed without a write. -/
theorem financialState_spec {m : Milestone} :
    Meets R i (financialState m) ⟨held, pend, b, w⟩ fun v' _ => ∃ w', Later R held b w w' ∧
      v' = ⟨held, pend, R.mode.inTxn, w'⟩ := by
  refine Meets.bind .select ?_
  rintro _ r ⟨w₁, h₁, rfl, -⟩
  cases r with
  | none => exact .pure ⟨w₁, h₁, rfl⟩
  | some e =>
    refine Meets.bind escrowAccount_spec ?_
    rintro _ a ⟨w₂, h₂, rfl, -⟩
    refine Meets.bind accountBalanceMinor_spec ?_
    rintro _ n ⟨w₃, h₃, rfl, -⟩
    exact .pure ⟨w₃, (h₁.trans h₂ subset_rfl).trans h₃ subset_rfl, rfl⟩

theorem getProvider_spec {cfg : Config} {name : String} {v : TxView} :
    Meets R i (getProvider cfg name) v fun v' r => v' = v ∧ r = lower (strip name) := by
  unfold getProvider
  split
  · exact .raiseApi
  · dsimp only
    split
    · exact .pure ⟨rfl, rfl⟩
    · exact .raiseApi

/-! ## Updates that are made if needed -/

theorem Updates.single {d d' : Db} (h : Update held d d') : Updates held d d' :=
  Relation.ReflTransGen.single h

theorem Updates.trans {d d' d'' : Db} (h : Updates held d d') (h' : Updates held d' d'') :
    Updates held d d'' := Relation.ReflTransGen.trans h h'

section
variable {o : Option FinancialIdempotencyKey} {x : FinancialIdempotencyKey}

theorem Claimed.updates {d d' : Db} (h : Claimed d o x)
    (hd : d'.record? x.scope = d.record? x.scope) (hl : .record x.scope ∈ held) :
    Updates held d' (whenSome .addRecord o d') := by
  rcases h with ⟨rfl, -⟩ | ⟨rfl, hn⟩
  · exact Relation.ReflTransGen.refl
  · exact .single (.addRecord x hl (by rw [hd]; exact hn))

theorem Claimed.later (h : Claimed w.1 o x) (hm : Moved R held b w w')
    (hl : .record x.scope ∈ held) : Claimed w'.1 o x := by
  unfold Claimed
  rw [hm.record hl]
  exact h

/-- The record is in the table once the transaction has written it. -/
theorem Claimed.record {d : Db} (h : Claimed d o x) :
    (whenSome .addRecord o d).record? x.scope = some x := by
  rcases h with ⟨rfl, hs⟩ | ⟨rfl, -⟩
  · exact hs
  · change Table.get _ x.scope (x :: d.idempotency) = some x
    rw [Table.get_cons, if_pos rfl]

end

/-- A record that this transaction inserts is new and its lock is held. -/
def RecordReady (held : Set LockName) (d : Db) (o : Option FinancialIdempotencyKey) : Prop :=
  ∀ x, o = some x → .record x.scope ∈ held ∧ d.record? x.scope = none

section
variable {o : Option FinancialIdempotencyKey} {x : FinancialIdempotencyKey}

theorem Claimed.ready {d : Db} (h : Claimed d o x) (hl : .record x.scope ∈ held) :
    RecordReady held d o := by
  rintro y rfl
  rcases h with ⟨h, -⟩ | ⟨h, hn⟩
  · cases h
  · cases h
    exact ⟨hl, hn⟩

theorem RecordReady.none {d : Db} : RecordReady held d none := fun x h => by cases h

theorem RecordReady.later (h : RecordReady held w.1 o) (hm : Moved R held b w w')
    (hs : held ⊆ held') : RecordReady held' w'.1 o := fun x hx =>
  ⟨hs (h x hx).1, (hm.record (h x hx).1).trans (h x hx).2⟩

theorem RecordReady.updates {d : Db} (h : RecordReady held d o) :
    Updates held d (whenSome .addRecord o d) := by
  cases o with
  | none => exact Relation.ReflTransGen.refl
  | some x => exact .single (.addRecord x (h x rfl).1 (h x rfl).2)

end

theorem AccountReady.updates {d : Db} {k : AccountKey} {o : Option AccountKey}
    (h : AccountReady d k o) (hl : .account k ∈ held) :
    Updates held d (whenSome (fun k => .addAccount k.account) o d) := by
  rcases h with ⟨rfl, -⟩ | ⟨rfl, hn⟩
  · exact Relation.ReflTransGen.refl
  · exact .single (.addAccount k hl hn)

theorem AccountReady.later {k : AccountKey} {o : Option AccountKey} (h : AccountReady w.1 k o)
    (hm : Moved R held b w w') (hl : .account k ∈ held) : AccountReady w'.1 k o := by
  unfold AccountReady
  rw [hm.account hl]
  exact h

theorem AccountReady.account {d : Db} {k : AccountKey} {o : Option AccountKey}
    (h : AccountReady d k o) :
    (whenSome (fun k => .addAccount k.account) o d).account? k = some k.account := by
  rcases h with ⟨rfl, hs⟩ | ⟨rfl, -⟩
  · exact hs
  · change (d.addAccount k.account).account? k = _
    rw [Db.account?_addAccount, if_pos k.account_key]

/-- Another account is there, or is not, as before. -/
theorem AccountReady.account_ne {d : Db} {k k' : AccountKey} {o : Option AccountKey}
    (h : AccountReady d k o) (d' : Db) (hk : k' ≠ k) :
    (whenSome (fun k => .addAccount k.account) o d').account? k' = d'.account? k' := by
  rcases h with ⟨rfl, -⟩ | ⟨rfl, -⟩
  · rfl
  · change (d'.addAccount k.account).account? k' = _
    rw [Db.account?_addAccount, if_neg]
    rw [k.account_key]
    exact hk.symm

theorem AccountReady.congr {d d' : Db} {k : AccountKey} {o : Option AccountKey}
    (h : AccountReady d k o) (hd : d'.account? k = d.account? k) : AccountReady d' k o := by
  unfold AccountReady
  rw [hd]
  exact h

theorem Prepared.refl {d : Db} : Prepared d d := ⟨_, _, rfl⟩

theorem Prepared.trans {d d' d'' : Db} (h : Prepared d d') (h' : Prepared d' d'') :
    Prepared d d'' := by
  obtain ⟨_, _, rfl⟩ := h
  obtain ⟨_, _, rfl⟩ := h'
  exact ⟨_, _, rfl⟩

theorem Prepared.record {d : Db} (o : Option FinancialIdempotencyKey) :
    Prepared d (whenSome .addRecord o d) := by
  cases o <;> exact ⟨_, _, rfl⟩

theorem Prepared.account {d : Db} (o : Option AccountKey) :
    Prepared d (whenSome (fun k => .addAccount k.account) o d) := by
  cases o <;> exact ⟨_, _, rfl⟩

/-! ## Replayed responses -/

/-- The response of an earlier call is stored with the record of this one. -/
theorem replayed_spec {o : Option FinancialIdempotencyKey} {x : FinancialIdempotencyKey}
    {status : Nat} {body : Body} {β : Type} {r : β} (hpend : pend = whenSome .addRecord o)
    (ho : RecordReady held w.1 o) :
    Meets R i (do
      completeIdempotency x status body
      commit (.replayed x.scope)
      pure r) ⟨held, pend, b, w⟩ fun _ r' => r' = r := by
  subst hpend
  refine Meets.bind completeIdempotency_spec ?_
  rintro _ - ⟨w₁, h₁, rfl⟩
  refine Meets.bind (.commit fun w₂ h₂ => ?_) fun _ _ _ => .pure rfl
  have ho₂ := (ho.later h₁.toMoved (Set.subset_insert _ _)).later h₂.toMoved subset_rfl
  exact ⟨ho₂.updates.trans (.single (.completeRecord _ _ (Set.mem_insert _ _))),
    .replayed (.record o) _ ⟨body, status⟩⟩

/-! ## Funding -/

theorem reserveIntentReference_spec {x : PaymentIntent} (hw : Consistent w.1) :
    Meets R i (reserveIntentReference x) ⟨held, pend, R.mode.inTxn, w⟩ fun v' _ => ∃ w' held',
      Later R held R.mode.inTxn w w' ∧ v' = ⟨held', pend, R.mode.inTxn, w'⟩ ∧ held ⊆ held' := by
  unfold reserveIntentReference
  split
  · exact .pure ⟨w, held, .refl hw, rfl, subset_rfl⟩
  · refine Meets.reserve.mono ?_
    rintro _ - ⟨w₁, h₁, rfl, -⟩
    exact ⟨w₁, _, h₁, rfl, Set.subset_insert _ _⟩

theorem insertIntent_spec {x : PaymentIntent} (hp : ∀ d k, (pend d).intent? k = d.intent? k) :
    Meets R i (insertIntent x) ⟨held, pend, b, w⟩ fun v' _ => ∃ w' held', Later R held b w w' ∧
      v' = ⟨held', .addIntent x ∘ pend, R.mode.inTxn, w'⟩ ∧ held ⊆ held' ∧ .intent x.id ∈ held' ∧
      w'.1.intent? x.id = none ∧ 0 < x.amountMinor := by
  refine Meets.bind .reserve ?_
  rintro _ - ⟨w₁, h₁, rfl, hf⟩
  rw [hp] at hf
  refine Meets.bind .reserve ?_
  rintro _ - ⟨w₂, h₂, rfl, -⟩
  refine Meets.bind (reserveIntentReference_spec h₂.inv) ?_
  rintro _ - ⟨w₃, held', h₃, rfl, hs⟩
  refine Meets.bind .require ?_
  rintro _ - ⟨rfl, hpos⟩
  refine Meets.write.mono ?_
  rintro _ - rfl
  have hl : LockName.intent x.id ∈ insert (LockName.intentOfRecord x.idempotency)
      (insert (.intent x.id) held) := by simp
  have h₂₃ := h₂.trans h₃ (Set.subset_insert _ _)
  refine ⟨w₃, held', h₁.trans h₂₃ (Set.subset_insert _ _), rfl,
    ((Set.subset_insert _ _).trans (Set.subset_insert _ _)).trans hs, hs hl, ?_,
    by simpa using hpos⟩
  rw [h₂₃.intent (Set.mem_insert _ _)]
  simpa using hf

theorem createPayment_spec {p : Provider} {n : Int} {c : Currency} {key : String} :
    Meets R i (createPayment p n c key) ⟨held, pend, b, w⟩ fun v' _ => ∃ w', Moved R held b w w' ∧
      v' = ⟨held, pend, R.mode.inTxn, w'⟩ := by
  refine Meets.bind (.callProvider fun _ _ => trivial) ?_
  rintro _ a ⟨w₁, h₁, -, rfl⟩
  cases a with
  | result r => exact .pure ⟨w₁, h₁, rfl⟩
  | temporary => exact .raise
  | failed => exact .raise

theorem fundMilestone_spec {cfg : Config} {user : User} {milestoneId : MilestoneId}
    {providerName key : String} {intentId : IntentId} :
    Meets R i (fundMilestone cfg user milestoneId providerName key intentId) ⟨∅, id, b, w⟩
      fun _ _ => True := by
  refine Meets.bind (lockedMilestone_spec (fun _ _ => rfl) (fun _ _ => rfl)) ?_
  rintro _ ⟨m, loaded⟩ ⟨w₁, h₁, rfl, hid, hm, hc⟩
  dsimp only at hc ⊢
  have hcid : loaded.id = m.contract := Table.get_key hc
  rw [← hcid] at hc
  refine Meets.bind (lockedContract_spec (fun _ _ => rfl) hc) ?_
  rintro _ c ⟨w₂, h₂, rfl, rfl, hactive⟩
  refine Meets.bind .require ?_
  rintro _ - ⟨rfl, hact⟩
  refine Meets.bind .require ?_
  rintro _ - ⟨rfl, -⟩
  refine Meets.bind (claimIdempotency_spec fun _ _ => rfl) ?_
  rintro _ ⟨x, created⟩ ⟨w₃, o, h₃, rfl, hcl, -⟩
  dsimp only at hid hm hcl ⊢
  split
  · exact .pure trivial
  refine Meets.bind .require ?_
  rintro _ - ⟨rfl, hcreated⟩
  refine Meets.bind .select ?_
  rintro _ existing ⟨w₄, h₄, rfl, -⟩
  have hcl₄ := hcl.later h₄.toMoved (Set.mem_insert _ _)
  split
  · exact (replayed_spec rfl (hcl₄.ready (Set.mem_insert _ _))).mono fun _ _ _ => trivial
  refine Meets.bind .selectForUpdate ?_
  rintro v₅ active ⟨w₅, h₅, hr₅, hv₅⟩
  have hcl₅ := hcl₄.later h₅.toMoved (Set.mem_insert _ _)
  cases active with
  | some active =>
    subst hv₅
    refine Meets.bind .require ?_
    rintro _ - ⟨rfl, -⟩
    exact (replayed_spec rfl (hcl₅.ready (by simp))).mono fun _ _ _ => trivial
  | none =>
    subst hv₅
    refine Meets.bind getProvider_spec ?_
    rintro _ provider ⟨rfl, -⟩
    refine Meets.bind createPayment_spec ?_
    rintro _ result ⟨w₆, h₆, rfl⟩
    refine Meets.bind (insertIntent_spec fun d k => by cases o <;> rfl) ?_
    rintro _ - ⟨w₇, held', h₇, rfl, hs, hl, hfresh, hpos⟩
    refine Meets.bind completeIdempotency_spec ?_
    rintro _ - ⟨w₈, h₈, rfl⟩
    rw [Set.insert_eq_of_mem (hs (Set.mem_insert _ _))]
    refine Meets.bind (.commit fun w₉ h₉ => ?_) fun _ _ _ => .pure trivial
    have h₇₉ := (h₈.trans h₉ subset_rfl).toMoved
    have h₅₉ := (h₆.trans h₇.toMoved subset_rfl).trans h₇₉ hs
    have h₂₉ := h₃.toMoved.trans ((h₄.trans h₅ subset_rfl).toMoved.trans h₅₉ subset_rfl)
      (Set.subset_insert _ _)
    have h₁₉ := h₂.toMoved.trans h₂₉ (Set.subset_insert _ _)
    have hcl₉ := hcl₅.later h₅₉ (Set.mem_insert _ _)
    have hm₉ : w₉.1.milestone? m.id = some m := by
      rw [hid, h₁₉.milestone (Set.mem_insert _ _)]
      exact hm
    have hi₉ := (h₇₉.intent hl).trans hfresh
    refine ⟨?_, .fundingStarted (.record o) _ _ (newIntent intentId user m provider _ _) m
      hi₉ rfl hm₉ rfl (fun hf => ?_) (by simpa using hcreated) fun hser => ?_⟩
    · have u₁ := hcl₉.updates rfl (hs (Set.mem_insert _ _))
      have u₂ : Update held' (whenSome .addRecord o w₉.1)
          (.addIntent _ (whenSome .addRecord o w₉.1)) :=
        .addIntent _ hl (by cases o <;> exact hi₉) rfl hpos
        (show (whenSome .addRecord o w₉.1).milestone? m.id =
          some m by cases o <;> exact hm₉) rfl rfl
        (hs (by simp [hcid]))
      exact (u₁.trans (.single u₂)).trans (.single (.completeRecord _ _ (hs (Set.mem_insert _ _))))
    · rw [← hcid, h₂₉.contract (Set.mem_insert _ _)]
      exact hactive hf (by simpa using hact)
    · rw [h₅₉.still hser hser]
      cases o <;> exact hr₅.symm

end Money
