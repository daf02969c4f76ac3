import Freelancing.Money.Capture
import Freelancing.Money.Resolution

/-!
# Requests that succeed

`Succeeds answer d v p d' r`: served alone on the database `d`, with `v` what its own open writes
show it, the request `p` returns `r` and leaves `d'`. One equivalence a statement says when the
statement, followed by the rest `f` of the request, succeeds.
-/

namespace Money

variable {β γ : Type}

def Succeeds (answer : Request → Answer) (d v : Db) (p : Tx γ) (d' : Db) (r : γ) : Prop :=
  p.alone answer d (fun _ => v) = ⟨d', .ok r⟩

section
variable {answer : Request → Answer} {d v d' : Db} {r : γ}

theorem succeeds_alone {p : Tx γ} :
    Succeeds answer d d p d' r ↔ p.alone answer d id = ⟨d', .ok r⟩ := by
  unfold Succeeds
  exact Iff.of_eq (congrArg (· = _) (Txn.Prog.alone_congr p rfl))

/-! ## Statements -/

theorem succeeds_pure {r₀ : γ} : Succeeds answer d v (pure r₀) d' r ↔ d' = d ∧ r = r₀ := by
  unfold Succeeds
  rw [alone_pure]
  constructor
  · intro h
    cases h
    exact ⟨rfl, rfl⟩
  · rintro ⟨rfl, rfl⟩
    rfl

theorem succeeds_raise {e : Err} : ¬ Succeeds answer d v (raise e : Tx γ) d' r := by
  intro h
  cases h

variable {f : β → Tx γ}

theorem succeeds_raise_bind {e : Err} : ¬ Succeeds answer d v ((raise e : Tx β) >>= f) d' r := by
  intro h
  cases h

theorem succeeds_select {q : Db → β} :
    Succeeds answer d v (select q >>= f) d' r ↔ Succeeds answer d v (f (q v)) d' r := Iff.rfl

theorem succeeds_selectForUpdate {name : β → LockName} {q : Db → Option β}
    {f : Option β → Tx γ} :
    Succeeds answer d v (selectForUpdate name q >>= f) d' r ↔
      Succeeds answer d v (f (q v)) d' r := Iff.rfl

theorem succeeds_write {w : Db → Db} {f : Unit → Tx γ} :
    Succeeds answer d v (write w >>= f) d' r ↔ Succeeds answer d (w v) (f ()) d' r := Iff.rfl

theorem succeeds_commit {c : CommitPoint} {f : Unit → Tx γ} :
    Succeeds answer d v (commit c >>= f) d' r ↔ Succeeds answer v v (f ()) d' r := by
  unfold Succeeds
  rw [alone_commit]
  exact Iff.of_eq (congrArg (· = _) (Txn.Prog.alone_congr _ rfl))

theorem succeeds_call {q : Request} {f : Answer → Tx γ} :
    Succeeds answer d v (callProvider q >>= f) d' r ↔ Succeeds answer d v (f (answer q)) d' r :=
  Iff.rfl

theorem succeeds_require {c : Bool} {e : Err} {f : Unit → Tx γ} :
    Succeeds answer d v (require c e >>= f) d' r ↔ c = true ∧ Succeeds answer d v (f ()) d' r := by
  cases c with
  | false => simp [require, succeeds_raise_bind]
  | true => simp [require]

theorem succeeds_reserve {name : LockName} {q : Db → Bool} {f : Unit → Tx γ} :
    Succeeds answer d v (reserve name q >>= f) d' r ↔
      q v = false ∧ Succeeds answer d v (f ()) d' r := by
  unfold reserve
  rw [bind_assoc]
  refine succeeds_require.trans ?_
  rw [Bool.not_eq_true']

/-! ## Rows -/

theorem succeeds_lockedMilestone {id : MilestoneId} {f : Milestone × Contract → Tx γ} :
    Succeeds answer d v (lockedMilestone id >>= f) d' r ↔ ∃ m c, v.milestone? id = some m ∧
      v.contract? m.contract = some c ∧ Succeeds answer d v (f (m, c)) d' r := by
  unfold lockedMilestone contractOf
  simp only [bind_assoc, succeeds_selectForUpdate]
  cases v.milestone? id with
  | none => simp [succeeds_raise_bind]
  | some m =>
    simp only [bind_assoc, succeeds_select]
    cases hc : v.contract? m.contract with
    | none => simp [succeeds_raise_bind, hc]
    | some c => simp [hc]

theorem succeeds_lockedDispute {id : DisputeId} {f : Dispute → Tx γ} :
    Succeeds answer d v (lockedDispute id >>= f) d' r ↔
      ∃ x, v.dispute? id = some x ∧ Succeeds answer d v (f x) d' r := by
  unfold lockedDispute
  simp only [bind_assoc, succeeds_selectForUpdate]
  cases v.dispute? id with
  | none => simp [disputeNotFound, succeeds_raise_bind]
  | some x => simp

theorem succeeds_requireEscrow {m : MilestoneId} {f : MilestoneEscrow → Tx γ} :
    Succeeds answer d v (requireEscrow m >>= f) d' r ↔
      ∃ e, v.escrow? m = some e ∧ Succeeds answer d v (f e) d' r := by
  unfold requireEscrow raiseApi
  simp only [bind_assoc, succeeds_select]
  cases v.escrow? m with
  | none => simp [succeeds_raise_bind]
  | some e => simp

theorem succeeds_lockedEscrowAccount {e : MilestoneEscrow} {f : LedgerAccount → Tx γ} :
    Succeeds answer d v (lockedEscrowAccount e >>= f) d' r ↔
      ∃ a, v.account? e.escrowAccount = some a ∧ Succeeds answer d v (f a) d' r := by
  unfold lockedEscrowAccount
  simp only [bind_assoc, succeeds_selectForUpdate]
  cases v.account? e.escrowAccount with
  | none => simp [succeeds_raise_bind]
  | some a => simp

/-- The amounts of a milestone, if its escrow has an account. -/
def Db.financialState? (d : Db) (m : Milestone) : Option FinancialState :=
  match d.escrow? m.id with
  | none => some ⟨m.id, m.status, m.amountMinor, m.currency, 0, none⟩
  | some e => (d.account? e.escrowAccount).map fun a =>
    ⟨m.id, m.status, m.amountMinor, m.currency, d.balance a.key, some e.commissionBps⟩

theorem succeeds_financialState {m : Milestone} {f : FinancialState → Tx γ} :
    Succeeds answer d v (financialState m >>= f) d' r ↔
      ∃ st, v.financialState? m = some st ∧ Succeeds answer d v (f st) d' r := by
  unfold financialState escrowAccount accountBalanceMinor Db.financialState?
  simp only [bind_assoc, succeeds_select]
  cases v.escrow? m.id with
  | none => simp
  | some e =>
    simp only [bind_assoc, succeeds_select]
    cases v.account? e.escrowAccount with
    | none => simp [succeeds_raise_bind]
    | some a => simp [succeeds_select]

/-! ## Idempotency -/

/-- What a key or a reason is stored as is not empty and not too long. -/
def validText (n : Nat) (s : String) : Bool := !((strip s).isEmpty || n < (strip s).length)

theorem succeeds_requiredText {value field : String} {n : Nat} {f : String → Tx γ} :
    Succeeds answer d v (requiredText value field n >>= f) d' r ↔
      validText n value = true ∧ Succeeds answer d v (f (strip value)) d' r := by
  unfold requiredText
  rw [bind_assoc, succeeds_require]
  exact Iff.rfl

theorem succeeds_sameRequest {x : FinancialIdempotencyKey} {request : Payload}
    {f : FinancialIdempotencyKey × Bool → Tx γ} :
    Succeeds answer d v (sameRequest x request >>= f) d' r ↔
      x.request = request ∧ Succeeds answer d v (f (x, false)) d' r := by
  unfold sameRequest raiseApi
  by_cases h : x.request = request
  · simp [h]
  · simp [h, succeeds_raise_bind]

/-- The record that a request works under, with whether it is new, and the tables with it. -/
inductive ClaimedAs (v : Db) (s : IdempotencyScope) (request : Payload) :
    FinancialIdempotencyKey → Bool → Db → Prop
  | existing (x : FinancialIdempotencyKey) (record : v.record? s = some x)
      (same : x.request = request) : ClaimedAs v s request x false v
  | created (record : v.record? s = none) :
      ClaimedAs v s request ⟨s, request, none⟩ true (v.addRecord ⟨s, request, none⟩)

theorem ClaimedAs.eq {v v' : Db} {s : IdempotencyScope} {request : Payload}
    {x : FinancialIdempotencyKey} {b : Bool} (h : ClaimedAs v s request x b v') :
    x.scope = s ∧ ∃ rs, v' = { v with idempotency := rs } := by
  cases h with
  | existing x hx => exact ⟨Table.get_key hx, _, rfl⟩
  | created => exact ⟨rfl, _, rfl⟩

theorem succeeds_claimIdempotency {user : UserId} {operation : IdempotentOperation}
    {rawKey : String} {request : Payload} {f : FinancialIdempotencyKey × Bool → Tx γ} :
    Succeeds answer d v (claimIdempotency user operation rawKey request >>= f) d' r ↔
      validText 200 rawKey = true ∧
        ∃ x b v', ClaimedAs v ⟨user, operation, strip rawKey⟩ request x b v' ∧
        Succeeds answer d v' (f (x, b)) d' r := by
  unfold claimIdempotency
  simp only [bind_assoc, succeeds_require, succeeds_selectForUpdate]
  refine and_congr Iff.rfl ?_
  cases hr : v.record? ⟨user, operation, strip rawKey⟩ with
  | some x =>
    dsimp only
    rw [succeeds_sameRequest]
    constructor
    · intro ⟨hx, hs⟩
      exact ⟨x, false, v, .existing x hr hx, hs⟩
    · rintro ⟨_, _, _, hc, hs⟩
      cases hc with
      | existing x' hx same =>
        cases hr.symm.trans hx
        exact ⟨same, hs⟩
      | created hx => cases hr.symm.trans hx
  | none =>
    change Succeeds answer d v ((if (v.record? _).isSome = true then _ else _) >>= f) d' r ↔ _
    rw [hr]
    simp only [Option.isSome_none, Bool.false_eq_true, if_false, bind_assoc, pure_bind]
    rw [succeeds_write]
    constructor
    · intro hs
      exact ⟨_, _, _, .created hr, hs⟩
    · rintro ⟨_, _, _, hc, hs⟩
      cases hc with
      | existing x hx => cases hr.symm.trans hx
      | created => exact hs

theorem succeeds_completeIdempotency {x : FinancialIdempotencyKey} {status : Nat} {body : Body}
    {f : Unit → Tx γ} :
    Succeeds answer d v (completeIdempotency x status body >>= f) d' r ↔
      Succeeds answer d (v.completeRecord x.scope ⟨body, status⟩) (f ()) d' r := Iff.rfl

/-! ## The ledger -/

theorem succeeds_getOrCreateAccount {k : AccountKey} {f : LedgerAccount → Tx γ}
    (ha : ∀ a, v.account? k = some a → a = k.account) :
    Succeeds answer d v (getOrCreateAccount k.account >>= f) d' r ↔
      Succeeds answer d (v.ensureAccount k.account) (f k.account) d' r := by
  unfold Succeeds
  rw [getOrCreateAccount_alone ha]
  rfl

theorem succeeds_postJournal {op : JournalOperation} {ref : Reference} {ps : List Posting}
    {rev : Option JournalKey} {f : JournalTransaction → Tx γ} (hj : v.journal? ⟨op, ref⟩ = none) :
    Succeeds answer d v (postJournal op ref ps rev >>= f) d' r ↔ ∃ es, journalEntries ps = .ok es ∧
      Succeeds answer d (v.addJournal ⟨⟨op, ref⟩, rev, es⟩) (f ⟨⟨op, ref⟩, rev, es⟩) d' r := by
  cases hes : journalEntries ps with
  | error e =>
    unfold postJournal
    rw [hes]
    simp [succeeds_raise_bind]
  | ok es =>
    unfold Succeeds
    rw [postJournal_alone hes hj]
    simp only [Except.ok.injEq, exists_eq_left']
    rfl

end

end Money
