import Freelancing.Money.LedgerIntegrity
import Freelancing.Money.PayoutSettlement

/-!
# Payouts and the money that the provider has moved

The provider is any partner that moves the amount of a key at most once (`IdempotentPartner`); its
answer need not tell whether it did. As long as a call that ends in an error other than
`ProviderTemporaryError` has moved nothing, a payout that is settled takes from the wallet what was
moved (`payouts_conserved`). A call that ends in such an error after the move gives the amount to
both sides (`payouts_not_conserved`).
-/

namespace Money

open Txn (Sys)
open Txn.Sys (goes)

/-! ## The partner -/

def Transfer.under (t : Transfer) : Provider × ProviderKey := (t.provider, t.key)

/-- What the provider has moved under a key. -/
def Providers.moved (e : Providers) (k : Provider × ProviderKey) : Int :=
  ((e.transfers.filter fun t => t.under = k).map Transfer.amountMinor).sum

/-- A payout call moves its amount if nothing was moved under its key, or it moves nothing; a result
reports the move. No other call moves money of payouts. -/
def IdempotentPartner : Move → Prop
  | .call _ (.payout provider _ amountMinor currency key) a e e' =>
    (e'.transfers = e.transfers ∨ (∀ t ∈ e.transfers, t.under ≠ (provider, key)) ∧
      e'.transfers = ⟨provider, key, amountMinor, currency⟩ :: e.transfers) ∧
    ∀ res, a = .result res → ∃ t ∈ e'.transfers, t.under = (provider, key) ∧
      res.amountMinor = t.amountMinor ∧ res.currency = t.currency
  | .call _ _ _ e e' => e'.transfers = e.transfers
  | _ => True

/-- A payout call that ends in another error than `ProviderTemporaryError` leaves nothing moved. -/
def ErrorMeansUnmoved : Move → Prop
  | .call _ (.payout provider _ _ _ key) .failed _ e' =>
      ∀ t ∈ e'.transfers, t.under ≠ (provider, key)
  | _ => True

/-- The requests for a payout with one `Idempotency-Key` have one raw key, which no others have. -/
structure OneRawKey (keys : IdempotencyScope → String → Prop) : Prop where
  raw : ∀ s r r', s.operation = .payoutCreate → keys s r → keys s r' → r = r'
  scope : ∀ s s' r, s.operation = .payoutCreate → s'.operation = .payoutCreate → keys s r →
    keys s' r → s = s'

def conserving (keys : IdempotencyScope → String → Prop) : Rules :=
  ⟨.callByCall, fun mv => IdempotentPartner mv ∧ ErrorMeansUnmoved mv, keys⟩

/-! ## The payouts and the partner's books -/

/-- The move that the payout asks for under the raw key `raw`. -/
def Payout.transfer (p : Payout) (raw : String) : Transfer :=
  ⟨lower (strip p.provider), .raw raw, p.amountMinor, p.currency⟩

variable {keys : IdempotencyScope → String → Prop} {d d' : Db} {e e' : Providers} {k : PayoutId}
  {c : CommitPoint}

structure PayoutBooks (keys : IdempotencyScope → String → Prop) (d : Db) (e : Providers) :
    Prop where
  kept : ∀ k, PayoutKept d k
  operation : ∀ k p, d.payout? k = some p → p.idempotency.operation = .payoutCreate
  only : ∀ k k' p p', d.payout? k = some p → d.payout? k' = some p' →
    p.idempotency = p'.idempotency → k = k'
  once : (e.transfers.map Transfer.under).Nodup
  payout : ∀ t ∈ e.transfers, ∃ k p raw, d.payout? k = some p ∧ keys p.idempotency raw ∧
    t = p.transfer raw
  succeeded : ∀ k p raw, d.payout? k = some p → keys p.idempotency raw → p.status = .succeeded →
    ∃ t ∈ e.transfers, t.under = (p.transfer raw).under
  failed : ∀ k p raw, d.payout? k = some p → keys p.idempotency raw → p.status = .failed →
    ∀ t ∈ e.transfers, t.under ≠ (p.transfer raw).under

/-- The payout that a move was made for. -/
theorem PayoutBooks.payout_of (hb : PayoutBooks keys d e) (hk : OneRawKey keys) {t : Transfer}
    (ht : t ∈ e.transfers) {p : Payout} {raw : String} (hp : d.payout? k = some p)
    (hraw : keys p.idempotency raw) (hu : t.under = (p.transfer raw).under) :
    t = p.transfer raw := by
  obtain ⟨k', p', raw', hp', hraw', rfl⟩ := hb.payout t ht
  have hr : raw' = raw := by simpa [Transfer.under, Payout.transfer] using congrArg Prod.snd hu
  subst hr
  have hs := hk.scope _ _ _ (hb.operation _ _ hp') (hb.operation _ _ hp) hraw' hraw
  obtain rfl := hb.only _ _ _ _ hp' hp hs
  obtain rfl := Option.some.inj (hp'.symm.trans hp)
  rfl

/-- **A call keeps the books.** -/
theorem PayoutBooks.call (hb : PayoutBooks keys d e) (hk : OneRawKey keys)
    {q : Request} {a : Answer} {i : Nat} (hok : IdempotentPartner (.call i q a e e'))
    (hcall : CallOk (conserving keys) d q) : PayoutBooks keys d e' := by
  have hsame : e'.transfers = e.transfers → PayoutBooks keys d e' := fun h =>
    ⟨hb.kept, hb.operation, hb.only, h ▸ hb.once, h ▸ hb.payout, h ▸ hb.succeeded, h ▸ hb.failed⟩
  cases q with
  | payout provider destination amountMinor currency key =>
    obtain ⟨p, hp, ⟨dest, raw, hq, -, hraw⟩, hpending⟩ := hcall
    rcases hok.1 with h | ⟨hnone, h⟩
    · exact hsame h
    · simp only [Request.payout.injEq] at hq
      obtain ⟨rfl, rfl, rfl, rfl, rfl⟩ := hq
      have hpend : p.status = .pending := hpending rfl
      change e'.transfers = p.transfer raw :: e.transfers at h
      -- the payout of a settled row is another one than the pending `p`
      have hother : ∀ k' p' raw', d.payout? k' = some p' → keys p'.idempotency raw' →
          p'.status ≠ .pending → (p.transfer raw).under ≠ (p'.transfer raw').under := by
        intro k' p' raw' hp' hraw' hterm hu
        have hr : raw = raw' := by
          simpa [Transfer.under, Payout.transfer] using congrArg Prod.snd hu
        subst hr
        have hs := hk.scope _ _ _ (hb.operation _ _ hp) (hb.operation _ _ hp') hraw hraw'
        obtain rfl := hb.only _ _ _ _ hp hp' hs
        cases hp.symm.trans hp'
        exact hterm hpend
      refine ⟨hb.kept, hb.operation, hb.only, ?_, ?_, ?_, ?_⟩
      · rw [h, List.map_cons, List.nodup_cons]
        refine ⟨fun hm => ?_, hb.once⟩
        obtain ⟨t, ht, he⟩ := List.mem_map.1 hm
        exact hnone t ht he
      · intro t ht
        rw [h] at ht
        rcases List.mem_cons.1 ht with rfl | ht
        · exact ⟨_, p, raw, hp, hraw, rfl⟩
        · exact hb.payout t ht
      · intro k' p' raw' hp' hraw' hs
        obtain ⟨t, ht, hu⟩ := hb.succeeded k' p' raw' hp' hraw' hs
        exact ⟨t, h ▸ List.mem_cons_of_mem _ ht, hu⟩
      · intro k' p' raw' hp' hraw' hs t ht
        rw [h] at ht
        rcases List.mem_cons.1 ht with rfl | ht
        · exact hother k' p' raw' hp' hraw' (by simp [hs])
        · exact hb.failed k' p' raw' hp' hraw' hs t ht
  | createPayment provider amountMinor currency key => exact hsame hok
  | refund provider reference amountMinor currency key cause => exact hsame hok
  | verifyRefund provider reference => exact hsame hok

/-- A payout after a commit: it is new, or it was there and keeps what it asks the provider for. -/
theorem PayoutMove.origin {R : Rules} (h : PayoutMove R e d d' k c) {p' : Payout}
    (hp' : d'.payout? k = some p') :
    (c = .payoutReserved k ∧ p'.status = .pending ∧ p'.idempotency.operation = .payoutCreate ∧
      (R.Serial → d.payoutOfRecord? p'.idempotency = none)) ∨
    ∃ p, d.payout? k = some p ∧ p'.idempotency = p.idempotency ∧
      (∀ raw, p'.transfer raw = p.transfer raw) ∧
      (p'.status = p.status ∨
        p'.status = .succeeded ∧
          (R.Serial → ∃ q res, R.Called q (.result res) e ∧ PayoutCall R p q ∧
          res.amountMinor = p.amountMinor ∧ res.currency = p.currency) ∨
        p'.status = .failed ∧ (R.Serial → ∃ q a, R.Called q a e ∧ PayoutCall R p q ∧
          (a = .failed ∨ ∃ res, a = .result res ∧
            (res.amountMinor ≠ p.amountMinor ∨ res.currency ≠ p.currency)))) := by
  cases h with
  | same c row => exact .inr ⟨p', row ▸ hp', rfl, fun _ => rfl, .inl rfl⟩
  | reserved p id fresh status reversal covered only operation row =>
    cases row.symm.trans hp'
    exact .inl ⟨rfl, status, operation, only⟩
  | upgraded p x before status row =>
    cases row.symm.trans hp'
    exact .inr ⟨p, before, rfl, fun _ => rfl, .inl rfl⟩
  | succeeded p reference t before status called row =>
    cases row.symm.trans hp'
    exact .inr ⟨p, before, rfl, fun _ => rfl, .inr (.inl ⟨rfl, called⟩)⟩
  | failed p post t before status posted reserved called row =>
    cases row.symm.trans hp'
    exact .inr ⟨p, before, rfl, fun _ => rfl, .inr (.inr ⟨rfl, called⟩)⟩

theorem payoutOfRecord?_ne {p p' : Payout} (hnone : d.payoutOfRecord? p.idempotency = none)
    (hp' : d.payout? k = some p') : p.idempotency ≠ p'.idempotency := by
  intro h
  have hall := List.find?_eq_none.1 hnone p' (Table.get_mem hp')
  simp [h] at hall

/-- A call for a payout asks for its transfer. -/
theorem PayoutCall.transfer {R : Rules} {p : Payout} {q : Request} (h : PayoutCall R p q) :
    ∃ destination raw, q = .payout (lower (strip p.provider)) destination p.amountMinor p.currency
      (.raw raw) ∧ R.keys p.idempotency raw := by
  obtain ⟨destination, raw, hq, -, hraw⟩ := h
  exact ⟨destination, raw, hq, hraw⟩

/-- **A commit keeps the books.** -/
theorem PayoutBooks.commit (hb : PayoutBooks keys d e) (hk : OneRawKey keys)
    (h : Committed (conserving keys) e c d d') : PayoutBooks keys d' e := by
  have hser : (conserving keys).Serial := rfl
  have horigin := fun k p' (hp' : d'.payout? k = some p') => (h.effect.payout.move k).origin hp'
  refine ⟨fun k => (h.effect.payout.move k).kept (.inl hser) (hb.kept k), ?_, ?_,
    hb.once, ?_, ?_, ?_⟩
  · intro k p' hp'
    rcases horigin k p' hp' with ⟨-, -, hop, -⟩ | ⟨p, hp, hid, -⟩
    · exact hop
    · rw [hid]
      exact hb.operation k p hp
  · intro k₁ k₂ p₁ p₂ hp₁ hp₂ hids
    rcases horigin k₁ p₁ hp₁ with ⟨hn₁, -, -, hone₁⟩ | ⟨q₁, hq₁, hid₁, -⟩ <;>
      rcases horigin k₂ p₂ hp₂ with ⟨hn₂, -, -, hone₂⟩ | ⟨q₂, hq₂, hid₂, -⟩
    · -- one commit records one payout
      simpa using hn₁.symm.trans hn₂
    · exact absurd (hids.trans hid₂) (payoutOfRecord?_ne (hone₁ hser) hq₂)
    · exact absurd (hids.symm.trans hid₁) (payoutOfRecord?_ne (hone₂ hser) hq₁)
    · exact hb.only _ _ _ _ hq₁ hq₂ (hid₁.symm.trans (hids.trans hid₂))
  · intro t ht
    obtain ⟨k, p, raw, hp, hraw, rfl⟩ := hb.payout t ht
    obtain ⟨p', hp', ⟨_, _, _, _, _, rfl⟩, -⟩ := h.frame.payouts.keep k p hp
    exact ⟨k, _, raw, hp', hraw, rfl⟩
  · intro k p' raw hp' hraw hs
    rcases horigin k p' hp' with ⟨-, hpend, -⟩ | ⟨p, hp, hid, htr, hst | ⟨-, hcalled⟩ | ⟨hf, -⟩⟩
    · simp [hpend] at hs
    · rw [htr]
      exact hb.succeeded k p raw hp (hid ▸ hraw) (hst ▸ hs)
    · obtain ⟨q, res, ⟨j, e₀, hok, -⟩, hcall, -⟩ := hcalled hser
      obtain ⟨destination, raw', rfl, hraw'⟩ := hcall.transfer
      obtain rfl := hk.raw _ _ _ (hb.operation k p hp) hraw' (hid ▸ hraw)
      obtain ⟨t, ht, hu, -⟩ := hok.2 res rfl
      exact ⟨t, ht, by rw [htr]; exact hu⟩
    · simp [hf] at hs
  · intro k p' raw hp' hraw hs
    rcases horigin k p' hp' with ⟨-, hpend, -⟩ | ⟨p, hp, hid, htr, hst | ⟨hsu, -⟩ | ⟨-, hcalled⟩⟩
    · simp [hpend] at hs
    · rw [htr]
      exact hb.failed k p raw hp (hid ▸ hraw) (hst ▸ hs)
    · simp [hsu] at hs
    · obtain ⟨q, a, ⟨j, e₀, hok, hunmoved⟩, hcall, ha⟩ := hcalled hser
      obtain ⟨destination, raw', rfl, hraw'⟩ := hcall.transfer
      obtain rfl := hk.raw _ _ _ (hb.operation k p hp) hraw' (hid ▸ hraw)
      rw [htr]
      rcases ha with rfl | ⟨res, rfl, hmis⟩
      · exact hunmoved
      · -- a result reports the move of the payout's amount
        obtain ⟨t, ht, hu, hamount, hcur⟩ := hok.2 res rfl
        have hte := hb.payout_of hk ht hp hraw' hu
        rw [hte] at hamount hcur
        rcases hmis with hmis | hmis
        · exact absurd hamount hmis
        · exact absurd hcur hmis

/-! ## Runs -/

/-- What the journals of a payout have taken from its wallet. -/
def Db.netDebit (d : Db) (p : Payout) : Int :=
  -DoubleEntry.balance ((d.payoutJournals p.id).flatMap (·.entries))
    (.userWallet p.freelancer p.currency)

theorem PayoutBooks.conserved (hb : PayoutBooks keys d e) (hk : OneRawKey keys) {p : Payout}
    (hp : d.payout? p.id = some p) {raw : String} (hraw : keys p.idempotency raw)
    (hs : p.status ≠ .pending) :
    d.netDebit p = e.moved (lower (strip p.provider), .raw raw) := by
  have hmoved : e.moved (p.transfer raw).under =
      ((Table.get Transfer.under (p.transfer raw).under e.transfers).toList.map
        Transfer.amountMinor).sum := by
    rw [Providers.moved, Table.filter_key hb.once]
  change _ = e.moved (p.transfer raw).under
  have hj := (hb.kept p.id).journals
  rw [hp] at hj
  rw [hmoved, Db.netDebit, hj]
  cases hst : p.status with
  | pending => exact absurd hst hs
  | succeeded =>
    obtain ⟨t, ht, hu⟩ := hb.succeeded _ p raw hp hraw hst
    have hget : Table.get Transfer.under (p.transfer raw).under e.transfers = some t := by
      rw [← hu]
      exact Table.get_of_mem hb.once ht
    rw [hget, hb.payout_of hk ht hp hraw hu]
    simp [hst, Payout.reservationJournal, Payout.reservation, DoubleEntry.Entry.signed,
      Payout.transfer]
  | failed =>
    have hget : Table.get Transfer.under (p.transfer raw).under e.transfers = none :=
      Table.get_eq_none.2 (hb.failed _ p raw hp hraw hst)
    rw [hget]
    simp [hst, Payout.reservationJournal, Payout.reversalJournal, payout_reversal_negates]

variable {cfg : Config} {ops : Nat → Operation} {s : System}

/-- **A settled payout takes from the wallet what the provider has moved.** -/
theorem payouts_conserved (hd : Activated d) (he : e.transfers = []) (hk : OneRawKey keys)
    (hops : ∀ i, (ops i).Keyed keys)
    (hr : Sys.Run .callByCall (fun mv => IdempotentPartner mv ∧ ErrorMeansUnmoved mv)
      (system cfg d e ops) s) :
    ∀ p ∈ s.db.payouts, p.status ≠ .pending → ∀ raw, keys p.idempotency raw →
      s.db.netDebit p = s.env.moved (lower (strip p.provider), .raw raw) := by
  let R := conserving keys
  have hs : Consistent s.db := consistent_of_run (R := R) hd.consistent hops hr
  have hb : PayoutBooks keys s.db s.env := invariant_of_run (R := R)
    (P := fun d e => PayoutBooks keys d e) hd.consistent hops hr
    (fun i c d d' e _ hc hP => hP.commit hk hc)
    (fun i q a d e e' _ hok hcall hP => hP.call hk hok.1 hcall) ?_
  · exact fun p hp hterm raw hraw =>
      hb.conserved hk (Table.get_of_mem hs.keyed.payouts hp) hraw hterm
  · have hnone : ∀ k, d.payout? k = none := fun k => by rw [hd.empty]; rfl
    exact
      { kept := fun k => by rw [hd.empty]; exact ⟨rfl, rfl⟩
        operation := fun k p hp => by rw [hnone] at hp; cases hp
        only := fun k _ p _ hp => by rw [hnone] at hp; cases hp
        once := by rw [he]; exact .nil
        payout := fun t ht => by rw [he] at ht; cases ht
        succeeded := fun k p _ hp => by rw [hnone] at hp; cases hp
        failed := fun k p _ hp => by rw [hnone] at hp; cases hp }

/-- `IdempotentPartner`, computed. -/
def idempotentPartner : Move → Bool
  | .call _ (.payout provider _ amountMinor currency key) a e e' =>
    (decide (e'.transfers = e.transfers) || (e.transfers.all fun t => t.under ≠ (provider, key)) &&
      decide (e'.transfers = ⟨provider, key, amountMinor, currency⟩ :: e.transfers)) &&
    match a with
    | .result res => e'.transfers.any fun t => t.under = (provider, key) ∧
        res.amountMinor = t.amountMinor ∧ res.currency = t.currency
    | _ => true
  | .call _ _ _ e e' => decide (e'.transfers = e.transfers)
  | _ => true

theorem idempotentPartner_sound {mv : Move} (h : idempotentPartner mv = true) :
    IdempotentPartner mv := by
  cases mv with
  | call i q a e e' =>
    cases q with
    | payout provider destination amountMinor currency key =>
      obtain ⟨hmove, hresult⟩ := Bool.and_eq_true_iff.1 h
      refine ⟨by simpa [Bool.and_eq_true_iff] using hmove, fun res ha => ?_⟩
      subst ha
      obtain ⟨t, ht, hm⟩ := List.any_eq_true.1 hresult
      exact ⟨t, ht, of_decide_eq_true hm⟩
    | _ => exact (decide_eq_true_iff (p := e'.transfers = e.transfers)).1 h
  | _ => trivial

/-- Every payout call is answered with a result. -/
def answersPayouts : Move → Bool
  | .call _ (.payout _ _ _ _ _) a _ _ => match a with
    | .failed => false
    | _ => true
  | _ => true

theorem answersPayouts_sound {mv : Move} (h : answersPayouts mv = true) : ErrorMeansUnmoved mv := by
  unfold ErrorMeansUnmoved
  split
  · cases h
  · trivial

/-- The keys of a freelancer's payout. -/
def payoutKeys (s : IdempotencyScope) (raw : String) : Prop :=
  s.operation = .payoutCreate → s = ⟨2, .payoutCreate, "k3"⟩ ∧ raw = "k3"

theorem payoutKeys_one : OneRawKey payoutKeys where
  raw _ _ _ hs h h' := (h hs).2.trans (h' hs).2.symm
  scope _ _ _ hs hs' h h' := (h hs).1.trans (h' hs').1.symm

theorem payingOps_keyed (i : Nat) : (payingOps i).Keyed payoutKeys := by
  have hstrip : strip "k3" = "k3" := by decide +kernel
  unfold payingOps
  split
  · exact fun _ => ⟨by rw [hstrip]; rfl, rfl⟩
  · exact fun _ => ⟨by rw [hstrip]; rfl, rfl⟩
  · unfold releasingOps
    split <;> trivial

/-- The milestone is released, one call after another, and a payout asked for. -/
def releasedCalls : List (Nat × Txn.Choice Answer Err Providers) :=
  goes 0 8 ++ answers100 0 "p1" "PENDING" :: goes 0 8 ++ goes 1 31 ++ goes 2 9 ++ goes 3 6 ++
    goes 4 6 ++ goes 5 27 ++ goes 6 15

/-- The provider makes the transfer, and its answer is `a`. -/
def transferred (i : Nat) (a : Answer) : Nat × Txn.Choice Answer Err Providers :=
  (i, .answer a ⟨[⟨"sandbox", .raw "k3", 100, "USD"⟩], []⟩)

theorem payouts_conserved_of_payout : ∃ s : System, ∃ p ∈ s.db.payouts, p.status = .succeeded ∧
    s.env.moved (lower (strip p.provider), .raw "k3") = 100 ∧
    s.db.netDebit p = s.env.moved (lower (strip p.provider), .raw "k3") := by
  obtain ⟨s, hr, hp⟩ := Sys.exists_run_of_exec (m := .callByCall)
    (s := system sandboxConfig oneMilestone noTransfers payingOps)
    (l := releasedCalls ++ transferred 6 (.result ⟨"t1", "SUCCEEDED", 100, "USD"⟩) :: goes 6 9)
    (q := fun mv => idempotentPartner mv && answersPayouts mv)
    (p := fun s => s.db.payouts.any fun p => p.status = .succeeded ∧
      p.idempotency = ⟨2, .payoutCreate, "k3"⟩ ∧
      s.env.moved (lower (strip p.provider), .raw "k3") = 100) (by decide +kernel)
    fun mv h => And.intro (idempotentPartner_sound (Bool.and_eq_true_iff.1 h).1)
      (answersPayouts_sound (Bool.and_eq_true_iff.1 h).2)
  obtain ⟨p, hm, hp⟩ := List.any_eq_true.1 hp
  obtain ⟨hs, hid, hmoved⟩ := of_decide_eq_true hp
  have hconserved := payouts_conserved oneMilestone_activated rfl payoutKeys_one
    payingOps_keyed hr p hm (by simp [hs]) "k3" fun _ => ⟨hid, rfl⟩
  exact ⟨s, p, hm, hs, hmoved, hconserved⟩

/-- A transfer whose answer cannot be read: the wallet is restored although the money has left. -/
theorem payouts_not_conserved :
    ¬ ∀ (keys : IdempotencyScope → String → Prop) (cfg : Config) (d : Db)
    (e : Providers) (ops : Nat → Operation) (s : System), Activated d → e.transfers = [] →
    OneRawKey keys → (∀ i, (ops i).Keyed keys) →
    Sys.Run .callByCall IdempotentPartner (system cfg d e ops) s →
    ∀ p ∈ s.db.payouts, p.status ≠ .pending → ∀ raw, keys p.idempotency raw →
      s.db.netDebit p = s.env.moved (lower (strip p.provider), .raw raw) := by
  intro h
  obtain ⟨s, hr, hp⟩ := Sys.exists_run_of_exec (m := .callByCall)
    (s := system sandboxConfig oneMilestone noTransfers payingOps)
    (l := releasedCalls ++ transferred 6 .failed :: goes 6 13)
    (q := idempotentPartner)
    (p := fun s => s.db.payouts.any fun p => p.status = .failed ∧
      p.idempotency = ⟨2, .payoutCreate, "k3"⟩ ∧ s.db.netDebit p = 0 ∧
      s.env.moved (lower (strip p.provider), .raw "k3") = 100) (by decide +kernel)
    fun mv => idempotentPartner_sound
  obtain ⟨p, hm, hp⟩ := List.any_eq_true.1 hp
  obtain ⟨hs, hid, hnet, hmoved⟩ := of_decide_eq_true hp
  have heq := h payoutKeys _ _ _ _ s oneMilestone_activated rfl payoutKeys_one
    payingOps_keyed hr p hm (by simp [hs]) "k3" fun _ => ⟨hid, rfl⟩
  rw [hnet, hmoved] at heq
  cases heq

end Money
