import Freelancing.Money.PayoutAccounts
import Freelancing.Money.PayoutConservation
import Freelancing.Txn.Solo

/-!
# The calls for one payout

Requests that are served one after another, with the payout accounts configured and disabled between
them. Every call for a payout has the destination, the amount and the currency of its row, which
were fixed when it was reserved; its key is the raw `Idempotency-Key` of the request that makes the
call, while the record is found by the key without the blanks around it.
-/

namespace Money

/-- A request, with what the outside world answers. -/
inductive Served
  | operation (o : Operation) (answer : Request → Answer)
  | configure (users : List User) (validate : Provider → String → Except Err String)
      (freelancer : UserId) (provider reference : String)
  | disable (freelancer : UserId) (provider : String)

/-- Nothing is asked of the provider. -/
def unasked : Request → Answer := fun _ => .failed

def Served.after (cfg : Config) (d : Db) : Served → Db
  | .operation o answer => ((o.program cfg).alone answer d id).db
  | .configure users validate freelancer provider reference =>
    ((configurePayoutProviderAccount cfg users validate freelancer provider reference).alone
      unasked d id).db
  | .disable freelancer provider =>
    ((disablePayoutProviderAccount freelancer provider).alone unasked d id).db

/-- The calls of the providers, with the operation that makes them. -/
def Served.calls (cfg : Config) (d : Db) : Served → List (Operation × Request)
  | .operation o answer => ((o.program cfg).asked answer d id).map fun q => (o, q)
  | _ => []

/-- From `d₀` requests were served, one after another; `log` are the calls that they made. -/
inductive History (cfg : Config) (d₀ : Db) : Db → List (Operation × Request) → Prop
  | start : History cfg d₀ d₀ []
  | serve (x : Served) {d : Db} {log : List (Operation × Request)} (h : History cfg d₀ d log) :
      History cfg d₀ (x.after cfg d) (log ++ x.calls cfg d)

/-- The arguments of a `provider.payout` call. -/
structure PayoutAsk where
  provider : Provider
  destination : Destination
  amountMinor : Int
  currency : Currency
  key : ProviderKey
  deriving DecidableEq

def Request.payout? : Request → Option PayoutAsk
  | .payout provider destination amountMinor currency key =>
    some ⟨provider, destination, amountMinor, currency, key⟩
  | _ => none

/-- The raw key of a payout request, with the record that it resolves to. -/
def Operation.payoutKey? : Operation → Option (IdempotencyScope × String)
  | .createPayout user _ _ _ key _ => some (⟨user.id, .payoutCreate, strip key⟩, key)
  | _ => none

/-! ## One request -/

/-- The raw key of the request, with its record. -/
def Operation.ownKey : Operation → IdempotencyScope → String → Prop
  | .refundMilestone user _ _ key _, s, raw =>
      s = ⟨user.id, .milestoneRefund, strip key⟩ ∧ raw = key
  | .createPayout user _ _ _ key _, s, raw => s = ⟨user.id, .payoutCreate, strip key⟩ ∧ raw = key
  | _, _, _ => False

theorem Operation.keyed_own (o : Operation) : o.Keyed o.ownKey := by
  cases o
  case refundMilestone => exact ⟨rfl, rfl⟩
  case createPayout => exact ⟨rfl, rfl⟩
  all_goals trivial

/-- Nothing runs beside the request `o`. -/
def Operation.rules (o : Operation) : Rules := ⟨.serial, fun _ => True, o.ownKey⟩

/-- The call is for a payout that is recorded, and is what its row says. -/
def RowCall (d : Db) (x : Operation × Request) : Prop :=
  ∀ a, x.2.payout? = some a → ∃ p, d.payout? p.id = some p ∧ PayoutCall x.1.rules p x.2

/-- What holds of the payouts and of the calls that were made for them. -/
structure PayoutCalls (d : Db) (log : List (Operation × Request)) : Prop where
  consistent : Consistent d
  only : ∀ k k' p p', d.payout? k = some p → d.payout? k' = some p' →
    p.idempotency = p'.idempotency → k = k'
  calls : ∀ x ∈ log, RowCall d x

section
variable {cfg : Config} {d d' d₀ : Db} {log : List (Operation × Request)}
  {e : Providers} {R : Rules}

/-- A row that is kept, with the call for it. -/
theorem RowCall.frame {held : Set LockName} {x : Operation × Request} (h : RowCall d x)
    (hf : Frame held d d') : RowCall d' x := by
  intro a ha
  obtain ⟨p, hp, hcall⟩ := h a ha
  obtain ⟨p', hp', hkeep⟩ := hf.payouts.keep _ p hp
  have hid : p'.id = p.id := Table.get_key hp'
  exact ⟨p', hid.symm ▸ hp', hcall.keeps hkeep⟩

/-- A commit records no second payout for a record. -/
theorem Committed.only {c : CommitPoint} (h : Committed R e c d d') (hR : R.Serial)
    (ho : ∀ k k' p p', d.payout? k = some p → d.payout? k' = some p' →
      p.idempotency = p'.idempotency → k = k') :
    ∀ k k' p p', d'.payout? k = some p → d'.payout? k' = some p' →
      p.idempotency = p'.idempotency → k = k' := by
  intro k₁ k₂ p₁ p₂ hp₁ hp₂ hids
  rcases (h.effect.payout.move k₁).origin hp₁ with ⟨hn₁, -, -, hone₁⟩ | ⟨q₁, hq₁, hid₁, -⟩ <;>
    rcases (h.effect.payout.move k₂).origin hp₂ with ⟨hn₂, -, -, hone₂⟩ | ⟨q₂, hq₂, hid₂, -⟩
  · simpa using hn₁.symm.trans hn₂
  · exact absurd (hids.trans hid₂) (payoutOfRecord?_ne (hone₁ hR) hq₂)
  · exact absurd (hids.symm.trans hid₁) (payoutOfRecord?_ne (hone₂ hR) hq₁)
  · exact ho k₁ k₂ q₁ q₂ hq₁ hq₂ (hid₁.symm.trans (hids.trans hid₂))

/-- An operation that is served alone. -/
theorem PayoutCalls.operation (h : PayoutCalls d log) (o : Operation) (answer : Request → Answer) :
    PayoutCalls (Served.after cfg d (.operation o answer))
      (log ++ Served.calls cfg d (.operation o answer)) := by
  have hmeets := (o.meets (i := 0) (b := false) (w := (d, (⟨[], []⟩ : Providers))) cfg
    (R := o.rules) o.keyed_own).wp
  change PayoutCalls ((o.program cfg).alone answer d id).db
    (log ++ ((o.program cfg).asked answer d id).map fun q => (o, q))
  refine (Txn.Law.wp_alone (P := fun d l => PayoutCalls d (log ++ l.map fun q => (o, q))) (l := [])
    (fun _ => trivial) ?_ ?_ hmeets ⟨.refl _ _ _, h.consistent⟩ (by simpa using h)).2
  · intro held p d d' l hi hi' hcom hb
    obtain ⟨hu, c, rfl, heff⟩ := hcom
    have hf := hu.frame (Set.empty_disjoint held)
    exact ⟨hi', Committed.only ⟨hi, hi', hf, heff⟩ rfl hb.only, fun x hx =>
      (hb.calls x hx).frame hf⟩
  · intro held q d l hi hcall hb
    refine ⟨hb.consistent, hb.only, fun x hx => ?_⟩
    rw [List.map_append, ← List.append_assoc] at hx
    rcases List.mem_append.1 hx with hx | hx
    · exact hb.calls x hx
    · obtain rfl := List.mem_singleton.1 hx
      intro a ha
      cases q with
      | payout =>
        obtain ⟨p, hp, hc, -⟩ := hcall
        exact ⟨p, hp, hc⟩
      | _ => cases ha

/-! ### Accounts -/

/-- Only the payout accounts differ. -/
def AccountsOnly (d d' : Db) : Prop := ∃ l, d' = { d with payoutAccounts := l }

theorem AccountsOnly.refl : AccountsOnly d d := ⟨d.payoutAccounts, rfl⟩

theorem PayoutCalls.accounts (h : PayoutCalls d log) (ha : AccountsOnly d d') :
    PayoutCalls d' log := by
  obtain ⟨l, rfl⟩ := ha
  have hf : Frame ∅ d { d with payoutAccounts := l } := { Frame.refl ∅ d with }
  exact ⟨h.consistent.other hf rfl rfl rfl rfl rfl rfl rfl, h.only, h.calls⟩

variable {I : Db → Prop} {β : Type}

theorem require_solo {c : Bool} {er : Err} {pend : Db → Db} {Q : Db → (Db → Db) → Unit → Prop}
    (h : c = true → Q d pend ()) : (require c er).solo unasked I d pend Q :=
  Txn.Prog.solo_require h

theorem getProvider_solo {name : String} {pend : Db → Db} {Q : Db → (Db → Db) → Provider → Prop}
    (h : ∀ provider, Q d pend provider) : (getProvider cfg name).solo unasked I d pend Q := by
  unfold getProvider
  by_cases hr : (!cfg.paymentRuntimeEnabled) = true
  · rw [if_pos hr]
    exact True.intro
  · rw [if_neg hr]
    dsimp only
    generalize lower (strip name) = normalized
    by_cases hn : normalized = "sandbox" ∨ normalized = "stripe"
    · rw [if_pos hn]
      exact h normalized
    · rw [if_neg hn]
      exact True.intro

theorem configure_solo {users : List User} {validate : Provider → String → Except Err String}
    {freelancer : UserId} {provider reference : String} :
    (configurePayoutProviderAccount cfg users validate freelancer provider reference).solo unasked
      (AccountsOnly d) d id fun _ _ _ => True := by
  refine Txn.Prog.solo_bind
    (require_solo fun _ => Txn.Prog.solo_bind (getProvider_solo fun name => ?_))
  cases validate name (strip reference) with
  | error er => trivial
  | ok verified =>
  refine Txn.Prog.solo_bind (Txn.Prog.solo_select ?_)
  dsimp only [id]
  cases d.conflictingPayoutAccount? freelancer name verified with
  | some _ => trivial
  | none =>
  refine Txn.Prog.solo_bind (Txn.Prog.solo_selectForUpdate ?_)
  dsimp only [id]
  cases d.payoutAccountOf? freelancer name with
  | none =>
    refine Txn.Prog.solo_bind (Txn.Prog.solo_bind (require_solo fun _ => ?_))
    refine Txn.Prog.solo_bind (Txn.Prog.solo_bind (require_solo fun _ => ?_))
    exact ⟨⟨_, rfl⟩, trivial⟩
  | some account =>
    refine Txn.Prog.solo_bind (Txn.Prog.solo_bind (require_solo fun _ => ?_))
    exact ⟨⟨_, rfl⟩, trivial⟩

theorem disable_solo {freelancer : UserId} {provider : String} :
    (disablePayoutProviderAccount freelancer provider).solo unasked (AccountsOnly d) d id
      fun _ _ _ => True := by
  unfold disablePayoutProviderAccount
  refine Txn.Prog.solo_bind (Txn.Prog.solo_selectForUpdate ?_)
  dsimp only [id]
  cases d.payoutAccountOf? freelancer (lower (strip provider)) with
  | none => trivial
  | some account => exact ⟨⟨_, rfl⟩, trivial⟩

/-! ## Histories -/

/-- **A request keeps every call that was made for a payout what its row says.** -/
theorem PayoutCalls.serve (h : PayoutCalls d log) (x : Served) :
    PayoutCalls (x.after cfg d) (log ++ x.calls cfg d) := by
  cases x with
  | operation o answer => exact h.operation o answer
  | configure users validate freelancer provider reference =>
    have ha : AccountsOnly d (Served.after cfg d
        (.configure users validate freelancer provider reference)) :=
      (Txn.Prog.solo_sound .refl configure_solo).1
    exact (List.append_nil log).symm ▸ h.accounts ha
  | disable freelancer provider =>
    have ha : AccountsOnly d (Served.after cfg d (.disable freelancer provider)) :=
      (Txn.Prog.solo_sound .refl disable_solo).1
    exact (List.append_nil log).symm ▸ h.accounts ha

theorem History.booked (h₀ : PayoutCalls d₀ []) (h : History cfg d₀ d log) : PayoutCalls d log := by
  induction h with
  | start => exact h₀
  | serve x _ ih => exact ih.serve x

/-- What a payout asks its provider for, under the key `raw`. -/
def Payout.ask (p : Payout) (destination : Destination) (raw : String) : PayoutAsk :=
  ⟨lower (strip p.provider), destination, p.amountMinor, p.currency, .raw raw⟩

/-- The call that a request with the key `raw` makes for the payout. -/
theorem PayoutCalls.call (hb : PayoutCalls d log) {o : Operation} {q : Request}
    {raw : String} {p : Payout} {a : PayoutAsk} (hp : p ∈ d.payouts)
    (ho : o.payoutKey? = some (p.idempotency, raw))
    (hx : (o, q) ∈ log) (ha : q.payout? = some a) :
    ∃ destination, p.destination = some destination ∧ a = p.ask destination raw := by
  obtain ⟨p', hp', destination, raw', rfl, hdest, hown⟩ := hb.calls _ hx a ha
  cases o with
  | createPayout user n c name key k =>
    obtain ⟨hscope', rfl⟩ : p'.idempotency = ⟨user.id, .payoutCreate, strip key⟩ ∧
      raw' = key := hown
    simp only [Operation.payoutKey?, Option.some.injEq, Prod.mk.injEq] at ho
    obtain ⟨hscope, rfl⟩ := ho
    have hget := Table.get_of_mem hb.consistent.keyed.payouts hp
    have hid := hb.only _ _ _ _ hp' hget (hscope'.trans hscope)
    rw [hid] at hp'
    obtain rfl : p = p' := Option.some.inj (hget.symm.trans hp')
    exact ⟨destination, hdest, (Option.some.inj ha).symm⟩
  | _ => cases ho

/-- **Every call for one payout is the same call, up to the raw key**: two calls for a payout differ
in nothing but the key, and they are the same if and only if the requests that made them have one
raw `Idempotency-Key`. -/
theorem payout_calls (hd : Consistent d₀)
    (honly : ∀ k k' p p', d₀.payout? k = some p → d₀.payout? k' = some p' →
      p.idempotency = p'.idempotency → k = k')
    (h : History cfg d₀ d log) {p : Payout} (hp : p ∈ d.payouts) {o o' : Operation} {q q' : Request}
    {raw raw' : String} {a a' : PayoutAsk} (ho : o.payoutKey? = some (p.idempotency, raw))
    (ho' : o'.payoutKey? = some (p.idempotency, raw')) (hx : (o, q) ∈ log) (hx' : (o', q') ∈ log)
    (ha : q.payout? = some a) (ha' : q'.payout? = some a') :
    a' = { a with key := a'.key } ∧ (a = a' ↔ raw = raw') := by
  have hb : PayoutCalls d log := h.booked ⟨hd, honly, fun _ hx => by cases hx⟩
  obtain ⟨destination, hdest, rfl⟩ := hb.call hp ho hx ha
  obtain ⟨destination', hdest', rfl⟩ := hb.call hp ho' hx' ha'
  obtain rfl : destination = destination' := Option.some.inj (hdest.symm.trans hdest')
  refine ⟨rfl, ?_, ?_⟩
  · intro he
    exact ProviderKey.raw.inj (congrArg PayoutAsk.key he)
  · intro he
    rw [he]

end

/-! ## A destination that is configured anew -/

/-- The milestone is funded, its work is approved and released. -/
def releasedRequests : List Served :=
  [.operation (.fundMilestone anEmployer 1 "sandbox" "k1" 1)
      fun _ => .result ⟨"p1", "PENDING", 100, "USD"⟩,
    .operation (.webhook (captured100 "e1" "p1")) unasked,
    .operation (.startMilestone aFreelancer 1) unasked,
    .operation (.submitMilestone aFreelancer 1 "") unasked,
    .operation (.approveMilestone anEmployer 1) unasked,
    .operation (.releaseMilestone anEmployer 1 "k2") unasked]

/-- The payout is asked for with the key `k3`, and again with a blank after it when the destination
has been configured anew and disabled; the provider does not answer in time. -/
def retriedRequests : List Served :=
  releasedRequests ++
    [.configure [aFreelancer] (fun _ reference => .ok reference) 2 "stripe" "acct_1",
      .operation (.createPayout aFreelancer 100 "USD" "stripe" "k3" 1) fun _ => .temporary,
      .configure [aFreelancer] (fun _ reference => .ok reference) 2 "stripe" "acct_2",
      .disable 2 "stripe",
      .operation (.createPayout aFreelancer 100 "USD" "stripe" "k3\u00a0" 2) fun _ => .temporary]

/-- The tables and the calls after the requests. -/
def serveAll (cfg : Config) (d : Db) (xs : List Served) : Db × List (Operation × Request) :=
  xs.foldl (fun s x => (x.after cfg s.1, s.2 ++ x.calls cfg s.1)) (d, [])

theorem History.serveAll {cfg : Config} {d₀ : Db} (xs : List Served) :
    History cfg d₀ (serveAll cfg d₀ xs).1 (serveAll cfg d₀ xs).2 := by
  have hgo : ∀ (xs : List Served) d log, History cfg d₀ d log →
      History cfg d₀ (xs.foldl (fun s x => (x.after cfg s.1, s.2 ++ x.calls cfg s.1)) (d, log)).1
        (xs.foldl (fun s x => (x.after cfg s.1, s.2 ++ x.calls cfg s.1)) (d, log)).2 := by
    intro xs
    induction xs with
    | nil => exact fun _ _ h => h
    | cons x xs ih => exact fun d log h => ih _ _ (h.serve x)
  exact hgo xs d₀ [] .start

/-- A call of a history: the record, the raw key and the arguments. -/
def calledWith (s : IdempotencyScope) (raw : String) (a : PayoutAsk) (x : Operation × Request) :
    Bool :=
  x.1.payoutKey? = some (s, raw) && x.2.payout? = some a

theorem retried_calls :
    ((serveAll sandboxConfig oneMilestone retriedRequests).1.payouts.any fun p =>
      p.idempotency = ⟨2, .payoutCreate, "k3"⟩) = true ∧
    ((serveAll sandboxConfig oneMilestone retriedRequests).2.any
      (calledWith ⟨2, .payoutCreate, "k3"⟩ "k3"
        ⟨"stripe", .account "acct_1", 100, "USD", .raw "k3"⟩)) = true ∧
    ((serveAll sandboxConfig oneMilestone retriedRequests).2.any
      (calledWith ⟨2, .payoutCreate, "k3"⟩ "k3\u00a0"
        ⟨"stripe", .account "acct_1", 100, "USD", .raw "k3\u00a0"⟩)) = true := by
  decide +kernel

theorem oneMilestone_only : ∀ k k' p p', oneMilestone.payout? k = some p →
    oneMilestone.payout? k' = some p' → p.idempotency = p'.idempotency → k = k' := by
  intro k k' p p' hp
  cases hp

theorem payout_calls_retried :
    ∃ (d : Db) (log : List (Operation × Request)) (x x' : Operation × Request)
    (a a' : PayoutAsk), History sandboxConfig oneMilestone d log ∧ x ∈ log ∧ x' ∈ log ∧
      x.2.payout? = some a ∧ x'.2.payout? = some a' ∧ a.destination = .account "acct_1" ∧
      a' = { a with key := a'.key } ∧ (a = a' ↔ "k3" = "k3\u00a0") := by
  obtain ⟨hp, hx, hx'⟩ := retried_calls
  obtain ⟨p, hp, hid⟩ := List.any_eq_true.1 hp
  obtain ⟨x, hx, hc⟩ := List.any_eq_true.1 hx
  obtain ⟨x', hx', hc'⟩ := List.any_eq_true.1 hx'
  simp only [calledWith, Bool.and_eq_true, decide_eq_true_eq] at hid hc hc'
  rw [← hid] at hc hc'
  have h := payout_calls oneMilestone_activated.consistent oneMilestone_only
    (History.serveAll _) hp hc.1 hc'.1 hx hx' hc.2 hc'.2
  exact ⟨_, _, x, x', _, _, History.serveAll _, hx, hx', hc.2, hc'.2, rfl, h.1, h.2⟩

/-- A retry whose key has a blank at the end is another request to the provider. -/
theorem payout_calls_differ :
    ¬ ∀ (cfg : Config) (d₀ d : Db) (log : List (Operation × Request)) (p : Payout)
    (o o' : Operation) (q q' : Request) (raw raw' : String) (a a' : PayoutAsk), Activated d₀ →
    History cfg d₀ d log → p ∈ d.payouts → o.payoutKey? = some (p.idempotency, raw) →
    o'.payoutKey? = some (p.idempotency, raw') → (o, q) ∈ log → (o', q') ∈ log →
    q.payout? = some a → q'.payout? = some a' → a = a' := by
  intro h
  obtain ⟨hp, hx, hx'⟩ := retried_calls
  obtain ⟨p, hp, hid⟩ := List.any_eq_true.1 hp
  obtain ⟨x, hx, hc⟩ := List.any_eq_true.1 hx
  obtain ⟨x', hx', hc'⟩ := List.any_eq_true.1 hx'
  simp only [calledWith, Bool.and_eq_true, decide_eq_true_eq] at hid hc hc'
  rw [← hid] at hc hc'
  have hsame := h _ _ _ _ p x.1 x'.1 x.2 x'.2 _ _ _ _ oneMilestone_activated (History.serveAll _) hp
    hc.1 hc'.1 hx hx' hc.2 hc'.2
  revert hsame
  decide

end Money
