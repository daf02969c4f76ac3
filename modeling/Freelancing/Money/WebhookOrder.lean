import Freelancing.Money.Capture
import Freelancing.Money.IntentLife
import Freelancing.Money.LedgerIntegrity

/-!
# Deliveries of provider events

What a delivery does when it is served alone (`webhook_seen`, `webhook_fresh`,
`processCaptured_alone`, `processFailed_alone`), and from it: `payment.failed` and
`payment.captured` may come in either order (`deliveries_commute`). In every run each intent is
funded once, a captured intent stays captured, and a delivery that is refused leaves nothing behind
(`webhooks_processed_once`).
-/

namespace Money

open Text (upper)

variable {γ : Type} {answer : Request → Answer} {d : Db} {pend : Db → Db} {cfg : Config}

/-! ## The parts of a delivery, served alone -/

theorem getProvider_eq (cfg : Config) (name : String) :
    (∃ e, getProvider cfg name = raise e) ∨ getProvider cfg name = pure (lower (strip name)) := by
  unfold getProvider
  split
  · exact .inl ⟨_, rfl⟩
  · dsimp only
    split
    · exact .inr rfl
    · exact .inl ⟨_, rfl⟩

/-- Only the normalized name of the provider counts. -/
theorem getProvider_congr {name name' : String} (h : lower (strip name) = lower (strip name'))
    (hp : getProvider cfg name = pure (lower (strip name))) :
    getProvider cfg name' = pure (lower (strip name')) := by
  unfold getProvider at hp ⊢
  dsimp only at hp ⊢
  rw [← h]
  split
  · rename_i hdis
    rw [if_pos hdis] at hp
    cases hp
  · rename_i hen
    rw [if_neg hen] at hp
    split
    · rfl
    · rename_i hsup
      rw [if_neg hsup] at hp
      cases hp

/-- A delivery served alone. -/
def served (cfg : Config) (answer : Request → Answer) (w : Delivery) (d : Db) :
    Txn.Outcome Db Err Response :=
  (processProviderWebhook cfg w).alone answer d id

def providerEvent (p : Provider) (v : VerifiedWebhook) (hash : String) : ProviderEvent :=
  ⟨⟨p, v.externalEventId⟩, v.eventType, hash⟩

def duplicate (k : EventKey) : Response := ⟨.webhook "duplicate" k.externalEventId, 200⟩

def processed (k : EventKey) : Response := ⟨.webhook "processed" k.externalEventId, 200⟩

section
variable {w : Delivery} {p : Provider} {v : VerifiedWebhook}

/-- What a delivery of an event that has been processed is answered with. -/
def duplicateResult (x : ProviderEvent) (hash : String) : Except Err Response :=
  if x.payloadHash ≠ hash then .error (.api ⟨"provider_event_conflict", "Provider event conflict",
    409, "The provider reused an event id with a different payload"⟩)
  else .ok (duplicate x.key)

/-- An event that has been processed changes nothing. -/
theorem webhook_seen (hp : getProvider cfg w.providerName = pure p) (hv : w.verified = .ok v)
    {x : ProviderEvent} (hx : d.event? ⟨p, v.externalEventId⟩ = some x) :
    served cfg answer w d = ⟨d, duplicateResult x w.payloadHash⟩ := by
  unfold served processProviderWebhook
  rw [hp, pure_bind, hv]
  dsimp only
  rw [alone_select, id, hx]
  unfold duplicateProviderEvent duplicateResult
  dsimp only
  split <;> rfl

theorem webhook_fresh (answer : Request → Answer) (hp : getProvider cfg w.providerName = pure p)
    (hv : w.verified = .ok v) (hn : d.event? ⟨p, v.externalEventId⟩ = none) :
    served cfg answer w d = (processProviderEvent p v >>= fun captured => do
      commit (.webhookProcessed ⟨p, v.externalEventId⟩ captured)
      pure (processed ⟨p, v.externalEventId⟩)).alone answer d
        (.addEvent (providerEvent p v w.payloadHash)) := by
  unfold served processProviderWebhook
  rw [hp, pure_bind, hv]
  dsimp only
  rw [alone_select, id, hn]
  dsimp only
  rw [alone_taken, id, hn]
  rfl

end

/-! ## `payment.failed` -/

/-- The intent of the reference is `FAILED`, unless it is captured. -/
def Db.failReference (p : Provider) (reference : String) (d : Db) : Db :=
  match d.intentOfReference? p reference with
  | none => d
  | some i => if i.status ≠ .captured then d.failIntent i.id else d

theorem webhookString_alone {s : String} (hs : s.isEmpty = false) {key : String}
    {f : String → Tx γ} : webhookString (some s) key >>= f = f s := by
  unfold webhookString
  dsimp only
  rw [hs]
  rfl

theorem processFailed_alone {p : Provider} {data : WebhookData} {reference : String}
    (hr : data.providerReference = some reference) (hne : reference.isEmpty = false)
    {f : Unit → Tx γ} : (processFailed p data >>= f).alone answer d pend =
      (f ()).alone answer d (.failReference p reference ∘ pend) := by
  unfold processFailed
  rw [hr, bind_assoc, webhookString_alone hne, bind_assoc, alone_selectForUpdate]
  cases hi : (pend d).intentOfReference? p reference with
  | none =>
    dsimp only
    rw [pure_bind]
    exact Txn.Prog.alone_congr _ (by simp [Db.failReference, hi])
  | some i =>
    dsimp only
    by_cases h : i.status ≠ .captured
    · rw [if_pos h, alone_write]
      exact Txn.Prog.alone_congr _ (by simp [Db.failReference, hi, h])
    · rw [if_neg h, pure_bind]
      exact Txn.Prog.alone_congr _ (by simp [Db.failReference, hi, h])

/-! ## `payment.captured` -/

/-- The event reports the payment that the intent stands for. -/
structure Reports (data : WebhookData) (reference : String) (i : PaymentIntent) : Prop where
  reference : data.providerReference = some reference ∧ reference.isEmpty = false
  amount : data.amountMinor = some i.amountMinor
  currency : ∃ c, data.currency = some c ∧ c.isEmpty = false ∧ i.currency = upper c

theorem webhookString_cases (o : Option String) (key : String) :
    (∃ e, webhookString o key = raise e) ∨
      ∃ s, o = some s ∧ s.isEmpty = false ∧ webhookString o key = pure s := by
  unfold webhookString
  cases o with
  | none => exact .inl ⟨_, rfl⟩
  | some s =>
    dsimp only
    by_cases hs : s.isEmpty = true
    · rw [if_pos hs]
      exact .inl ⟨_, rfl⟩
    · rw [if_neg hs]
      exact .inr ⟨s, rfl, Bool.eq_false_iff.2 hs, rfl⟩

theorem processCaptured_reports {p : Provider} {data : WebhookData} {reference : String}
    {i : PaymentIntent} (h : Reports data reference i)
    (hi : (pend d).intentOfReference? p reference = some i) {f : Option IntentId → Tx γ} :
    (processCaptured p data >>= f).alone answer d pend =
      (captureIntent i none >>= fun _ =>
        f (if i.status = .captured then none else some i.id)).alone answer d pend := by
  obtain ⟨c, hc, hce, hcur⟩ := h.currency
  unfold processCaptured webhookInt
  rw [h.reference.1, h.amount, hc]
  simp only [bind_assoc, webhookString_alone h.reference.2, webhookString_alone hce, pure_bind]
  rw [alone_selectForUpdate, hi]
  dsimp only
  rw [bind_assoc, alone_require (by simp [hcur]), bind_assoc]
  simp only [pure_bind]

/-- A `payment.captured` event is refused, or it reports the payment of an intent. -/
theorem processCaptured_cases {p : Provider} {data : WebhookData} {f : Option IntentId → Tx γ} :
    (∃ e, (processCaptured p data >>= f).alone answer d pend = ⟨d, .error e⟩) ∨
      ∃ reference i, Reports data reference i ∧
        (pend d).intentOfReference? p reference = some i := by
  unfold processCaptured webhookInt
  rcases webhookString_cases data.providerReference "provider_reference" with
    ⟨e, he⟩ | ⟨reference, hr, hne, he⟩
  · rw [he, bind_assoc]
    exact .inl ⟨e, rfl⟩
  rw [he]
  simp only [bind_assoc, pure_bind]
  cases hn : data.amountMinor with
  | none => exact .inl ⟨_, rfl⟩
  | some n =>
  dsimp only
  rw [pure_bind]
  rcases webhookString_cases data.currency "currency" with ⟨e, he⟩ | ⟨c, hc, hce, he⟩
  · rw [he]
    exact .inl ⟨e, rfl⟩
  rw [he, pure_bind, alone_selectForUpdate]
  cases hi : (pend d).intentOfReference? p reference with
  | none => exact .inl ⟨_, rfl⟩
  | some i =>
    dsimp only
    by_cases hm : i.amountMinor = n ∧ i.currency = upper c
    · refine .inr ⟨reference, i, ⟨⟨hr, hne⟩, by rw [hn, hm.1], c, hc, hce, hm.2⟩, ?_⟩
      exact hi
    · rw [bind_assoc]
      exact .inl ⟨_, alone_require_not (decide_eq_false hm) _ _⟩

/-! ## Either order -/

section
variable {p : Provider} {reference : String} {ev ev' : ProviderEvent}

theorem intentOfReference?_modify {k : IntentId} {g : PaymentIntent → PaymentIntent}
    (hg : ∀ i, (g i).provider = i.provider ∧ (g i).providerReference = i.providerReference)
    {d' : Db} (h : d'.intents = Table.modify PaymentIntent.id k g d.intents) :
    d'.intentOfReference? p reference =
      (d.intentOfReference? p reference).map fun i => if i.id = k then g i else i := by
  unfold Db.intentOfReference?
  rw [h]
  exact Table.find?_modify fun i => by rw [(hg i).1, (hg i).2]

theorem intentOfReference?_failReference (d : Db) (p : Provider) (reference : String) :
    (d.failReference p reference).intentOfReference? p reference =
      (d.intentOfReference? p reference).map fun i =>
        if i.status ≠ .captured then { i with status := .failed } else i := by
  unfold Db.failReference
  cases hi : d.intentOfReference? p reference with
  | none => exact hi
  | some i =>
    dsimp only
    by_cases h : i.status ≠ .captured
    · rw [if_pos h]
      rw [intentOfReference?_modify (d := d) (k := i.id)
        (g := fun i => { i with status := .failed }) (fun _ => ⟨rfl, rfl⟩) rfl, hi]
      simp [h]
    · rw [if_neg h, hi]
      simp [h]

theorem Consistent.addEvent (hd : Consistent d) (hn : d.event? ev.key = none) :
    Consistent (d.addEvent ev) :=
  (Update.addEvent ev trivial hn : Update Set.univ d _).consistent hd

theorem Consistent.failReference (hd : Consistent d) :
    Consistent (d.failReference p reference) := by
  unfold Db.failReference
  cases hi : d.intentOfReference? p reference with
  | none => exact hd
  | some i =>
    dsimp only
    split
    · rename_i h
      exact (Update.failIntent i trivial (hd.intent_of_find hi) h : Update Set.univ d _).consistent
        hd
    · exact hd

/-- Tables that the writes of a capture do not depend on. -/
def Db.replace (es : List ProviderEvent) (is : List PaymentIntent) (d : Db) : Db :=
  { d with events := es, intents := is }

section
variable (es : List ProviderEvent) (is : List PaymentIntent) {m : Milestone} {bps : Int}
  {actor : Option UserId}

theorem ensureAccount_replace (a : LedgerAccount) :
    (d.replace es is).ensureAccount a = (d.ensureAccount a).replace es is := by
  unfold Db.ensureAccount
  by_cases h : (d.account? a.key).isSome = true
  · rw [if_pos h, if_pos (show ((d.replace es is).account? a.key).isSome = true from h)]
  · rw [if_neg h, if_neg (show ¬ ((d.replace es is).account? a.key).isSome = true from h)]
    rfl

theorem ensureEscrow_replace :
    (d.replace es is).ensureEscrow m bps = (d.ensureEscrow m bps).replace es is := by
  unfold Db.ensureEscrow
  by_cases h : (d.escrow? m.id).isSome = true
  · rw [if_pos h, if_pos (show ((d.replace es is).escrow? m.id).isSome = true from h)]
  · rw [if_neg h, if_neg (show ¬ ((d.replace es is).escrow? m.id).isSome = true from h),
      ensureAccount_replace]
    rfl

theorem markFunded_replace {n : Int} :
    (d.replace es is).markFunded m n actor = (d.markFunded m n actor).replace es is := by
  unfold Db.markFunded
  split <;> rfl

@[simp] theorem clock_ensureAccount (a : LedgerAccount) : (d.ensureAccount a).clock = d.clock := by
  unfold Db.ensureAccount
  split <;> rfl

@[simp] theorem clock_ensureEscrow : (d.ensureEscrow m bps).clock = d.clock := by
  unfold Db.ensureEscrow
  split
  · rfl
  · exact clock_ensureAccount _

theorem capturedDb_replace (i : PaymentIntent) (m : Milestone) (bps : Int) (actor : Option UserId) :
    capturedDb i m bps actor (d.replace es is) = (capturedDb i m bps actor d).replace es
      (Table.modify PaymentIntent.id i.id
        (fun i => { i with status := .captured, capturedAt := some d.clock }) is) := by
  unfold capturedDb
  rw [ensureEscrow_replace, ensureAccount_replace]
  dsimp only
  have hclock : ((d.ensureEscrow m bps).ensureAccount
      (AccountKey.providerClearing i.provider i.currency).account).clock = d.clock := by simp
  rw [← hclock, show ∀ x : Db, Db.captureIntent i.id (.addFunding ⟨m.id, i.id, i.fundKey,
      i.amountMinor⟩ <| .addJournal ⟨i.fundKey, none, fundEntries i m⟩ <| x.replace es is) =
    (Db.captureIntent i.id <| .addFunding ⟨m.id, i.id, i.fundKey, i.amountMinor⟩ <|
      .addJournal ⟨i.fundKey, none, fundEntries i m⟩ x).replace es
      (Table.modify PaymentIntent.id i.id
        (fun i => { i with status := .captured, capturedAt := some x.clock }) is) from fun _ => rfl,
    markFunded_replace]
  rfl

end

/-- A capture overwrites the status that a failure has set. -/
theorem capturedDb_failIntent (i : PaymentIntent) (m : Milestone) (bps : Int)
    (actor : Option UserId) :
    capturedDb i m bps actor (.addEvent ev <| .failIntent i.id <| .addEvent ev' d) =
      { capturedDb i m bps actor (.addEvent ev d) with events := ev :: ev' :: d.events } := by
  have hfirst := capturedDb_replace (d := d) (ev :: ev' :: d.events) (d.failIntent i.id).intents i m
    bps actor
  rw [show (d.failIntent i.id).intents = Table.modify PaymentIntent.id i.id
    (fun i => { i with status := .failed }) d.intents from rfl,
    Table.modify_modify (f := fun i : PaymentIntent => { i with status := .failed }) fun _ => rfl]
    at hfirst
  rw [show Db.addEvent ev d = d.replace (ev :: d.events) d.intents from rfl, capturedDb_replace]
  exact hfirst

end

/-! ## Deliveries -/

section
variable {w : Delivery} {p : Provider} {v : VerifiedWebhook}

theorem served_failed (answer : Request → Answer) (hp : getProvider cfg w.providerName = pure p)
    (hv : w.verified = .ok v) (ht : v.eventType = "payment.failed")
    (hn : d.event? ⟨p, v.externalEventId⟩ = none) {reference : String}
    (hr : v.data.providerReference = some reference)
    (hne : reference.isEmpty = false) : served cfg answer w d =
      ⟨.failReference p reference (.addEvent (providerEvent p v w.payloadHash) d),
        .ok (processed ⟨p, v.externalEventId⟩)⟩ := by
  rw [webhook_fresh answer hp hv hn]
  unfold processProviderEvent
  rw [if_neg (by rw [ht]; decide), if_pos ht, bind_assoc, processFailed_alone hr hne, pure_bind,
    alone_commit, alone_pure]
  rfl

/-- A `payment.failed` delivery removes no event. -/
theorem event?_served_failed (hp : getProvider cfg w.providerName = pure p)
    (hv : w.verified = .ok v) (ht : v.eventType = "payment.failed") {k : EventKey}
    {x : ProviderEvent} (hx : d.event? k = some x) :
    (served cfg answer w d).db.event? k = some x := by
  cases hn : d.event? ⟨p, v.externalEventId⟩ with
  | some y =>
    rw [webhook_seen hp hv hn]
    exact hx
  | none =>
    rcases webhookString_cases v.data.providerReference "provider_reference" with
      ⟨e, he⟩ | ⟨reference, hr, hne, -⟩
    · rw [webhook_fresh answer hp hv hn]
      unfold processProviderEvent processFailed
      rw [if_neg (by rw [ht]; decide), if_pos ht, he]
      exact hx
    · rw [served_failed answer hp hv ht hn hr hne]
      have hk : ¬ (providerEvent p v w.payloadHash).key = k := by
        intro hk
        rw [← hk] at hx
        cases hn.symm.trans hx
      have hadd : (d.addEvent (providerEvent p v w.payloadHash)).event? k = some x := by
        rw [Db.event?_addEvent, if_neg hk, hx]
      unfold Db.failReference
      dsimp only
      split
      · exact hadd
      · split <;> exact hadd

end

@[simp] theorem events_capturedDb {i : PaymentIntent} {m : Milestone} {bps : Int}
    {actor : Option UserId} : (capturedDb i m bps actor d).events = d.events := by
  have h := congrArg Db.events (capturedDb_replace (d := d) d.events d.intents i m bps actor)
  exact h

theorem intents_capturedDb {i : PaymentIntent} {m : Milestone} {bps : Int}
    {actor : Option UserId} : (capturedDb i m bps actor d).intents = Table.modify PaymentIntent.id
      i.id (fun i => { i with status := .captured, capturedAt := some d.clock }) d.intents := by
  have h := capturedDb_replace (d := d) d.events d.intents i m bps actor
  exact congrArg Db.intents h

theorem intent?_capturedDb {i : PaymentIntent} {m : Milestone} {bps : Int}
    {actor : Option UserId} : (capturedDb i m bps actor d).intent? i.id =
      (d.intent? i.id).map fun i => { i with status := .captured, capturedAt := some d.clock } := by
  rw [Db.intent?, intents_capturedDb]
  exact Table.get_modify_self fun _ => rfl

theorem journals_capturedDb {i : PaymentIntent} {m : Milestone} {bps : Int}
    {actor : Option UserId} : (capturedDb i m bps actor d).journals =
      ⟨i.fundKey, none, fundEntries i m⟩ :: d.journals := by
  have h : (d.ensureEscrow m bps |>.ensureAccount
      (AccountKey.providerClearing i.provider i.currency).account).journals = d.journals := by simp
  unfold capturedDb Db.markFunded
  dsimp only
  rw [← h]
  split <;> rfl

/-- The intent of a reference after its capture. -/
theorem intentOfReference?_capturedDb {p : Provider} {reference : String} {i : PaymentIntent}
    (m : Milestone) (bps : Int) (actor : Option UserId)
    (hi : d.intentOfReference? p reference = some i) :
    ∃ j, (capturedDb i m bps actor d).intentOfReference? p reference = some j ∧
      j.status = .captured := by
  rw [intentOfReference?_modify (g := fun i => { i with status := .captured, capturedAt := _ })
    (fun _ => ⟨rfl, rfl⟩) intents_capturedDb, hi]
  exact ⟨_, rfl, by simp⟩

/-- A capture of an intent that is captured already. -/
theorem captureIntent_again (answer : Request → Answer) {i : PaymentIntent} (actor : Option UserId)
    {f : FinancialState → Tx γ} (hd : Consistent (pend d)) (hi : (pend d).intent? i.id = some i)
    (hs : i.status = .captured) :
    ∃ st, (captureIntent i actor >>= f).alone answer d pend = (f st).alone answer d pend := by
  obtain ⟨-, ⟨m, hm, -, -⟩, -⟩ := hd.intent_mem hi
  unfold captureIntent
  rw [if_pos hs, bind_assoc, findMilestone_alone hm]
  refine financialState_alone answer fun x hx => ?_
  obtain ⟨m', -, -, hacc⟩ := hd.escrows x (Table.get_mem hx)
  exact Option.isSome_iff_exists.2 ⟨_, hacc⟩

theorem event?_capturedDb {i : PaymentIntent} {m : Milestone} {bps : Int} {actor : Option UserId}
    {k : EventKey} : (capturedDb i m bps actor d).event? k = d.event? k := by
  simp [Db.event?]

theorem Capturable.of_addEvent {ev : ProviderEvent} {i : PaymentIntent} {m : Milestone}
    {c : Contract} (h : Capturable (d.addEvent ev) i m c) : Capturable d i m c :=
  ⟨h.milestone, h.contract, h.active, h.open_, h.referred, h.commission, h.fits⟩

theorem Capturable.addEvent {ev : ProviderEvent} {i : PaymentIntent} {m : Milestone}
    {c : Contract} (h : Capturable d i m c) : Capturable (d.addEvent ev) i m c :=
  ⟨h.milestone, h.contract, h.active, h.open_, h.referred, h.commission, h.fits⟩

/-- **A `payment.captured` delivery** that reports the payment of `i`: where the capture is not
possible it is refused. -/
theorem served_captured (answer : Request → Answer) {w : Delivery} {p : Provider}
    {v : VerifiedWebhook} (hp : getProvider cfg w.providerName = pure p) (hv : w.verified = .ok v)
    (ht : v.eventType = "payment.captured") (hd : Consistent d)
    (hn : d.event? ⟨p, v.externalEventId⟩ = none) {reference : String} {i : PaymentIntent}
    (hrep : Reports v.data reference i) (hi : d.intentOfReference? p reference = some i) :
    (i.status = .captured ∧ served cfg answer w d =
        ⟨.addEvent (providerEvent p v w.payloadHash) d,
          .ok (processed ⟨p, v.externalEventId⟩)⟩) ∨
      i.status ≠ .captured ∧ ((∀ m c, ¬ Capturable d i m c) ∧
          (∃ e, served cfg answer w d = ⟨d, .error e⟩) ∨
        ∃ m c, Capturable d i m c ∧ served cfg answer w d =
          ⟨capturedDb i m (c.commission.bps?.getD 0) none
            (.addEvent (providerEvent p v w.payloadHash) d),
            .ok (processed ⟨p, v.externalEventId⟩)⟩) := by
  set ev := providerEvent p v w.payloadHash with hev
  have hd' : Consistent (d.addEvent ev) := hd.addEvent (by rw [hev]; exact hn)
  have hrow : (d.addEvent ev).intent? i.id = some i := hd.intent_of_find hi
  rw [webhook_fresh answer hp hv hn]
  unfold processProviderEvent
  rw [if_pos ht, processCaptured_reports hrep (show (d.addEvent ev).intentOfReference? p reference =
    some i from hi)]
  by_cases hs : i.status = .captured
  · obtain ⟨st, hst⟩ := captureIntent_again answer none hd' hrow hs
    rw [hst, alone_commit, alone_pure]
    exact .inl ⟨hs, rfl⟩
  · rcases captureIntent_alone answer none hd' hrow hs with
      ⟨hno, e, he⟩ | ⟨m, c, hcap, st, hst⟩
    · exact .inr ⟨hs, .inl ⟨fun m c h => hno m c h.addEvent, e, he⟩⟩
    · rw [hst, alone_commit, alone_pure]
      exact .inr ⟨hs, .inr ⟨m, c, hcap.of_addEvent, rfl⟩⟩

theorem failReference_of_captured {p : Provider} {reference : String} {i : PaymentIntent}
    (hi : d.intentOfReference? p reference = some i) (hs : i.status = .captured) :
    d.failReference p reference = d := by
  unfold Db.failReference
  rw [hi]
  simp [hs]

theorem failReference_of_uncaptured {p : Provider} {reference : String} {i : PaymentIntent}
    (hi : d.intentOfReference? p reference = some i) (hs : i.status ≠ .captured) :
    d.failReference p reference = d.failIntent i.id := by
  unfold Db.failReference
  rw [hi]
  simp [hs]

/-- Two events of the payment of `i` that have not been processed: its failure, which `wf` delivers,
and its capture, which `wc` delivers. -/
structure NewPair (cfg : Config) (d : Db) (wf wc : Delivery) (vf vc : VerifiedWebhook)
    (p : Provider) (reference : String) (i : PaymentIntent) : Prop where
  consistent : Consistent d
  providers : getProvider cfg wf.providerName = pure p ∧ getProvider cfg wc.providerName = pure p
  verified : wf.verified = .ok vf ∧ wc.verified = .ok vc
  types : vf.eventType = "payment.failed" ∧ vc.eventType = "payment.captured"
  differ : vf.externalEventId ≠ vc.externalEventId
  fresh : d.event? ⟨p, vf.externalEventId⟩ = none ∧ d.event? ⟨p, vc.externalEventId⟩ = none
  failed : vf.data.providerReference = some reference
  reports : Reports vc.data reference i
  intent : d.intentOfReference? p reference = some i

section
variable {wf wc : Delivery} {vf vc : VerifiedWebhook} {p : Provider} {reference : String}
  {i : PaymentIntent}

/-- The failure, delivered before or after the capture. -/
theorem NewPair.served_failed (h : NewPair cfg d wf wc vf vc p reference i)
    (answer : Request → Answer) {d' : Db} (hn : d'.event? ⟨p, vf.externalEventId⟩ = none) :
    served cfg answer wf d' =
      ⟨.failReference p reference (.addEvent (providerEvent p vf wf.payloadHash) d'),
        .ok (processed ⟨p, vf.externalEventId⟩)⟩ :=
  Money.served_failed answer h.providers.1 h.verified.1 h.types.1 hn h.failed h.reports.reference.2

/-- After the event of one the event of the other is still new. -/
theorem NewPair.fresh_after (h : NewPair cfg d wf wc vf vc p reference i) :
    (d.addEvent (providerEvent p vf wf.payloadHash)).event? ⟨p, vc.externalEventId⟩ = none ∧
      (d.addEvent (providerEvent p vc wc.payloadHash)).event? ⟨p, vf.externalEventId⟩ = none := by
  have hkey : (⟨p, vf.externalEventId⟩ : EventKey) ≠ ⟨p, vc.externalEventId⟩ := by
    simpa using h.differ
  rw [Db.event?_addEvent, Db.event?_addEvent]
  exact ⟨(if_neg hkey).trans h.fresh.2, (if_neg hkey.symm).trans h.fresh.1⟩

/-- The payment has been captured before: both deliveries leave only their events. -/
theorem NewPair.commute_of_captured (h : NewPair cfg d wf wc vf vc p reference i)
    (hs : i.status = .captured) (hc : served cfg answer wc d =
      ⟨.addEvent (providerEvent p vc wc.payloadHash) d, .ok (processed ⟨p, vc.externalEventId⟩)⟩) :
    (served cfg answer wc (served cfg answer wf d).db).result =
        .ok (processed ⟨p, vc.externalEventId⟩) ∧
      ∃ es, es.Perm (served cfg answer wf (served cfg answer wc d).db).db.events ∧
        (served cfg answer wc (served cfg answer wf d).db).db =
          { (served cfg answer wf (served cfg answer wc d).db).db with events := es } := by
  have hd₁ : Consistent (d.addEvent (providerEvent p vf wf.payloadHash)) :=
    h.consistent.addEvent h.fresh.1
  rw [h.served_failed answer h.fresh.1, hc, h.served_failed answer h.fresh_after.2,
    failReference_of_captured (d := d.addEvent _) h.intent hs,
    failReference_of_captured (d := .addEvent _ (d.addEvent _)) h.intent hs]
  rcases served_captured answer h.providers.2 h.verified.2 h.types.2 hd₁ h.fresh_after.1 h.reports
    h.intent with ⟨-, h'⟩ | ⟨hs', -⟩
  · rw [h']
    exact ⟨rfl, _, .swap _ _ _, rfl⟩
  · exact absurd hs hs'

/-- The payment is captured by the delivery: the capture overwrites what the failure has set. -/
theorem NewPair.commute_of_capturable (h : NewPair cfg d wf wc vf vc p reference i)
    (hs : i.status ≠ .captured) {m : Milestone} {c : Contract} (hcap : Capturable d i m c)
    (hc : served cfg answer wc d = ⟨capturedDb i m (c.commission.bps?.getD 0) none
      (.addEvent (providerEvent p vc wc.payloadHash) d), .ok (processed ⟨p, vc.externalEventId⟩)⟩) :
    (served cfg answer wc (served cfg answer wf d).db).result =
        .ok (processed ⟨p, vc.externalEventId⟩) ∧
      ∃ es, es.Perm (served cfg answer wf (served cfg answer wc d).db).db.events ∧
        (served cfg answer wc (served cfg answer wf d).db).db =
          { (served cfg answer wf (served cfg answer wc d).db).db with events := es } := by
  have hd₁ : Consistent (d.addEvent (providerEvent p vf wf.payloadHash)) :=
    h.consistent.addEvent h.fresh.1
  have hd₂ : Consistent (.failReference p reference <|
      d.addEvent (providerEvent p vf wf.payloadHash)) := hd₁.failReference
  have hfail := failReference_of_uncaptured
    (d := d.addEvent (providerEvent p vf wf.payloadHash)) h.intent hs
  have hi₂ := intentOfReference?_failReference (d.addEvent (providerEvent p vf wf.payloadHash)) p
    reference
  rw [show (d.addEvent _).intentOfReference? p reference = some i from h.intent, Option.map_some,
    if_pos hs] at hi₂
  rw [h.served_failed answer h.fresh.1, hc]
  rw [hfail] at hd₂ hi₂ ⊢
  have hrep₂ : Reports vc.data reference { i with status := .failed } :=
    ⟨h.reports.reference, h.reports.amount, h.reports.currency⟩
  have hcap₂ : Capturable (.failIntent i.id <| d.addEvent (providerEvent p vf wf.payloadHash))
      { i with status := .failed } m c :=
    ⟨hcap.milestone, hcap.contract, hcap.active, hcap.open_, hcap.referred, hcap.commission,
      hcap.fits⟩
  rcases served_captured answer h.providers.2 h.verified.2 h.types.2 hd₂ h.fresh_after.1 hrep₂ hi₂
    with ⟨hs', -⟩ | ⟨-, ⟨hno, -⟩ | ⟨m', c', hcap', h'⟩⟩
  · cases hs'
  · exact absurd hcap₂ (hno m c)
  · obtain rfl : m = m' := Option.some.inj (hcap₂.milestone.symm.trans hcap'.milestone)
    obtain rfl : c = c' := Option.some.inj (hcap₂.contract.symm.trans hcap'.contract)
    obtain ⟨j, hj, hjs⟩ := intentOfReference?_capturedDb (d := d.addEvent _) m
      (c.commission.bps?.getD 0) none h.intent
    rw [h', h.served_failed answer (event?_capturedDb.trans h.fresh_after.2),
      failReference_of_captured (d := .addEvent _ (capturedDb ..)) hj hjs]
    refine ⟨rfl, _, ?_, capturedDb_failIntent i m _ none⟩
    change List.Perm _ (_ :: (capturedDb i m _ none (d.addEvent _)).events)
    rw [events_capturedDb]
    exact .swap _ _ _

end

/-- **Either order**: a `payment.failed` and a `payment.captured` event of one payment lead to the
same tables, if the capture is possible when neither has come in. -/
theorem deliveries_commute (hd : Consistent d) {wf wc : Delivery} {vf vc : VerifiedWebhook}
    (hvf : wf.verified = .ok vf) (hvc : wc.verified = .ok vc)
    (htf : vf.eventType = "payment.failed") (htc : vc.eventType = "payment.captured")
    (hname : lower (strip wf.providerName) = lower (strip wc.providerName))
    (href : vf.data.providerReference = vc.data.providerReference)
    (hid : vf.externalEventId ≠ vc.externalEventId) {r : Response}
    (hadmissible : (served cfg answer wc d).result = .ok r) :
    (served cfg answer wc (served cfg answer wf d).db).result = .ok r ∧
      ∃ es, es.Perm (served cfg answer wf (served cfg answer wc d).db).db.events ∧
        (served cfg answer wc (served cfg answer wf d).db).db =
          { (served cfg answer wf (served cfg answer wc d).db).db with events := es } := by
  set p := lower (strip wc.providerName) with hpdef
  have hpc : getProvider cfg wc.providerName = pure p := by
    rcases getProvider_eq cfg wc.providerName with ⟨e, he⟩ | he
    · unfold served processProviderWebhook at hadmissible
      rw [he] at hadmissible
      cases hadmissible
    · exact he
  have hpf : getProvider cfg wf.providerName = pure p := by
    have hcongr : getProvider cfg wf.providerName = _ := getProvider_congr hname.symm hpc
    rwa [hname] at hcongr
  -- a capture that has been processed changes nothing in either order
  cases hc : d.event? ⟨p, vc.externalEventId⟩ with
  | some x =>
    rw [webhook_seen hpc hvc hc] at hadmissible ⊢
    rw [webhook_seen hpc hvc (event?_served_failed hpf hvf htf hc)]
    exact ⟨hadmissible, _, .refl _, rfl⟩
  | none =>
  rcases processCaptured_cases with ⟨e, he⟩ | ⟨reference, i, hrep, hi⟩
  · rw [webhook_fresh answer hpc hvc hc] at hadmissible
    unfold processProviderEvent at hadmissible
    rw [if_pos htc, he] at hadmissible
    cases hadmissible
  have hi : d.intentOfReference? p reference = some i := hi
  have hrf : vf.data.providerReference = some reference := href.trans hrep.reference.1
  have hserved := served_captured answer hpc hvc htc hd hc hrep hi
  cases hf : d.event? ⟨p, vf.externalEventId⟩ with
  | some x =>
    -- the failure has been processed before
    have hkey : (⟨p, vc.externalEventId⟩ : EventKey) ≠ ⟨p, vf.externalEventId⟩ := by
      simpa using hid.symm
    have hkept : (d.addEvent (providerEvent p vc wc.payloadHash)).event?
        ⟨p, vf.externalEventId⟩ = some x := by
      rw [Db.event?_addEvent]
      exact (if_neg hkey).trans hf
    have hlast : (served cfg answer wc d).db.event? ⟨p, vf.externalEventId⟩ = some x := by
      rcases hserved with ⟨-, h⟩ | ⟨-, ⟨-, e, h⟩ | ⟨m, c, -, h⟩⟩
      · rw [h, hkept]
      · rw [h, hf]
      · rw [h, event?_capturedDb, hkept]
    rw [webhook_seen hpf hvf hf, webhook_seen hpf hvf hlast]
    exact ⟨hadmissible, _, .refl _, rfl⟩
  | none =>
  have hpair : NewPair cfg d wf wc vf vc p reference i :=
    ⟨hd, ⟨hpf, hpc⟩, ⟨hvf, hvc⟩, ⟨htf, htc⟩, hid, ⟨hf, hc⟩, hrf, hrep, hi⟩
  rcases hserved with ⟨hs, h⟩ | ⟨hs, ⟨-, e, h⟩ | ⟨m, c, hcap, h⟩⟩
  · rw [h] at hadmissible
    cases hadmissible
    exact hpair.commute_of_captured hs h
  · rw [h] at hadmissible
    cases hadmissible
  · rw [h] at hadmissible
    cases hadmissible
    exact hpair.commute_of_capturable hs hcap h

/-! ## A delivery commits last -/

section
open Txn.Prog (NoCommit)

variable {β : Type}

theorem noCommit_select (q : Db → β) : (select q).NoCommit := fun _ => trivial

theorem noCommit_selectForUpdate (name : β → LockName) (q : Db → Option β) :
    (selectForUpdate name q).NoCommit := fun _ => trivial

theorem noCommit_relock (p : Point) (name : LockName) (q : Db → Option β) (x : β) :
    (relock p name q x).NoCommit := fun _ => trivial

theorem noCommit_taken (name : LockName) (q : Db → Bool) :
    (taken name q).NoCommit := fun _ => trivial

theorem noCommit_write (w : Db → Db) : (write w).NoCommit := trivial

theorem noCommit_require (c : Bool) (e : Err) : (require c e).NoCommit := by
  unfold require
  split <;> trivial

theorem noCommit_reserve (name : LockName) (q : Db → Bool) : (reserve name q).NoCommit :=
  (noCommit_taken name q).bind fun _ => noCommit_require _ _

theorem noCommit_sameIdentity (a b : LedgerAccount) : (sameIdentity a b).NoCommit := by
  unfold sameIdentity
  split <;> trivial

theorem noCommit_getOrCreateAccount (a : LedgerAccount) : (getOrCreateAccount a).NoCommit := by
  refine NoCommit.bind (noCommit_selectForUpdate _ _) fun o => ?_
  cases o with
  | some x => exact noCommit_sameIdentity _ _
  | none =>
    refine NoCommit.bind (noCommit_taken _ _) fun t => ?_
    split
    · refine NoCommit.bind (noCommit_selectForUpdate _ _) fun o => ?_
      cases o with
      | some x => exact noCommit_sameIdentity _ _
      | none => trivial
    · exact NoCommit.bind (noCommit_write _) fun _ => trivial

theorem noCommit_postJournal (op : JournalOperation) (ref : Reference) (ps : List Posting)
    (rev : Option JournalKey) : (postJournal op ref ps rev).NoCommit := by
  unfold postJournal
  dsimp only
  split
  · trivial
  · refine NoCommit.bind (fun _ => trivial) fun o => ?_
    cases o with
    | some j => trivial
    | none =>
      exact NoCommit.bind (noCommit_reserve _ _) fun _ =>
        NoCommit.bind (noCommit_write _) fun _ => trivial

theorem noCommit_escrowAccount (x : MilestoneEscrow) : (escrowAccount x).NoCommit := by
  refine NoCommit.bind (noCommit_select _) fun o => ?_
  cases o <;> trivial

theorem noCommit_financialState (m : Milestone) : (financialState m).NoCommit := by
  refine NoCommit.bind (noCommit_select _) fun o => ?_
  cases o with
  | none => trivial
  | some x =>
    exact NoCommit.bind (noCommit_escrowAccount x) fun _ =>
      NoCommit.bind (noCommit_select _) fun _ => trivial

theorem noCommit_findMilestone (id : MilestoneId) : (findMilestone id).NoCommit := by
  refine NoCommit.bind (noCommit_select _) fun o => ?_
  cases o <;> trivial

theorem noCommit_lockedMilestone (id : MilestoneId) : (lockedMilestone id).NoCommit := by
  refine NoCommit.bind (noCommit_selectForUpdate _ _) fun o => ?_
  cases o with
  | none => trivial
  | some m =>
    refine NoCommit.bind (NoCommit.bind (noCommit_select _) fun o => ?_) fun _ => trivial
    cases o <;> trivial

theorem noCommit_lockedContract (c : Contract) : (lockedContract c).NoCommit := by
  refine NoCommit.bind (noCommit_relock _ _ _ _) fun o => ?_
  cases o <;> trivial

theorem noCommit_contractCommissionBps (c : Contract) : (contractCommissionBps c).NoCommit := by
  unfold contractCommissionBps
  split
  · trivial
  · trivial
  · trivial
  · split <;> trivial

theorem noCommit_captureEscrow (m : Milestone) (c : Contract) : (captureEscrow m c).NoCommit := by
  refine NoCommit.bind (noCommit_select _) fun o => ?_
  cases o with
  | none =>
    exact NoCommit.bind (noCommit_getOrCreateAccount _) fun _ =>
      NoCommit.bind (noCommit_contractCommissionBps c) fun _ =>
      NoCommit.bind (noCommit_reserve _ _) fun _ =>
        NoCommit.bind (noCommit_write _) fun _ => trivial
  | some x => exact NoCommit.bind (noCommit_escrowAccount x) fun _ => trivial

theorem noCommit_recordFunding (x : MilestoneEscrow) (i : PaymentIntent) (j : JournalTransaction) :
    (recordFunding x i j).NoCommit := by
  refine NoCommit.bind (noCommit_select _) fun o => ?_
  cases o with
  | some f => trivial
  | none => exact NoCommit.bind (noCommit_reserve _ _) fun _ => noCommit_write _

theorem noCommit_markFunded (m : Milestone) (n : Int) (actor : Option UserId) :
    (markFunded m n actor).NoCommit := by
  unfold markFunded
  split <;> trivial

theorem noCommit_captureIntent (i : PaymentIntent) (actor : Option UserId) :
    (captureIntent i actor).NoCommit := by
  unfold captureIntent
  split
  · exact NoCommit.bind (noCommit_findMilestone _) fun m => noCommit_financialState m
  · exact NoCommit.bind (noCommit_lockedMilestone _) fun _ =>
      NoCommit.bind (noCommit_lockedContract _) fun _ =>
      NoCommit.bind (noCommit_require _ _) fun _ => NoCommit.bind (noCommit_require _ _) fun _ =>
      NoCommit.bind (noCommit_require _ _) fun _ =>
      NoCommit.bind (noCommit_captureEscrow _ _) fun _ => NoCommit.bind (noCommit_select _) fun _ =>
      NoCommit.bind (noCommit_require _ _) fun _ =>
      NoCommit.bind (noCommit_getOrCreateAccount _) fun _ =>
      NoCommit.bind (noCommit_postJournal _ _ _ _) fun _ =>
      NoCommit.bind (noCommit_recordFunding _ _ _) fun _ =>
          NoCommit.bind (noCommit_write _) fun _ =>
      NoCommit.bind (noCommit_markFunded _ _ _) fun _ => NoCommit.bind (noCommit_write _) fun _ =>
      noCommit_financialState _

theorem noCommit_webhookString (o : Option String) (key : String) :
    (webhookString o key).NoCommit := by
  rcases webhookString_cases o key with ⟨e, he⟩ | ⟨s, -, -, he⟩ <;> rw [he] <;> trivial

theorem noCommit_processProviderEvent (p : Provider) (v : VerifiedWebhook) :
    (processProviderEvent p v).NoCommit := by
  unfold processProviderEvent
  split
  · refine NoCommit.bind (noCommit_webhookString _ _) fun _ => NoCommit.bind ?_ fun _ =>
      NoCommit.bind (noCommit_webhookString _ _) fun _ =>
      NoCommit.bind (noCommit_selectForUpdate _ _) fun o => ?_
    · unfold webhookInt
      split <;> trivial
    · cases o with
      | none => trivial
      | some i =>
        exact NoCommit.bind (noCommit_require _ _) fun _ =>
          NoCommit.bind (noCommit_captureIntent _ _) fun _ => trivial
  · split
    · refine NoCommit.bind (NoCommit.bind (noCommit_webhookString _ _) fun _ =>
        NoCommit.bind (noCommit_selectForUpdate _ _) fun o => ?_) fun _ => trivial
      cases o with
      | none => trivial
      | some i =>
        dsimp only
        split <;> trivial
    · trivial

/-- The row that keeps an event from being processed twice. -/
def Delivery.eventKey (w : Delivery) (v : VerifiedWebhook) : EventKey :=
  ⟨lower (strip w.providerName), v.externalEventId⟩

/-- **A delivery commits last**, with the answer that its event is processed. -/
theorem processProviderWebhook_commitsLast (cfg : Config) (w : Delivery) :
    (processProviderWebhook cfg w).CommitsLast fun p r => ∃ v captured, w.verified = .ok v ∧
      p = .commit (.webhookProcessed (w.eventKey v) captured) ∧ r = processed (w.eventKey v) := by
  unfold processProviderWebhook
  rcases getProvider_eq cfg w.providerName with ⟨e, he⟩ | he
  · rw [he]
    trivial
  rw [he, pure_bind]
  cases hv : w.verified with
  | error e => trivial
  | ok v =>
  have hdup : ∀ x hash, (duplicateProviderEvent x hash).NoCommit := fun x hash => by
    unfold duplicateProviderEvent
    split <;> trivial
  have hweak : ∀ {φ : Point → Response → Prop} {q : Tx Response}, q.NoCommit → q.CommitsLast φ :=
    fun h => by simpa using NoCommit.bind h (f := pure) fun _ => trivial
  dsimp only
  refine NoCommit.bind (noCommit_select _) fun o => ?_
  cases o with
  | some x => exact hweak (hdup _ _)
  | none =>
    refine NoCommit.bind (noCommit_taken _ _) fun t => ?_
    split
    · refine NoCommit.bind (noCommit_select _) fun o => ?_
      cases o with
      | none => trivial
      | some x => exact hweak (hdup _ _)
    · refine NoCommit.bind (noCommit_write _) fun _ =>
        NoCommit.bind (noCommit_processProviderEvent _ _) fun captured => ?_
      exact ⟨_, rfl, v, captured, rfl, rfl, rfl⟩

end

/-! ## Runs -/

/-- A delivery's commit records its event, which was not there. -/
theorem Effect.event {R : Rules} {e : Providers} {k : EventKey} {captured : Option IntentId}
    {d' : Db} (h : Effect R e (.webhookProcessed k captured) d d') :
    d.event? k = none ∧ (d'.event? k).isSome := by
  cases h with
  | webhookIgnored ev fresh => exact ⟨fresh, by simp⟩
  | webhookFailed ev i fresh =>
    refine ⟨fresh, ?_⟩
    change ((d.addEvent ev).event? ev.key).isSome
    simp
  | webhookCaptured ev i m oe f mv n pre fresh =>
    obtain ⟨_, _, rfl⟩ := pre
    refine ⟨fresh, ?_⟩
    have : ((d.addEvent ev).event? ev.key).isSome := by simp
    cases oe <;> cases mv <;> exact this

/-- What is true of the deliveries in a state of a run. -/
structure WebhooksOnce (mode : Txn.Mode) (cfg : Config) (ops : Nat → Operation) (s : System) :
    Prop where
  fundedOnce : ∀ k, s.db.journals.countP (fun j => j.key = ⟨.milestoneFund, .paymentIntent k⟩) ≤ 1 ∧
    s.db.fundings.countP (fun f => f.intent = k) ≤ 1
  staysCaptured : ∀ s', Reaches mode s s' → ∀ k i, s.db.intent? k = some i →
    i.status = .captured → s'.db.intent? k = some i
  eitherOrder : ∀ answer wf wc vf vc r, wf.verified = .ok vf → wc.verified = .ok vc →
    vf.eventType = "payment.failed" → vc.eventType = "payment.captured" →
    lower (strip wf.providerName) = lower (strip wc.providerName) →
    vf.data.providerReference = vc.data.providerReference →
    vf.externalEventId ≠ vc.externalEventId → (served cfg answer wc s.db).result = .ok r →
    (served cfg answer wc (served cfg answer wf s.db).db).result = .ok r ∧
      ∃ es, es.Perm (served cfg answer wf (served cfg answer wc s.db).db).db.events ∧
        (served cfg answer wc (served cfg answer wf s.db).db).db =
          { (served cfg answer wf (served cfg answer wc s.db).db).db with events := es }
  redelivered : ∀ answer w v x, w.verified = .ok v → s.db.event? (w.eventKey v) = some x →
    x.payloadHash = w.payloadHash → (served cfg answer w s.db).db = s.db
  refused : ∀ answer w err, (served cfg answer w s.db).result = .error err →
    (served cfg answer w s.db).db = s.db
  /-- Whatever runs in between, only a delivery that is answered with `processed` changes anything,
  and its event was not recorded before. -/
  processedOnce : ∀ i w, ops i = .webhook w → ∀ c s' mv, s.step? mode i c = some (s', mv) →
    s'.db = s.db ∨ ∃ v, w.verified = .ok v ∧ s.db.event? (w.eventKey v) = none ∧
      (s'.db.event? (w.eventKey v)).isSome ∧ (s'.sess i).prog = .ret (processed (w.eventKey v))

variable {mode : Txn.Mode} {e : Providers} {ops : Nat → Operation} {s : System}

/-- A table with unique keys has at most one row of a key. -/
theorem countP_key_le {α κ : Type} [DecidableEq κ] {key : α → κ} {l : List α}
    (h : (l.map key).Nodup) (k : κ) : l.countP (fun x => key x = k) ≤ 1 := by
  rw [List.countP_eq_length_filter, Table.filter_key h]
  cases Table.get key k l <;> simp

theorem served_seen {answer : Request → Answer} {w : Delivery} {v : VerifiedWebhook}
    {x : ProviderEvent} (hv : w.verified = .ok v) (hx : d.event? (w.eventKey v) = some x) :
    (served cfg answer w d).db = d := by
  rcases getProvider_eq cfg w.providerName with ⟨err, he⟩ | he
  · unfold served processProviderWebhook
    rw [he]
    rfl
  · rw [webhook_seen he hv hx]

/-- **Deliveries are processed once, in either order.** -/
theorem webhooks_processed_once (hd : Activated d) (hr : Reaches mode (system cfg d e ops) s) :
    WebhooksOnce mode cfg ops s := by
  have hs := holds_of_reaches hd.consistent hr
  refine
    { fundedOnce := fun k => ⟨countP_key_le hs.inv.keyed.journals _, countP_key_le
        hs.inv.keyed.fundings k⟩
      staysCaptured := fun s' hr' k i hi hc => ?_
      eitherOrder := fun answer wf wc vf vc r hvf hvc htf htc hname href hid hr =>
        deliveries_commute hs.inv hvf hvc htf htc hname href hid hr
      redelivered := fun answer w v x hv hx _ => served_seen hv hx
      refused := fun answer w err h => (processProviderWebhook_commitsLast cfg w).alone h
      processedOnce := fun i w ho c s' mv hstep => ?_ }
  · refine keeps_of_run (P := fun d _ => d.intent? k = some i) hs hr' ?_
      (fun _ _ _ _ _ _ _ _ _ hP => hP) hi
    intro j c d d' e _ hc' hP
    obtain ⟨i', hi', hkeep⟩ := hc'.frame.intents.keep k i hP
    rw [hkeep.2 hc] at hi'
    exact hi'
  · have hstart : ((system cfg d e ops).sess i).prog = processProviderWebhook cfg w :=
      congrArg (Operation.program cfg) ho
    have hlast := processProviderWebhook_commitsLast cfg w
    rw [← hstart] at hlast
    replace hlast := Txn.Sys.run_commitsLast hlast hr
    rcases (Txn.Sys.step_commitsLast hlast hstep).2 with
      hsame | ⟨p, r, rfl, hdb, hret, v, captured, hv, rfl, rfl⟩
    · exact .inl hsame
    · obtain ⟨-, -, -, -, hsame | ⟨-, -, c', hc, heff⟩⟩ := (hs.step hstep trivial).2
      · exact .inl hsame
      · cases hc
        rw [hdb]
        exact .inr ⟨v, hv, heff.event.1, heff.event.2, hret⟩

/-- A payment that has been captured, with its delivery still to come in again. -/
theorem webhooks_processed_once_of_capture : ∃ s : System,
    (s.db.intent? 1).any (fun i => i.status = .captured) = true ∧
    WebhooksOnce .readCommitted sandboxConfig startingOps s := by
  obtain ⟨s, hr, hp⟩ := Txn.Sys.exists_free_run .readCommitted
    (system sandboxConfig oneMilestone noTransfers startingOps) startedRun
    (fun s => (s.db.intent? 1).any fun i => i.status = .captured) (by decide +kernel)
  exact ⟨s, hp, webhooks_processed_once oneMilestone_activated hr⟩

end Money
