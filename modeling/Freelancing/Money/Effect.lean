import Freelancing.Money.Consistent
import Freelancing.Txn.Law

/-!
# What each commit does

`Effect R e c d d'`: the transaction that commits at point `c` takes the database from `d` to `d'`,
with the conditions it has established on `d`. Some conditions hold only when transactions do not
overlap (`R.Serial`), or when no session works on an outdated copy of a refund or a payout
(`R.RefundsFresh`, `R.PayoutsFresh`). `moneyLaw R` is the law that the requests of the services
keep.
-/

namespace Money

/-! ## The outside world -/

/-- A payout that a provider has made. -/
structure Transfer where
  provider : Provider
  key : ProviderKey
  amountMinor : Int
  currency : Currency
  deriving DecidableEq

/-- A refund that a provider has accepted. -/
structure AcceptedRefund where
  provider : Provider
  key : ProviderKey
  cause : RefundCause
  amountMinor : Int

/-- What the payment providers have done. -/
structure Providers where
  transfers : List Transfer
  refunds : List AcceptedRefund

abbrev Move := Txn.Move Db Point Request Answer Providers

abbrev System := Txn.Sys Db LockName Point Request Answer Err Response Providers

/-- How the requests overlap, the steps that are taken, and the raw `Idempotency-Key`s that are
used for a record. -/
structure Rules where
  mode : Txn.Mode
  ok : Move → Prop
  keys : IdempotencyScope → String → Prop

namespace Rules

variable (R : Rules)

/-- Transactions run one after another. -/
def Serial : Prop := R.mode.inTxn = true

/-- A session that holds a contract's lock and works on a copy of it that is `ACTIVE`, as loaded
before it waited for the lock, finds it so. -/
def ContractNotStale : Move → Prop
  | .stmt _ (.relockContract loaded) _ view _ =>
    ∀ c, view.contract? loaded.id = some c → loaded.status = .active → c.status = .active
  | _ => True

/-- The copy of a refund that a session has loaded before it locks the row has the row's status. -/
def RefundNotStale : Move → Prop
  | .stmt _ (.relockRefund loaded) _ view _ =>
    ∀ r, view.refund? loaded.id = some r → r.status = loaded.status
  | _ => True

/-- The same of a payout. -/
def PayoutNotStale : Move → Prop
  | .stmt _ (.relockPayout loaded) _ view _ =>
    ∀ p, view.payout? loaded.id = some p → p.status = loaded.status
  | _ => True

def ContractsFresh : Prop := R.Serial ∨ ∀ mv, R.ok mv → ContractNotStale mv

def RefundsFresh : Prop := R.Serial ∨ ∀ mv, R.ok mv → RefundNotStale mv

def PayoutsFresh : Prop := R.Serial ∨ ∀ mv, R.ok mv → PayoutNotStale mv

/-- A call that left the world as `e` was answered with `a`. -/
def Called (q : Request) (a : Answer) (e : Providers) : Prop := ∃ i e₀, R.ok (.call i q a e₀ e)

end Rules

/-- `d₀` is `d` with the idempotency records and accounts that a transaction has inserted. -/
def Prepared (d d₀ : Db) : Prop := ∃ r a, d₀ = { d with idempotency := r, accounts := a }

/-- An update that is made if there is something to record. -/
def whenSome {α : Type} (f : α → Db → Db) : Option α → Db → Db
  | none, d => d
  | some x, d => f x d

def notified (dispute : DisputeId) (users : List UserId) (eventType title body : String) (d : Db) :
    Db :=
  users.foldl (fun d user => d.enqueue (.notificationRequested dispute user eventType title body)) d

/-! ## Journals -/

def fundEntries (i : PaymentIntent) (m : Milestone) : List LedgerEntry :=
  [⟨.providerClearing i.provider i.currency, .debit, i.amountMinor, i.currency⟩,
    ⟨.milestoneEscrow m.id m.currency, .credit, i.amountMinor, i.currency⟩]

def releaseEntries (m : Milestone) (escrow : MilestoneEscrow) (freelancer : UserId) :
    List LedgerEntry :=
  let fee := releaseFee m escrow
  [⟨.milestoneEscrow m.id m.currency, .debit, m.amountMinor, m.currency⟩,
    ⟨.userWallet freelancer m.currency, .credit, m.amountMinor - fee, m.currency⟩] ++
    if fee ≠ 0 then [⟨.platformCommission m.currency, .credit, fee, m.currency⟩] else []

/-- The freelancer's part of a resolution. -/
def awardEntries (m : Milestone) (freelancer : UserId) (net commission : Int) : List LedgerEntry :=
  (if net ≠ 0 then [⟨.userWallet freelancer m.currency, .credit, net, m.currency⟩] else []) ++
    if commission ≠ 0 then [⟨.platformCommission m.currency, .credit, commission, m.currency⟩]
    else []

/-- The client's part of a resolution. -/
def clientEntries (m : Milestone) (provider : Provider) (refund : Int) : List LedgerEntry :=
  if refund ≠ 0 then [⟨.providerClearing provider m.currency, .credit, refund, m.currency⟩] else []

def resolutionEntries (m : Milestone) (funded : Int) (freelancer : UserId) (net commission : Int)
    (provider : Provider) (refund : Int) : List LedgerEntry :=
  ⟨.milestoneEscrow m.id m.currency, .debit, funded, m.currency⟩ ::
    awardEntries m freelancer net commission ++ clientEntries m provider refund

def Refund.reservationJournal (r : Refund) : JournalTransaction :=
  ⟨r.reservationKey, none, r.reservation⟩

def Refund.reversalJournal (r : Refund) : JournalTransaction :=
  ⟨⟨.reversal, .refund r.id⟩, some r.reservationKey, r.reversal⟩

def Payout.reservationJournal (p : Payout) : JournalTransaction :=
  ⟨p.reservationKey, none, p.reservation⟩

def Payout.reversalJournal (p : Payout) : JournalTransaction :=
  ⟨⟨.reversal, .payout p.id⟩, some p.reservationKey, p.reversalEntries⟩

/-! ## Calls -/

/-- `q` asks for the payout `p`. -/
def PayoutCall (R : Rules) (p : Payout) (q : Request) : Prop :=
  ∃ destination key, q = .payout (lower (strip p.provider)) destination p.amountMinor p.currency
    (.raw key) ∧ p.destination = some destination ∧ R.keys p.idempotency key

/-- The intent that the money of `r` came from, if the refund is requested through its provider:
the last one captured through the refund's provider before the refund was recorded. -/
def ChargedFor (d : Db) (r : Refund) (i : PaymentIntent) : Prop :=
  i ∈ d.capturedThrough r.milestone r.provider ∧ i.capturedAt.getD 0 < r.createdAt ∧
    ∀ x ∈ d.capturedThrough r.milestone r.provider, x.capturedAt.getD 0 < r.createdAt →
      x.capturedAt.getD 0 ≤ i.capturedAt.getD 0

/-- What a dispute refund has been checked for when the provider is asked. -/
structure DisputeRefundOk (d : Db) (x : DisputeId) (provider : Provider) (reference : String)
    (amountMinor : Int) (m : Milestone) (i : PaymentIntent) : Prop where
  dispute : ∃ y, d.dispute? x = some y ∧ y.status = .underReview ∧ y.milestone = m.id
  milestone : d.milestone? m.id = some m
  disputed : m.status = .disputed
  funded : d.balance (.milestoneEscrow m.id m.currency) = m.amountMinor
  positive : 0 < amountMinor
  bounded : amountMinor ≤ m.amountMinor
  intent : latestCaptured (d.captured m.id) = some i
  provider : provider = lower (strip i.provider)
  reference : i.providerReference = some reference

def CallOk (R : Rules) (d : Db) : Request → Prop
  | .refund provider reference amountMinor currency key (.refund id) =>
    ∃ r, d.refund? id = some r ∧ provider = lower (strip r.provider) ∧
      amountMinor = r.amountMinor ∧ currency = r.currency ∧
      (∃ raw, key = .raw raw ∧ R.keys r.idempotency raw) ∧
      (R.Serial → ∃ i, i.providerReference = some reference ∧
        (ChargedFor d r i ∨
          r.status = .pending ∧ latestCaptured (d.capturedThrough r.milestone r.provider) = some i))
  | .refund provider reference amountMinor _ key (.dispute x) =>
    (∃ raw, key = .dispute x raw) ∧
      (R.Serial → ∃ m i, DisputeRefundOk d x provider reference amountMinor m i)
  | .payout provider destination amountMinor currency key =>
    ∃ p, d.payout? p.id = some p ∧
      PayoutCall R p (.payout provider destination amountMinor currency key) ∧
      (R.mode.inCall = true → p.status = .pending)
  | _ => True

/-! ## Commits -/

/-- The status that an action leads to. -/
def MilestoneAction.target : MilestoneAction → MilestoneStatus
  | .start => .inProgress
  | .submit => .submitted
  | .requestChanges => .changesRequested
  | .approve => .approved

/-- The event records a step from `a` to `b`. -/
def MilestoneEvent.Goes (v : MilestoneEvent) (a b : MilestoneStatus) : Prop :=
  v.fromStatus = a ∧ v.toStatus = b

/-- The escrow account of a milestone. -/
def Milestone.escrowKey (m : Milestone) : AccountKey := .milestoneEscrow m.id m.currency

inductive Effect (R : Rules) (e : Providers) : CommitPoint → Db → Db → Prop
  | replayed {d d₀ : Db} (pre : Prepared d d₀) (s : IdempotencyScope) (r : Response) :
      Effect R e (.replayed s) d (.completeRecord s r d₀)
  | fundingStarted {d d₀ : Db} (pre : Prepared d d₀) (s : IdempotencyScope) (r : Response)
      (i : PaymentIntent) (m : Milestone)
      (fresh : d.intent? i.id = none) (status : i.status = .pending)
      (milestone : d.milestone? i.milestone = some m) (amount : i.amountMinor = m.amountMinor)
      (active : R.ContractsFresh → ∃ c, d.contract? m.contract = some c ∧ c.status = .active)
      (open_ : m.status = .created) (only : R.Serial → d.pendingIntent? m.id = none) :
      Effect R e (.fundingStarted i.id) d
        (.completeRecord s r <| .addIntent i d₀)
  | webhookIgnored {d : Db} (ev : ProviderEvent) (fresh : d.event? ev.key = none) :
      Effect R e (.webhookProcessed ev.key none) d (.addEvent ev d)
  | webhookFailed {d : Db} (ev : ProviderEvent) (i : PaymentIntent)
      (fresh : d.event? ev.key = none) (intent : d.intent? i.id = some i)
      (status : i.status ≠ .captured) :
      Effect R e (.webhookProcessed ev.key none) d (.failIntent i.id <| .addEvent ev d)
  | webhookCaptured {d d₀ : Db} (ev : ProviderEvent) (i : PaymentIntent) (m : Milestone)
      (oe : Option MilestoneEscrow) (f : MilestoneFunding) (mv : Option MilestoneEvent)
      (n : OutboxEvent) (pre : Prepared (whenSome .addEscrow oe <| .addEvent ev d) d₀)
      (fresh : d.event? ev.key = none) (intent : d.intent? i.id = some i)
      (status : i.status ≠ .captured) (milestone : d.milestone? m.id = some m)
      (same : i.milestone = m.id) (open_ : m.status = .created ∨ m.status = .funded)
      (active : R.ContractsFresh → ∃ c, d.contract? m.contract = some c ∧ c.status = .active)
      (fits : R.Serial → d.balance m.escrowKey + i.amountMinor ≤ m.amountMinor)
      (escrow : (d.escrow? m.id).isSome ∨ ∃ x, oe = some x ∧ x.milestone = m.id)
      (funding : f.intent = i.id)
      (moved : ∀ v, mv = some v → m.status = .created ∧ v.Goes .created .funded)
      (stays : mv = none → m.status = .funded ∨
        (R.Serial → d.balance m.escrowKey + i.amountMinor ≠ m.amountMinor))
      (outbox : ∃ b, n = .milestoneFunded m.id i.id ⟨.milestoneFund, .paymentIntent i.id⟩ b) :
      Effect R e (.webhookProcessed ev.key (some i.id)) d
        (.enqueue n <| whenSome (.moveMilestone m.id) mv <| .captureIntent i.id <| .addFunding f <|
          .addJournal ⟨⟨.milestoneFund, .paymentIntent i.id⟩, none, fundEntries i m⟩ d₀)
  | released {d d₀ : Db} (pre : Prepared d d₀) (s : IdempotencyScope) (r : Response)
      (m : Milestone) (c : Contract) (x : MilestoneEscrow) (v v' : MilestoneEvent)
      (milestone : d.milestone? m.id = some m) (status : m.status = .approved)
      (contract : ∃ c', d.contract? m.contract = some c' ∧ c.Keeps c')
      (escrow : d.escrow? m.id = some x)
      (funded : R.Serial → d.balance m.escrowKey = m.amountMinor)
      (moved : v.Goes .approved .releasePending) (moved' : v'.Goes .releasePending .released) :
      Effect R e (.released m.id) d
        (.completeRecord s r <|
          .enqueue (.milestoneReleased m.id ⟨.milestoneRelease, .milestone m.id⟩) <|
          .moveMilestone m.id v' <| .moveMilestone m.id v <|
          .addJournal ⟨⟨.milestoneRelease, .milestone m.id⟩, none,
            releaseEntries m x c.freelancer⟩ d₀)
  | refundReserved {d d₀ : Db} (pre : Prepared d d₀) (r : Refund) (m : Milestone)
      (fresh : d.refund? r.id = none) (status : r.status = .pending)
      (positive : 0 < r.amountMinor)
      (operation : r.idempotency.operation = .milestoneRefund)
      (milestone : d.milestone? m.id = some m) (same : r.milestone = m.id)
      (currency : r.currency = m.currency) (funded : m.status = .funded)
      (all : R.Serial → r.amountMinor = d.balance m.escrowKey)
      (paid : R.Serial → ∃ i, latestCaptured (d.capturedThrough m.id r.provider) = some i) :
      Effect R e (.refundReserved r.id) d
        (.addRefund r <| .addJournal r.reservationJournal d₀)
  | refundPending {d d₀ : Db} (pre : Prepared d d₀) (r : Refund) (reference : String)
      (refund : d.refund? r.id = some r) (status : R.RefundsFresh → r.status = .pending) :
      Effect R e (.refundPending r.id) d
        (.referRefund r.id reference d₀)
  | refundSucceeded {d d₀ : Db} (pre : Prepared d d₀) (s : IdempotencyScope) (resp : Response)
      (r : Refund) (m : Milestone) (v : MilestoneEvent) (reference : String)
      (refund : d.refund? r.id = some r) (status : R.RefundsFresh → r.status = .pending)
      (operation : r.idempotency.operation = .milestoneRefund)
      (milestone : d.milestone? m.id = some m) (same : r.milestone = m.id)
      (funded : m.status = .funded) (moved : v.Goes .funded .created) :
      Effect R e (.refundSucceeded r.id) d
        (.completeRecord s resp <| .enqueue (.milestoneRefunded m.id r.id) <|
          .moveMilestone m.id v <| .finishRefund r.id .succeeded <|
          .referRefund r.id reference d₀)
  | refundFailed {d d₀ : Db} (pre : Prepared d d₀) (s : IdempotencyScope) (resp : Response)
      (r : Refund) (reference : Option String) (post : Bool)
      (refund : d.refund? r.id = some r) (status : R.RefundsFresh → r.status = .pending)
      (operation : r.idempotency.operation = .milestoneRefund)
      (posted : post = !(d.journal? r.reversalJournal.key).isSome)
      (reserved : (d.journal? r.reservationKey).isSome) :
      Effect R e (.refundFailed r.id) d
        (.completeRecord s resp <| .finishRefund r.id .failed <|
          (if post then .addJournal r.reversalJournal else id) <|
          whenSome (.referRefund r.id) reference d₀)
  | milestoneMoved {d : Db} (m : Milestone) (v : MilestoneEvent) (action : MilestoneAction)
      (milestone : d.milestone? m.id = some m) (allowed : m.status ∈ userTransitions action)
      (moved : v.Goes m.status action.target)
      (start : R.Serial → action = .start →
        (∃ x, d.escrow? m.id = some x) ∧ d.balance m.escrowKey = m.amountMinor) :
      Effect R e (.milestoneMoved m.id) d (.moveMilestone m.id v d)
  | contractCancelled {d : Db} (c : Contract) (contract : d.contract? c.id = some c)
      (open_ : c.status ≠ .cancelled)
      (work : c.status = .active → ∀ k m, d.milestone? k = some m → m.contract = c.id →
        m.status = .created)
      (payments : c.status = .active → ∀ i ∈ d.intents, i.status = .pending →
        ∀ m, d.milestone? i.milestone = some m → m.contract ≠ c.id) :
      Effect R e (.contractCancelled c.id) d (d.cancelContract c.id)
  | disputeOpened {d : Db} (x : Dispute) (m : Milestone) (v : MilestoneEvent) (ev : DisputeEvent)
      (users : List UserId) (eventType title body : String)
      (fresh : d.dispute? x.id = none) (only : R.Serial → d.disputeOf? m.id = none)
      (status : x.status = .opened) (same : x.milestone = m.id)
      (milestone : d.milestone? m.id = some m) (open_ : m.status ∈ openableMilestoneStates)
      (moved : v.Goes m.status .disputed) :
      Effect R e (.disputeOpened m.id) d
        (notified x.id users eventType title body <| .addDisputeEvent x.id ev <|
          .moveMilestone m.id v <| .addDispute x d)
  | disputeMoved {d : Db} (x : Dispute) (target : DisputeStatus) (ev : DisputeEvent)
      (dispute : d.dispute? x.id = some x) (allowed : target ∈ adminTransitions x.status) :
      Effect R e (.disputeMoved x.id) d (.addDisputeEvent x.id ev <| .moveDispute x.id target d)
  | disputeResolved {d d₀ : Db} (pre : Prepared d d₀) (s : IdempotencyScope) (resp : Response)
      (x : Dispute) (m : Milestone) (c : Contract) (esc : MilestoneEscrow)
      (award refundMinor : Int) (provider : Provider) (or : Option Refund) (v : MilestoneEvent)
      (dec : DisputeDecision) (ev : DisputeEvent) (users : List UserId)
      (eventType title body : String) (dispute : d.dispute? x.id = some x)
      (review : x.status = .underReview) (undecided : d.decision? x.id = none)
      (milestone : d.milestone? m.id = some m) (same : x.milestone = m.id)
      (disputed : m.status = .disputed) (contract : ∃ c', d.contract? m.contract = some c' ∧
        c.Keeps c')
      (escrow : d.escrow? m.id = some esc)
      (funded : R.Serial → d.balance m.escrowKey = m.amountMinor)
      (split : award + refundMinor = m.amountMinor ∧ 0 ≤ award ∧ 0 ≤ refundMinor ∧
        0 < m.amountMinor)
      (refund : refundMinor = 0 ∧ or = none ∨ ∃ r, or = some r ∧ 0 < refundMinor ∧
        r.milestone = m.id ∧ r.provider = provider ∧ r.amountMinor = refundMinor ∧
        r.status = .succeeded ∧ r.idempotency.operation = .disputeResolve ∧
        d.refund? r.id = none ∧
        (R.Serial → ∃ i, latestCaptured (d.captured m.id) = some i ∧ i.provider = provider))
      (called : R.Serial → refundMinor ≠ 0 → ∃ reference key res,
        R.Called (.refund (lower (strip provider)) reference refundMinor m.currency
          (.dispute x.id key) (.dispute x.id)) (.result res) e ∧ res.status = "SUCCEEDED" ∧
        res.amountMinor = refundMinor)
      (moved : v.Goes .disputed .released)
      (decision : dec.dispute = x.id ∧ dec.clientRefundMinor = refundMinor ∧
        dec.freelancerAwardMinor = award) :
      Effect R e (.disputeResolved x.id) d
        (.completeRecord s resp <| notified x.id users eventType title body <|
          .addDisputeEvent x.id ev <| .addDecision dec <| .resolveDispute x.id <|
          .moveMilestone m.id v <| whenSome .addRefund or <|
          .addJournal ⟨⟨.disputeResolution, .dispute x.id⟩, none,
            resolutionEntries m m.amountMinor c.freelancer (award - commissionOf award esc)
              (commissionOf award esc) provider refundMinor⟩ d₀)
  | payoutReserved {d d₀ : Db} (pre : Prepared d d₀) (p : Payout)
      (fresh : d.payout? p.id = none) (status : p.status = .pending) (reversal : p.reversal = none)
      (covered : p.amountMinor ≤ d.balance (.userWallet p.freelancer p.currency))
      (only : R.Serial → d.payoutOfRecord? p.idempotency = none)
      (operation : p.idempotency.operation = .payoutCreate) :
      Effect R e (.payoutReserved p.id) d
        (.addPayout p <| .addJournal p.reservationJournal d₀)
  | payoutUpgraded {d d₀ : Db} (pre : Prepared d d₀) (p : Payout) (x : Destination)
      (payout : d.payout? p.id = some p) (legacy : p.destination = none)
      (status : p.status = .pending) :
      Effect R e (.payoutUpgraded p.id) d (.setDestination p.id x d₀)
  | payoutSucceeded {d d₀ : Db} (pre : Prepared d d₀) (s : IdempotencyScope) (resp : Response)
      (p : Payout) (reference : String)
      (payout : d.payout? p.id = some p) (status : R.PayoutsFresh → p.status = .pending)
      (called : R.Serial → ∃ q res, R.Called q (.result res) e ∧ PayoutCall R p q ∧
        res.amountMinor = p.amountMinor ∧ res.currency = p.currency) :
      Effect R e (.payoutSucceeded p.id) d
        (.completeRecord s resp <| .enqueue (.payoutSucceeded p.id reference) <|
          .succeedPayout p.id reference d₀)
  | payoutFailed {d d₀ : Db} (pre : Prepared d d₀) (s : IdempotencyScope) (resp : Response)
      (p : Payout) (post : Bool)
      (payout : d.payout? p.id = some p) (status : R.PayoutsFresh → p.status = .pending)
      (posted : post = !(d.journal? p.reversalJournal.key).isSome)
      (reserved : (d.journal? p.reservationKey).isSome)
      (called : R.Serial → ∃ q a, R.Called q a e ∧ PayoutCall R p q ∧
        (a = .failed ∨ ∃ res, a = .result res ∧
          (res.amountMinor ≠ p.amountMinor ∨ res.currency ≠ p.currency))) :
      Effect R e (.payoutFailed p.id) d
        (.completeRecord s resp <| .failPayout p.id p.reversalJournal.key <|
          (if post then .addJournal p.reversalJournal else id) d₀)

/-! ## The law -/

/-- What the requests of the services keep, run under `R`. -/
def moneyLaw (R : Rules) : Txn.Law Db LockName Point Request Answer Providers where
  mode := R.mode
  ok := R.ok
  Inv d _ := Consistent d
  Commits held p d d' e := Updates held d d' ∧ ∃ c, p = .commit c ∧ Effect R e c d d'
  Calls _ q _ d _ _ := CallOk R d q
  Claims p _ view := ∀ k entries, p = .journalLookup k entries →
    ∀ j, view.journal? k = some j → j.entries = entries

end Money
