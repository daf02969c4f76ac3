import Freelancing.Money.DisputeSpec
import Freelancing.Money.PayoutSpec
import Freelancing.Money.ResolutionSpec

/-!
# Runs of the services

An `Operation` is one request, a `system` serves any number of them at once. Every operation keeps
the law (`Operation.meets`), so what every commit and every call keeps is an invariant of every run
(`invariant_of_run`).
-/

namespace Money

open Txn (Sys)

inductive Operation
  | fundMilestone (user : User) (milestone : MilestoneId) (provider key : String) (id : IntentId)
  | webhook (delivery : Delivery)
  | releaseMilestone (user : User) (milestone : MilestoneId) (key : String)
  | refundMilestone (user : User) (milestone : MilestoneId) (provider key : String) (id : RefundId)
  | startMilestone (user : User) (milestone : MilestoneId)
  | submitMilestone (user : User) (milestone : MilestoneId) (note : String)
  | requestMilestoneChanges (user : User) (milestone : MilestoneId) (note : String)
  | approveMilestone (user : User) (milestone : MilestoneId)
  | cancelContract (user : User) (contract : ContractId)
  | openDispute (user : User) (milestone : MilestoneId) (reason : String) (id : DisputeId)
  | adminTransition (administrator : User) (dispute : DisputeId) (toStatus reason : String)
  | resolveDispute (administrator : User) (dispute : DisputeId) (outcome reason : String)
      (award refund : Option Int) (key : String) (id : RefundId)
  | createPayout (user : User) (amountMinor : Int) (currency provider key : String) (id : PayoutId)

def answered (m : Tx Milestone) : Tx Response := do
  let milestone ← m
  pure (milestoneBody milestone)

def answeredContract (c : Tx Contract) : Tx Response := do
  let contract ← c
  pure (contractBody contract)

def Operation.program (cfg : Config) : Operation → Tx Response
  | .fundMilestone user m provider key id => Money.fundMilestone cfg user m provider key id
  | .webhook delivery => processProviderWebhook cfg delivery
  | .releaseMilestone user m key => Money.releaseMilestone user m key
  | .refundMilestone user m provider key id => Money.refundMilestone cfg user m provider key id
  | .startMilestone user m => answered (Money.startMilestone user m)
  | .submitMilestone user m note => answered (Money.submitMilestone user m note)
  | .requestMilestoneChanges user m note => answered (Money.requestMilestoneChanges user m note)
  | .approveMilestone user m => answered (Money.approveMilestone user m)
  | .cancelContract user c => answeredContract (Money.cancelContract user c)
  | .openDispute user m reason id => Money.openDispute user m reason id
  | .adminTransition user x toStatus reason => Money.adminTransition user x toStatus reason
  | .resolveDispute user x outcome reason award refund key id =>
    Money.resolveDispute cfg user x outcome reason award refund key id
  | .createPayout user n currency provider key id =>
    Money.createPayout cfg user n currency provider key id

/-- The raw `Idempotency-Key` of a refund or payout request is one that `keys` allows. -/
def Operation.Keyed (keys : IdempotencyScope → String → Prop) : Operation → Prop
  | .refundMilestone user _ _ key _ => keys ⟨user.id, .milestoneRefund, strip key⟩ key
  | .createPayout user _ _ _ key _ => keys ⟨user.id, .payoutCreate, strip key⟩ key
  | _ => True

theorem answered_spec {R : Rules} {i : Nat} {m : Tx Milestone} {v : TxView}
    (h : Meets R i m v fun _ _ => True) : Meets R i (answered m) v fun _ _ => True :=
  Meets.bind h fun _ _ _ => .pure trivial

/-- **Every operation keeps the law.** -/
theorem Operation.meets {R : Rules} {i : Nat} {b : Bool} {w : World} (cfg : Config) (o : Operation)
    (hk : o.Keyed R.keys) : Meets R i (o.program cfg) ⟨∅, id, b, w⟩ fun _ _ => True := by
  cases o <;> dsimp only [Operation.program]
  case fundMilestone => exact fundMilestone_spec
  case webhook => exact processProviderWebhook_spec
  case releaseMilestone => exact releaseMilestone_spec
  case refundMilestone => exact refundMilestone_spec hk
  case startMilestone user m =>
    exact answered_spec (show Meets _ _ (transition user m .start
      MilestoneAction.start.target "" true) _ _ from transition_spec)
  case submitMilestone user m note =>
    exact answered_spec (show Meets _ _ (transition user m .submit
      MilestoneAction.submit.target note true) _ _ from transition_spec)
  case requestMilestoneChanges user m note =>
    exact answered_spec (show Meets _ _ (transition user m .requestChanges
      MilestoneAction.requestChanges.target note false) _ _ from transition_spec)
  case approveMilestone user m =>
    exact answered_spec (show Meets _ _ (transition user m .approve
      MilestoneAction.approve.target "" false) _ _ from transition_spec)
  case cancelContract => exact cancelContract_spec.bind fun _ _ _ => .pure trivial
  case openDispute => exact openDispute_spec
  case adminTransition => exact adminTransition_spec
  case resolveDispute => exact resolveDispute_spec
  case createPayout => exact createPayout_spec hk

/-! ## Systems -/

/-- Session `i` serves the request `ops i`. -/
def system (cfg : Config) (d : Db) (e : Providers) (ops : Nat → Operation) : System :=
  Sys.init d e fun i => (ops i).program cfg

/-- What is known of a commit. -/
structure Committed (R : Rules) (e : Providers) (c : CommitPoint) (d d' : Db) : Prop where
  inv : Consistent d
  inv' : Consistent d'
  frame : Frame ∅ d d'
  effect : Effect R e c d d'

section
variable {R : Rules} {cfg : Config} {d : Db} {e : Providers} {ops : Nat → Operation} {s : System}

theorem holds_of_run (hd : Consistent d) (hk : ∀ i, (ops i).Keyed R.keys)
    (hr : Sys.Run R.mode R.ok (system cfg d e ops) s) : (moneyLaw R).Holds s :=
  (Txn.Law.Holds.init hd fun i => ((ops i).meets cfg (hk i)).wp).run hr

/-- **The tables are consistent in every state of every run.** -/
theorem consistent_of_run (hd : Consistent d) (hk : ∀ i, (ops i).Keyed R.keys)
    (hr : Sys.Run R.mode R.ok (system cfg d e ops) s) : Consistent s.db :=
  (holds_of_run hd hk hr).inv

/-- What every commit and every call keeps, holds from a state of a run on. -/
theorem keeps_of_run {P : Db → Providers → Prop} {s₀ s : System} (hs : (moneyLaw R).Holds s₀)
    (hr : Sys.Run R.mode R.ok s₀ s)
    (hc : ∀ i c d d' e, R.ok (.stmt i (.commit c) d d' e) → Committed R e c d d' → P d e → P d' e)
    (hq : ∀ i q a d e e', Consistent d → R.ok (.call i q a e e') → CallOk R d q → P d e → P d e')
    (hP : P s₀.db s₀.env) : P s.db s.env := by
  refine hs.invariant (P := P) hr ?_ ?_ hP
  · rintro i held p d d' e hi hi' hok ⟨hu, c, rfl, heff⟩ hp
    exact hc i c d d' e hok ⟨hi, hi', hu.frame (Set.empty_disjoint held), heff⟩ hp
  · intro i held q a d e e' hi hok hcall hp
    exact hq i q a d e e' hi hok hcall hp

/-- What every commit and every call keeps, holds in every state of every run. -/
theorem invariant_of_run {P : Db → Providers → Prop} (hd : Consistent d)
    (hk : ∀ i, (ops i).Keyed R.keys) (hr : Sys.Run R.mode R.ok (system cfg d e ops) s)
    (hc : ∀ i c d d' e, R.ok (.stmt i (.commit c) d d' e) → Committed R e c d d' → P d e → P d' e)
    (hq : ∀ i q a d e e', Consistent d → R.ok (.call i q a e e') → CallOk R d q → P d e → P d e')
    (hP : P d e) : P s.db s.env :=
  keeps_of_run (Txn.Law.Holds.init hd fun i => ((ops i).meets cfg (hk i)).wp) hr hc hq hP

end

/-- Any raw key may be used; every step satisfies `ok`. -/
def rules (mode : Txn.Mode) (ok : Move → Bool) :
    Rules := ⟨mode, fun mv => ok mv = true, fun _ _ => True⟩

theorem serial_rules {ok : Move → Bool} : (rules .serial ok).Serial := rfl

theorem keyed_rules {mode : Txn.Mode} {ok : Move → Bool} (o : Operation) :
    o.Keyed (rules mode ok).keys := by
  cases o <;> trivial

/-- Nothing is assumed of the steps. -/
def anyRules (mode : Txn.Mode) : Rules := ⟨mode, fun _ => True, fun _ _ => True⟩

/-- Any number of steps of any kind. -/
abbrev Reaches (mode : Txn.Mode) : System → System → Prop := Sys.Run mode fun _ => True

theorem Operation.keyed_any {mode : Txn.Mode} (o : Operation) : o.Keyed (anyRules mode).keys := by
  cases o <;> trivial

/-! ## The start -/

/-- The contracts have been activated, and nothing has happened since. -/
structure Activated (d : Db) : Prop where
  contracts : (d.contracts.map Contract.id).Nodup
  milestones : (d.milestones.map Milestone.id).Nodup
  created : ∀ m ∈ d.milestones, m.status = .created ∧ m.events = [] ∧ 0 ≤ m.amountMinor
  empty : d = ⟨d.contracts, d.milestones, [], [], [], [], [], [], [], [], [], d.payoutAccounts, [],
    [], [], d.clock⟩

theorem Activated.consistent {d : Db} (h : Activated d) : Consistent d := by
  have hc := h.contracts
  have hm := h.milestones
  rw [h.empty] at hc hm ⊢
  exact
    { keyed := ⟨hc, hm, .nil, .nil, .nil, .nil, .nil, .nil, .nil, .nil, .nil, .nil, .nil⟩
      accounts := fun _ h => by cases h
      journals := fun _ h => by cases h
      wallets := fun _ _ => Int.le_refl 0
      escrows := fun _ h => by cases h
      intents := fun _ h => by cases h
      fundings := fun _ h => by cases h
      refunds := fun _ h => by cases h
      payouts := fun _ h => by cases h }

/-! ## A contract with one milestone -/

def anEmployer : User := ⟨1, ["client"]⟩

def aFreelancer : User := ⟨2, ["freelancer"]⟩

def anAdministrator : User := ⟨3, ["admin"]⟩

def sandboxConfig : Config := ⟨true⟩

def oneMilestone : Db where
  contracts := [⟨1, 1, 2, .active, .absent⟩]
  milestones := [⟨1, 1, 100, "USD", .created, []⟩]
  idempotency := []
  intents := []
  events := []
  accounts := []
  journals := []
  escrows := []
  fundings := []
  refunds := []
  payouts := []
  payoutAccounts := []
  disputes := []
  decisions := []
  outbox := []
  clock := 0

theorem oneMilestone_activated : Activated oneMilestone where
  contracts := by decide
  milestones := by decide
  created := by simp [oneMilestone]
  empty := rfl

def noTransfers : Providers := ⟨[], []⟩

/-- A delivery of `payment.captured` for a payment of the sandbox over 100 USD. -/
def captured100 (eventId reference : String) : Delivery where
  providerName := "sandbox"
  verified := .ok ⟨eventId, "payment.captured", some reference, some 100, some "USD"⟩
  payloadHash := "h" ++ eventId

def failedPayment (eventId reference : String) : Delivery where
  providerName := "sandbox"
  verified := .ok ⟨eventId, "payment.failed", some reference, none, none⟩
  payloadHash := "h" ++ eventId

/-- The provider answers session `i` with a result over 100 USD. -/
def answers100 (i : Nat) (reference status : String) :
    Nat × Txn.Choice Answer Err Providers :=
  (i, .answer (.result ⟨reference, status, 100, "USD"⟩) noTransfers)

/-- The milestone is funded and its work is started. -/
def startingOps : Nat → Operation
  | 0 => .fundMilestone anEmployer 1 "sandbox" "k1" 1
  | 1 => .webhook (captured100 "e1" "p1")
  | _ => .startMilestone aFreelancer 1

/-- And it is released. -/
def releasingOps : Nat → Operation
  | 0 => .fundMilestone anEmployer 1 "sandbox" "k1" 1
  | 1 => .webhook (captured100 "e1" "p1")
  | 2 => .startMilestone aFreelancer 1
  | 3 => .submitMilestone aFreelancer 1 ""
  | 4 => .approveMilestone anEmployer 1
  | _ => .releaseMilestone anEmployer 1 "k2"

def startedRun : List (Nat × Txn.Choice Answer Err Providers) :=
  Sys.goes 0 8 ++ answers100 0 "p1" "PENDING" :: Sys.goes 0 7 ++ Sys.goes 1 30 ++ Sys.goes 2 7

def releasedRun : List (Nat × Txn.Choice Answer Err Providers) :=
  startedRun ++ Sys.goes 3 4 ++ Sys.goes 4 4 ++ Sys.goes 5 26

end Money
