import Freelancing.Notifications.Steps

/-!
# Exactly-once notifications

Whatever the workers do at once and wherever they fail, an event has at most one receipt, a user at
most one notification of a key, and every consumed event its notification. What a worker has not
committed leaves no trace, and a worker that runs alone consumes all that is left.
-/

namespace Notifications

open Money (UserId Err)
open Txn (Law Mode View Sys Design Prog)
open Txn.Service

/-! ## Requests -/

inductive Service
  | enqueue (e : NotificationRequest)
  | drain (limit : Nat)

inductive Reply
  | enqueued
  | drained (n : Nat)

def Service.program : Service → Tx Reply
  | .enqueue e => do
    Notifications.enqueue e
    pure .enqueued
  | .drain limit => do
    let processed ← drainNotificationOutbox limit
    pure (.drained processed)

abbrev Outbox := Sys Db LockName (Txn.Point CommitPoint) Published Unit Err Reply Unit

def outbox (d : Db) (services : Nat → Service) :
    Outbox := Sys.init d () fun i => (services i).program

/-- No event has been consumed. -/
structure Fresh (d : Db) : Prop where
  events : (d.events.map NotificationRequest.id).Nodup
  receipts : d.receipts = []
  notifications : d.notifications = []
  deliveries : d.deliveries = []

structure ExactlyOnce (d : Db) : Prop where
  receipts : d.receipts.Nodup
  notifications : (d.notifications.map Notification.scope).Nodup
  deliveries : (d.deliveries.map fun x => (x.notification, x.channel)).Nodup
  notified : ∀ e ∈ d.events, e.id ∈ d.receipts → ∃ n ∈ d.notifications, n.scope = e.scope

/-- The event is consumed, with a new notification unless there is one. -/
structure Consumes (e : NotificationRequest) (d d' : Db) : Prop where
  event : e ∈ d.events ∧ e.id ∉ d.receipts
  events : d'.events = d.events
  receipts : d'.receipts = e.id :: d.receipts
  notification : (d'.notifications = d.notifications ∧ d'.deliveries = d.deliveries ∧
      ∃ n ∈ d.notifications, n.scope = e.scope) ∨
    ∃ n deliveries, n.scope = e.scope ∧ d'.notifications = n :: d.notifications ∧
      d'.deliveries = deliveries ++ d.deliveries

section
variable {mode : Mode} {ok : Move → Prop} {d d' : Db} {services : Nat → Service} {s s' : Outbox}
  {i : Nat} {b : Bool} {w : Db × Unit} {e : NotificationRequest}

theorem Service.obliged (x : Service) :
    Obliged mode ok i x.program ⟨∅, id, b, w⟩ fun _ _ => True := by
  cases x with
  | enqueue e => exact Law.wp_bind (Law.wp_mono enqueue_wp fun _ _ _ => trivial)
  | drain limit => exact Law.wp_bind (Law.wp_mono drainNotificationOutbox_wp fun _ _ _ => trivial)

theorem consistent_of_fresh (h : Fresh d) : Consistent d := by
  obtain ⟨he, hr, hn, hdel⟩ := h
  exact ⟨he, by simp [hr], by simp [hn], by simp [hdel], by simp [hdel], by simp [hr]⟩

theorem holds_of_run (hd : Consistent d) (hr : Sys.Run mode ok (outbox d services) s) :
    (outboxDesign.law mode ok).Holds s :=
  Design.holds_of_run hd (fun i => (services i).obliged) hr

theorem Consistent.event? (hd : Consistent d) (he : e ∈ d.events) : d.event? e.id = some e :=
  Table.get_of_mem hd.events he

theorem Consistent.exactlyOnce (hd : Consistent d) : ExactlyOnce d where
  receipts := hd.receipts
  notifications := hd.notifications
  deliveries := hd.deliveries
  notified e he hr := by
    obtain ⟨e', n, he', hn⟩ := hd.notified _ hr
    obtain rfl : e' = e := Option.some.inj (he'.symm.trans (hd.event? he))
    exact ⟨n, Table.get_mem hn, Table.get_key hn⟩

theorem Effect.consumes {held : Set LockName} (h : Effect held d (.consumed e) d') :
    Consumes e d d' := by
  cases h with
  | repeated _ he n hn =>
    exact ⟨⟨Table.get_mem he.row, he.receipt⟩, rfl, rfl,
      .inl ⟨rfl, rfl, n, Table.get_mem hn, Table.get_key hn⟩⟩
  | created _ he n deliveries hn hk =>
    exact ⟨⟨Table.get_mem he.row, he.receipt⟩, rfl, rfl, .inr ⟨n, deliveries, hk, rfl, rfl⟩⟩

/-! ## A worker that runs alone -/

/-- Served alone, an event is consumed if it has not been. -/
theorem consume_alone (hd : Consistent d) (he : e ∈ d.events) : ∃ d' r, Consistent d' ∧
    d'.events = d.events ∧ (∀ k ∈ d.receipts, k ∈ d'.receipts) ∧ e.id ∈ d'.receipts ∧
    ∀ f : Bool → Tx Nat,
      (consume e.id >>= f).alone (fun _ => ()) d id = (f r).alone (fun _ => ()) d' id := by
  have hrow : Db.event? (id d) e.id = some e := hd.event? he
  by_cases hr : e.id ∈ d.receipts
  · refine ⟨d, false, hd, rfl, fun _ h => h, hr, fun f => ?_⟩
    unfold consume
    simp only [bind_assoc]
    rw [alone_selectForUpdate, hrow]
    dsimp only
    rw [bind_assoc, alone_select, if_pos (by simpa using hr), pure_bind]
  · have hpending : e.Pending Set.univ d := ⟨trivial, hd.event? he, hr⟩
    cases hn : d.notification? e.scope with
    | some n =>
      refine ⟨d.addReceipt e.id, true, Effect.consistent hd (.repeated e hpending n hn), rfl,
        fun _ h => List.mem_cons_of_mem _ h, List.mem_cons_self, fun f => ?_⟩
      unfold consume createNotification
      simp only [bind_assoc]
      rw [alone_selectForUpdate, hrow]
      dsimp only
      rw [bind_assoc, alone_select, if_neg (by simpa using hr)]
      simp only [bind_assoc]
      rw [alone_select, show Db.notification? (id d) ⟨e.user, e.dedupeKey⟩ = some n from hn]
      dsimp only
      rw [pure_bind, alone_reserve (by simpa using hr), alone_write, alone_commit,
        alone_ask, pure_bind]
      rfl
    | none =>
      have hk : DedupeKey.mk e.user (cut 180 e.dedupeKey) = e.scope := by
        rw [cut_of_le e.short]
        rfl
      let n : Notification := ⟨⟨e.user, cut 180 e.dedupeKey⟩, e.eventType, cut 160 e.title,
        cut 500 e.body, notificationPayload e.payload⟩
      let deliveries := (channels.filter (enabled (d.preferences.filter fun p =>
        p.user = e.user ∧ p.eventType = e.eventType))).map (newDelivery n.scope)
      have hfree : d.notification? n.scope = none := by
        rw [show n.scope = e.scope from hk]
        exact hn
      have hnew : n.New Set.univ d deliveries := by
        refine ⟨trivial, hfree, fun x hx => ?_, newDeliveries_channels _ _⟩
        obtain ⟨channel, -, rfl⟩ := List.mem_map.1 hx
        rfl
      refine ⟨(d.addNotification n deliveries).addReceipt e.id, true,
        Effect.consistent hd (.created e hpending n deliveries hnew hk), rfl,
        fun _ h => List.mem_cons_of_mem _ h, List.mem_cons_self, fun f => ?_⟩
      unfold consume createNotification
      simp only [bind_assoc]
      rw [alone_selectForUpdate, hrow]
      dsimp only
      rw [bind_assoc, alone_select, if_neg (by simpa using hr)]
      simp only [bind_assoc]
      rw [alone_select, show Db.notification? (id d) ⟨e.user, e.dedupeKey⟩ = none from hn]
      dsimp only
      simp only [bind_assoc]
      rw [alone_select, alone_reserve (by simpa using hfree), alone_write, pure_bind,
        alone_reserve (by simpa [Db.addNotification] using hr), alone_write, alone_commit,
        alone_ask, pure_bind]
      rfl

theorem consumeAll_alone {ids : List EventId} (processed : Nat) (hd : Consistent d)
    (hids : ∀ k ∈ ids, ∃ e ∈ d.events, e.id = k) : ∃ d' n, d'.events = d.events ∧
    (∀ k ∈ d.receipts, k ∈ d'.receipts) ∧ (∀ k ∈ ids, k ∈ d'.receipts) ∧
    (consumeAll ids processed).alone (fun _ => ()) d id = ⟨d', .ok n⟩ := by
  induction ids generalizing d processed with
  | nil => exact ⟨d, processed, rfl, fun _ h => h, by simp, rfl⟩
  | cons k ids ih =>
    obtain ⟨e, he, rfl⟩ := hids k List.mem_cons_self
    obtain ⟨d₁, r, hd₁, hev, hkeep, hmem, hrun⟩ := consume_alone hd he
    obtain ⟨d₂, n, hev₂, hkeep₂, hmem₂, hrun₂⟩ :=
      ih (if r then processed + 1 else processed) hd₁ fun k hk =>
        hev ▸ hids k (List.mem_cons_of_mem _ hk)
    refine ⟨d₂, n, hev₂.trans hev, fun k hk => hkeep₂ k (hkeep k hk), fun k hk => ?_, ?_⟩
    · rcases List.mem_cons.1 hk with rfl | hk
      · exact hkeep₂ _ hmem
      · exact hmem₂ k hk
    · unfold consumeAll
      exact (hrun _).trans hrun₂

theorem Db.mem_pending {k : EventId} :
    k ∈ d.pending ↔ k ∉ d.receipts ∧ ∃ e ∈ d.events, e.id = k := by
  simp only [Db.pending, List.mem_map, (List.perm_insertionSort _ _).mem_iff, List.mem_filter,
    Bool.not_eq_true', List.contains_eq_mem, decide_eq_false_iff_not]
  constructor
  · rintro ⟨e, ⟨he, hr⟩, rfl⟩
    exact ⟨hr, e, he, rfl⟩
  · rintro ⟨hr, e, he, rfl⟩
    exact ⟨e, ⟨he, hr⟩, rfl⟩

/-- A worker that runs alone leaves no event without a receipt. -/
theorem drain_alone {limit : Nat} (hd : Consistent d) (hlimit : d.pending.length ≤ limit) :
    ∃ d' n, (drainNotificationOutbox limit).alone (fun _ => ()) d id = ⟨d', .ok n⟩ ∧
      d'.events = d.events ∧ ∀ e ∈ d'.events, e.id ∈ d'.receipts := by
  obtain ⟨d', n, hev, hkeep, hmem, hrun⟩ := consumeAll_alone 0 hd
    fun k hk => (Db.mem_pending.1 hk).2
  refine ⟨d', n, ?_, hev, fun e he => ?_⟩
  · unfold drainNotificationOutbox
    rw [alone_select, show (Db.pending (id d)).take limit = d.pending from
      List.take_of_length_le hlimit]
    exact hrun
  · by_cases hr : e.id ∈ d.receipts
    · exact hkeep _ hr
    · exact hmem _ (Db.mem_pending.2 ⟨hr, e, hev ▸ he, rfl⟩)

/-! ## Runs -/

/-- What a step does to the tables: nothing, a new event, or one event consumed. -/
theorem step_consumes (hs : (outboxDesign.law mode ok).Holds s) (h : Sys.Step mode ok s s') :
    s'.db = s.db ∨ (∃ e, s'.db = s.db.addEvent e) ∨ ∃ e, Consumes e s.db s'.db := by
  rcases Design.stepped hs h with ⟨hd, -⟩ | ⟨i, c, -, hc, -⟩ | ⟨i, q, a, -, -, hd⟩
  · exact .inl hd
  · obtain ⟨held, heff⟩ := hc.effect
    cases c with
    | enqueued e =>
      refine .inr (.inl ⟨e, ?_⟩)
      generalize s'.db = d' at heff
      cases heff
      rfl
    | consumed e => exact .inr (.inr ⟨e, heff.consumes⟩)
  · exact .inl hd

/-- **Notification delivery is exactly-once.** -/
theorem notifications_exactly_once (h : Fresh d) (hr : Sys.Run mode ok (outbox d services) s) :
    ExactlyOnce s.db ∧
    (∀ s', Sys.Step mode ok s s' →
      s'.db = s.db ∨ (∃ e, s'.db = s.db.addEvent e) ∨ ∃ e, Consumes e s.db s'.db) ∧
    (∀ i err s' mv, s.step? mode i (.abort err) = some (s', mv) → s'.db = s.db) ∧
    ∀ limit, s.db.pending.length ≤ limit → ∃ d' n,
      (drainNotificationOutbox limit).alone (fun _ => ()) s.db id = ⟨d', .ok n⟩ ∧
        d'.events = s.db.events ∧ ∀ e ∈ d'.events, e.id ∈ d'.receipts := by
  have hs := holds_of_run (consistent_of_fresh h) hr
  refine ⟨hs.inv.exactlyOnce, fun s' hstep => step_consumes hs hstep, fun i err s' mv hstep => ?_,
    fun limit hlimit => drain_alone hs.inv hlimit⟩
  unfold Sys.step? at hstep
  split at hstep
  · cases hstep
    rfl
  · cases hstep

end

/-! ## Two events of one key -/

def request (id : EventId) (createdAt : Nat) : NotificationRequest :=
  ⟨id, createdAt, 1, "message.created", "New message", "hello", none, "message:7", by decide⟩

def oneRequest : Db := ⟨[request 1 10], [], [], [], []⟩

def someServices : Nat → Service
  | 0 => .drain 1
  | 1 => .enqueue (request 2 5)
  | _ => .drain 1

/-- Two workers create the notification at once: the second one fails, and its event is left for
the next. -/
theorem notifications_exactly_once_two_workers :
    ∃ s : Outbox, s.db.receipts = [1] ∧ s.db.pending = [2] ∧
    ExactlyOnce s.db ∧
      ∃ d' n, (drainNotificationOutbox 100).alone (fun _ => ()) s.db id = ⟨d', .ok n⟩ ∧
      ∀ e ∈ d'.events, e.id ∈ d'.receipts := by
  obtain ⟨s, hr, hs⟩ := Sys.exists_free_run .readCommitted (outbox oneRequest someServices)
    (Sys.goes 0 6 ++ Sys.goes 1 3 ++ Sys.goes 2 5 ++ Sys.goes 0 4 ++ Sys.goes 2 1)
    (fun s => decide (s.db.receipts = [1]) && decide (s.db.pending = [2]))
    (by decide +kernel)
  rw [Bool.and_eq_true, decide_eq_true_iff, decide_eq_true_iff] at hs
  obtain ⟨hreceipts, hpending⟩ := hs
  obtain ⟨honce, -, -, halone⟩ :=
    notifications_exactly_once ⟨by decide, rfl, rfl, rfl⟩ hr
  obtain ⟨d', n, hrun, -, hall⟩ := halone 100 (by simp [hpending])
  exact ⟨s, hreceipts, hpending, honce, d', n, hrun, hall⟩

end Notifications
