import Freelancing.Notifications.Outbox

/-!
# Obligations of the notification worker

An event is consumed under its row lock: its receipt and, unless there is one already, its
notification with the deliveries are committed together. Every commit is an `Effect`, which keeps
the tables consistent.
-/

namespace Notifications

open Money (UserId Err)
open Txn (Law Mode View Sys Design Prog)
open Txn.Service

abbrev Move := Txn.Move Db (Txn.Point CommitPoint) Published Unit Unit

abbrev TxView := View Db LockName Unit

/-! ## Commits -/

/-- A notification as it is created, with one delivery a channel. -/
structure Notification.New (held : Set LockName) (d : Db) (n : Notification)
    (deliveries : List NotificationDelivery) : Prop where
  lock : .notification n.scope ∈ held
  free : d.notification? n.scope = none
  own : ∀ x ∈ deliveries, x.notification = n.scope
  channels : (deliveries.map NotificationDelivery.channel).Nodup

/-- The session holds the event, which nobody has consumed. -/
structure NotificationRequest.Pending (held : Set LockName) (d : Db) (e : NotificationRequest) :
    Prop where
  lock : .event e.id ∈ held
  row : d.event? e.id = some e
  receipt : e.id ∉ d.receipts

inductive Effect (held : Set LockName) (d : Db) : CommitPoint → Db → Prop
  | enqueued (e : NotificationRequest) (hl : .event e.id ∈ held) (hid : d.event? e.id = none) :
      Effect held d (.enqueued e) (d.addEvent e)
  | repeated (e : NotificationRequest) (he : e.Pending held d) (n : Notification)
      (hn : d.notification? e.scope = some n) : Effect held d (.consumed e) (d.addReceipt e.id)
  | created (e : NotificationRequest) (he : e.Pending held d) (n : Notification)
      (deliveries : List NotificationDelivery) (hn : n.New held d deliveries)
      (hk : n.scope = e.scope) :
      Effect held d (.consumed e) ((d.addNotification n deliveries).addReceipt e.id)

structure Frame (held : Set LockName) (d d' : Db) : Prop where
  events : Table.Evolves NotificationRequest.id (fun k => .event k ∈ held) Eq d.events d'.events
  notifications : Table.Evolves Notification.scope (fun k => .notification k ∈ held) Eq
    d.notifications d'.notifications
  receipts : ∀ k ∈ d.receipts, k ∈ d'.receipts
  receipt : ∀ k, .event k ∈ held → k ∉ d.receipts → k ∉ d'.receipts

structure Consistent (d : Db) : Prop where
  events : (d.events.map NotificationRequest.id).Nodup
  receipts : d.receipts.Nodup
  notifications : (d.notifications.map Notification.scope).Nodup
  deliveries : (d.deliveries.map fun x => (x.notification, x.channel)).Nodup
  delivered : ∀ x ∈ d.deliveries, ∃ n, d.notification? x.notification = some n
  notified : ∀ k ∈ d.receipts, ∃ e n, d.event? k = some e ∧ d.notification? e.scope = some n

section
variable {held held' : Set LockName} {d d' d'' : Db} {c : CommitPoint} {e : NotificationRequest}
  {n : Notification}

theorem Frame.refl (held : Set LockName) (d : Db) : Frame held d d :=
  ⟨.refl fun _ => rfl, .refl fun _ => rfl, fun _ h => h, fun _ _ h => h⟩

theorem Frame.trans (h : Frame held d d') (h' : Frame held d' d'') : Frame held d d'' where
  events := h.events.trans (fun _ _ _ => Eq.trans) h'.events
  notifications := h.notifications.trans (fun _ _ _ => Eq.trans) h'.notifications
  receipts k hk := h'.receipts k (h.receipts k hk)
  receipt k hl hk := h'.receipt k hl (h.receipt k hl hk)

theorem Frame.mono (hs : held' ⊆ held) (h : Frame held d d') : Frame held' d d' where
  events := h.events.mono fun _ hk => hs hk
  notifications := h.notifications.mono fun _ hk => hs hk
  receipts := h.receipts
  receipt k hl := h.receipt k (hs hl)

theorem NotificationRequest.Pending.frame (h : e.Pending held d) (hf : Frame held d d') :
    e.Pending held d' :=
  ⟨h.lock, hf.events.eq_of_eq h.row, hf.receipt _ h.lock h.receipt⟩

theorem NotificationRequest.Pending.mono (hs : held ⊆ held') (h : e.Pending held d) :
    e.Pending held' d := ⟨hs h.lock, h.row, h.receipt⟩

theorem Effect.frame (h : Effect held' d c d') (hdis : Disjoint held held') : Frame held d d' := by
  have hno : ∀ {k : LockName}, k ∈ held' → k ∉ held := fun hk hh =>
    Set.disjoint_left.1 hdis hh hk
  have hreceipt : ∀ {e : NotificationRequest}, e.Pending held' d → ∀ k, .event k ∈ held →
      k ∉ d.receipts → k ∉ e.id :: d.receipts := by
    intro e he k hk hn hm
    rcases List.mem_cons.1 hm with rfl | hm
    · exact hno he.lock hk
    · exact hn hm
  cases h with
  | enqueued e hl hid =>
    exact { Frame.refl held d with events := .cons (fun _ => rfl) (hno hl) hid }
  | repeated e he n hn =>
    exact { Frame.refl held d with
      receipts := fun k hk => List.mem_cons_of_mem _ hk
      receipt := hreceipt he }
  | created e he n deliveries hn hk =>
    exact { Frame.refl held d with
      notifications := .cons (fun _ => rfl) (hno hn.lock) hn.free
      receipts := fun k hk => List.mem_cons_of_mem _ hk
      receipt := hreceipt he }

/-- The first delivery of each channel of a new notification. -/
theorem nodup_deliveries {deliveries : List NotificationDelivery} (hd : Consistent d)
    (hn : n.New held d deliveries) :
    ((deliveries ++ d.deliveries).map fun x => (x.notification, x.channel)).Nodup := by
  rw [List.map_append, List.nodup_append]
  refine ⟨?_, hd.deliveries, ?_⟩
  · refine List.Nodup.of_map Prod.snd ?_
    rw [List.map_map]
    exact hn.channels
  · intro p hp q hq he
    obtain ⟨x, hx, rfl⟩ := List.mem_map.1 hp
    obtain ⟨y, hy, rfl⟩ := List.mem_map.1 hq
    obtain ⟨m, hm⟩ := hd.delivered y hy
    have hk : x.notification = y.notification := congrArg Prod.fst he
    rw [← hk, hn.own x hx, hn.free] at hm
    cases hm

theorem Effect.consistent (hd : Consistent d) (h : Effect held d c d') : Consistent d' := by
  cases h with
  | enqueued e hl hid =>
    refine { hd with events := Table.nodup_map_cons hd.events hid, notified := fun k hk => ?_ }
    obtain ⟨e', n, he, hn⟩ := hd.notified k hk
    exact ⟨e', n, Table.get_cons_of_get hid he, hn⟩
  | repeated e he n hn =>
    refine { hd with
      receipts := List.nodup_cons.2 ⟨he.receipt, hd.receipts⟩
      notified := fun k hk => ?_ }
    rcases List.mem_cons.1 hk with rfl | hk
    · exact ⟨e, n, he.row, hn⟩
    · exact hd.notified k hk
  | created e he n deliveries hn hk =>
    have hkeep : ∀ {k : DedupeKey} {m : Notification}, d.notification? k = some m →
        ((d.addNotification n deliveries).addReceipt e.id).notification? k = some m :=
      fun h => Table.get_cons_of_get hn.free h
    have hnew : ((d.addNotification n deliveries).addReceipt e.id).notification? n.scope =
        some n := by
      simp [Db.notification?, Db.addNotification, Db.addReceipt, Table.get_cons]
    refine {
      events := hd.events
      receipts := List.nodup_cons.2 ⟨he.receipt, hd.receipts⟩
      notifications := Table.nodup_map_cons hd.notifications hn.free
      deliveries := nodup_deliveries hd hn
      delivered := fun x hx => ?_
      notified := fun k hk' => ?_ }
    · rcases List.mem_append.1 hx with hx | hx
      · exact ⟨n, by rw [hn.own x hx]; exact hnew⟩
      · obtain ⟨m, hm⟩ := hd.delivered x hx
        exact ⟨m, hkeep hm⟩
    · rcases List.mem_cons.1 hk' with rfl | hk'
      · exact ⟨e, n, he.row, hk ▸ hnew⟩
      · obtain ⟨e', m, he', hm⟩ := hd.notified k hk'
        exact ⟨e', m, he', hkeep hm⟩

end

def outboxDesign : Design Db LockName CommitPoint Published Unit Unit where
  Inv d _ := Consistent d
  Effect held c d d' _ := Effect held d c d'
  Asks _ _ _ _ _ := True
  Frame := Frame
  refl := .refl
  trans := .trans
  mono := .mono
  frame _ h := h.frame
  keeps hd h := h.consistent hd
  asks hd _ := hd

/-! ## Obligations -/

section
variable {mode : Mode} {ok : Move → Prop} {i : Nat} {held : Set LockName}
  {pend : Db → Db} {b : Bool} {w : Db × Unit}

abbrev Obliged {β : Type} (mode : Mode) (ok : Move → Prop) (i : Nat) (p : Tx β) (v : TxView)
    (Q : TxView → β → Prop) : Prop :=
  (outboxDesign.law mode ok).wp i p v Q

theorem enqueue_wp {e : NotificationRequest} :
    Obliged mode ok i (enqueue e) ⟨∅, id, b, w⟩ fun _ _ => True := by
  unfold enqueue
  refine Law.wp_bind (Design.wp_reserve fun w₁ hw₁ hid => ?_)
  refine Law.wp_bind (Design.wp_write (Design.wp_commit (fun w₂ hw₂ => ?_) fun _ _ _ => trivial))
  have hid₁ : w₁.1.event? e.id = none := by simpa using hid
  exact .enqueued e (by simp) ((hw₂.frame.events.own _ (by simp)).trans hid₁)

theorem cut_of_le {n : Nat} {s : String} (h : s.length ≤ n) : cut n s = s := by
  have hlen : s.toList.length ≤ n := by rw [String.length_toList]; exact h
  unfold cut
  rw [List.take_of_length_le hlen, String.ofList_toList]

theorem newDeliveries_channels (k : DedupeKey) (preferences : List NotificationPreference) :
    (((channels.filter (enabled preferences)).map (newDelivery k)).map
      NotificationDelivery.channel).Nodup := by
  rw [List.map_map]
  have hid : NotificationDelivery.channel ∘ newDelivery k = id := rfl
  rw [hid, List.map_id]
  exact List.Nodup.filter _ (by decide)

/-- The notification there is, or a new one. -/
theorem createNotification_wp {user : UserId} {eventType title body : String}
    {payload : List (String × Json)} {dedupeKey : String} {Q : TxView → Notification → Prop}
    (hfound : ∀ w' n, Frame held w.1 w'.1 → w'.1.notification? ⟨user, dedupeKey⟩ = some n →
      Q ⟨held, id, mode.inTxn, w'⟩ n)
    (hnew : ∀ w' n deliveries, Frame held w.1 w'.1 → n.scope = ⟨user, cut 180 dedupeKey⟩ →
      n.New (insert (.notification n.scope) held) w'.1 deliveries →
      Q ⟨insert (.notification n.scope) held, (·.addNotification n deliveries), mode.inTxn, w'⟩ n) :
    Obliged mode ok i (createNotification user eventType title body payload dedupeKey)
      ⟨held, id, b, w⟩ Q := by
  unfold createNotification
  refine Law.wp_bind (Design.frames.wp_select fun w₁ hw₁ => ?_)
  split
  · rename_i n hn
    exact hfound w₁ n hw₁.frame hn
  · refine Law.wp_bind (Design.frames.wp_select fun w₂ hw₂ => ?_)
    refine Law.wp_bind (Design.wp_reserve fun w₃ hw₃ hfree => ?_)
    refine Law.wp_bind
      (Design.wp_write (hnew w₃ _ _ ?_ rfl ⟨by simp, by simpa using hfree, ?_, ?_⟩))
    · exact hw₁.frame.trans (hw₂.frame.trans hw₃.frame)
    · intro x hx
      obtain ⟨channel, -, rfl⟩ := List.mem_map.1 hx
      rfl
    · exact newDeliveries_channels _ _

theorem consume_wp {eventId : EventId} {Q : TxView → Bool → Prop}
    (h : ∀ held' b' w' r, Q ⟨held', id, b', w'⟩ r) :
    Obliged mode ok i (consume eventId) ⟨held, id, b, w⟩ Q := by
  unfold consume
  refine Law.wp_bind
    (Design.frames.wp_selectForUpdate (fun w₁ _ _ => h _ _ _ _) fun w₁ e hw₁ he => ?_)
  obtain rfl : e.id = eventId := Table.get_key he
  refine Law.wp_bind (Design.frames.wp_select fun w₂ hw₂ => ?_)
  split
  · exact h _ _ _ _
  · rename_i hreceipt
    have hpending : e.Pending (insert (.event e.id) held) w₂.1 :=
      ⟨.inl rfl, hw₂.frame.events.eq_of_eq he, by simpa using hreceipt⟩
    have hask : ∀ (n : Notification) (v : TxView), Obliged mode ok i
        (ask ⟨n⟩ >>= fun _ => pure true : Tx Bool) ⟨∅, id, v.busy, v.world⟩ Q := fun n v =>
      Law.wp_bind (Design.wp_ask fun _ _ _ _ _ => ⟨trivial, h _ _ _ _⟩)
    refine Law.wp_bind
      (createNotification_wp (fun w₃ n hf₃ hn => ?_) fun w₃ n deliveries hf₃ hk hnew => ?_)
    · refine Law.wp_bind (Design.wp_reserve fun w₄ hw₄ _ => Law.wp_bind (Design.wp_write ?_))
      refine Law.wp_bind (Design.wp_commit (fun w₅ hw₅ => ?_) fun w₅ _ _ =>
        hask n ⟨∅, id, _, _⟩)
      have hf₅ := hw₄.frame.trans (hw₅.frame.mono (Set.subset_insert _ _))
      exact .repeated e (((hpending.frame hf₃).frame hf₅).mono (Set.subset_insert _ _)) n
        (hf₅.notifications.eq_of_eq hn)
    · refine Law.wp_bind (Design.wp_reserve fun w₄ hw₄ _ => Law.wp_bind (Design.wp_write ?_))
      refine Law.wp_bind (Design.wp_commit (fun w₅ hw₅ => ?_) fun w₅ _ _ =>
        hask n ⟨∅, id, _, _⟩)
      have hf₅ := hw₄.frame.trans (hw₅.frame.mono (Set.subset_insert _ _))
      have hpending₅ := ((hpending.frame hf₃).mono (Set.subset_insert _ _)).frame hf₅
      refine .created e (hpending₅.mono (Set.subset_insert _ _)) n deliveries
        ⟨.inr hnew.lock, (hf₅.notifications.own _ hnew.lock).trans hnew.free, hnew.own,
          hnew.channels⟩ ?_
      rw [hk, cut_of_le e.short]
      rfl

theorem consumeAll_wp {eventIds : List EventId} {processed : Nat} :
    Obliged mode ok i (consumeAll eventIds processed) ⟨held, id, b, w⟩ fun _ _ => True := by
  induction eventIds generalizing processed held b w with
  | nil => trivial
  | cons eventId eventIds ih =>
    unfold consumeAll
    exact Law.wp_bind (consume_wp fun held' b' w' r => ih)

theorem drainNotificationOutbox_wp {limit : Nat} :
    Obliged mode ok i (drainNotificationOutbox limit) ⟨∅, id, b, w⟩ fun _ _ => True := by
  unfold drainNotificationOutbox
  exact Law.wp_bind (Design.frames.wp_select fun _ _ => consumeAll_wp)

end

end Notifications
