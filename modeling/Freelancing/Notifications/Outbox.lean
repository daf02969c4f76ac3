import Freelancing.Json
import Freelancing.Table
import Freelancing.Money.Types
import Freelancing.Txn.Service

/-!
# Notifications

`app/notifications/tasks.py` and `service.py`: a worker turns the requested notifications of the
outbox into notifications with their deliveries, one transaction an event, and notes each event that
it has consumed. A uuid is a number; a notification is referred to by its user and its dedupe key,
on which it is unique.
-/

namespace Notifications

open Money (UserId Err)
open Txn.Service

abbrev EventId := Nat

/-! ## Rows -/

inductive Channel
  | inApp
  | email
  | push
  | sms
  deriving DecidableEq

/-- `_CHANNELS`. -/
def channels : List Channel := [.inApp, .email, .push, .sms]

/-- `uq_notifications_user_dedupe`. -/
structure DedupeKey where
  user : UserId
  key : String
  deriving DecidableEq

/-- An `OutboxEvent` of type `notification.requested`. -/
structure NotificationRequest where
  id : EventId
  createdAt : Nat
  user : UserId
  eventType : String
  title : String
  body : String
  payload : Option Json
  dedupeKey : String
  /-- The keys that are enqueued name a message, a call or a dispute and its event. -/
  short : dedupeKey.length ≤ 180

def NotificationRequest.scope (e : NotificationRequest) : DedupeKey := ⟨e.user, e.dedupeKey⟩

structure Notification where
  scope : DedupeKey
  eventType : String
  title : String
  body : String
  payload : List (String × Json)

inductive DeliveryStatus
  | pending
  | delivered
  deriving DecidableEq

structure NotificationDelivery where
  notification : DedupeKey
  channel : Channel
  status : DeliveryStatus
  deriving DecidableEq

structure NotificationPreference where
  user : UserId
  eventType : String
  channel : Channel
  enabled : Bool

structure Db where
  events : List NotificationRequest
  receipts : List EventId
  notifications : List Notification
  deliveries : List NotificationDelivery
  preferences : List NotificationPreference

def Db.event? (d : Db) (id : EventId) : Option NotificationRequest :=
  Table.get NotificationRequest.id id d.events

def Db.notification? (d : Db) (k : DedupeKey) : Option Notification :=
  Table.get Notification.scope k d.notifications

def Db.addReceipt (d : Db) (id : EventId) : Db := { d with receipts := id :: d.receipts }

def Db.addNotification (d : Db) (n : Notification) (deliveries : List NotificationDelivery) : Db :=
  { d with
    notifications := n :: d.notifications
    deliveries := deliveries ++ d.deliveries }

def Db.addEvent (d : Db) (e : NotificationRequest) : Db := { d with events := e :: d.events }

/-! ## Database sessions -/

/-- A row, by its key, or an entry of a unique index. -/
inductive LockName
  | event (id : EventId)
  | receipt (event : EventId)
  | notification (k : DedupeKey)
  deriving DecidableEq

inductive CommitPoint
  | enqueued (e : NotificationRequest)
  | consumed (e : NotificationRequest)

/-- What is sent to the user's sockets; a failure there is only logged. -/
structure Published where
  notification : Notification

abbrev Tx := Txn.Prog Db LockName (Txn.Point CommitPoint) Published Unit Err

def integrityError : Err := .runtime "IntegrityError"

/-! ## The operations -/

/-- The flush of an event that another operation requests. -/
def enqueue (e : NotificationRequest) : Tx Unit := do
  reserve integrityError (.event e.id) fun d => (d.event? e.id).isSome
  write fun d => d.addEvent e
  commit (.enqueued e)

/-- `s[:n]`. -/
def cut (n : Nat) (s : String) : String := String.ofList (s.toList.take n)

/-- `preferences.get(channel, channel == "IN_APP")`. -/
def enabled (preferences : List NotificationPreference) (channel : Channel) : Bool :=
  match Table.get NotificationPreference.channel channel preferences with
  | some preference => preference.enabled
  | none => channel = .inApp

def newDelivery (k : DedupeKey) (channel : Channel) : NotificationDelivery :=
  ⟨k, channel, if channel = .inApp then .delivered else .pending⟩

def createNotification (user : UserId) (eventType title body : String)
    (payload : List (String × Json)) (dedupeKey : String) : Tx Notification := do
  let existing ← select fun d => d.notification? ⟨user, dedupeKey⟩
  match existing with
  | some notification => pure notification
  | none =>
    let notification : Notification :=
      ⟨⟨user, cut 180 dedupeKey⟩, eventType, cut 160 title, cut 500 body, payload⟩
    let preferences ← select fun d =>
      d.preferences.filter fun p => p.user = user ∧ p.eventType = eventType
    let deliveries := (channels.filter (enabled preferences)).map (newDelivery notification.scope)
    reserve integrityError (.notification notification.scope)
      fun d => (d.notification? notification.scope).isSome
    write fun d => d.addNotification notification deliveries
    pure notification

/-- The payload, if it is an object. -/
def notificationPayload : Option Json → List (String × Json)
  | some (.obj fields) => fields
  | _ => []

def consume (eventId : EventId) : Tx Bool := do
  let event ← selectForUpdate (fun e => .event e.id) fun d => d.event? eventId
  match event with
  | none => pure false
  | some event =>
    let receipt ← select fun d => d.receipts.contains event.id
    if receipt then pure false
    else
      let notification ← createNotification event.user event.eventType event.title event.body
        (notificationPayload event.payload) event.dedupeKey
      reserve integrityError (.receipt event.id) fun d => d.receipts.contains event.id
      write fun d => d.addReceipt event.id
      commit (.consumed event)
      ask ⟨notification⟩
      pure true

def consumeAll : List EventId → Nat → Tx Nat
  | [], processed => pure processed
  | eventId :: eventIds, processed => do
    let done ← consume eventId
    consumeAll eventIds (if done then processed + 1 else processed)

/-- The events without a receipt, the oldest first. -/
def Db.pending (d : Db) : List EventId :=
  ((d.events.filter fun e => !d.receipts.contains e.id).insertionSort
    fun x y => x.createdAt ≤ y.createdAt).map NotificationRequest.id

def drainNotificationOutbox (limit : Nat) : Tx Nat := do
  let eventIds ← select fun d => d.pending.take limit
  consumeAll eventIds 0

end Notifications
