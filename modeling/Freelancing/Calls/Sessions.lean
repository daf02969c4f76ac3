import Freelancing.Table
import Freelancing.Money.Types
import Freelancing.Txn.Service
import Mathlib.Data.List.Dedup

/-!
# Call sessions

`app/calls/service.py`: a member of a conversation invites the other one to a call, the callee
accepts it, and either of them ends it. A uuid is a number; a request takes the uuid that it draws
and the time that its clock reads as arguments.
-/

namespace Calls

open Money (UserId Err ApiError strip)
open Text (upper)
open Txn.Service

abbrev ConversationId := Nat
abbrev CallId := Nat

/-! ## Rows -/

inductive CallType
  | voice
  | video
  deriving DecidableEq

/-- `none`: not in `CALL_TYPES`. -/
def CallType.parse (s : String) : Option CallType :=
  if s = "VOICE" then some voice else if s = "VIDEO" then some video else none

inductive CallStatus
  | invited
  | active
  | ended
  deriving DecidableEq

def CallStatus.name : CallStatus → String
  | invited => "INVITED"
  | active => "ACTIVE"
  | ended => "ENDED"

/-- `LIVE_CALL_STATES`. -/
def CallStatus.live : CallStatus → Bool
  | ended => false
  | _ => true

structure Conversation where
  id : ConversationId
  members : List UserId

structure CallSession where
  id : CallId
  conversation : ConversationId
  caller : UserId
  callee : UserId
  clientCallId : String
  callType : CallType
  status : CallStatus
  createdAt : Nat
  acceptedAt : Option Nat
  endedAt : Option Nat
  endedBy : Option UserId
  endReason : Option String
  deriving DecidableEq

def CallSession.clientKey (x : CallSession) : UserId × String := (x.caller, x.clientCallId)

def CallSession.liveIn (c : ConversationId) (x : CallSession) : Bool :=
  x.conversation = c ∧ x.status.live

structure Db where
  conversations : List Conversation
  calls : List CallSession

def Db.conversation? (d : Db) (id : ConversationId) : Option Conversation :=
  Table.get Conversation.id id d.conversations

def Db.call? (d : Db) (id : CallId) : Option CallSession := Table.get CallSession.id id d.calls

def Db.callOf? (d : Db) (k : UserId × String) : Option CallSession :=
  Table.get CallSession.clientKey k d.calls

def Db.liveCall? (d : Db) (c : ConversationId) : Option CallSession :=
  d.calls.find? (CallSession.liveIn c)

def Db.addCall (d : Db) (x : CallSession) : Db := { d with calls := x :: d.calls }

def Db.modifyCall (d : Db) (id : CallId) (f : CallSession → CallSession) : Db :=
  { d with calls := Table.modify CallSession.id id f d.calls }

/-! ## Database sessions -/

/-- A row, by its key, or an entry of a unique index. -/
inductive LockName
  | conversation (id : ConversationId)
  | call (id : CallId)
  | callOf (k : UserId × String)
  | liveCall (c : ConversationId)
  deriving DecidableEq

/-- The commits of the services, with the copy of the call that the session has locked. -/
inductive CommitPoint
  | invited (x : CallSession)
  | accepted (loaded : CallSession)
  | ended (loaded : CallSession)

abbrev Tx := Txn.Prog Db LockName (Txn.Point CommitPoint) Empty Empty Err

def raiseApi {β : Type} (type title : String) (status : Nat) (detail : String) : Tx β :=
  raise (.api ⟨type, title, status, detail⟩)

def validationError (title detail : String) : Err := .api ⟨"validation_error", title, 422, detail⟩

def forbidden (detail : String) : Err := .api ⟨"forbidden", "Forbidden", 403, detail⟩

def conversationBusy : Err :=
  .api ⟨"conversation_busy", "Conversation already has a live call", 409,
    "Only one invited or active call is allowed per conversation"⟩

/-! ## The operations -/

/-- The call that a request with the same client id has made before. -/
def priorCall (prior : CallSession) (conversation : ConversationId)
    (callType : CallType) (e : Err) : Tx (CallSession × Bool) := do
  require (!(prior.conversation ≠ conversation || prior.callType ≠ callType)) e
  pure (prior, false)

/-- The insert of a new call. An `IntegrityError` undoes the transaction, and the call that has the
client id is looked for again. -/
def insertCall (call : CallSession) : Tx (CallSession × Bool) := do
  let sameId ← Txn.Prog.taken .stmt (.call call.id) fun d => (d.call? call.id).isSome
  let duplicate ← Txn.Prog.taken .stmt (.callOf call.clientKey)
    fun d => (d.callOf? call.clientKey).isSome
  let busy ← Txn.Prog.taken .stmt (.liveCall call.conversation)
    fun d => (d.liveCall? call.conversation).isSome
  if sameId || duplicate || busy then
    rollback
    let concurrentPrior ← select fun d => d.callOf? call.clientKey
    match concurrentPrior with
    | none => raise conversationBusy
    | some prior => priorCall prior call.conversation call.callType conversationBusy
  else
    write fun d => d.addCall call
    commit (.invited call)
    pure (call, true)

def inviteCall (user : UserId) (conversationId : ConversationId) (clientCallId callType : String)
    (now : Nat) (id : CallId) : Tx (CallSession × Bool) := do
  let normalizedClientId := strip clientCallId
  require (!(normalizedClientId.isEmpty || normalizedClientId.length > 80))
    (validationError "Invalid client call id" "client_call_id must be between 1 and 80 characters")
  match CallType.parse (upper (strip callType)) with
  | none => raise (validationError "Invalid call type" "call_type must be VOICE or VIDEO")
  | some normalizedType =>
    let conversation ← selectForUpdate (fun c => .conversation c.id)
      fun d => d.conversation? conversationId
    match conversation with
    | none =>
      raiseApi "conversation_not_found" "Conversation not found" 404 "Conversation was not found"
    | some conversation =>
      let memberIds := conversation.members.dedup
      require (memberIds.contains user) (forbidden "You are not a conversation member")
      require (memberIds.length = 2) (.api ⟨"unsupported_call_topology",
        "Unsupported call topology", 409, "This phase supports only one-to-one calls"⟩)
      match memberIds.find? fun m => m ≠ user with
      | none => raise (.runtime "StopIteration")
      | some callee =>
        let prior ← select fun d => d.callOf? (user, normalizedClientId)
        match prior with
        | some prior =>
          priorCall prior conversation.id normalizedType (.api ⟨"client_call_id_reused",
            "Client call id reused", 409,
            "client_call_id was already used for different call content"⟩)
        | none =>
          let live ← select fun d => d.liveCall? conversation.id
          require live.isNone conversationBusy
          insertCall {
            id := id
            conversation := conversation.id
            caller := user
            callee := callee
            clientCallId := normalizedClientId
            callType := normalizedType
            status := .invited
            createdAt := now
            acceptedAt := none
            endedAt := none
            endedBy := none
            endReason := none }

def lockedCall (id : CallId) : Tx CallSession := do
  let call ← selectForUpdate (fun x => .call x.id) fun d => d.call? id
  match call with
  | none => raiseApi "call_not_found" "Call not found" 404 "Call was not found"
  | some call => pure call

def requireParty (user : UserId) (call : CallSession) : Tx Unit :=
  require (user = call.caller || user = call.callee)
    (forbidden "Only call parties may perform this action")

def CallSession.accept (now : Nat) (x : CallSession) : CallSession :=
  { x with status := .active, acceptedAt := some now }

def CallSession.finish (user : UserId) (now : Nat) (reason : String) (x : CallSession) :
    CallSession :=
  { x with
    status := .ended
    endedAt := some now
    endedBy := some user
    endReason := if reason.isEmpty then none else some reason }

def acceptCall (user : UserId) (callId : CallId) (now : Nat) : Tx (CallSession × Bool) := do
  let call ← lockedCall callId
  requireParty user call
  require (user = call.callee) (forbidden "Only the invited callee may accept the call")
  match call.status with
  | .active => pure (call, false)
  | .ended =>
    raiseApi "invalid_call_state" "Call cannot be accepted" 409
      s!"Call in {call.status.name} cannot be accepted"
  | .invited =>
    write fun d => d.modifyCall call.id (.accept now)
    commit (.accepted call)
    pure (call.accept now, true)

/-- `MAX_END_REASON`. -/
def maxEndReason : Nat := 500

def endCall (user : UserId) (callId : CallId) (reason : String) (now : Nat) :
    Tx (CallSession × Bool) := do
  let call ← lockedCall callId
  requireParty user call
  let normalizedReason := strip reason
  require (normalizedReason.length ≤ maxEndReason) (validationError "End reason too long"
    s!"reason is limited to {maxEndReason} characters")
  if call.status = .ended then pure (call, false)
  else
    write fun d => d.modifyCall call.id (.finish user now normalizedReason)
    commit (.ended call)
    pure (call.finish user now normalizedReason, true)

end Calls
