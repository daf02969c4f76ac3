import Freelancing.Table
import Freelancing.Files.Rows
import Freelancing.Txn.Service
import Mathlib.Data.List.Sort

/-!
# Conversations

`app/messaging/service.py`: a member of a conversation sends a message, which gets the next sequence
number of the conversation, and a client polls for the messages after the largest number it has
received. A uuid is a number; a request takes the uuid that it draws as an argument.
-/

namespace Messaging

open Money (UserId Err strip)
open Files (FileId FileObject)
open Txn.Service

abbrev ConversationId := Nat
abbrev MessageId := Nat

/-! ## Rows -/

structure Conversation where
  id : ConversationId
  members : List UserId
  nextSequence : Nat
  deriving DecidableEq

/-- `uq_messages_conversation_sender_client_id`. -/
structure MessageKey where
  conversation : ConversationId
  sender : UserId
  clientMessageId : String
  deriving DecidableEq

structure Message where
  id : MessageId
  key : MessageKey
  sequence : Nat
  body : String
  attachments : List FileId
  deriving DecidableEq

abbrev Message.conversation (m : Message) : ConversationId := m.key.conversation

structure Db where
  conversations : List Conversation
  messages : List Message
  files : List FileObject

def Db.conversation? (d : Db) (id : ConversationId) : Option Conversation :=
  Table.get Conversation.id id d.conversations

def Db.message? (d : Db) (id : MessageId) : Option Message := Table.get Message.id id d.messages

def Db.messageOf? (d : Db) (k : MessageKey) : Option Message := Table.get Message.key k d.messages

def Db.messagesOf (d : Db) (c : ConversationId) : List Message :=
  d.messages.filter fun m => m.conversation = c

def Db.setNextSequence (d : Db) (c : ConversationId) (n : Nat) : Db :=
  { d with
    conversations := Table.modify Conversation.id c ({ · with nextSequence := n }) d.conversations }

def Db.addMessage (d : Db) (m : Message) : Db := { d with messages := m :: d.messages }

/-! ## Database sessions -/

/-- A row, by its key, or an entry of a unique index. -/
inductive LockName
  | conversation (id : ConversationId)
  | message (id : MessageId)
  | messageOf (k : MessageKey)
  | sequence (c : ConversationId) (n : Nat)
  deriving DecidableEq

inductive CommitPoint
  | sent (m : Message)

abbrev Tx := Txn.Prog Db LockName (Txn.Point CommitPoint) Empty Empty Err

def raiseApi {β : Type} (type title : String) (status : Nat) (detail : String) : Tx β :=
  raise (.api ⟨type, title, status, detail⟩)

def apiError (type title : String) (status : Nat) (detail : String) : Err :=
  .api ⟨type, title, status, detail⟩

def notAMember : Err := apiError "forbidden" "Forbidden" 403 "You are not a conversation member"

/-! ## The operations -/

/-- `MAX_MESSAGE_BODY`. -/
def maxMessageBody : Nat := 8000

/-- `MAX_ATTACHMENTS`. -/
def maxAttachments : Nat := 10

def getConversationForUser (user : UserId) (conversationId : ConversationId) : Tx Conversation := do
  let conversation ← select fun d => d.conversation? conversationId
  match conversation with
  | none =>
    raiseApi "conversation_not_found" "Conversation not found" 404 "Conversation was not found"
  | some conversation =>
    require (conversation.members.contains user) notAMember
    pure conversation

/-- The messages of `c` after a sequence number, in order. -/
def Db.messagesAfter (d : Db) (c : ConversationId) (after : Int) : List Message :=
  ((d.messagesOf c).filter fun m => after < m.sequence).insertionSort
    fun x y => x.sequence ≤ y.sequence

def listMessages (user : UserId) (conversationId : ConversationId) (after limit : Int) :
    Tx (List Message) := do
  let _ ← getConversationForUser user conversationId
  require (0 ≤ after)
    (apiError "validation_error" "Invalid cursor" 422 "after must be non-negative")
  require (1 ≤ limit && limit ≤ 100)
    (apiError "validation_error" "Invalid limit" 422 "limit must be between 1 and 100")
  select fun d => (d.messagesAfter conversationId after).take limit.toNat

def checkAttachments (user : UserId) : List FileObject → Tx Unit
  | [] => pure ()
  | file :: files => do
    require (file.owner = user)
      (apiError "forbidden" "Forbidden" 403 "You can only attach files you own")
    require (file.status = .safe)
      (apiError "unsafe_attachment" "Unsafe attachment" 409 "Only SAFE files can be attached")
    require (file.purpose = .messageAttachment) (apiError "invalid_attachment_purpose"
      "Invalid attachment purpose" 409 "Only MESSAGE_ATTACHMENT files can be attached to messages")
    checkAttachments user files

/-- The ids of the files, in the order of the request. -/
def validatedAttachments (user : UserId) (attachmentIds : List FileId) : Tx (List FileId) :=
  if attachmentIds.isEmpty then pure []
  else do
    let files ← select fun d => d.files.filter fun x => x.id ∈ attachmentIds
    require (files.length = attachmentIds.length)
      (apiError "file_not_found" "File not found" 404 "One or more attachments were not found")
    checkAttachments user files
    pure attachmentIds

def sorted (ids : List FileId) : List FileId := ids.insertionSort (· ≤ ·)

def insertMessage (message : Message) : Tx Message := do
  write fun d => d.setNextSequence message.conversation (message.sequence + 1)
  reserve (.runtime "IntegrityError") (.message message.id) fun d => (d.message? message.id).isSome
  reserve (.runtime "IntegrityError") (.messageOf message.key)
    fun d => (d.messageOf? message.key).isSome
  reserve (.runtime "IntegrityError") (.sequence message.conversation message.sequence)
    fun d => (d.messagesOf message.conversation).any fun m => m.sequence = message.sequence
  write fun d => d.addMessage message
  commit (.sent message)
  let stored ← select fun d => d.message? message.id
  pure (stored.getD message)

def sendMessage (user : UserId) (conversationId : ConversationId) (clientMessageId body : String)
    (attachmentIds : List FileId) (id : MessageId) : Tx Message := do
  let normalizedClientId := strip clientMessageId
  let normalizedBody := strip body
  require (!(normalizedClientId.isEmpty || normalizedClientId.length > 80))
    (apiError "validation_error" "Invalid client message id" 422
      "client_message_id must be between 1 and 80 characters")
  require (normalizedBody.length ≤ maxMessageBody)
    (apiError "validation_error" "Message too long" 422 "Message body is too long")
  require (attachmentIds.length ≤ maxAttachments && attachmentIds.Nodup)
    (apiError "validation_error" "Invalid attachments" 422
      "A message may include at most 10 distinct attachments")
  require (!(normalizedBody.isEmpty && attachmentIds.isEmpty))
    (apiError "validation_error" "Empty message" 422 "A message needs body text or an attachment")
  let conversation ← selectForUpdate (fun c => .conversation c.id)
    fun d => d.conversation? conversationId
  match conversation with
  | none =>
    raiseApi "conversation_not_found" "Conversation not found" 404 "Conversation was not found"
  | some conversation =>
    require (conversation.members.contains user) notAMember
    let key : MessageKey := ⟨conversation.id, user, normalizedClientId⟩
    let prior ← select fun d => d.messageOf? key
    match prior with
    | some prior =>
      require (prior.body = normalizedBody && sorted prior.attachments = sorted attachmentIds)
        (apiError "client_message_id_reused" "Client message id reused" 409
          "client_message_id was already used for different message content")
      pure prior
    | none =>
      let attachments ← validatedAttachments user attachmentIds
      insertMessage ⟨id, key, conversation.nextSequence, normalizedBody, attachments⟩

/-! ## A polling client -/

/-- The largest sequence number among the messages received. -/
def latest (got : List Message) : Nat := (got.map Message.sequence).foldl max 0

/-- A client that asks again and again for what comes after the messages `got`, with the page sizes
`limits`, until an answer is empty. Every poll is a request of its own. -/
def poll (user : UserId) (conversationId : ConversationId) :
    List Int → List Message → Tx (List Message × Bool)
  | [], got => pure (got, false)
  | limit :: limits, got => do
    let page ← listMessages user conversationId (latest got) limit
    if page.isEmpty then pure (got, true)
    else
      rollback
      poll user conversationId limits (got ++ page)

end Messaging
