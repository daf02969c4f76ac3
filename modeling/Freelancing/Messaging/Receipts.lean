import Freelancing.Messaging.Steps
import Freelancing.Txn.Zoom

/-!
# Receipts

`mark_delivered` and `mark_read` of `app/messaging/service.py`, over the conversations of
`Messaging.Db` with the read cursors of their members and the receipts of their messages.
-/

namespace Messaging

open Money (UserId Err)
open Files (FileId)
open Txn (Lens)
open Txn.Service

/-! ## Rows -/

inductive ReceiptType
  | delivered
  | read
  deriving DecidableEq

/-- A row of `message_receipts`, which is unique on all of these columns. -/
structure Receipt where
  message : MessageId
  user : UserId
  type : ReceiptType
  deriving DecidableEq

/-- The conversations, the column `last_read_sequence` of `conversation_members` and the table
`message_receipts`. -/
structure Inbox where
  chat : Db
  lastReadSequence : ConversationId × UserId → Nat
  receipts : List Receipt

def Inbox.addReceipt (d : Inbox) (r : Receipt) : Inbox := { d with receipts := r :: d.receipts }

def Inbox.addReceipts (d : Inbox) (rs : List Receipt) : Inbox := rs.foldl Inbox.addReceipt d

def Inbox.setLastReadSequence (d : Inbox) (k : ConversationId × UserId) (n : Nat) : Inbox :=
  { d with lastReadSequence := Function.update d.lastReadSequence k n }

/-! ## Database sessions -/

inductive InboxLock
  | chat (k : LockName)
  | member (k : ConversationId × UserId)
  | receipt (r : Receipt)
  deriving DecidableEq

/-- What a call has marked: the member, how far, and whether as read. -/
structure Mark where
  conversation : ConversationId
  user : UserId
  through : Nat
  read : Bool

inductive InboxCommit
  | sent (m : Message)
  | marked (x : Mark) (receipts : List Receipt)

abbrev InboxTx := Txn.Prog Inbox InboxLock (Txn.Point InboxCommit) Empty Empty Err

def chatPart : Lens Inbox Db where
  get d := d.chat
  set c d := { d with chat := c }
  get_set _ _ := rfl
  set_get _ := rfl
  set_set _ _ _ := rfl

def chatPoint : Txn.Point CommitPoint → Txn.Point InboxCommit
  | .stmt => .stmt
  | .commit (.sent m) => .commit (.sent m)

/-- An operation on the conversations alone. -/
def chatting {β : Type} (p : Tx β) : InboxTx β := p.zoom chatPart .chat chatPoint

/-! ## The operations -/

/-- The receipts of the user for the messages, less those that exist. -/
def newReceipts (user : UserId) (messages : List Message) (receiptTypes : List ReceiptType)
    (existing : List Receipt) : List Receipt :=
  messages.flatMap fun m =>
    (receiptTypes.map fun t => ⟨m.id, user, t⟩).filter fun r => !existing.contains r

def addAll : List Receipt → InboxTx Unit
  | [] => pure ()
  | r :: rs => do
    reserve (.runtime "IntegrityError") (.receipt r) fun d => d.receipts.contains r
    write fun d => d.addReceipt r
    addAll rs

/-- `messages` of `_mark_receipts`. -/
def Db.messagesThrough (d : Db) (c : ConversationId) (user : UserId) (through : Nat) :
    List Message :=
  (d.messagesOf c).filter fun m => m.sequence ≤ through && m.key.sender ≠ user

/-- `existing` of `_mark_receipts`. -/
def existingReceipts (user : UserId) (messages : List Message) (receiptTypes : List ReceiptType) :
    InboxTx (List Receipt) :=
  if messages.isEmpty then pure []
  else select fun d => d.receipts.filter fun r => r.user = user && receiptTypes.contains r.type &&
    (messages.map Message.id).contains r.message

def moveCursor (updateReadCursor : Bool) (k : ConversationId × UserId) (n : Nat) : InboxTx Unit :=
  if updateReadCursor then update (.member k) fun d => d.setLastReadSequence k n else pure ()

def markReceipts (user : UserId) (conversationId : ConversationId) (throughSequence : Int)
    (receiptTypes : List ReceiptType) (updateReadCursor : Bool) : InboxTx Int := do
  let conversation ← selectForUpdate (fun c => .chat (.conversation c.id))
    fun d => d.chat.conversation? conversationId
  match conversation with
  | none =>
    raise (apiError "conversation_not_found" "Conversation not found" 404
      "Conversation was not found")
  | some conversation =>
    let lastReadSequence ← select fun d => d.lastReadSequence (conversation.id, user)
    require (conversation.members.contains user) notAMember
    let maxSequence : Int := max 0 ((conversation.nextSequence : Int) - 1)
    require (!(throughSequence < 0 || throughSequence > maxSequence))
      (apiError "validation_error" "Invalid receipt cursor" 422 "through_sequence is out of range")
    if updateReadCursor && throughSequence ≤ lastReadSequence then pure lastReadSequence
    else
      let through := throughSequence.toNat
      let messages ← select fun d => d.chat.messagesThrough conversation.id user through
      let existing ← existingReceipts user messages receiptTypes
      let receipts := newReceipts user messages receiptTypes existing
      addAll receipts
      moveCursor updateReadCursor (conversation.id, user) through
      commit (.marked ⟨conversation.id, user, through, updateReadCursor⟩ receipts)
      pure throughSequence

def markDelivered (user : UserId) (conversationId : ConversationId) (throughSequence : Int) :
    InboxTx Int :=
  markReceipts user conversationId throughSequence [.delivered] false

def markRead (user : UserId) (conversationId : ConversationId) (throughSequence : Int) :
    InboxTx Int :=
  markReceipts user conversationId throughSequence [.delivered, .read] true

/-! ## The cursors and the receipts -/

def Mark.types (x : Mark) : List ReceiptType := if x.read then [.delivered, .read] else [.delivered]

/-- The receipts that a mark adds. -/
structure Mark.Adds (x : Mark) (d : Inbox) (rs : List Receipt) : Prop where
  nodup : rs.Nodup
  mem : ∀ r, r ∈ rs ↔ r ∉ d.receipts ∧ r.user = x.user ∧ r.type ∈ x.types ∧
    ∃ m ∈ d.chat.messagesThrough x.conversation x.user x.through, m.id = r.message

/-- The member and the place that a mark is about, the conversation locked by the session. -/
structure Mark.Fits (x : Mark) (held : Set InboxLock) (d : Inbox) : Prop where
  lock : .chat (.conversation x.conversation) ∈ held
  conversation : ∃ c, d.chat.conversation? x.conversation = some c ∧ x.user ∈ c.members ∧
    x.through ≤ c.nextSequence - 1
  ahead : x.read = true → d.lastReadSequence (x.conversation, x.user) < x.through

def Inbox.mark (d : Inbox) (x : Mark) (rs : List Receipt) : Inbox :=
  let d := d.addReceipts rs
  if x.read then d.setLastReadSequence (x.conversation, x.user) x.through else d

inductive InboxEffect (held : Set InboxLock) (d : Inbox) : InboxCommit → Inbox → Prop
  | sent (m : Message) (c : Db) (h : Effect (Txn.Law.part .chat held) d.chat (.sent m) c) :
      InboxEffect held d (.sent m) { d with chat := c }
  | marked (x : Mark) (rs : List Receipt) (hx : x.Fits held d) (hrs : x.Adds d rs) :
      InboxEffect held d (.marked x rs) (d.mark x rs)

structure InboxFrame (held : Set InboxLock) (d d' : Inbox) : Prop where
  chat : Frame (Txn.Law.part .chat held) d.chat d'.chat
  cursor : ∀ k, d.lastReadSequence k ≤ d'.lastReadSequence k
  receipts : d.receipts ⊆ d'.receipts
  lockedCursor : ∀ k, .chat (.conversation k.1) ∈ held →
    d'.lastReadSequence k = d.lastReadSequence k
  lockedReceipts : ∀ c, .chat (.conversation c) ∈ held → ∀ m ∈ d.chat.messagesOf c, ∀ r,
    r.message = m.id → r ∈ d'.receipts → r ∈ d.receipts

/-- **The cursors and the receipts agree.** -/
structure InboxConsistent (d : Inbox) : Prop where
  chat : Consistent d.chat
  unique : d.receipts.Nodup
  others : ∀ r ∈ d.receipts, ∃ m ∈ d.chat.messages, m.id = r.message ∧ m.key.sender ≠ r.user ∧
    ∃ c, d.chat.conversation? m.conversation = some c ∧ r.user ∈ c.members
  delivered : ∀ r ∈ d.receipts, { r with type := .delivered } ∈ d.receipts
  cursor : ∀ c ∈ d.chat.conversations, ∀ u, d.lastReadSequence (c.id, u) ≤ c.nextSequence - 1
  through : ∀ m ∈ d.chat.messages, ∀ u, m.key.sender ≠ u →
    m.sequence ≤ d.lastReadSequence (m.conversation, u) → ∀ t, ⟨m.id, u, t⟩ ∈ d.receipts

section
variable {held held' : Set InboxLock} {d d' d'' : Inbox} {c : InboxCommit} {x : Mark}
  {rs : List Receipt} {r : Receipt}

@[simp] theorem chat_addReceipts : (d.addReceipts rs).chat = d.chat := by
  induction rs generalizing d with
  | nil => rfl
  | cons r rs ih => exact ih

@[simp] theorem lastReadSequence_addReceipts :
    (d.addReceipts rs).lastReadSequence = d.lastReadSequence := by
  induction rs generalizing d with
  | nil => rfl
  | cons r rs ih => exact ih

theorem receipts_addReceipts : (d.addReceipts rs).receipts = rs.reverse ++ d.receipts := by
  induction rs generalizing d with
  | nil => rfl
  | cons r rs ih =>
    change ((d.addReceipt r).addReceipts rs).receipts = _
    rw [ih, List.reverse_cons, List.append_assoc]
    rfl

@[simp] theorem chat_mark : (d.mark x rs).chat = d.chat := by
  unfold Inbox.mark
  split <;> simp [Inbox.setLastReadSequence]

theorem receipts_mark : (d.mark x rs).receipts = rs.reverse ++ d.receipts := by
  rw [← receipts_addReceipts]
  unfold Inbox.mark
  split <;> rfl

theorem mem_receipts_mark : r ∈ (d.mark x rs).receipts ↔ r ∈ rs ∨ r ∈ d.receipts := by
  rw [receipts_mark, List.mem_append, List.mem_reverse]

theorem lastReadSequence_mark (k : ConversationId × UserId) :
    (d.mark x rs).lastReadSequence k =
      if x.read = true ∧ k = (x.conversation, x.user) then x.through else d.lastReadSequence k := by
  unfold Inbox.mark
  by_cases hread : x.read
  · simp [hread, Inbox.setLastReadSequence, Function.update_apply]
  · simp [hread]

theorem mem_messagesThrough {d : Db} {k : ConversationId} {u : UserId} {n : Nat} {m : Message} :
    m ∈ d.messagesThrough k u n ↔ m ∈ d.messagesOf k ∧ m.sequence ≤ n ∧ m.key.sender ≠ u := by
  simp [Db.messagesThrough]

theorem InboxFrame.refl (held : Set InboxLock) (d : Inbox) : InboxFrame held d d :=
  ⟨.refl _ _, fun _ => le_rfl, fun _ h => h, fun _ _ => rfl, fun _ _ _ _ _ _ h => h⟩

theorem InboxFrame.trans (h : InboxFrame held d d') (h' : InboxFrame held d' d'') :
    InboxFrame held d d'' where
  chat := h.chat.trans h'.chat
  cursor k := (h.cursor k).trans (h'.cursor k)
  receipts _ hr := h'.receipts (h.receipts hr)
  lockedCursor k hk := (h'.lockedCursor k hk).trans (h.lockedCursor k hk)
  lockedReceipts c hc m hm r hr hd := by
    refine h.lockedReceipts c hc m hm r hr (h'.lockedReceipts c hc m ?_ r hr hd)
    rwa [h.chat.locked c hc]

theorem InboxFrame.mono (hs : held' ⊆ held) (h : InboxFrame held d d') : InboxFrame held' d d' where
  chat := h.chat.mono fun _ hk => hs hk
  cursor := h.cursor
  receipts := h.receipts
  lockedCursor k hk := h.lockedCursor k (hs hk)
  lockedReceipts c hc := h.lockedReceipts c (hs hc)

/-- A cursor does not go back. -/
theorem Mark.Fits.cursor_le (hx : x.Fits held d) (k : ConversationId × UserId) :
    d.lastReadSequence k ≤ (d.mark x rs).lastReadSequence k := by
  rw [lastReadSequence_mark]
  split
  · rename_i hk
    obtain ⟨hread, rfl⟩ := hk
    exact (hx.ahead hread).le
  · exact le_rfl

theorem InboxEffect.frame (hd : InboxConsistent d) (h : InboxEffect held' d c d')
    (hdis : Disjoint held held') : InboxFrame held d d' := by
  have hno : ∀ {k : InboxLock}, k ∈ held' → k ∉ held := fun hk hh =>
    Set.disjoint_left.1 hdis hh hk
  cases h with
  | sent m e heff =>
    have hpart : Disjoint (Txn.Law.part InboxLock.chat held) (Txn.Law.part InboxLock.chat held') :=
      Set.disjoint_left.2 fun _ hk hk' => hno hk' hk
    exact ⟨heff.frame hpart, fun _ => le_rfl, fun _ hr => hr, fun _ _ => rfl,
      fun _ _ _ _ _ _ hr => hr⟩
  | marked x rs hx hrs =>
    have hne : ∀ {k : ConversationId}, .chat (.conversation k) ∈ held → k ≠ x.conversation := by
      intro k hk he
      exact hno hx.lock (he ▸ hk)
    refine ⟨by rw [chat_mark]; exact .refl _ _, hx.cursor_le, fun r hr => ?_, fun k hk => ?_,
      fun k hk m hm r hr hmem => ?_⟩
    · exact mem_receipts_mark.2 (.inr hr)
    · rw [lastReadSequence_mark, if_neg]
      rintro ⟨-, rfl⟩
      exact hne hk rfl
    · refine (mem_receipts_mark.1 hmem).resolve_left fun hnew => ?_
      -- a new receipt is for a message of the conversation that was marked
      obtain ⟨-, -, -, m', hm', hid⟩ := (hrs.mem r).1 hnew
      obtain ⟨hmdb, hmk⟩ := Db.mem_messagesOf.1 hm
      obtain ⟨hmdb', hmk'⟩ := Db.mem_messagesOf.1 (mem_messagesThrough.1 hm').1
      have hsame : m = m' := by
        have hget := hd.chat.message? hmdb
        rw [← hr, ← hid, hd.chat.message? hmdb'] at hget
        exact (Option.some.inj hget).symm
      exact hne hk (by rw [← hmk, ← hmk', hsame])

/-! ## What a commit keeps -/

/-- A receipt that the mark is about is there afterwards. -/
theorem Mark.Adds.mem_mark {m : Message} (hrs : x.Adds d rs)
    (hm : m ∈ d.chat.messagesThrough x.conversation x.user x.through) {t : ReceiptType}
    (ht : t ∈ x.types) : ⟨m.id, x.user, t⟩ ∈ (d.mark x rs).receipts := by
  rw [mem_receipts_mark]
  by_cases hold : (⟨m.id, x.user, t⟩ : Receipt) ∈ d.receipts
  · exact .inr hold
  · exact .inl ((hrs.mem _).2 ⟨hold, rfl, ht, m, hm, rfl⟩)

theorem consistent_sent {m : Message} {e : Db} (hd : InboxConsistent d)
    (h : Effect (Txn.Law.part .chat held) d.chat (.sent m) e) :
    InboxConsistent { d with chat := e } := by
  have hchat := h.consistent hd.chat
  generalize hc : CommitPoint.sent m = c at h
  cases h with
  | sent m' hvalid hnext hkey hl hid =>
    cases hc
    obtain ⟨c, hc, hseq, -⟩ := hnext.conversation
    have hcid : c.id = m.conversation := Table.get_key hc
    have hfirst := hd.chat.first c (Table.get_mem hc)
    have hcursor := hd.cursor c (Table.get_mem hc)
    refine ⟨hchat, hd.unique, fun r hr => ?_, hd.delivered, fun y hy u => ?_,
      fun y hy u hu hle t => ?_⟩
    · obtain ⟨y, hy, hid, hsender, k, hk, hmem⟩ := hd.others r hr
      refine ⟨y, List.mem_cons_of_mem _ hy, hid, hsender, ?_⟩
      change ∃ c, Db.conversation? (Db.addMessage _ m) y.conversation = some c ∧ _
      rw [conversation?_addMessage, hk]
      refine ⟨_, rfl, ?_⟩
      split <;> exact hmem
    · obtain ⟨z, hz, rfl⟩ := Table.mem_modify.1 hy
      by_cases hzc : z.id = m.conversation
      · obtain rfl : z = c := Option.some.inj ((hd.chat.conversation? hz).symm.trans (hzc ▸ hc))
        have := hcursor u
        rw [if_pos hzc]
        change d.lastReadSequence (z.id, u) ≤ m.sequence + 1 - 1
        omega
      · rw [if_neg hzc]
        exact hd.cursor z hz u
    · rcases List.mem_cons.1 hy with rfl | hy
      · -- the new message is ahead of every cursor
        have := hcursor u
        rw [hcid] at this
        change y.sequence ≤ d.lastReadSequence (y.conversation, u) at hle
        omega
      · exact hd.through y hy u hu hle t

theorem consistent_marked (hd : InboxConsistent d) (hx : x.Fits held d) (hrs : x.Adds d rs) :
    InboxConsistent (d.mark x rs) := by
  obtain ⟨c, hc, hmember, hle⟩ := hx.conversation
  have hcid : c.id = x.conversation := Table.get_key hc
  refine ⟨by rw [chat_mark]; exact hd.chat, ?_, fun r hr => ?_, fun r hr => ?_, fun y hy u => ?_,
    fun m hm u hu hle t => ?_⟩
  · rw [receipts_mark, List.nodup_append]
    refine ⟨List.nodup_reverse.2 hrs.nodup, hd.unique, fun r hr r' hr' he => ?_⟩
    exact ((hrs.mem r).1 (List.mem_reverse.1 hr)).1 (he ▸ hr')
  · rw [chat_mark]
    rcases mem_receipts_mark.1 hr with hr | hr
    · obtain ⟨-, huser, -, m, hm, hid⟩ := (hrs.mem r).1 hr
      obtain ⟨hmc, -, hsender⟩ := mem_messagesThrough.1 hm
      obtain ⟨hmdb, hmk⟩ := Db.mem_messagesOf.1 hmc
      exact ⟨m, hmdb, hid, huser ▸ hsender, c, by rw [hmk]; exact hc, huser ▸ hmember⟩
    · exact hd.others r hr
  · rcases mem_receipts_mark.1 hr with hr | hr
    · obtain ⟨-, huser, -, m, hm, hid⟩ := (hrs.mem r).1 hr
      rw [← hid, huser]
      exact hrs.mem_mark hm (by unfold Mark.types; split <;> simp)
    · exact mem_receipts_mark.2 (.inr (hd.delivered r hr))
  · rw [chat_mark] at hy
    rw [lastReadSequence_mark]
    split
    · rename_i hk
      have hyc : y.id = x.conversation := congrArg Prod.fst hk.2
      obtain rfl : y = c := Option.some.inj ((hd.chat.conversation? hy).symm.trans (hyc ▸ hc))
      exact hle
    · exact hd.cursor y hy u
  · rw [chat_mark] at hm
    rw [lastReadSequence_mark] at hle
    split at hle
    · rename_i hk
      obtain ⟨hread, hk⟩ := hk
      obtain ⟨hmc, rfl⟩ := Prod.mk.inj hk
      refine hrs.mem_mark (mem_messagesThrough.2 ⟨Db.mem_messagesOf.2 ⟨hm, hmc⟩, hle, hu⟩) ?_
      rw [Mark.types, if_pos hread]
      cases t <;> simp
    · exact mem_receipts_mark.2 (.inr (hd.through m hm u hu hle t))

theorem InboxEffect.consistent (hd : InboxConsistent d) (h : InboxEffect held d c d') :
    InboxConsistent d' := by
  cases h with
  | sent m e heff => exact consistent_sent hd heff
  | marked x rs hx hrs => exact consistent_marked hd hx hrs

end

end Messaging
