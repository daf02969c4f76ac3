import Freelancing.Messaging.Sessions

/-!
# Obligations of the messaging services

A message is committed under the lock of its conversation, together with the conversation's next
sequence number. So the sequence numbers of a conversation are `1, …, n - 1` in every committed
state (`Consistent.sequences`), and a message that has been committed stays as it is (`Frame`).
-/

namespace Messaging

open Money (UserId Err strip)
open Files (FileId)
open Txn (Law Mode View Sys Design Prog)
open Txn.Service

abbrev Move := Txn.Move Db (Txn.Point CommitPoint) Empty Empty Unit

abbrev TxView := View Db LockName Unit

/-! ## Commits -/

/-- What `send_message` checks of the request. -/
structure Message.Valid (m : Message) : Prop where
  clientId : (!(m.key.clientMessageId.isEmpty || m.key.clientMessageId.length > 80)) = true
  body : decide (m.body.length ≤ maxMessageBody) = true
  attachments : (m.attachments.length ≤ maxAttachments && m.attachments.Nodup : Bool) = true
  nonempty : (!(m.body.isEmpty && m.attachments.isEmpty)) = true

/-- The message has the next place of its conversation, which the session has locked. -/
structure Message.Next (held : Set LockName) (d : Db) (m : Message) : Prop where
  lock : .conversation m.conversation ∈ held
  conversation : ∃ c, d.conversation? m.conversation = some c ∧ m.sequence = c.nextSequence ∧
    m.key.sender ∈ c.members

inductive Effect (held : Set LockName) (d : Db) : CommitPoint → Db → Prop
  | sent (m : Message) (hvalid : m.Valid) (hnext : m.Next held d) (hkey : d.messageOf? m.key = none)
      (hl : .message m.id ∈ held) (hid : d.message? m.id = none) :
      Effect held d (.sent m) ((d.setNextSequence m.conversation (m.sequence + 1)).addMessage m)

structure Frame (held : Set LockName) (d d' : Db) : Prop where
  conversations : Table.Evolves Conversation.id (fun k => .conversation k ∈ held)
    (fun c c' => c'.members = c.members) d.conversations d'.conversations
  messages : Table.Evolves Message.id (fun k => .message k ∈ held) Eq d.messages d'.messages
  locked : ∀ c, .conversation c ∈ held → d'.messagesOf c = d.messagesOf c

structure Consistent (d : Db) : Prop where
  valid : ∀ m ∈ d.messages, m.Valid
  conversations : (d.conversations.map Conversation.id).Nodup
  messages : (d.messages.map Message.id).Nodup
  keys : (d.messages.map Message.key).Nodup
  first : ∀ c ∈ d.conversations, 1 ≤ c.nextSequence
  sequences : ∀ c ∈ d.conversations,
    ((d.messagesOf c.id).map Message.sequence).Perm (List.range' 1 (c.nextSequence - 1))
  senders : ∀ m ∈ d.messages, ∃ c, d.conversation? m.conversation = some c ∧
    m.key.sender ∈ c.members

section
variable {held held' : Set LockName} {d d' d'' : Db} {c : CommitPoint}
  {k : ConversationId} {m : Message}

theorem Db.mem_messagesOf : m ∈ d.messagesOf k ↔ m ∈ d.messages ∧ m.conversation = k := by
  simp [messagesOf]

theorem Db.messageOf?_eq_none {key : MessageKey} :
    d.messageOf? key = none ↔ ∀ m ∈ d.messagesOf key.conversation, m.key ≠ key := by
  rw [messageOf?, Table.get_eq_none]
  constructor
  · intro h m hm
    exact h m (mem_messagesOf.1 hm).1
  · intro h m hm he
    exact h m (mem_messagesOf.2 ⟨hm, by rw [Message.conversation, he]⟩) he

theorem Frame.refl (held : Set LockName) (d : Db) : Frame held d d :=
  ⟨.refl fun _ => rfl, .refl fun _ => rfl, fun _ _ => rfl⟩

theorem Frame.trans (h : Frame held d d') (h' : Frame held d' d'') : Frame held d d'' where
  conversations := h.conversations.trans (fun _ _ _ hx hy => hy.trans hx) h'.conversations
  messages := h.messages.trans (fun _ _ _ => Eq.trans) h'.messages
  locked c hc := (h'.locked c hc).trans (h.locked c hc)

theorem Frame.mono (hs : held' ⊆ held) (h : Frame held d d') : Frame held' d d' where
  conversations := h.conversations.mono fun _ hk => hs hk
  messages := h.messages.mono fun _ hk => hs hk
  locked c hc := h.locked c (hs hc)

theorem Consistent.conversation? (hd : Consistent d) {c : Conversation} (hc : c ∈ d.conversations) :
    d.conversation? c.id = some c := Table.get_of_mem hd.conversations hc

theorem Consistent.message? (hd : Consistent d) (hm : m ∈ d.messages) :
    d.message? m.id = some m := Table.get_of_mem hd.messages hm

theorem Consistent.messageOf? (hd : Consistent d) (hm : m ∈ d.messages) :
    d.messageOf? m.key = some m := Table.get_of_mem hd.keys hm

theorem Frame.mem (h : Frame held d d') (hd : Consistent d) (hm : m ∈ d.messages) :
    m ∈ d'.messages := Table.get_mem (h.messages.eq_of_eq (hd.message? hm))

/-- No message is committed to a locked conversation. -/
theorem Frame.messageOf (h : Frame held d d') {key : MessageKey}
    (hl : .conversation key.conversation ∈ held) (hk : d.messageOf? key = none) :
    d'.messageOf? key = none := by
  rw [Db.messageOf?_eq_none] at hk ⊢
  rwa [h.locked _ hl]

theorem messagesOf_addMessage (n : Nat) :
    ((d.setNextSequence m.conversation n).addMessage m).messagesOf k =
      if m.conversation = k then m :: d.messagesOf k else d.messagesOf k := by
  simp [Db.messagesOf, Db.addMessage, Db.setNextSequence, List.filter_cons]

theorem conversation?_addMessage (n : Nat) :
    ((d.setNextSequence m.conversation n).addMessage m).conversation? k =
      (d.conversation? k).map fun c =>
        if k = m.conversation then { c with nextSequence := n } else c :=
  Table.get_modify fun _ => rfl

@[simp] theorem message?_setNextSequence {id : MessageId} (n : Nat) :
    (d.setNextSequence k n).message? id = d.message? id := rfl

theorem Effect.frame (h : Effect held' d c d') (hdis : Disjoint held held') : Frame held d d' := by
  have hno : ∀ {k : LockName}, k ∈ held' → k ∉ held := fun hk hh =>
    Set.disjoint_left.1 hdis hh hk
  cases h with
  | sent m hvalid hnext hkey hl hid =>
    refine ⟨.modify (fun _ => rfl) (fun _ => rfl) (hno hnext.lock) fun _ _ => rfl,
      .cons (fun _ => rfl) (hno hl) hid, fun k hk => ?_⟩
    rw [messagesOf_addMessage, if_neg]
    intro he
    exact hno hnext.lock (he ▸ hk)

theorem Effect.consistent (hd : Consistent d) (h : Effect held d c d') : Consistent d' := by
  cases h with
  | sent m hvalid hnext hkey hl hid =>
    obtain ⟨c, hc, hseq, hmem⟩ := hnext.conversation
    have hcid : c.id = m.conversation := Table.get_key hc
    refine ⟨fun x hx => ?_, ?_, Table.nodup_map_cons hd.messages hid,
      Table.nodup_map_cons hd.keys hkey, fun x hx => ?_, fun x hx => ?_, fun x hx => ?_⟩
    · rcases List.mem_cons.1 hx with rfl | hx
      · exact hvalid
      · exact hd.valid x hx
    · refine (congrArg List.Nodup ?_).mpr hd.conversations
      exact Table.map_key_modify fun _ => rfl
    · obtain ⟨y, hy, rfl⟩ := Table.mem_modify.1 hx
      split
      · exact Nat.le_add_left 1 _
      · exact hd.first y hy
    · obtain ⟨y, hy, rfl⟩ := Table.mem_modify.1 hx
      by_cases hyc : y.id = m.conversation
      · -- the new message has the number that follows those of the conversation
        obtain rfl : y = c := Option.some.inj ((hd.conversation? hy).symm.trans (hyc ▸ hc))
        have hfirst := hd.first y hy
        rw [if_pos hyc, messagesOf_addMessage, if_pos hyc.symm, List.map_cons, hseq]
        rw [show y.nextSequence + 1 - 1 = (y.nextSequence - 1) + 1 by omega, List.range'_1_concat]
        rw [show 1 + (y.nextSequence - 1) = y.nextSequence by omega]
        exact ((hd.sequences y hy).cons _).trans (List.perm_append_singleton _ _).symm
      · rw [if_neg hyc, messagesOf_addMessage, if_neg (Ne.symm hyc)]
        exact hd.sequences y hy
    · obtain ⟨y, hy, hsender⟩ : ∃ y, d.conversation? x.conversation = some y ∧
          x.key.sender ∈ y.members := by
        rcases List.mem_cons.1 hx with rfl | hx
        · exact ⟨c, hc, hmem⟩
        · exact hd.senders x hx
      rw [conversation?_addMessage, hy]
      refine ⟨_, rfl, ?_⟩
      split <;> exact hsender

end

def messagingDesign : Design Db LockName CommitPoint Empty Empty Unit where
  Inv d _ := Consistent d
  Effect held c d d' _ := Effect held d c d'
  Asks _ _ _ _ _ := False
  Frame := Frame
  refl := .refl
  trans := .trans
  mono := .mono
  frame _ h := h.frame
  keeps hd h := h.consistent hd
  asks _ h := h.elim

/-! ## Obligations -/

section
variable {mode : Mode} {ok : Move → Prop} {i : Nat} {held : Set LockName}
  {pend : Db → Db} {b : Bool} {w : Db × Unit}

abbrev Obliged {β : Type} (mode : Mode) (ok : Move → Prop) (i : Nat) (p : Tx β) (v : TxView)
    (Q : TxView → β → Prop) : Prop :=
  (messagingDesign.law mode ok).wp i p v Q

abbrev Later (mode : Mode) (ok : Move → Prop) := messagingDesign.Later mode ok

theorem getConversationForUser_wp {user : UserId} {conversationId : ConversationId}
    {Q : TxView → Conversation → Prop}
    (h : ∀ w' c, Later mode ok held b w w' → Q ⟨held, pend, mode.inTxn, w'⟩ c) :
    Obliged mode ok i (getConversationForUser user conversationId) ⟨held, pend, b, w⟩ Q := by
  unfold getConversationForUser
  refine Law.wp_bind (Design.frames.wp_select fun w' hw => ?_)
  split
  · trivial
  · exact Law.wp_bind (Design.wp_require fun _ => h w' _ hw)

theorem listMessages_wp {user : UserId} {conversationId : ConversationId} {after limit : Int}
    {Q : TxView → List Message → Prop}
    (h : ∀ w', Frame held w.1 w'.1 → Consistent w'.1 → 1 ≤ limit →
      Q ⟨held, pend, mode.inTxn, w'⟩
        (((pend w'.1).messagesAfter conversationId after).take limit.toNat)) :
    Obliged mode ok i (listMessages user conversationId after limit) ⟨held, pend, b, w⟩ Q := by
  unfold listMessages
  refine Law.wp_bind (getConversationForUser_wp fun w₁ c hw₁ => ?_)
  refine Law.wp_bind
    (Design.wp_require fun hafter => Law.wp_bind (Design.wp_require fun hlimit => ?_))
  refine Design.frames.wp_select fun w₂ hw₂ => h w₂ (hw₁.frame.trans hw₂.frame) hw₂.inv ?_
  simp only [Bool.and_eq_true, decide_eq_true_eq] at hlimit
  exact hlimit.1

theorem checkAttachments_wp {user : UserId} {files : List Files.FileObject} {v : TxView}
    {Q : TxView → Unit → Prop} (h : Q v ()) :
    Obliged mode ok i (checkAttachments user files) v Q := by
  induction files with
  | nil => exact h
  | cons file files ih =>
    unfold checkAttachments
    refine Law.wp_bind (Design.wp_require fun _ => Law.wp_bind (Design.wp_require fun _ => ?_))
    exact Law.wp_bind (Design.wp_require fun _ => ih)

theorem validatedAttachments_wp {user : UserId} {ids : List FileId}
    {Q : TxView → List FileId → Prop}
    (h : ∀ b' w', Frame held w.1 w'.1 → Q ⟨held, pend, b', w'⟩ ids) :
    Obliged mode ok i (validatedAttachments user ids) ⟨held, pend, b, w⟩ Q := by
  unfold validatedAttachments
  split
  case isTrue hempty =>
    rw [List.isEmpty_iff] at hempty
    exact hempty ▸ h b w (.refl _ _)
  case isFalse =>
    refine Law.wp_bind (Design.frames.wp_select fun w₁ hw₁ => ?_)
    refine Law.wp_bind (Design.wp_require fun _ => Law.wp_bind (checkAttachments_wp ?_))
    exact h _ w₁ hw₁.frame

theorem insertMessage_wp {m : Message} {Q : TxView → Message → Prop} (hvalid : m.Valid)
    (hnext : m.Next held w.1) (hkey : w.1.messageOf? m.key = none)
    (h : ∀ v, m ∈ v.world.1.messages → Consistent v.world.1 → Q v m) :
    Obliged mode ok i (insertMessage m) ⟨held, id, b, w⟩ Q := by
  unfold insertMessage
  refine Law.wp_bind (Design.wp_write (Law.wp_bind (Design.wp_reserve fun w₁ hw₁ hid => ?_)))
  refine Law.wp_bind
    (Design.wp_reserve fun w₂ hw₂ _ => Law.wp_bind (Design.wp_reserve fun w₃ hw₃ _ => ?_))
  refine Law.wp_bind
    (Design.wp_write (Law.wp_bind (Design.wp_commit (fun w₄ hw₄ => ?_) fun w₄ _ hinv => ?_)))
  · have h₂ := hw₂.frame
    have h₃ := hw₃.frame
    have h₄ := hw₄.frame
    have hmono : ∀ {a : LockName} {l : Set LockName}, l ⊆ insert a l :=
      fun {a l} => Set.subset_insert a l
    have hframe : Frame held w.1 w₄.1 := ((hw₁.frame.trans (h₂.mono hmono)).trans
      (h₃.mono (hmono.trans hmono))).trans (h₄.mono ((hmono.trans hmono).trans hmono))
    obtain ⟨c, hc, hseq, hmem⟩ := hnext.conversation
    refine .sent m hvalid ⟨by simp [hnext.lock], c, ?_, hseq, hmem⟩ ?_ (by simp) ?_
    · exact (hframe.conversations.own _ hnext.lock).trans hc
    · exact hframe.messageOf hnext.lock hkey
    · have hid₁ : w₁.1.message? m.id = none := by simpa using hid
      exact (h₄.messages.own _ (by simp)).trans ((h₃.messages.own _ (by simp)).trans
        ((h₂.messages.own _ (by simp)).trans hid₁))
  · -- the message read again is the one that was committed
    refine Law.wp_bind (Design.frames.wp_select fun w₅ hw₅ => ?_)
    have hmem : m ∈ w₅.1.messages := hw₅.frame.mem hinv List.mem_cons_self
    have hread : w₅.1.message? m.id = some m := Consistent.message? hw₅.inv hmem
    change Q _ ((w₅.1.message? m.id).getD m)
    rw [hread]
    exact h _ hmem hw₅.inv

/-- A message is what a request asked for. -/
structure Message.Asked (m : Message) (key : MessageKey) (body : String)
    (attachments : List FileId) : Prop where
  key : m.key = key
  body : m.body = body
  attachments : sorted m.attachments = sorted attachments

theorem sendMessage_wp {user : UserId} {conversationId : ConversationId}
    {clientMessageId body : String} {attachmentIds : List FileId} {id' : MessageId}
    {Q : TxView → Message → Prop}
    (h : ∀ v m, m ∈ v.world.1.messages → Consistent v.world.1 →
      m.Asked ⟨conversationId, user, strip clientMessageId⟩ (strip body) attachmentIds → Q v m) :
    Obliged mode ok i (sendMessage user conversationId clientMessageId body attachmentIds id')
      ⟨∅, id, b, w⟩ Q := by
  unfold sendMessage
  generalize strip clientMessageId = clientId at h ⊢
  generalize strip body = normalizedBody at h ⊢
  refine Law.wp_bind
    (Design.wp_require fun hclientId => Law.wp_bind (Design.wp_require fun hbody => ?_))
  refine Law.wp_bind
    (Design.wp_require fun hatt => Law.wp_bind (Design.wp_require fun hnonempty => ?_))
  refine Law.wp_bind
    (Design.frames.wp_selectForUpdate (fun w₁ hw₁ hn => trivial) fun w₁ c hw₁ hc => ?_)
  obtain rfl : c.id = conversationId := Table.get_key hc
  refine Law.wp_bind (Design.wp_require fun hmem => ?_)
  refine Law.wp_bind (Design.frames.wp_select fun w₂ hw₂ => ?_)
  split
  · rename_i prior hp
    refine Law.wp_bind (Design.wp_require fun hsame => ?_)
    rw [Bool.and_eq_true, decide_eq_true_iff, decide_eq_true_iff] at hsame
    exact h _ prior (Table.get_mem hp) hw₂.inv ⟨Table.get_key hp, hsame.1, hsame.2⟩
  · rename_i hp
    refine Law.wp_bind (validatedAttachments_wp fun b' w₃ hw₃ => ?_)
    have hl : LockName.conversation c.id ∈ insert (LockName.conversation c.id) (∅ : Set LockName) :=
      .inl rfl
    have hframe := hw₂.frame.trans hw₃
    refine insertMessage_wp ⟨hclientId, hbody, hatt, hnonempty⟩ ⟨hl, c, ?_, rfl, ?_⟩ ?_
      fun v hm hd => h v _ hm hd ⟨rfl, rfl, rfl⟩
    · exact (hframe.conversations.own _ hl).trans hc
    · exact List.contains_iff_mem.1 hmem
    · exact hw₃.messageOf hl hp

end

/-! ## What a request commits -/

theorem checkAttachments_queries {user : UserId} {files : List Files.FileObject} :
    (checkAttachments user files).Queries := by
  induction files with
  | nil => trivial
  | cons file files ih =>
    unfold checkAttachments
    exact queries_require fun _ => queries_require fun _ => queries_require fun _ => ih

theorem getConversationForUser_queries {user : UserId} {c : ConversationId} :
    (getConversationForUser user c).Queries := by
  unfold getConversationForUser
  intro d
  dsimp only [Prog.bind]
  cases d.conversation? c with
  | none => trivial
  | some conversation => exact queries_require fun _ => trivial

theorem poll_queries {user : UserId} {c : ConversationId} {limits : List Int} {got : List Message} :
    (poll user c limits got).Queries := by
  induction limits generalizing got with
  | nil => trivial
  | cons limit limits ih =>
    unfold poll listMessages
    refine Prog.Queries.bind (Prog.Queries.bind getConversationForUser_queries fun _ => ?_)
      fun page => ?_
    · exact queries_require fun _ => queries_require fun _ => fun _ => trivial
    · split
      · trivial
      · exact ih

theorem sendMessage_only {user : UserId} {c : ConversationId} {clientMessageId body : String}
    {attachmentIds : List FileId} {id : MessageId} :
    (sendMessage user c clientMessageId body attachmentIds id).CommitsOnly fun p =>
      ∃ m : Message, p = .commit (.sent m) ∧
        m.Asked ⟨c, user, strip clientMessageId⟩ (strip body) attachmentIds := by
  unfold sendMessage
  refine only_require fun _ => only_require fun _ => only_require fun _ => only_require fun _ => ?_
  refine only_selectForUpdate fun d => ?_
  split
  · trivial
  · rename_i conversation hc
    have hid : conversation.id = c := Table.get_key hc
    refine only_require fun _ => only_select fun d => ?_
    split
    · exact only_require fun _ => trivial
    · have hinsert : ∀ n, (insertMessage ⟨id, ⟨conversation.id, user, strip clientMessageId⟩, n,
          strip body, attachmentIds⟩).CommitsOnly fun p => ∃ m : Message, p = .commit (.sent m) ∧
            m.Asked ⟨c, user, strip clientMessageId⟩ (strip body) attachmentIds := by
        intro n
        refine only_write (only_reserve
          (only_reserve (only_reserve (only_write (only_commit ?_ ?_)))))
        · exact ⟨_, rfl, by rw [hid], rfl, rfl⟩
        · exact fun _ => trivial
      unfold validatedAttachments
      split
      · rename_i hempty
        rw [List.isEmpty_iff] at hempty
        subst hempty
        exact hinsert _
      · simp only [bind_assoc, pure_bind]
        refine only_select fun d => only_require fun _ => ?_
        exact checkAttachments_queries.commitsOnly.bind fun _ => hinsert _

end Messaging
