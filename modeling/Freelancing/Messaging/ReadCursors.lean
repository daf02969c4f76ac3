import Freelancing.Messaging.Delivery
import Freelancing.Messaging.Receipts

/-!
# Read cursors and receipts

Every call on the receipts locks its conversation first, so what it has read of the messages, the
cursor and the receipts of the conversation is still so when it commits, and its commit is a mark
(`InboxEffect.marked`). A message is sent as before, beside the receipts (`covers`).
-/

namespace Messaging

open Money (UserId Err strip)
open Files (FileId)
open Txn (Law Mode View Sys Design Prog)
open Txn.Service

abbrev InboxMove := Txn.Move Inbox (Txn.Point InboxCommit) Empty Empty Unit

abbrev InboxView := View Inbox InboxLock Unit

def inboxDesign : Design Inbox InboxLock InboxCommit Empty Empty Unit where
  Inv d _ := InboxConsistent d
  Effect held c d d' _ := InboxEffect held d c d'
  Asks _ _ _ _ _ := False
  Frame := InboxFrame
  refl := .refl
  trans := .trans
  mono := .mono
  frame hd h := h.frame hd
  keeps hd h := h.consistent hd
  asks _ h := h.elim

/-! ## Obligations -/

section
variable {mode : Mode} {ok : InboxMove → Prop} {i : Nat} {held : Set InboxLock}
  {pend : Inbox → Inbox} {b : Bool} {w : Inbox × Unit} {user : UserId} {messages : List Message}
  {types : List ReceiptType} {existing rs : List Receipt} {r : Receipt}

abbrev InboxObliged {β : Type} (mode : Mode) (ok : InboxMove → Prop) (i : Nat) (p : InboxTx β)
    (v : InboxView) (Q : InboxView → β → Prop) : Prop :=
  (inboxDesign.law mode ok).wp i p v Q

/-- What happens to the conversations of the inboxes happens in `messagingDesign`. -/
theorem covers : Law.Covers chatPart InboxLock.chat chatPoint (inboxDesign.law mode ok)
    (messagingDesign.law mode fun _ => True) where
  inj _ _ h := InboxLock.chat.inj h
  mode := rfl
  inv h := h.chat
  ok _ := trivial
  okCall _ := trivial
  claims _ := trivial
  calls h := h.elim
  call _ _ h := h.elim
  commits hd _ h := by
    obtain ⟨c, -, -, heff⟩ := h
    cases heff with
    | sent m e heff => exact .inr ⟨_, .sent m, rfl, hd.chat, heff⟩
    | marked x rs => exact .inl chat_mark
  commit hd _ h := by
    obtain ⟨c, rfl, -, heff⟩ := h
    cases c with
    | sent m => exact ⟨consistent_sent hd heff, .sent m, rfl, hd, .sent m _ heff⟩

theorem chatting_wp {β : Type} {p : Tx β}
    (h : Obliged mode (fun _ => True) i p ⟨∅, id, b, (w.1.chat, w.2)⟩ fun _ _ => True) :
    InboxObliged mode ok i (chatting p) ⟨∅, id, b, w⟩ fun _ _ => True :=
  Law.wp_mono (Law.wp_zoom covers ⟨rfl, fun _ => rfl, rfl, rfl⟩ h) fun _ _ _ => trivial

theorem mem_newReceipts : r ∈ newReceipts user messages types existing ↔
    r ∉ existing ∧ r.user = user ∧ r.type ∈ types ∧ ∃ m ∈ messages, m.id = r.message := by
  obtain ⟨message, u, t⟩ := r
  simp only [newReceipts, List.mem_flatMap, List.mem_filter, List.mem_map, Bool.not_eq_true',
    Receipt.mk.injEq, List.contains_eq_mem, decide_eq_false_iff_not]
  constructor
  · rintro ⟨m, hm, ⟨t', ht, hid, rfl, rfl⟩, hno⟩
    exact ⟨hno, rfl, ht, m, hm, hid⟩
  · rintro ⟨hno, rfl, ht, m, hm, hid⟩
    exact ⟨m, hm, ⟨t, ht, hid, rfl, rfl⟩, hno⟩

theorem nodup_newReceipts (hm : (messages.map Message.id).Nodup) (ht : types.Nodup) :
    (newReceipts user messages types existing).Nodup := by
  induction messages with
  | nil => exact List.nodup_nil
  | cons m messages ih =>
    rw [List.map_cons, List.nodup_cons] at hm
    change (_ ++ newReceipts user messages types existing).Nodup
    refine List.nodup_append.2 ⟨?_, ih hm.2, fun r hr r' hr' he => hm.1 ?_⟩
    · refine (List.Nodup.map (fun t t' h => ?_) ht).filter _
      exact (Receipt.mk.inj h).2.2
    · obtain ⟨t, -, rfl⟩ := List.mem_map.1 (List.mem_of_mem_filter hr)
      obtain ⟨-, -, -, m', hm', hid⟩ := mem_newReceipts.1 hr'
      rw [← he] at hid
      exact List.mem_map.2 ⟨m', hm', hid⟩

theorem addAll_wp {Q : InboxView → Unit → Prop}
    (h : ∀ held' b' w', held ⊆ held' → InboxFrame held w.1 w'.1 →
      Q ⟨held', fun d => (pend d).addReceipts rs, b', w'⟩ ()) :
    InboxObliged mode ok i (addAll rs) ⟨held, pend, b, w⟩ Q := by
  induction rs generalizing held pend b w with
  | nil => exact h held b w subset_rfl (.refl _ _)
  | cons r rs ih =>
    unfold addAll
    refine Law.wp_bind (Design.wp_reserve fun w₁ hw₁ _ => Law.wp_bind (Design.wp_write ?_))
    refine ih fun held' b' w' hs hf => ?_
    have hsub : held ⊆ insert (InboxLock.receipt r) held := Set.subset_insert _ _
    exact h held' b' w' (hsub.trans hs) (hw₁.frame.trans (hf.mono hsub))

theorem moveCursor_wp {read : Bool} {k : ConversationId × UserId} {n : Nat}
    {Q : InboxView → Unit → Prop}
    (h : ∀ held' b' w', held ⊆ held' → InboxFrame held w.1 w'.1 →
      Q ⟨held', fun d => if read then (pend d).setLastReadSequence k n else pend d, b', w'⟩ ()) :
    InboxObliged mode ok i (moveCursor read k n) ⟨held, pend, b, w⟩ Q := by
  unfold moveCursor
  cases read with
  | true =>
    refine Design.frames.wp_update fun w₁ hw₁ => ?_
    exact h _ _ w₁ (Set.subset_insert _ _) hw₁.frame
  | false => exact h held b w subset_rfl (.refl _ _)

/-- A receipt of the user for one of the messages exists just when it has been read. -/
def Existing (d : Inbox) (user : UserId) (messages : List Message) (types : List ReceiptType)
    (existing : List Receipt) : Prop :=
  ∀ r, r.user = user → r.type ∈ types → (∃ m ∈ messages, m.id = r.message) →
    (r ∈ existing ↔ r ∈ d.receipts)

theorem existingReceipts_wp {Q : InboxView → List Receipt → Prop}
    (h : ∀ b' w' existing, InboxFrame held w.1 w'.1 → Existing w'.1 user messages types existing →
      Q ⟨held, id, b', w'⟩ existing) :
    InboxObliged mode ok i (existingReceipts user messages types) ⟨held, id, b, w⟩ Q := by
  unfold existingReceipts
  split
  · rename_i hempty
    rw [List.isEmpty_iff] at hempty
    subst hempty
    exact h b w [] (.refl _ _) fun r _ _ hm => by simp at hm
  · refine Design.frames.wp_select fun w₁ hw₁ => h _ w₁ _ hw₁.frame fun r hu ht hm => ?_
    obtain ⟨m, hm, hid⟩ := hm
    have hmem : r.message ∈ messages.map Message.id := List.mem_map.2 ⟨m, hm, hid⟩
    simp only [List.mem_filter, id_eq, hu, decide_true, Bool.true_and, Bool.and_eq_true,
      List.contains_iff_mem, ht, hmem, and_true]

theorem markReceipts_wp {conversationId : ConversationId} {throughSequence : Int} {read : Bool}
    (ht : types = if read then [.delivered, .read] else [.delivered]) :
    InboxObliged mode ok i (markReceipts user conversationId throughSequence types read)
      ⟨∅, id, b, w⟩ fun _ _ => True := by
  unfold markReceipts
  refine Law.wp_bind (Design.frames.wp_selectForUpdate (fun w₁ hw₁ hn => trivial)
    fun w₁ c hw₁ hc => ?_)
  obtain rfl : c.id = conversationId := Table.get_key hc
  refine Law.wp_bind (Design.frames.wp_select fun w₂ hw₂ => ?_)
  refine Law.wp_bind
    (Design.wp_require fun hmember => Law.wp_bind (Design.wp_require fun hrange => ?_))
  split
  · trivial
  rename_i hahead
  refine Law.wp_bind (Design.frames.wp_select fun w₃ hw₃ => ?_)
  refine Law.wp_bind (existingReceipts_wp fun b₄ w₄ existing hw₄ hexisting => ?_)
  refine Law.wp_bind (addAll_wp fun held₅ b₅ w₅ hs₅ hw₅ => ?_)
  refine Law.wp_bind (moveCursor_wp fun held₆ b₆ w₆ hs₆ hw₆ => ?_)
  refine Law.wp_bind (Design.wp_commit (fun w₇ hw₇ => ?_) fun _ _ _ => trivial)
  -- what the session has read of the conversation is still so
  set lock : InboxLock := .chat (.conversation c.id)
  have hl : lock ∈ insert lock (∅ : Set InboxLock) := .inl rfl
  have h₃₇ : InboxFrame (insert lock ∅) w₃.1 w₇.1 :=
    ((hw₄.trans hw₅).trans (hw₆.mono hs₅)).trans (hw₇.frame.mono (hs₅.trans hs₆))
  have h₂₇ := hw₃.frame.trans h₃₇
  have h₄₇ : InboxFrame (insert lock ∅) w₄.1 w₇.1 :=
    (hw₅.trans (hw₆.mono hs₅)).trans (hw₇.frame.mono (hs₅.trans hs₆))
  have hmessages : ∀ k : Nat, w₇.1.chat.messagesThrough c.id user k =
      w₃.1.chat.messagesThrough c.id user k := by
    intro k
    rw [Db.messagesThrough, Db.messagesThrough, h₃₇.chat.locked c.id hl]
  rw [Bool.not_eq_true', Bool.or_eq_false_iff, decide_eq_false_iff_not, decide_eq_false_iff_not]
    at hrange
  have htypes : types.Nodup := by rw [ht]; cases read <;> decide
  let x : Mark := ⟨c.id, user, throughSequence.toNat, read⟩
  refine .marked x _ ⟨hs₆ (hs₅ hl), ⟨c, ?_, ?_, ?_⟩, fun hread => ?_⟩ ⟨?_, fun r => ?_⟩
  · exact ((hw₂.frame.trans h₂₇).chat.conversations.own _ hl).trans hc
  · exact List.contains_iff_mem.1 hmember
  · change throughSequence.toNat ≤ c.nextSequence - 1
    omega
  · change read = true at hread
    change w₇.1.lastReadSequence (c.id, user) < throughSequence.toNat
    rw [h₂₇.lockedCursor (c.id, user) hl]
    simp only [hread, Bool.true_and, decide_eq_true_eq, not_le, id_eq] at hahead
    omega
  · refine nodup_newReceipts ?_ htypes
    exact (List.filter_sublist.map _).nodup
      ((List.filter_sublist.map _).nodup hw₃.inv.chat.messages)
  · rw [mem_newReceipts, show x.types = types from ht.symm]
    change _ ↔ _ ∧ _ ∧ _ ∧ ∃ m ∈ w₇.1.chat.messagesThrough c.id user throughSequence.toNat, _
    rw [hmessages]
    refine ⟨fun h => ?_, fun h => ?_⟩
    · obtain ⟨hno, hu, hrt, m, hm, hid⟩ := h
      refine ⟨fun hr => hno ?_, hu, hrt, m, hm, hid⟩
      rw [hexisting r hu hrt ⟨m, hm, hid⟩]
      refine h₄₇.lockedReceipts c.id hl m ?_ r hid.symm hr
      rw [hw₄.chat.locked c.id hl]
      exact (mem_messagesThrough.1 hm).1
    · obtain ⟨hno, hu, hrt, m, hm, hid⟩ := h
      refine ⟨fun hr => hno ?_, hu, hrt, m, hm, hid⟩
      exact h₄₇.receipts ((hexisting r hu hrt ⟨m, hm, hid⟩).1 hr)

end

/-! ## What a refused request changes -/

/-- The end of a request that is not refused. -/
def Granted {R : Type} (r : Except Err R) : Prop := ∃ x, r = .ok x

/-- After its commit, if there is one, the request is not refused. -/
abbrev Answered {σ κ χ R : Type} (p : Txn.Prog σ κ (Txn.Point χ) Empty Empty Err R) : Prop :=
  p.Settles (fun _ => True) fun _ => Granted

section
variable {user : UserId} {c : ConversationId} {through : Int}
  {types : List ReceiptType} {read : Bool}

theorem insertMessage_answered {m : Message} : Answered (insertMessage m) := by
  unfold insertMessage
  refine settles_write (settles_reserve (settles_reserve (settles_reserve ?_)))
  exact settles_write (settles_commit fun _ => ⟨_, rfl⟩)

theorem sendMessage_answered {clientMessageId body : String} {attachmentIds : List FileId}
    {id : MessageId} : Answered (sendMessage user c clientMessageId body attachmentIds id) := by
  unfold sendMessage
  refine settles_require fun _ => settles_require fun _ => settles_require fun _ =>
    settles_require fun _ => settles_selectForUpdate fun d => ?_
  cases d.conversation? c with
  | none => trivial
  | some conversation =>
    refine settles_require fun _ => settles_select fun d => ?_
    split
    · exact settles_require fun _ => trivial
    · unfold validatedAttachments
      split
      · exact insertMessage_answered
      · simp only [bind_assoc, pure_bind]
        refine settles_select fun d => settles_require fun _ => ?_
        exact Prog.Queries.settles checkAttachments_queries fun _ => insertMessage_answered

theorem addAll_answered {R : Type} {rs : List Receipt} {f : Unit → InboxTx R}
    (h : Answered (f ())) : Answered (addAll rs >>= f) := by
  induction rs with
  | nil => exact h
  | cons r rs ih =>
    unfold addAll
    rw [bind_assoc]
    refine settles_reserve ?_
    rw [bind_assoc]
    exact settles_write ih

theorem markReceipts_answered : Answered (markReceipts user c through types read) := by
  unfold markReceipts
  refine settles_selectForUpdate fun d => ?_
  cases d.chat.conversation? c with
  | none => trivial
  | some conversation =>
    refine settles_select fun d => settles_require fun _ => settles_require fun _ => ?_
    split
    · trivial
    refine settles_select fun d => ?_
    have hrest : ∀ existing, Answered (do
        addAll (newReceipts user (d.chat.messagesThrough conversation.id user through.toNat)
          types existing)
        moveCursor read (conversation.id, user) through.toNat
        commit (.marked ⟨conversation.id, user, through.toNat, read⟩
          (newReceipts user (d.chat.messagesThrough conversation.id user through.toNat)
            types existing))
        pure through : InboxTx Int) := by
      intro existing
      refine addAll_answered ?_
      unfold moveCursor
      cases read with
      | true => exact settles_update (settles_commit ⟨_, rfl⟩)
      | false => exact settles_commit ⟨_, rfl⟩
    unfold existingReceipts
    split
    · exact hrest []
    · exact settles_select fun d => hrest _

end

/-! ## Runs -/

inductive InboxReply
  | sent (m : Message)
  | through (n : Int)

inductive InboxService
  | send (user : UserId) (conversation : ConversationId) (clientMessageId body : String)
      (attachmentIds : List FileId) (id : MessageId)
  | delivered (user : UserId) (conversation : ConversationId) (through : Int)
  | read (user : UserId) (conversation : ConversationId) (through : Int)

def InboxService.program : InboxService → InboxTx InboxReply
  | .send user conversation clientMessageId body attachmentIds id => do
    let message ← chatting (sendMessage user conversation clientMessageId body attachmentIds id)
    pure (.sent message)
  | .delivered user conversation through => do
    let n ← markDelivered user conversation through
    pure (.through n)
  | .read user conversation through => do
    let n ← markRead user conversation through
    pure (.through n)

abbrev InboxServer := Sys Inbox InboxLock (Txn.Point InboxCommit) Empty Empty Err InboxReply Unit

def inboxServer (d : Inbox) (services : Nat → InboxService) : InboxServer :=
  Sys.init d () fun i => (services i).program

/-- Conversations without messages. -/
structure Unread (d : Inbox) : Prop where
  chat : Blank d.chat
  cursor : ∀ k, d.lastReadSequence k = 0
  receipts : d.receipts = []

section
variable {mode : Mode} {ok : InboxMove → Prop} {d : Inbox} {services : Nat → InboxService}
  {s s' : InboxServer} {i : Nat} {b : Bool} {w : Inbox × Unit}

theorem InboxService.obliged (x : InboxService) :
    InboxObliged mode ok i x.program ⟨∅, id, b, w⟩ fun _ _ => True := by
  cases x with
  | send user c clientMessageId body attachmentIds id' =>
    refine Law.wp_bind (Law.wp_mono (chatting_wp ?_) fun _ _ _ => trivial)
    exact sendMessage_wp fun _ _ _ _ _ => trivial
  | delivered user c through =>
    exact Law.wp_bind (Law.wp_mono (markReceipts_wp rfl) fun _ _ _ => trivial)
  | read user c through =>
    exact Law.wp_bind (Law.wp_mono (markReceipts_wp rfl) fun _ _ _ => trivial)

theorem answered_through {p : InboxTx Int} (h : Answered p) :
    Answered (p >>= fun n => (pure (.through n) : InboxTx InboxReply)) := by
  refine Prog.Settles.bind h (fun _ _ => trivial) (fun _ _ _ => ⟨_, rfl⟩) fun _ _ hr => ?_
  obtain ⟨x, hx⟩ := hr
  cases hx

theorem chatting_answered {β : Type} {p : Tx β} (h : Answered p) : Answered (chatting p) :=
  Prog.Settles.zoom _ _ _ (fun _ => rfl) h

theorem InboxService.answered (x : InboxService) : Answered x.program := by
  cases x with
  | send =>
    refine Prog.Settles.bind (chatting_answered sendMessage_answered)
      (fun _ _ => trivial) (fun _ _ _ => ⟨_, rfl⟩) fun _ _ h => ?_
    obtain ⟨x, hx⟩ := h
    cases hx
  | delivered => exact answered_through markReceipts_answered
  | read => exact answered_through markReceipts_answered

/-- A step changes nothing, or the request of its session can only be answered. -/
theorem step_answered {m : Mode} {s s' : InboxServer} {i : Nat} {c : Txn.Choice Empty Err Unit}
    {mv : InboxMove} (hp : Answered (s.sess i).prog) (h : s.step? m i c = some (s', mv)) :
    Answered (s'.sess i).prog ∧ (s'.db = s.db ∨ (s'.sess i).prog.Replies Granted) := by
  rcases Sys.step_settles hp h with ⟨hp', hd⟩ | ⟨p, next, -, -, -, hreplies⟩
  · exact ⟨hp', .inl hd⟩
  · exact ⟨hreplies.settles fun _ _ => trivial, .inr hreplies⟩

theorem inboxConsistent_of_unread (h : Unread d) : InboxConsistent d := by
  obtain ⟨hchat, hcursor, hreceipts⟩ := h
  refine ⟨consistent_of_blank hchat, by simp [hreceipts], by simp [hreceipts], by simp [hreceipts],
    fun c _ u => ?_, by simp [hchat.messages]⟩
  rw [hcursor]
  exact Nat.zero_le _

theorem holds_of_run (h : Unread d) (hr : Sys.Run mode ok (inboxServer d services) s) :
    (inboxDesign.law mode ok).Holds s :=
  Design.holds_of_run (inboxConsistent_of_unread h)
    (fun i => (services i).obliged) hr

/-- **Read cursors and receipts agree.** In every committed state, whatever the order of the
calls; cursors and receipts are never taken back; and a request that is refused changes nothing. -/
theorem receipts_agree (h : Unread d) (hr : Sys.Run mode ok (inboxServer d services) s) :
    (∀ c ∈ s.db.chat.conversations, ∀ u, s.db.lastReadSequence (c.id, u) ≤ c.nextSequence - 1) ∧
    (∀ s', Sys.Run mode ok s s' → ∀ k, s.db.lastReadSequence k ≤ s'.db.lastReadSequence k) ∧
    (∀ m ∈ s.db.chat.messages, ∀ u, m.key.sender ≠ u →
      m.sequence ≤ s.db.lastReadSequence (m.conversation, u) →
      ⟨m.id, u, .delivered⟩ ∈ s.db.receipts ∧ ⟨m.id, u, .read⟩ ∈ s.db.receipts) ∧
    (∀ r ∈ s.db.receipts, { r with type := .delivered } ∈ s.db.receipts) ∧
    s.db.receipts.Nodup ∧
    (∀ r ∈ s.db.receipts, ∀ m ∈ s.db.chat.messages, m.id = r.message → m.key.sender ≠ r.user) ∧
    ∀ i c s' mv, s.step? mode i c = some (s', mv) → s'.db = s.db ∨
      (s'.sess i).prog.Replies Granted := by
  have hs := holds_of_run h hr
  have hd : InboxConsistent s.db := hs.inv
  refine ⟨hd.cursor, fun s' hr' k => ?_, fun m hm u hu hle => ?_, hd.delivered, hd.unique,
    fun r hr m hm hid => ?_, fun i c s' mv hstep => ?_⟩
  · refine Design.keeps_of_run (D := inboxDesign)
      (P := fun e _ => s.db.lastReadSequence k ≤ e.lastReadSequence k) hs hr' ?_
      (fun _ _ _ _ _ _ _ _ h => h.elim) le_rfl
    intro _ _ _ _ _ _ hc hle
    exact hle.trans (hc.frame.cursor k)
  · exact ⟨hd.through m hm u hu hle _, hd.through m hm u hu hle _⟩
  · obtain ⟨m', hm', hid', hsender, -⟩ := hd.others r hr
    have hget := hd.chat.message? hm
    rw [hid, ← hid', hd.chat.message? hm'] at hget
    rw [← Option.some.inj hget]
    exact hsender
  · have hanswered : Answered (s.sess i).prog :=
      Sys.run_prog (fun _ _ _ _ h hs => (step_answered h hs).1) (services i).answered hr
    exact (step_answered hanswered hstep).2

end

/-! ## A conversation of two messages -/

def twoMembers : Inbox := ⟨oneConversation, fun _ => 0, []⟩

/-- User 1 writes twice; user 2 reads up to the second message, and reports an older delivery
afterwards. -/
def someMarks : Nat → InboxService
  | 0 => .send 1 1 "a" "hello" [] 10
  | 1 => .send 1 1 "b" "hi" [] 11
  | 2 => .read 2 1 2
  | 3 => .delivered 2 1 1
  | _ => .read 1 1 3

theorem receipts_agree_two_marks : ∃ s : InboxServer,
    s.db.receipts.length = 4 ∧ s.db.lastReadSequence (1, 2) = 2 ∧ s.db.receipts.Nodup := by
  obtain ⟨s, hr, hs⟩ := Sys.exists_free_run .readCommitted (inboxServer twoMembers someMarks)
    (Sys.goes 0 9 ++ Sys.goes 1 9 ++ Sys.goes 2 20 ++ Sys.goes 3 20)
    (fun s => decide (s.db.receipts.length = 4 ∧ s.db.lastReadSequence (1, 2) = 2))
    (by decide +kernel)
  obtain ⟨hlen, hcursor⟩ := of_decide_eq_true hs
  obtain ⟨-, -, -, -, hnodup, -⟩ :=
    receipts_agree ⟨⟨rfl, by decide, by simp [twoMembers, oneConversation]⟩, fun _ => rfl, rfl⟩ hr
  exact ⟨s, hlen, hcursor, hnodup⟩

end Messaging
