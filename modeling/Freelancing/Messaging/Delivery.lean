import Freelancing.Messaging.Steps
import Freelancing.Sequence

/-!
# Gap-free delivery

The sequence numbers of a conversation are `1, …, n - 1` in every committed state. So a client that
polls from the largest number it has received has received a prefix of the conversation, in order
(`Received`), and all of it when an answer is empty; and a client that sends a message again gets
the message that is stored.
-/

namespace Messaging

open Money (UserId Err strip)
open Files (FileId)
open Txn (Law Mode View Sys Design Prog)
open Txn.Service

/-! ## What a client has received -/

/-- The messages are the first ones of the conversation, in order. -/
structure Received (d : Db) (c : ConversationId) (got : List Message) : Prop where
  order : got.map Message.sequence = List.range' 1 got.length
  stored : ∀ m ∈ got, m ∈ d.messagesOf c

section
variable {d d' : Db} {c : ConversationId} {got : List Message} {m m' : Message}

theorem Received.nil (d : Db) (c : ConversationId) : Received d c [] := ⟨rfl, by simp⟩

theorem Received.latest (h : Received d c got) : latest got = got.length := by
  rw [Messaging.latest, h.order, Sequence.foldl_max_range']

theorem Received.frame {held : Set LockName} (h : Received d c got) (hd : Consistent d)
    (hf : Frame held d d') : Received d' c got := by
  refine ⟨h.order, fun m hm => ?_⟩
  obtain ⟨hmem, hc⟩ := Db.mem_messagesOf.1 (h.stored m hm)
  exact Db.mem_messagesOf.2 ⟨hf.mem hd hmem, hc⟩

/-- The sequence numbers of a conversation, as many as it has messages. -/
theorem Consistent.sequencesOf (hd : Consistent d) (c : ConversationId) :
    ((d.messagesOf c).map Message.sequence).Perm (List.range' 1 (d.messagesOf c).length) := by
  cases hm : d.messagesOf c with
  | nil => simp
  | cons m l =>
    obtain ⟨hmem, rfl⟩ := Db.mem_messagesOf.1 (show m ∈ d.messagesOf c by simp [hm])
    obtain ⟨conv, hconv, -⟩ := hd.senders m hmem
    have hid : conv.id = m.conversation := Table.get_key hconv
    have hperm := hd.sequences conv (Table.get_mem hconv)
    have hlen := hperm.length_eq
    rw [List.length_map, List.length_range', hid, hm] at hlen
    rw [hlen, ← hm, ← hid]
    exact hperm

theorem Consistent.sequence_inj (hd : Consistent d) (hm : m ∈ d.messagesOf c)
    (hm' : m' ∈ d.messagesOf c) (h : m.sequence = m'.sequence) : m = m' := by
  have hnd : ((d.messagesOf c).map Message.sequence).Nodup :=
    (hd.sequencesOf c).nodup_iff.2 List.nodup_range'
  exact List.inj_on_of_nodup_map hnd hm hm' h

/-- No message up to the last one received has been skipped. -/
theorem Received.mem (h : Received d c got) (hd : Consistent d) (hm : m ∈ d.messagesOf c)
    (hle : m.sequence ≤ got.length) : m ∈ got := by
  have hseq : m.sequence ∈ List.range' 1 (d.messagesOf c).length :=
    (hd.sequencesOf c).mem_iff.1 (List.mem_map_of_mem hm)
  have hgot : m.sequence ∈ got.map Message.sequence := by
    rw [h.order, List.mem_range'_1]
    rw [List.mem_range'_1] at hseq
    omega
  obtain ⟨m', hm', he⟩ := List.mem_map.1 hgot
  rwa [← hd.sequence_inj (h.stored m' hm') hm he]

theorem Received.length_le (h : Received d c got) :
    got.length ≤ (d.messagesOf c).length := by
  have hnd : got.Nodup := List.Nodup.of_map _ (h.order ▸ List.nodup_range')
  exact (List.subperm_of_subset hnd h.stored).length_le

/-- What a poll finds after a prefix of the conversation. -/
theorem Received.after (h : Received d c got) (hd : Consistent d) :
    (d.messagesAfter c (Messaging.latest got)).map Message.sequence =
      List.range' (got.length + 1) ((d.messagesOf c).length - got.length) := by
  rw [h.latest, Db.messagesAfter]
  refine Sequence.map_insertionSort ?_
  rw [← Sequence.filter_range' (h.length_le)]
  have hmap : ((d.messagesOf c).filter fun m => ((got.length : Nat) : Int) < m.sequence).map
      Message.sequence = ((d.messagesOf c).map Message.sequence).filter fun x =>
      got.length < x := by
    rw [List.filter_map]
    congr 1
    refine List.filter_congr fun m _ => ?_
    simp
  rw [hmap]
  exact (hd.sequencesOf c).filter _

/-- **A poll goes on where the client is**: its answer is the next part of the conversation, and an
empty one says that there is no more. -/
theorem Received.page (h : Received d c got) (hd : Consistent d) {limit : Nat}
    (hlimit : 1 ≤ limit) :
    Received d c (got ++ (d.messagesAfter c (Messaging.latest got)).take limit) ∧
      ((d.messagesAfter c (Messaging.latest got)).take limit = [] →
        got.length = (d.messagesOf c).length) := by
  have hafter := h.after hd
  have hlen := congrArg List.length hafter
  rw [List.length_map, List.length_range'] at hlen
  have hle := h.length_le
  refine ⟨⟨?_, fun m hm => ?_⟩, fun hnil => ?_⟩
  · rw [List.map_append, List.map_take, hafter, h.order, Sequence.take_range', List.length_append,
      List.length_take, hlen, Nat.add_comm got.length 1, List.range'_append_1]
  · rcases List.mem_append.1 hm with hm | hm
    · exact h.stored m hm
    · have hmem := (List.perm_insertionSort _ _).mem_iff.1 (List.mem_of_mem_take hm)
      exact (List.mem_filter.1 hmem).1
  · have := congrArg List.length hnil
    rw [List.length_take, hlen, List.length_nil] at this
    omega

end

/-! ## Requests -/

inductive Reply
  | sent (m : Message)
  | received (got : List Message) (atEnd : Bool)

inductive Service
  | send (user : UserId) (conversation : ConversationId) (clientMessageId body : String)
      (attachmentIds : List FileId) (id : MessageId)
  | poll (user : UserId) (conversation : ConversationId) (limits : List Int)

def Service.program : Service → Tx Reply
  | .send user conversation clientMessageId body attachmentIds id => do
    let message ← sendMessage user conversation clientMessageId body attachmentIds id
    pure (.sent message)
  | .poll user conversation limits => do
    let (got, atEnd) ← Messaging.poll user conversation limits []
    pure (.received got atEnd)

/-- The message that a request sends, or has sent before. -/
def Service.Asks (x : Service) (m : Message) : Prop :=
  match x with
  | .send user conversation clientMessageId body attachmentIds _ =>
    m.Asked ⟨conversation, user, strip clientMessageId⟩ (strip body) attachmentIds
  | .poll .. => False

/-- What a request returns, in the state that it saw last. -/
def Service.Answers (x : Service) (d : Db) : Reply → Prop
  | .sent m => m ∈ d.messages ∧ x.Asks m
  | .received got atEnd => ∃ user c limits, x = .poll user c limits ∧ Received d c got ∧
      (atEnd = true → got.length = (d.messagesOf c).length)

abbrev Server := Sys Db LockName (Txn.Point CommitPoint) Empty Empty Err Reply Unit

def server (d : Db) (services : Nat → Service) :
    Server := Sys.init d () fun i => (services i).program

/-- Conversations without messages. -/
structure Blank (d : Db) : Prop where
  messages : d.messages = []
  conversations : (d.conversations.map Conversation.id).Nodup
  first : ∀ c ∈ d.conversations, c.nextSequence = 1

def GapFree (d : Db) : Prop := ∀ c ∈ d.conversations,
  ((d.messagesOf c.id).map Message.sequence).Perm (List.range' 1 (c.nextSequence - 1))

section
variable {mode : Mode} {ok : Move → Prop} {d : Db} {services : Nat → Service}
  {s s' : Server} {i : Nat} {b : Bool} {w : Db × Unit}

theorem poll_wp {user : UserId} {c : ConversationId} {limits : List Int} {got : List Message}
    (h : Received w.1 c got) (hd : Consistent w.1) :
    Obliged mode ok i (poll user c limits got) ⟨∅, id, b, w⟩ fun v r =>
      Received v.world.1 c r.1 ∧ (r.2 = true → r.1.length = (v.world.1.messagesOf c).length) := by
  induction limits generalizing got b w with
  | nil => exact ⟨h, fun he => by cases he⟩
  | cons limit limits ih =>
    unfold poll
    refine Law.wp_bind (listMessages_wp fun w₁ hf hd₁ hlimit => ?_)
    have h₁ := h.frame hd hf
    obtain ⟨hnext, hend⟩ := h₁.page hd₁ (show 1 ≤ limit.toNat by omega)
    change Obliged mode ok i (if _ then _ else _) _ _
    split
    case isTrue hempty => exact ⟨h₁, fun _ => hend (List.isEmpty_iff.1 hempty)⟩
    case isFalse =>
      refine Law.wp_bind (Design.wp_rollback fun w₂ hw₂ => ?_)
      exact ih (hnext.frame hd₁ hw₂.frame) hw₂.inv

theorem Service.obliged (x : Service) (hd : Consistent w.1) :
    Obliged mode ok i x.program ⟨∅, id, b, w⟩ fun v => x.Answers v.world.1 := by
  cases x with
  | send user c clientMessageId body attachmentIds id' =>
    exact Law.wp_bind (sendMessage_wp fun v m hm _ hasked => ⟨hm, hasked⟩)
  | poll user c limits =>
    exact Law.wp_bind (Law.wp_mono (poll_wp (.nil _ _) hd) fun v r h => ⟨user, c, limits, rfl, h⟩)

theorem poll_program_queries {user : UserId} {c : ConversationId} {limits : List Int} :
    (Service.poll user c limits).program.Queries := by
  unfold Service.program
  exact Prog.Queries.bind poll_queries fun r => trivial

theorem Service.only (x : Service) :
    x.program.CommitsOnly fun p => ∃ m, p = .commit (.sent m) ∧ x.Asks m := by
  cases x with
  | send user c clientMessageId body attachmentIds id =>
    exact sendMessage_only.bind fun _ => trivial
  | poll user c limits =>
    exact poll_program_queries.commitsOnly

theorem consistent_of_blank (h : Blank d) : Consistent d := by
  obtain ⟨hm, hc, hfirst⟩ := h
  refine ⟨by simp [hm], hc, by simp [hm], by simp [hm], fun c h => (hfirst c h).ge, fun c h => ?_,
    by simp [hm]⟩
  simp [Db.messagesOf, hm, hfirst c h]

theorem keeps_server (hd : Consistent d) :
    (messagingDesign.law mode ok).Keeps (fun i w => (services i).Answers w.1) (server d services) :=
  Law.Keeps.init hd fun i => (services i).obliged hd

theorem keeps_of_run (hd : Consistent d) (hr : Sys.Run mode ok (server d services) s) :
    (messagingDesign.law mode ok).Keeps (fun i w => (services i).Answers w.1) s :=
  (keeps_server hd).run hr

theorem stays_stored (hs : (messagingDesign.law mode ok).Holds s) (hr : Sys.Run mode ok s s')
    {m : Message} (hm : m ∈ s.db.messages) : m ∈ s'.db.messages := by
  refine Design.keeps_of_run (D := messagingDesign) (P := fun d _ => m ∈ d.messages) hs hr ?_
    (fun _ _ _ _ _ _ _ _ h => h.elim) hm
  intro i c d d' e hok hc hmem
  exact hc.frame.mem hc.inv hmem

/-! ## A message sent again -/

theorem sorted_perm {ids ids' : List FileId} (h : sorted ids = sorted ids') : ids.Perm ids' := by
  have hids : (sorted ids).Perm ids := List.perm_insertionSort _ ids
  rw [h] at hids
  exact hids.symm.trans (List.perm_insertionSort _ ids')

/-- Sent again and served alone, a message is found. -/
theorem sendMessage_alone {m : Message} {clientMessageId body : String}
    {attachmentIds : List FileId} {id' : MessageId} (hd : Consistent d) (hm : m ∈ d.messages)
    (h : m.Asked ⟨m.conversation, m.key.sender, strip clientMessageId⟩ (strip body) attachmentIds) :
    (sendMessage m.key.sender m.conversation clientMessageId body attachmentIds id').alone id d id =
      ⟨d, .ok m⟩ := by
  obtain ⟨hkey, hbody, hatt⟩ := h
  obtain ⟨c, hc, hmem⟩ := hd.senders m hm
  have hvalid := hd.valid m hm
  have hid : c.id = m.conversation := Table.get_key hc
  have hclient : m.key.clientMessageId = strip clientMessageId :=
    congrArg MessageKey.clientMessageId hkey
  have hperm := sorted_perm hatt
  have hatts := hvalid.attachments
  rw [Bool.and_eq_true, decide_eq_true_iff, decide_eq_true_iff, hperm.length_eq,
    hperm.nodup_iff] at hatts
  have hempty := hvalid.nonempty
  rw [show m.attachments.isEmpty = attachmentIds.isEmpty from ?_] at hempty
  · unfold sendMessage
    rw [← hclient, ← hbody]
    rw [alone_require hvalid.clientId, alone_require hvalid.body]
    rw [alone_require (by simpa using hatts), alone_require hempty, alone_selectForUpdate]
    rw [show Db.conversation? (id d) m.conversation = some c from hc]
    dsimp only
    rw [alone_require (by simpa using hmem), alone_select, hid]
    rw [show Db.messageOf? (id d) _ = some m from hd.messageOf? hm]
    dsimp only
    rw [alone_require (by simp [hatt])]
    rfl
  · rw [Bool.eq_iff_iff, List.isEmpty_iff_length_eq_zero, List.isEmpty_iff_length_eq_zero,
      hperm.length_eq]

/-- Sent again with other content and served alone, a message is refused. -/
theorem sendMessage_alone_refused {m : Message} {clientMessageId body : String}
    {attachmentIds : List FileId} {id' : MessageId} (hd : Consistent d) (hm : m ∈ d.messages)
    (hkey : m.key.clientMessageId = strip clientMessageId)
    (h : ¬ (m.body = strip body ∧ sorted m.attachments = sorted attachmentIds)) :
    ∃ e, (sendMessage m.key.sender m.conversation clientMessageId body attachmentIds id').alone
      id d id =
      ⟨d, .error e⟩ := by
  obtain ⟨c, hc, hmem⟩ := hd.senders m hm
  have hid : c.id = m.conversation := Table.get_key hc
  unfold sendMessage
  rw [← hkey]
  refine refused_require fun _ => refused_require fun _ => refused_require fun _ =>
    refused_require fun _ => ?_
  rw [alone_selectForUpdate]
  rw [show Db.conversation? (id d) m.conversation = some c from hc]
  dsimp only
  refine refused_require fun _ => ?_
  rw [alone_select, hid, show Db.messageOf? (id d) _ = some m from hd.messageOf? hm]
  dsimp only
  refine refused_require fun hsame => absurd ?_ h
  rwa [Bool.and_eq_true, decide_eq_true_iff, decide_eq_true_iff] at hsame

/-! ## Runs -/

/-- The key of the message that a request sends. -/
def Service.key? : Service → Option MessageKey
  | .send user conversation clientMessageId _ _ _ =>
      some ⟨conversation, user, strip clientMessageId⟩
  | .poll .. => none

theorem Service.Asks.key? {x : Service} {m : Message} (h : x.Asks m) : x.key? = some m.key := by
  cases x with
  | send => exact congrArg some h.key.symm
  | poll => exact h.elim

theorem only_of_run (hr : Sys.Run mode ok (server d services) s) (i : Nat) :
    (s.sess i).prog.CommitsOnly fun p => ∃ m, p = .commit (.sent m) ∧ (services i).Asks m :=
  Sys.run_prog (fun _ _ _ _ h hs => (Sys.step_commitsOnly h hs).1) (services i).only hr

/-- What a request has returned is still so. -/
theorem answers_of_run (hd : Consistent d) (hr : Sys.Run mode ok (server d services) s) {r : Reply}
    (hend : s.Ended i (.ok r)) :
    (∀ m, r = .sent m → m ∈ s.db.messages ∧ (services i).Asks m) ∧
      ∀ got atEnd, r = .received got atEnd →
        ∃ user c limits, services i = .poll user c limits ∧ Received s.db c got := by
  have hk := keeps_of_run hd hr
  obtain ⟨w, hw, hans⟩ := hk.result hend
  have hw₀ : Consistent w.1 := hw.inv hk.inv
  have hf : Frame ∅ w.1 s.db := Design.frames.sees hw
  refine ⟨fun m hm => ?_, fun got atEnd hgot => ?_⟩
  · subst hm
    exact ⟨hf.mem hw₀ hans.1, hans.2⟩
  · subst hgot
    obtain ⟨user, c, limits, hpoll, hrec, -⟩ := hans
    exact ⟨user, c, limits, hpoll, hrec.frame hw₀ hf⟩

/-- A request for a message that is stored commits nothing. -/
theorem step_stored (hd : Consistent d) (hr : Sys.Run mode ok (server d services) s) {m : Message}
    (hm : m ∈ s.db.messages) (hkey : (services i).key? = some m.key) {c : Txn.Choice Empty Err Unit}
    {mv : Move} (hstep : s.step? mode i c = some (s', mv)) (hok : ok mv) : s'.db = s.db := by
  have hs := (keeps_of_run hd hr).holds
  rcases Design.step_only hs (only_of_run hr i) hstep hok with hdb | ⟨c, ⟨m', hc, hasks⟩, hcom⟩
  · exact hdb
  · cases hc
    obtain ⟨held, heff⟩ := hcom.effect
    have hkey' : m'.key = m.key := Option.some.inj (hasks.key?.symm.trans hkey)
    generalize s'.db = d' at heff
    cases heff with
    | sent _ _ _ hnone =>
      rw [hkey', hs.inv.messageOf? hm] at hnone
      cases hnone

/-- The answer that ends a client's polls is empty because nothing is left. -/
theorem step_polled (hd : Consistent d) (hr : Sys.Run mode ok (server d services) s) {user : UserId}
    {c : ConversationId} {limits : List Int} (hx : services i = .poll user c limits)
    {got : List Message} {ch : Txn.Choice Empty Err Unit} {mv : Move}
    (hstep : s.step? mode i ch = some (s', mv)) (hok : ok mv)
    (hne : ¬ s.Ended i (.ok (.received got true))) (hend : s'.Ended i (.ok (.received got true))) :
    Received s'.db c got ∧ got.length = (s'.db.messagesOf c).length := by
  have hk := keeps_of_run hd hr
  have hq : (s.sess i).prog.Queries := by
    refine Sys.run_prog (P := Prog.Queries) (fun _ _ _ _ h hs => Sys.step_queries h hs) ?_ hr
    change (services i).program.Queries
    rw [hx]
    exact poll_program_queries
  obtain ⟨user', c', limits', hx', hrec, hall⟩ := hk.answered hq hstep hok hne hend
  rw [hx] at hx'
  cases hx'
  exact ⟨hrec, hall rfl⟩

/-- **Conversation sequences are gap-free for pollers.** -/
theorem sequences_gap_free (h : Blank d) (hr : Sys.Run mode ok (server d services) s) :
    GapFree s.db ∧
    (∀ s', Sys.Run mode ok s s' → ∀ m ∈ s.db.messages, m ∈ s'.db.messages) ∧
    (∀ i m, s.Ended i (.ok (.sent m)) → s.db.messageOf? m.key = some m ∧ (services i).Asks m) ∧
    (∀ i, ∀ m ∈ s.db.messages, (services i).key? = some m.key →
      (¬ (services i).Asks m → ∀ r, ¬ s.Ended i (.ok r)) ∧
        ∀ c s' mv, s.step? mode i c = some (s', mv) → ok mv → s'.db = s.db) ∧
    (∀ m ∈ s.db.messages, ∀ clientMessageId body attachmentIds id',
      m.key.clientMessageId = strip clientMessageId →
      ∃ r, (sendMessage m.key.sender m.conversation clientMessageId body attachmentIds id').alone id
        s.db id = ⟨s.db, r⟩ ∧
        (m.body = strip body ∧ sorted m.attachments = sorted attachmentIds → r = .ok m) ∧
        (¬ (m.body = strip body ∧ sorted m.attachments = sorted attachmentIds) →
          ∃ e, r = .error e)) ∧
    ∀ i user c limits, services i = .poll user c limits →
      (∀ got atEnd, s.Ended i (.ok (.received got atEnd)) → Received s.db c got ∧
        ∀ m ∈ s.db.messagesOf c, m.sequence ≤ got.length → m ∈ got) ∧
      ∀ got ch s' mv, s.step? mode i ch = some (s', mv) → ok mv →
        ¬ s.Ended i (.ok (.received got true)) → s'.Ended i (.ok (.received got true)) →
        ∀ conv, s'.db.conversation? c = some conv →
          got.map Message.sequence = List.range' 1 (conv.nextSequence - 1) ∧
          ∀ m ∈ s'.db.messagesOf c, m ∈ got := by
  have hd := consistent_of_blank h
  have hs := (keeps_of_run hd hr).holds
  refine ⟨hs.inv.sequences, fun s' hr' m hm => stays_stored hs hr' hm, fun i m hend => ?_,
    fun i m hm hkey =>
    ⟨fun hno r hend => ?_, fun c s' mv hstep hok => step_stored hd hr hm hkey hstep hok⟩,
    fun m hm clientMessageId body attachmentIds id' hclient => ?_,
    fun i user c limits hx =>
      ⟨fun got atEnd hend => ?_, fun got ch s' mv hstep hok hne hend conv hc => ?_⟩⟩
  · obtain ⟨hm, hasks⟩ := (answers_of_run hd hr hend).1 m rfl
    exact ⟨hs.inv.messageOf? hm, hasks⟩
  · cases r with
    | sent m' =>
      obtain ⟨hm', hasks⟩ := (answers_of_run hd hr hend).1 m' rfl
      have hkey' : m'.key = m.key := Option.some.inj (hasks.key?.symm.trans hkey)
      have hsame : m' = m :=
        Option.some.inj ((hs.inv.messageOf? hm').symm.trans (hkey' ▸ hs.inv.messageOf? hm))
      exact hno (hsame ▸ hasks)
    | received got atEnd =>
      obtain ⟨user, c, limits, hx, -⟩ := (answers_of_run hd hr hend).2 got atEnd rfl
      rw [hx] at hkey
      cases hkey
  · by_cases hsame : m.body = strip body ∧ sorted m.attachments = sorted attachmentIds
    · have hkey : m.key = ⟨m.conversation, m.key.sender, strip clientMessageId⟩ := by rw [← hclient]
      exact ⟨_, sendMessage_alone hs.inv hm ⟨hkey, hsame.1, hsame.2⟩, fun _ => rfl, fun hno =>
        absurd hsame hno⟩
    · obtain ⟨e, he⟩ := sendMessage_alone_refused hs.inv hm hclient hsame
      exact ⟨_, he, fun hyes => absurd hyes hsame, fun _ => ⟨e, rfl⟩⟩
  · obtain ⟨user', c', limits', hx', hrec⟩ := (answers_of_run hd hr hend).2 got atEnd rfl
    rw [hx] at hx'
    cases hx'
    exact ⟨hrec, fun m hm hle => hrec.mem hs.inv hm hle⟩
  · obtain ⟨hrec, hlen⟩ := step_polled hd hr hx hstep hok hne hend
    have hs' := (hs.step hstep hok).1
    have hseq := hs'.inv.sequences conv (Table.get_mem hc)
    rw [show conv.id = c from Table.get_key hc] at hseq
    have hnext := hseq.length_eq
    rw [List.length_map, List.length_range'] at hnext
    refine ⟨by rw [hrec.order, hlen, hnext], fun m hm => hrec.mem hs'.inv hm ?_⟩
    have hmem := hseq.mem_iff.1 (List.mem_map_of_mem hm)
    rw [List.mem_range'_1] at hmem
    omega

end

/-! ## A conversation with two messages -/

def oneConversation : Db := ⟨[⟨1, [1, 2], 1⟩], [], []⟩

/-- Two messages, the first one sent again, and a client that polls. -/
def someServices : Nat → Service
  | 0 => .send 1 1 "a" "hello" [] 10
  | 1 => .send 2 1 "a" "hi" [] 11
  | 2 => .send 1 1 " a" "hello " [] 12
  | _ => .poll 2 1 [1, 50, 50]

def first : Message := ⟨10, ⟨1, 1, "a"⟩, 1, "hello", []⟩

def second : Message := ⟨11, ⟨1, 2, "a"⟩, 2, "hi", []⟩

/-- The client has received `got` and an empty answer. -/
def polled (s : Server) (i : Nat) (got : List Message) : Bool :=
  match (s.sess i).prog with
  | .ret (.received got' true) => got' = got
  | _ => false

theorem ended_of_polled {s : Server} {i : Nat} {got : List Message} (h : polled s i got = true) :
    s.Ended i (.ok (.received got true)) := by
  unfold polled at h
  split at h
  case h_1 got' heq =>
    obtain rfl := of_decide_eq_true h
    exact heq
  case h_2 => cases h

/-- The poll between the two commits, and two after them. -/
theorem sequences_gap_free_two_sends :
    ∃ s : Server, s.db.messages = [second, first] ∧ GapFree s.db ∧
    Received s.db 1 [first, second] := by
  obtain ⟨s, hr, hs⟩ := Sys.exists_free_run .readCommitted (server oneConversation someServices)
    (Sys.goes 0 9 ++ Sys.goes 3 3 ++ Sys.goes 2 3 ++ Sys.goes 1 9 ++ Sys.goes 3 5)
    (fun s => decide (s.db.messages = [second, first]) && polled s 3 [first, second])
    (by decide +kernel)
  obtain ⟨hm, hp⟩ := Bool.and_eq_true_iff.1 hs
  obtain ⟨hgap, -, -, -, -, hpoll⟩ :=
    sequences_gap_free ⟨rfl, by decide, by simp [oneConversation]⟩ hr
  exact ⟨s, of_decide_eq_true hm, hgap,
    ((hpoll 3 2 1 [1, 50, 50] rfl).1 _ _ (ended_of_polled hp)).1⟩

end Messaging
