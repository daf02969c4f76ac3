import Freelancing.Calls.Sessions

/-!
# Obligations of the call services

A call is created as invited under the lock of its conversation, and then moves under its own lock:
invited, active, ended, in this order (`CallSession.Advances`). Every commit is an `Effect`, which
keeps the tables consistent: ids and client ids are unique, and a conversation has one live call.
-/

namespace Calls

open Money (UserId Err strip)
open Text (upper)
open Txn (Law Mode View Sys Design Prog)
open Txn.Service

abbrev Move := Txn.Move Db (Txn.Point CommitPoint) Empty Empty Unit

abbrev TxView := View Db LockName Unit

/-! ## The life of a call -/

def CallStatus.rank : CallStatus → Nat
  | invited => 0
  | active => 1
  | ended => 2

theorem CallStatus.rank_le (s : CallStatus) : s.rank ≤ CallStatus.ended.rank := by
  cases s <;> decide

/-- The row may have become `y`: parties and content stay, the status moves on, and nothing changes
after the end. -/
structure CallSession.Advances (x y : CallSession) : Prop where
  id : y.id = x.id
  conversation : y.conversation = x.conversation
  clientKey : y.clientKey = x.clientKey
  callee : y.callee = x.callee
  callType : y.callType = x.callType
  rank : x.status.rank ≤ y.status.rank
  ended : x.status = .ended → y = x

theorem CallSession.Advances.refl (x : CallSession) : x.Advances x :=
  ⟨rfl, rfl, rfl, rfl, rfl, le_rfl, fun _ => rfl⟩

theorem CallSession.Advances.trans {x y z : CallSession} (h : x.Advances y) (h' : y.Advances z) :
    x.Advances z where
  id := h'.id.trans h.id
  conversation := h'.conversation.trans h.conversation
  clientKey := h'.clientKey.trans h.clientKey
  callee := h'.callee.trans h.callee
  callType := h'.callType.trans h.callType
  rank := h.rank.trans h'.rank
  ended he := by
    obtain rfl := h.ended he
    exact h'.ended he

theorem CallSession.Advances.live {x y : CallSession} (h : x.Advances y)
    (hy : y.status.live = true) : x.status.live = true := by
  cases hx : x.status with
  | ended => rwa [h.ended hx, hx] at hy
  | invited => rfl
  | active => rfl

theorem CallSession.advances_accept {x : CallSession} (now : Nat) (hx : x.status = .invited) :
    x.Advances (x.accept now) :=
  ⟨rfl, rfl, rfl, rfl, rfl, by rw [hx]; exact Nat.zero_le _, fun he => by rw [hx] at he; cases he⟩

theorem CallSession.advances_finish {x : CallSession} (user : UserId) (now : Nat) (reason : String)
    (hx : x.status ≠ .ended) : x.Advances (x.finish user now reason) :=
  ⟨rfl, rfl, rfl, rfl, rfl, x.status.rank_le, fun he => absurd he hx⟩

/-! ## Commits -/

/-- A call as it is created, between the two members of its conversation. -/
structure CallSession.New (d : Db) (x : CallSession) : Prop where
  status : x.status = .invited
  clientId : (!(x.clientCallId.isEmpty || x.clientCallId.length > 80)) = true
  open_ : x.acceptedAt = none ∧ x.endedAt = none ∧ x.endedBy = none ∧ x.endReason = none
  parties : ∃ c, d.conversation? x.conversation = some c ∧ c.members.dedup.length = 2 ∧
    x.caller ∈ c.members ∧ x.callee ∈ c.members ∧ x.callee ≠ x.caller

inductive Effect (held : Set LockName) (d : Db) : CommitPoint → Db → Prop
  | invited (x : CallSession) (hnew : x.New d) (hc : .conversation x.conversation ∈ held)
      (hlive : d.liveCall? x.conversation = none) (hl : .call x.id ∈ held)
      (hid : d.call? x.id = none) (hlk : .callOf x.clientKey ∈ held)
      (hkey : d.callOf? x.clientKey = none) : Effect held d (.invited x) (d.addCall x)
  | accepted (x : CallSession) (now : Nat) (hl : .call x.id ∈ held) (hx : d.call? x.id = some x)
      (hst : x.status = .invited) : Effect held d (.accepted x) (d.modifyCall x.id (.accept now))
  | ended (x : CallSession) (user : UserId) (now : Nat) (reason : String) (hl : .call x.id ∈ held)
      (hx : d.call? x.id = some x) (hst : x.status ≠ .ended) :
      Effect held d (.ended x) (d.modifyCall x.id (.finish user now reason))

structure Frame (held : Set LockName) (d d' : Db) : Prop where
  conversations : d'.conversations = d.conversations
  calls : Table.Evolves CallSession.id (fun k => .call k ∈ held) CallSession.Advances
    d.calls d'.calls
  callOf : ∀ k, .callOf k ∈ held → d.callOf? k = none → d'.callOf? k = none
  live : ∀ c, .conversation c ∈ held → d.liveCall? c = none → d'.liveCall? c = none

structure Consistent (d : Db) : Prop where
  clientIds : ∀ x ∈ d.calls, (!(x.clientCallId.isEmpty || x.clientCallId.length > 80)) = true
  calls : (d.calls.map CallSession.id).Nodup
  clientKeys : (d.calls.map CallSession.clientKey).Nodup
  live : ∀ c, ∀ x ∈ d.calls, ∀ y ∈ d.calls, x.liveIn c = true → y.liveIn c = true → x = y
  parties : ∀ x ∈ d.calls, ∃ c, d.conversation? x.conversation = some c ∧
    c.members.dedup.length = 2 ∧ x.caller ∈ c.members ∧ x.callee ∈ c.members ∧ x.callee ≠ x.caller

section
variable {held held' : Set LockName} {d d' d'' : Db} {c : CommitPoint} {id : CallId}
  {f : CallSession → CallSession} {k : ConversationId}

theorem Db.liveCall?_eq_none : d.liveCall? k = none ↔ ∀ x ∈ d.calls, x.liveIn k = false := by
  simp [liveCall?]

theorem Frame.refl (held : Set LockName) (d : Db) : Frame held d d :=
  ⟨rfl, .refl CallSession.Advances.refl, fun _ _ h => h, fun _ _ h => h⟩

theorem Frame.trans (h : Frame held d d') (h' : Frame held d' d'') : Frame held d d'' where
  conversations := h'.conversations.trans h.conversations
  calls := h.calls.trans (fun _ _ _ => .trans) h'.calls
  callOf k hk hn := h'.callOf k hk (h.callOf k hk hn)
  live c hc hn := h'.live c hc (h.live c hc hn)

theorem Frame.mono (hs : held' ⊆ held) (h : Frame held d d') : Frame held' d d' where
  conversations := h.conversations
  calls := h.calls.mono fun _ hk => hs hk
  callOf k hk := h.callOf k (hs hk)
  live c hc := h.live c (hs hc)

theorem CallSession.liveIn_iff {x : CallSession} :
    x.liveIn k = true ↔ x.conversation = k ∧ x.status.live = true := by
  simp [liveIn]

theorem CallSession.Advances.liveIn {x y : CallSession} (h : x.Advances y)
    (hy : y.liveIn k = true) : x.liveIn k = true := by
  rw [liveIn_iff] at hy ⊢
  exact ⟨h.conversation.symm.trans hy.1, h.live hy.2⟩

/-- A call that moves on, under its own lock. -/
structure Moves (d : Db) (x : CallSession) (f : CallSession → CallSession) : Prop where
  row : d.call? x.id = some x
  id : ∀ y, (f y).id = y.id
  clientKey : ∀ y, (f y).clientKey = y.clientKey
  conversation : ∀ y, (f y).conversation = y.conversation
  callee : ∀ y, (f y).callee = y.callee
  advances : x.Advances (f x)

theorem Moves.eq (hd : Consistent d) {x y : CallSession} (h : Moves d x f) (hy : y ∈ d.calls)
    (hid : y.id = x.id) : y = x := by
  have hget := Table.get_of_mem hd.calls hy
  rw [hid] at hget
  exact Option.some.inj (hget.symm.trans h.row)

theorem Moves.advances_of (hd : Consistent d) {x : CallSession} (h : Moves d x f) :
    ∀ z ∈ d.calls, z.Advances (if z.id = x.id then f z else z) := by
  intro z hz
  by_cases hid : z.id = x.id
  · rw [if_pos hid, h.eq hd hz hid]
    exact h.advances
  · rw [if_neg hid]
    exact .refl z

theorem Moves.frame (hd : Consistent d) {x : CallSession} (h : Moves d x f)
    (hl : .call x.id ∉ held) : Frame held d (d.modifyCall x.id f) where
  conversations := rfl
  calls := .modify h.id CallSession.Advances.refl hl fun y hy => by
    obtain rfl := Option.some.inj (h.row.symm.trans hy)
    exact h.advances
  callOf k _ hn := by
    rw [Db.callOf?, Table.get_eq_none] at hn ⊢
    refine Table.forall_mem_modify.2 fun y hy => ?_
    split
    · rw [h.clientKey]
      exact hn y hy
    · exact hn y hy
  live c _ hn := by
    rw [Db.liveCall?_eq_none] at hn ⊢
    refine Table.forall_mem_modify.2 fun z hz => ?_
    by_contra hlive
    rw [Bool.not_eq_false] at hlive
    exact absurd ((h.advances_of hd z hz).liveIn hlive) (by rw [hn z hz]; decide)

theorem Moves.consistent (hd : Consistent d) {x : CallSession} (h : Moves d x f) :
    Consistent (d.modifyCall x.id f) where
  clientIds := by
    refine Table.forall_mem_modify.2 fun z hz => ?_
    split
    · rw [show (f z).clientCallId = z.clientCallId from congrArg Prod.snd (h.clientKey z)]
      exact hd.clientIds z hz
    · exact hd.clientIds z hz
  calls := by
    rw [Db.modifyCall, Table.map_key_modify h.id]
    exact hd.calls
  clientKeys := by
    rw [Db.modifyCall, Table.map_modify h.clientKey]
    exact hd.clientKeys
  live c y₁ h₁ y₂ h₂ hl₁ hl₂ := by
    obtain ⟨z₁, hz₁, rfl⟩ := Table.mem_modify.1 h₁
    obtain ⟨z₂, hz₂, rfl⟩ := Table.mem_modify.1 h₂
    have hz := hd.live c z₁ hz₁ z₂ hz₂ ((h.advances_of hd z₁ hz₁).liveIn hl₁)
      ((h.advances_of hd z₂ hz₂).liveIn hl₂)
    rw [hz]
  parties := by
    refine Table.forall_mem_modify.2 fun z hz => ?_
    obtain ⟨c, hc, hlen, hcaller, hcallee, hne⟩ := hd.parties z hz
    by_cases hid : z.id = x.id
    · have hcl : (f z).caller = z.caller := congrArg Prod.fst (h.clientKey z)
      rw [if_pos hid, h.conversation, h.callee, hcl]
      exact ⟨c, hc, hlen, hcaller, hcallee, hne⟩
    · rw [if_neg hid]
      exact ⟨c, hc, hlen, hcaller, hcallee, hne⟩

theorem moves_accept {x : CallSession} (now : Nat) (hx : d.call? x.id = some x)
    (hst : x.status = .invited) : Moves d x (.accept now) :=
  ⟨hx, fun _ => rfl, fun _ => rfl, fun _ => rfl, fun _ => rfl, CallSession.advances_accept now hst⟩

theorem moves_finish {x : CallSession} (user : UserId) (now : Nat) (reason : String)
    (hx : d.call? x.id = some x) (hst : x.status ≠ .ended) : Moves d x (.finish user now reason) :=
  ⟨hx, fun _ => rfl, fun _ => rfl, fun _ => rfl, fun _ => rfl,
    CallSession.advances_finish user now reason hst⟩

theorem Effect.frame (hd : Consistent d) (h : Effect held' d c d') (hdis : Disjoint held held') :
    Frame held d d' := by
  have hno : ∀ {k : LockName}, k ∈ held' → k ∉ held := fun hk hk' => Set.disjoint_left.1 hdis hk' hk
  cases h with
  | invited x hnew hc hlive hl hid hlk hkey =>
    refine ⟨rfl, .cons CallSession.Advances.refl (hno hl) hid, fun k hk hn => ?_, fun k hk hn => ?_⟩
    · rw [Db.callOf?, Db.addCall, Table.get_cons, if_neg]
      · exact hn
      · rintro rfl
        exact hno hlk hk
    · rw [Db.liveCall?_eq_none] at hn ⊢
      intro y hy
      rcases List.mem_cons.1 hy with rfl | hy
      · by_contra hlv
        rw [Bool.not_eq_false, CallSession.liveIn_iff] at hlv
        exact hno hc (by rwa [hlv.1])
      · exact hn y hy
  | accepted x now hl hx hst => exact (moves_accept now hx hst).frame hd (hno hl)
  | ended x user now reason hl hx hst =>
    exact (moves_finish user now reason hx hst).frame hd (hno hl)

theorem Effect.consistent (hd : Consistent d) (h : Effect held d c d') : Consistent d' := by
  cases h with
  | invited x hnew hc hlive hl hid hlk hkey =>
    rw [Db.liveCall?_eq_none] at hlive
    refine ⟨fun y hy => ?_, Table.nodup_map_cons hd.calls hid,
      Table.nodup_map_cons hd.clientKeys hkey, fun k y hy z hz hly hlz => ?_, fun y hy => ?_⟩
    · rcases List.mem_cons.1 hy with rfl | hy
      · exact hnew.clientId
      · exact hd.clientIds y hy
    · -- the new call is the only live one of its conversation
      have hother : ∀ z ∈ d.calls, x.liveIn k = true → z.liveIn k = false := fun z hz hx => by
        rw [← (CallSession.liveIn_iff.1 hx).1]
        exact hlive z hz
      rcases List.mem_cons.1 hy with hyx | hy' <;> rcases List.mem_cons.1 hz with hzx | hz'
      · rw [hyx, hzx]
      · rw [hother z hz' (hyx ▸ hly)] at hlz
        cases hlz
      · rw [hother y hy' (hzx ▸ hlz)] at hly
        cases hly
      · exact hd.live k y hy' z hz' hly hlz
    · rcases List.mem_cons.1 hy with rfl | hy
      · exact hnew.parties
      · exact hd.parties y hy
  | accepted x now hl hx hst => exact (moves_accept now hx hst).consistent hd
  | ended x user now reason hl hx hst => exact (moves_finish user now reason hx hst).consistent hd

end

def callDesign : Design Db LockName CommitPoint Empty Empty Unit where
  Inv d _ := Consistent d
  Effect held c d d' _ := Effect held d c d'
  Asks _ _ _ _ _ := False
  Frame := Frame
  refl := .refl
  trans := .trans
  mono := .mono
  frame hd h := h.frame hd
  keeps hd h := h.consistent hd
  asks _ h := h.elim

/-! ## Obligations -/

section
variable {mode : Mode} {ok : Move → Prop} {i : Nat} {held : Set LockName}
  {pend : Db → Db} {b : Bool} {w : Db × Unit} {P : CallSession × Bool → Prop}

abbrev Obliged {β : Type} (mode : Mode) (ok : Move → Prop) (i : Nat) (p : Tx β) (v : TxView)
    (Q : TxView → β → Prop) : Prop :=
  (callDesign.law mode ok).wp i p v Q

abbrev Later (mode : Mode) (ok : Move → Prop) := callDesign.Later mode ok

theorem lockedCall_wp {id : CallId} {Q : TxView → CallSession → Prop}
    (h : ∀ w' x, Later mode ok held b w w' → (pend w'.1).call? id = some x →
      Q ⟨insert (.call x.id) held, pend, mode.inTxn, w'⟩ x) :
    Obliged mode ok i (lockedCall id) ⟨held, pend, b, w⟩ Q := by
  unfold lockedCall
  refine Law.wp_bind
    (Design.frames.wp_selectForUpdate (fun w₁ hw₁ hn => trivial) fun w₁ x hw₁ hx => ?_)
  exact h w₁ x hw₁ hx

/-- The copy of a call that a session has locked is the row. -/
theorem Frame.locked {d d' : Db} {x : CallSession} (h : Frame held d d') (hl : .call x.id ∈ held)
    (hx : d.call? x.id = some x) : d'.call? x.id = some x := (h.calls.own x.id hl).trans hx

theorem acceptCall_wp {user : UserId} {callId : CallId} {now : Nat}
    (h : ∀ d x, Frame ∅ w.1 d → d.call? callId = some x →
      (x.status = .active → P (x, false)) ∧ (x.status = .invited → P (x.accept now, true))) :
    Obliged mode ok i (acceptCall user callId now) ⟨∅, id, b, w⟩ fun _ => P := by
  unfold acceptCall
  refine Law.wp_bind (lockedCall_wp fun w₁ x hw₁ hx => ?_)
  obtain ⟨hactive, hinvited⟩ := h _ x hw₁.frame hx
  have hid : x.id = callId := Table.get_key hx
  refine Law.wp_bind
    (Design.wp_require fun hparty => Law.wp_bind (Design.wp_require fun hcallee => ?_))
  cases hst : x.status with
  | active => exact hactive hst
  | ended => trivial
  | invited =>
    refine Law.wp_bind
      (Design.wp_write (Law.wp_bind (Design.wp_commit (fun w₂ hw₂ => ?_) fun _ _ _ => ?_)))
    · exact .accepted x now (.inl rfl) (hw₂.frame.locked (.inl rfl) (hid ▸ hx)) hst
    · exact hinvited hst

theorem endCall_wp {user : UserId} {callId : CallId} {reason : String} {now : Nat}
    (h : ∀ d x, Frame ∅ w.1 d → d.call? callId = some x →
      (x.status = .ended → P (x, false)) ∧
      (x.status ≠ .ended → P (x.finish user now (strip reason), true))) :
    Obliged mode ok i (endCall user callId reason now) ⟨∅, id, b, w⟩ fun _ => P := by
  unfold endCall
  generalize strip reason = normalizedReason at h ⊢
  refine Law.wp_bind (lockedCall_wp fun w₁ x hw₁ hx => ?_)
  obtain ⟨hended, hlive⟩ := h _ x hw₁.frame hx
  have hid : x.id = callId := Table.get_key hx
  refine Law.wp_bind
    (Design.wp_require fun hparty => Law.wp_bind (Design.wp_require fun hlen => ?_))
  split
  case isTrue hst => exact hended hst
  case isFalse hst =>
    refine Law.wp_bind
      (Design.wp_write (Law.wp_bind (Design.wp_commit (fun w₂ hw₂ => ?_) fun _ _ _ => ?_)))
    · exact .ended x user now _ (.inl rfl) (hw₂.frame.locked (.inl rfl) (hid ▸ hx)) hst
    · exact hlive hst

theorem priorCall_wp {prior : CallSession} {conversation : ConversationId} {callType : CallType}
    {e : Err} {v : TxView}
    (h : prior.conversation = conversation → prior.callType = callType → P (prior, false)) :
    Obliged mode ok i (priorCall prior conversation callType e) v fun _ => P := by
  refine Law.wp_bind (Design.wp_require fun hc => ?_)
  obtain ⟨h1, h2⟩ : prior.conversation = conversation ∧ prior.callType = callType := by
    simpa using hc
  exact h h1 h2

/-- The commit of a new call, when its conversation, its id and its client id are still free. -/
theorem invited_effect {call : CallSession} {d d' : Db} (hnew : call.New d) (h : Frame held d d')
    (hl : .conversation call.conversation ∈ held) (hlive : d.liveCall? call.conversation = none)
    (hc : .call call.id ∈ held) (hid : d.call? call.id = none) (hk : .callOf call.clientKey ∈ held)
    (hkey : d.callOf? call.clientKey = none) :
    Effect held d' (.invited call) (d'.addCall call) := by
  refine .invited call ⟨hnew.status, hnew.clientId, hnew.open_, ?_⟩ hl (h.live _ hl hlive) hc
    ((h.calls.own _ hc).trans hid) hk (h.callOf _ hk hkey)
  obtain ⟨c, hconv, hrest⟩ := hnew.parties
  refine ⟨c, ?_, hrest⟩
  rw [Db.conversation?, h.conversations]
  exact hconv

theorem insertCall_wp {call : CallSession} (hl : .conversation call.conversation ∈ held)
    (hnew : call.New w.1)
    (hprior : ∀ d x, Frame ∅ w.1 d → Consistent d → d.callOf? call.clientKey = some x →
      x.conversation = call.conversation → x.callType = call.callType → P (x, false))
    (hfresh : P (call, true)) :
    Obliged mode ok i (insertCall call) ⟨held, id, b, w⟩ fun _ => P := by
  unfold insertCall
  refine Law.wp_bind (Design.frames.wp_taken fun w₁ hw₁ => ?_)
  refine Law.wp_bind (Design.frames.wp_taken fun w₂ hw₂ => ?_)
  refine Law.wp_bind (Design.frames.wp_taken fun w₃ hw₃ => ?_)
  have h₂ := hw₂.frame
  have h₃ := hw₃.frame
  have hw : Frame held w.1 w₃.1 := (hw₁.frame.trans (h₂.mono (Set.subset_insert _ _))).trans
    (h₃.mono ((Set.subset_insert _ _).trans (Set.subset_insert _ _)))
  by_cases hfree : w₁.1.call? call.id = none ∧ w₂.1.callOf? call.clientKey = none ∧
      w₃.1.liveCall? call.conversation = none
  · obtain ⟨hid, hkey, hlv⟩ := hfree
    have hid₃ : w₃.1.call? call.id = none :=
      (h₃.calls.own _ (by simp)).trans ((h₂.calls.own _ (by simp)).trans hid)
    have hkey₃ : w₃.1.callOf? call.clientKey = none := h₃.callOf _ (by simp) hkey
    rw [if_neg (by simp [hid, hkey, hlv])]
    refine Law.wp_bind
      (Design.wp_write (Law.wp_bind (Design.wp_commit (fun w₄ hw₄ => ?_) fun _ _ _ => ?_)))
    · have hnew₃ : call.New w₃.1 := by
        obtain ⟨c, hconv, hrest⟩ := hnew.parties
        refine ⟨hnew.status, hnew.clientId, hnew.open_, c, ?_, hrest⟩
        rw [Db.conversation?, hw.conversations]
        exact hconv
      exact invited_effect hnew₃ hw₄.frame (by simp [hl]) hlv (by simp) hid₃ (by simp) hkey₃
    · exact hfresh
  · rw [if_pos (by simpa [Option.isSome_iff_ne_none, or_iff_not_imp_left] using hfree)]
    refine Law.wp_bind (Design.wp_rollback fun w₄ hw₄ => ?_)
    refine Law.wp_bind (Design.frames.wp_select fun w₅ hw₅ => ?_)
    have h₅ : Frame ∅ w.1 w₅.1 := ((hw.mono (Set.empty_subset _)).trans
      (hw₄.frame.mono (Set.empty_subset _))).trans hw₅.frame
    split
    · trivial
    · rename_i x hx
      exact priorCall_wp (hprior _ x h₅ hw₅.inv hx)

theorem inviteCall_wp {user : UserId} {conversationId : ConversationId}
    {clientCallId callType : String} {now : Nat} {id' : CallId}
    (hprior : ∀ d x t, Frame ∅ w.1 d → Consistent d →
      CallType.parse (upper (strip callType)) = some t →
      d.callOf? (user, strip clientCallId) = some x → x.conversation = conversationId →
      x.callType = t → P (x, false))
    (hfresh : ∀ d x, Frame ∅ w.1 d → Consistent d → d.callOf? (user, strip clientCallId) = none →
      P (x, true)) :
    Obliged mode ok i (inviteCall user conversationId clientCallId callType now id')
      ⟨∅, id, b, w⟩ fun _ => P := by
  unfold inviteCall
  generalize strip clientCallId = clientId at hprior hfresh ⊢
  refine Law.wp_bind (Design.wp_require fun hvalid => ?_)
  split
  · trivial
  · rename_i t ht
    refine Law.wp_bind (Design.frames.wp_selectForUpdate (fun w₁ hw₁ hn => trivial)
      fun w₁ conversation hw₁ hc => ?_)
    have hid : conversation.id = conversationId := Table.get_key hc
    refine Law.wp_bind
      (Design.wp_require fun hmem => Law.wp_bind (Design.wp_require fun hlen => ?_))
    split
    · trivial
    · rename_i callee hcallee
      refine Law.wp_bind (Design.frames.wp_select fun w₂ hw₂ => ?_)
      have h₂ : Frame ∅ w.1 w₂.1 := hw₁.frame.trans (hw₂.frame.mono (Set.empty_subset _))
      split
      · rename_i prior hp
        exact priorCall_wp fun hconv htype =>
          hprior _ prior t h₂ hw₂.inv ht hp (hconv.trans hid) htype
      · rename_i hp
        refine Law.wp_bind (Design.frames.wp_select fun w₃ hw₃ => ?_)
        refine Law.wp_bind (Design.wp_require fun hlive => ?_)
        have h₃ : Frame ∅ w.1 w₃.1 := h₂.trans (hw₃.frame.mono (Set.empty_subset _))
        refine insertCall_wp (.inl rfl)
          ⟨rfl, hvalid, ⟨rfl, rfl, rfl, rfl⟩, conversation, ?_, ?_, ?_, ?_, ?_⟩
          (fun d x hf hd hx hconv htype =>
            hprior d x t (h₃.trans hf) hd ht hx (hconv.trans hid) htype)
          (hfresh _ _ h₂ hw₂.inv hp)
        · rw [Db.conversation?, hw₃.frame.conversations, hw₂.frame.conversations, hid]
          exact hc
        · exact of_decide_eq_true hlen
        · exact List.mem_dedup.1 (List.contains_iff_mem.1 hmem)
        · exact List.mem_dedup.1 (List.mem_of_find?_eq_some hcallee)
        · simpa using List.find?_some hcallee

end

/-! ## Requests -/

inductive Service
  | invite (user : UserId) (conversation : ConversationId) (clientCallId callType : String)
      (now : Nat) (id : CallId)
  | accept (user : UserId) (call : CallId) (now : Nat)
  | finish (user : UserId) (call : CallId) (reason : String) (now : Nat)

def Service.program : Service → Tx (CallSession × Bool)
  | .invite user conversation clientCallId callType now id =>
    inviteCall user conversation clientCallId callType now id
  | .accept user call now => acceptCall user call now
  | .finish user call reason now => endCall user call reason now

/-- What a request may commit. -/
def Service.Commits (x : Service) (c : CommitPoint) (r : Except Err (CallSession × Bool)) : Prop :=
  match x with
  | .invite user _ clientCallId _ _ _ =>
    ∃ y, c = .invited y ∧ y.clientKey = (user, strip clientCallId) ∧ r = .ok (y, true)
  | .accept user call now =>
    ∃ y : CallSession, c = .accepted y ∧ y.id = call ∧ y.callee = user ∧
      r = .ok (y.accept now, true)
  | .finish user call reason now =>
    ∃ y : CallSession, c = .ended y ∧ y.id = call ∧ r = .ok (y.finish user now (strip reason), true)

theorem Service.obliged {mode : Mode} {ok : Move → Prop} {i : Nat} {b : Bool} {w : Db × Unit}
    (x : Service) : Obliged mode ok i x.program ⟨∅, id, b, w⟩ fun _ _ => True := by
  cases x with
  | invite user conversation clientCallId callType now id' =>
    change Obliged mode ok i (inviteCall user conversation clientCallId callType now id')
      ⟨∅, id, b, w⟩ fun _ _ => True
    exact inviteCall_wp (P := fun _ => True) (fun _ _ _ _ _ _ _ _ _ => trivial)
      fun _ _ _ _ _ => trivial
  | accept =>
    exact acceptCall_wp (P := fun _ => True) fun _ _ _ _ => ⟨fun _ => trivial, fun _ => trivial⟩
  | finish =>
    exact endCall_wp (P := fun _ => True) fun _ _ _ _ => ⟨fun _ => trivial, fun _ => trivial⟩

/-! ## What a request commits -/

theorem lockedCall_ends {id : CallId} :
    (lockedCall id).Ends (fun x => x.id = id) fun _ _ => False := by
  unfold lockedCall
  intro d
  dsimp only [Prog.bind]
  cases h : d.call? id with
  | none => trivial
  | some call => exact Table.get_key h

theorem priorCall_ends {φ : Txn.Point CommitPoint → Except Err (CallSession × Bool) → Prop}
    {prior : CallSession} {conversation : ConversationId} {callType : CallType} {e : Err} :
    (priorCall prior conversation callType e).Ends (fun r => r.2 = false) φ :=
  ends_require fun _ => rfl

theorem insertCall_ends {call : CallSession} : (insertCall call).Ends (fun r => r.2 = false)
    (Txn.Signed fun c r => c = .invited call ∧ r = .ok (call, true)) := by
  unfold insertCall
  refine ends_taken fun sameId => ends_taken fun duplicate => ends_taken fun busy => ?_
  split
  · refine ends_rollback (ends_select fun prior => ?_)
    cases prior with
    | none => trivial
    | some prior => exact priorCall_ends
  · exact ends_write (ends_commit (r := .ok _) rfl ⟨rfl, rfl⟩)

theorem Service.ends (x : Service) :
    x.program.Ends (fun r => r.2 = false) (Txn.Signed x.Commits) := by
  cases x with
  | invite user conversation clientCallId callType now id' =>
    unfold Service.program inviteCall
    refine ends_require fun _ => ?_
    split
    · trivial
    · refine ends_selectForUpdate fun conversation => ?_
      cases conversation with
      | none => trivial
      | some conversation =>
        refine ends_require fun _ => ends_require fun _ => ?_
        split
        · trivial
        · refine ends_select fun prior => ?_
          cases prior with
          | some prior => exact priorCall_ends
          | none =>
            refine ends_select fun live => ends_require fun _ => ?_
            exact insertCall_ends.mono (fun _ h => h)
              (Txn.Signed.mono (f := id) fun c r h => ⟨_, h.1, rfl, h.2⟩)
  | accept user call now =>
    unfold Service.program acceptCall
    refine Prog.Ends.bind lockedCall_ends fun x hx => ?_
    refine ends_require fun _ => ends_require fun hcallee => ?_
    split
    · rfl
    · trivial
    · refine ends_write (ends_commit (r := .ok _) rfl ⟨x, rfl, hx, ?_, rfl⟩)
      exact (of_decide_eq_true hcallee).symm
  | finish user call reason now =>
    unfold Service.program endCall
    refine Prog.Ends.bind lockedCall_ends fun x hx => ?_
    refine ends_require fun _ => ends_require fun _ => ?_
    split
    · rfl
    · exact ends_write (ends_commit (r := .ok _) rfl ⟨x, rfl, hx, rfl⟩)

end Calls
