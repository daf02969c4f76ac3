import Freelancing.Frontend.CallController

/-!
# Media and calls

What the methods of the controller acquire is held by it, or by a call that waits (`Owned`), and
what it holds while it is not in a call belongs to a `start` or `accept` that waits. A step breaks
that where something is acquired for a call that is over, into a place that is taken or by a
controller that is disposed, and where an `accept` is rejected with media in its hands; a run
without such steps never outlives its call (`nothingOutlives_of_run`).
-/

namespace Frontend

open Async (Code Wait wp Sound)

/-! ## The invariant -/

def State.HoldsNothing (s : State) : Prop :=
  s.localStream = none ∧ s.screenStream = none ∧ s.peer = none

/-- A `start` or `accept` waits. -/
def Attempting (ls : List Label) : Prop := ∃ l ∈ ls, l.1.isSome = true

/-- A captured screen whose track is being put in place. -/
def Captured (ls : List Label) (x : Stream) : Prop :=
  ∃ t, (t, Wait.request (.replaceTrack (some x))) ∈ ls

/-- Nothing is held that would outlive the call, or somebody still takes care of it. -/
def Covered (ls : List Label) (s : State) : Prop := s.HoldsNothing ∨ Attempting ls

structure Owned (ls : List Label) (s : State) : Prop where
  peers : ∀ p ∈ s.openPeers, s.peer = some p
  streams : ∀ x ∈ s.live, s.localStream = some x ∨ s.screenStream = some x ∨ Captured ls x
  disposed : s.disposed = true → s.HoldsNothing
  covered : s.Over → Covered ls s

/-! ## Careful steps -/

/-- Media may be acquired: for a call, or for an attempt that waits. -/
def MayHold (ls : List Label) (s : State) : Prop := s.disposed = false ∧ (¬ s.Over ∨ Attempting ls)

/-- What is granted is wanted, and its place is free. The screen that was captured is put in
place. -/
def Granted : (w : Wait Request) → w.Reply Request.Value → List Label → State → Prop
  | .request (.userMedia _), .ok _, ls, s => s.localStream = none ∧ MayHold ls s
  | .request .iceServers, .ok _, ls, s => s.peer = none ∧ MayHold ls s
  | .request (.replaceTrack (some _)), .ok _, ls, s => s.screenStream = none ∧ MayHold ls s
  | .request (.replaceTrack (some _)), .error _, _, _ => False
  | _, _, _, _ => True

/-- An answer that an attempt is rejected for. -/
def Rejects : (w : Wait Request) → w.Reply Request.Value → Prop
  | .request (.emit _), .ok (ack : SocketAck) => ack.ok = false ∨ ack.call = none
  | .request _, .error _ => True
  | .settled (some _), _ => True
  | _, _ => False

/-- An answer that brings a call which is over. -/
def BringsEnded : (w : Wait Request) → w.Reply Request.Value → Prop
  | .request (.emit _), .ok (ack : SocketAck) => ∃ call, ack.call = some call ∧ call.status = .ended
  | _, _ => False

/-- The condition on an answer, from the state that it finds. -/
structure CarefulAnswer (l : Label) (x : l.2.Reply Request.Value) (rest : List Label) (s : State) :
    Prop where
  granted : Granted l.2 x (l :: rest) s
  accept : l.1 = some .accept → Rejects l.2 x → Covered rest s
  ended : l.1.isSome = true → BringsEnded l.2 x → Covered rest s

/-- The condition on a call, from the state that it finds: an attempt that is refused at once, and
an ended call that is put in place of another, leave no media behind. -/
def CarefulCall (userId : String) : Method → List Label → State → Prop
  | .start _ _, ls, s => s.inCall = true → Covered ls s
  | .accept, ls, s => s.incoming userId = none → Covered ls s
  | .restore call, ls, s => (∀ c, call = some c → c.status = .ended) → Covered ls s
  | .handleEvent (.callAccept call), ls, s =>
      s.callId = some call.id → call.status = .ended → Covered ls s
  | _, _, _ => True

theorem attempting_perm {ls ls' : List Label} (h : ls.Perm ls') (ha : Attempting ls) :
    Attempting ls' := by
  obtain ⟨l, hl, hs⟩ := ha
  exact ⟨l, h.mem_iff.1 hl, hs⟩

theorem Owned.mono {ls ls' : List Label} {s : State} (h : Owned ls s)
    (hc : ∀ x, Captured ls x → Captured ls' x) (ha : Attempting ls → Attempting ls') :
    Owned ls' s where
  peers := h.peers
  streams x hx := (h.streams x hx).imp_right (Or.imp_right (hc x))
  disposed := h.disposed
  covered ho := (h.covered ho).imp_right ha

def rules (userId : String) : Async.Rules Request.Value State (Option Attempt) Method where
  Inv := Owned
  Careful := CarefulAnswer
  CarefulCall := CarefulCall userId
  perm h hi := hi.mono (fun _ hc => hc.imp fun _ ht => h.mem_iff.1 ht) (attempting_perm h)

/-! ## Between two awaits -/

variable {userId : String} {t : Option Attempt} {rest ls : List Label} {s : State} {α β : Type}

/-- A call that runs, or waits for nothing that it captured. -/
def Mid (t : Option Attempt) (rest : List Label) (s : State) :
    Prop := Owned ((t, .settled none) :: rest) s

theorem captured_cons {w : Wait Request} {x : Stream} :
    Captured ((t, w) :: ls) x ↔ w = .request (.replaceTrack (some x)) ∨ Captured ls x := by
  simp [Captured, exists_or, eq_comm]

theorem attempting_cons {w : Wait Request} :
    Attempting ((t, w) :: ls) ↔ t.isSome = true ∨ Attempting ls := by
  simp [Attempting]

theorem Owned.mid (h : Owned rest s) : Mid t rest s :=
  h.mono (fun _ hc => captured_cons.2 (.inr hc)) fun ha => attempting_cons.2 (.inr ha)

theorem Mid.inv {w : Wait Request} (h : Mid t rest s) : Owned ((t, w) :: rest) s :=
  h.mono (fun _ hc => captured_cons.2 (.inr ((captured_cons.1 hc).resolve_left (by simp))))
    fun ha => attempting_cons.2 (attempting_cons.1 ha)

/-- What waits for something else than a captured screen has captured nothing. -/
theorem mid_of_inv {w : Wait Request} (hw : ∀ x, w ≠ .request (.replaceTrack (some x)))
    (h : Owned ((t, w) :: rest) s) : Mid t rest s :=
  h.mono (fun x hc => captured_cons.2 (.inr ((captured_cons.1 hc).resolve_left (hw x))))
    fun ha => attempting_cons.2 (attempting_cons.1 ha)

/-- A call that is no attempt leaves what it found. -/
theorem Mid.others (h : Mid none rest s) : Owned rest s :=
  h.mono (fun _ hc => (captured_cons.1 hc).resolve_left (by simp))
    fun ha => (attempting_cons.1 ha).resolve_left (by simp)

/-- The code keeps the invariant, however it ends. -/
def Keeps (userId : String) (t : Option Attempt) (code : Body α) : Prop :=
  ∀ rest s, Mid t rest s →
    wp (rules userId) t code (fun _ rest s => Mid t rest s) (fun _ rest s => Mid t rest s) rest s

theorem keeps_pure (a : α) : Keeps userId t (pure a : Body α) := fun _ _ h => h

theorem keeps_throw (m : String) : Keeps userId t (Code.throw m : Body α) := fun _ _ h => h

theorem keeps_bind {code : Body α} {f : α → Body β} (h : Keeps userId t code)
    (hf : ∀ a, Keeps userId t (f a)) : Keeps userId t (code >>= f) := by
  intro rest s hm
  exact Async.wp_bind
    (Async.wp_mono (fun a rest s hm => hf a rest s hm) (fun _ _ _ hm => hm) (h rest s hm))

theorem keeps_get {f : State → Body α} (hf : ∀ s, Keeps userId t (f s)) :
    Keeps userId t (Code.get >>= f) := fun rest s hm => hf s rest s hm

theorem keeps_modify {f : State → State} (h : ∀ rest s, Mid t rest s → Mid t rest (f s)) :
    Keeps userId t (Code.modify f) := fun rest s hm => h rest s hm

theorem keeps_awaited {code : Body α} (h : Keeps userId t code) : Keeps userId t code.awaited := by
  intro rest s hm
  refine Async.wp_awaited (Async.wp_mono ?_ ?_ (h rest s hm))
  · exact fun a rest s hm => ⟨hm, fun rest' s' hi _ => hi⟩
  · exact fun m rest s hm => ⟨hm.inv, fun rest' s' hi _ => mid_of_inv (by simp) hi⟩

theorem keeps_await {r : Request} (hr : ∀ x, r ≠ .replaceTrack (some x)) :
    Keeps userId t (await r) := by
  have hw : ∀ x, Wait.request r ≠ .request (.replaceTrack (some x)) :=
    fun x he => hr x (by cases he; rfl)
  intro rest s hm
  exact Async.wp_request hm.inv (fun _ _ _ hi _ => mid_of_inv hw hi) fun _ _ _ hi _ =>
    mid_of_inv hw hi

/-! ## What the methods change -/

theorem holdsNothing_cleanup (s : State) : (cleanupPeerAndMedia s).HoldsNothing := ⟨rfl, rfl, rfl⟩

/-- Whatever the call and the end of the controller: what is let go of is stopped and closed. -/
theorem Owned.cleanup (h : Owned ls s) (call : Option CallSession) (disposed : Bool) :
    Owned ls (cleanupPeerAndMedia { s with currentCall := call, disposed := disposed }) where
  peers p hp := by
    simp only [cleanupPeerAndMedia, State.stop, State.closePeer, List.mem_filter,
      decide_eq_true_eq] at hp
    exact absurd (h.peers p hp.1).symm hp.2
  streams x hx := by
    simp only [cleanupPeerAndMedia, State.stop, State.closePeer, List.mem_filter,
      decide_eq_true_eq] at hx
    obtain ⟨⟨hlive, hscreen⟩, hlocal⟩ := hx
    rcases h.streams x hlive with hl | hs | hc
    · exact absurd hl.symm hlocal
    · exact absurd hs.symm hscreen
    · exact .inr (.inr hc)
  disposed _ := holdsNothing_cleanup _
  covered _ := .inl (holdsNothing_cleanup _)

theorem Owned.dropScreen (h : Owned ls s) : Owned ls (dropScreen s) where
  peers := h.peers
  streams x hx := by
    simp only [Frontend.dropScreen, State.stop, List.mem_filter, decide_eq_true_eq] at hx
    rcases h.streams x hx.1 with hl | hs | hc
    · exact .inl hl
    · exact absurd hs.symm hx.2
    · exact .inr (.inr hc)
  disposed hd := ⟨(h.disposed hd).1, rfl, (h.disposed hd).2.2⟩
  covered ho := (h.covered ho).imp_left fun hn => ⟨hn.1, rfl, hn.2.2⟩

/-- What media are acquired for stays covered by an attempt where there is no call. -/
theorem MayHold.covered {s' : State} (h : MayHold ls s) (ho : s.Over) : Covered ls s' :=
  .inr (h.2.resolve_left fun hn => hn ho)

theorem MayHold.mid {w : Wait Request} (h : MayHold ((t, w) :: rest) s) :
    MayHold ((t, .settled none) :: rest) s :=
  ⟨h.1, h.2.imp_right fun ha => attempting_cons.2 (attempting_cons.1 ha)⟩

theorem Owned.holdLocal (h : Owned ls s) (hfree : s.localStream = none) (hmay : MayHold ls s) :
    Owned ls { s with
      live := s.fresh :: s.live
      fresh := s.fresh + 1
      localStream := some s.fresh } where
  peers := h.peers
  streams x hx := by
    rcases List.mem_cons.1 hx with rfl | hx
    · exact .inl rfl
    · have hne : s.localStream ≠ some x := by simp [hfree]
      exact .inr ((h.streams x hx).resolve_left hne)
  disposed hd := by simp [hmay.1] at hd
  covered ho := hmay.covered ho

theorem Owned.holdPeer (h : Owned ls s) (hfree : s.peer = none) (hmay : MayHold ls s) :
    Owned ls { s with
      openPeers := s.fresh :: s.openPeers
      fresh := s.fresh + 1
      peer := some s.fresh } where
  peers p hp := by
    rcases List.mem_cons.1 hp with rfl | hp
    · rfl
    · have hpeer := h.peers p hp
      rw [hfree] at hpeer
      cases hpeer
  streams := h.streams
  disposed hd := by simp [hmay.1] at hd
  covered ho := hmay.covered ho

/-- A captured screen waits for its place. -/
theorem Mid.capture (h : Mid t rest s) :
    Owned ((t, .request (.replaceTrack (some s.fresh))) :: rest)
      { s with live := s.fresh :: s.live, fresh := s.fresh + 1 } where
  peers := h.peers
  streams x hx := by
    rcases List.mem_cons.1 hx with rfl | hx
    · exact .inr (.inr (captured_cons.2 (.inl rfl)))
    · exact h.inv.streams x hx
  disposed := h.disposed
  covered := h.inv.covered

/-- A screen without a video track is stopped again. -/
theorem Mid.discard (h : Mid t rest s) : Mid t rest
    ({ s with live := s.fresh :: s.live, fresh := s.fresh + 1 }.stop (some s.fresh)) where
  peers := h.peers
  streams x hx := by
    simp only [State.stop, List.mem_filter, decide_eq_true_eq] at hx
    rcases List.mem_cons.1 hx.1 with rfl | hlive
    · exact absurd rfl hx.2
    · exact h.streams x hlive
  disposed := h.disposed
  covered := h.covered

theorem Owned.holdScreen {x : Stream} (h : Owned ((t, .request (.replaceTrack (some x))) :: rest) s)
    (hfree : s.screenStream = none)
    (hmay : MayHold ((t, .request (.replaceTrack (some x))) :: rest) s) :
    Mid t rest { s with screenStream := some x, screenSharing := true } where
  peers := h.peers
  streams y hy := by
    rcases h.streams y hy with hl | hs | hc
    · exact .inl hl
    · simp [hfree] at hs
    · rcases captured_cons.1 hc with he | hc
      · cases he
        exact .inr (.inl rfl)
      · exact .inr (.inr (captured_cons.2 (.inr hc)))
  disposed hd := by simp [hmay.1] at hd
  covered ho := .inr (attempting_cons.2 (attempting_cons.1 (hmay.2.resolve_left fun hn => hn ho)))

theorem Owned.setCall {call : Option CallSession} (h : Owned ls s)
    (hc : (∀ c, call = some c → c.status = .ended) → Covered ls s) :
    Owned ls { s with currentCall := call } where
  peers := h.peers
  streams := h.streams
  disposed := h.disposed
  covered ho := by
    rcases ho with hin | hl | hd
    · refine hc fun c he => ?_
      subst he
      simpa [State.inCall] using hin
    · exact h.covered (.inr (.inl hl))
    · exact h.covered (.inr (.inr hd))

/-- An attempt covers what is held while it runs. -/
theorem covered_mid {w : Wait Request} (ht : t.isSome = true) : Covered ((t, w) :: rest) s :=
  .inr (attempting_cons.2 (.inl ht))

/-- The end of an attempt. -/
theorem Mid.finish {rejected : Bool} (h : Mid t rest s)
    (hc : { s with lastRejected := rejected }.Over → Covered rest s) :
    Owned rest { s with lastRejected := rejected } where
  peers := h.peers
  streams x hx := (h.streams x hx).imp_right
    (Or.imp_right fun hc => (captured_cons.1 hc).resolve_left (by simp))
  disposed := h.disposed
  covered := hc

/-! ## The methods keep it -/

theorem keeps_cleanup : Keeps userId t (Code.modify cleanupPeerAndMedia) :=
  keeps_modify fun _ s hm => hm.cleanup s.currentCall s.disposed

theorem keeps_ensureLocalMedia (callType : CallType) :
    Keeps userId t (ensureLocalMedia callType) := by
  refine keeps_get fun s => ?_
  split
  · exact keeps_pure _
  · split
    · exact keeps_throw _
    · intro rest s hm
      refine Async.wp_bind (Async.wp_request hm.inv ?_ ?_)
      · intro rest' s' _ hi hc
        have hm' : Mid t rest' s' := mid_of_inv (by simp) hi
        exact Owned.holdLocal hm' hc.granted.1 hc.granted.2.mid
      · intro rest' s' _ hi _
        exact mid_of_inv (by simp) hi

theorem keeps_ensurePeer : Keeps userId t ensurePeer := by
  refine keeps_get fun s => ?_
  split
  · exact keeps_pure _
  · exact keeps_throw _
  · intro rest s hm
    refine Async.wp_bind (Async.wp_request hm.inv ?_ ?_)
    · intro rest' s' _ hi hc
      have hm' : Mid t rest' s' := mid_of_inv (by simp) hi
      exact Owned.holdPeer hm' hc.granted.1 hc.granted.2.mid
    · intro rest' s' _ hi _
      exact mid_of_inv (by simp) hi

theorem keeps_emit (signal : Signal) : Keeps userId t (emit signal) :=
  @keeps_await userId t (.emit signal) (by simp)

theorem keeps_getDisplayMedia : Keeps userId t getDisplayMedia :=
  @keeps_await userId t .displayMedia (by simp)

theorem keeps_negotiate (step : Negotiation) : Keeps userId t (negotiate step) :=
  @keeps_await userId t (.negotiate step) (by simp)

theorem keeps_addCandidates (pending : List String) : Keeps userId t (addCandidates pending) := by
  induction pending with
  | nil => exact keeps_pure ()
  | cons candidate pending ih =>
    refine keeps_get fun s => ?_
    split
    · exact keeps_throw _
    · exact keeps_bind (keeps_negotiate _) fun _ => ih

theorem keeps_flushCandidates : Keeps userId t flushCandidates := by
  refine keeps_get fun s => ?_
  split
  · exact keeps_pure ()
  · refine keeps_bind (keeps_modify fun _ _ hm => ⟨hm.peers, hm.streams, hm.disposed, hm.covered⟩)
      fun _ => ?_
    exact keeps_addCandidates _

theorem keeps_createAndSendOffer (call : CallSession) :
    Keeps userId t (createAndSendOffer call) := by
  refine keeps_bind (keeps_awaited (keeps_ensureLocalMedia call.callType)) fun _ => ?_
  refine keeps_bind (keeps_awaited keeps_ensurePeer) fun _ => ?_
  refine keeps_bind (keeps_negotiate _) fun _ => ?_
  refine keeps_bind (keeps_negotiate _) fun _ => ?_
  refine keeps_bind (keeps_emit _) fun ack => ?_
  split
  · exact keeps_throw _
  · exact keeps_pure ()

theorem keeps_acceptOffer : Keeps userId t acceptOffer := by
  refine keeps_get fun s => ?_
  split
  · exact keeps_throw _
  · split
    · exact keeps_throw _
    · refine keeps_bind (keeps_awaited (keeps_ensureLocalMedia _)) fun _ => ?_
      refine keeps_bind (keeps_awaited keeps_ensurePeer) fun _ => ?_
      refine keeps_bind (keeps_negotiate _) fun _ => ?_
      refine keeps_bind (keeps_awaited keeps_flushCandidates) fun _ => ?_
      refine keeps_bind (keeps_negotiate _) fun _ => ?_
      refine keeps_bind (keeps_negotiate _) fun _ => ?_
      refine keeps_bind (keeps_emit _) fun ack => ?_
      split
      · exact keeps_throw _
      · exact keeps_pure ()

/-- The acknowledged call may be over: what is held is let go of before anything else runs. -/
theorem keeps_endCall (reason : String) : Keeps userId t (endCall reason) := by
  refine keeps_get fun s => ?_
  split
  · next call _ =>
    split
    · intro rest s hm
      refine Async.wp_bind (Async.wp_tryCatch (Async.wp_bind (Async.wp_request hm.inv ?_ ?_)))
      · intro rest' s' ack hi _
        have hm' : Mid t rest' s' := mid_of_inv (by simp) hi
        split
        · next c _ _ => exact hm'.cleanup (some c) s'.disposed
        · exact hm'.cleanup s'.currentCall s'.disposed
      · intro rest' s' _ hi _
        have hm' : Mid t rest' s' := mid_of_inv (by simp) hi
        exact hm'.cleanup s'.currentCall s'.disposed
    · exact keeps_cleanup
  · exact keeps_cleanup

theorem keeps_startScreenShare : Keeps userId t startScreenShare := by
  refine keeps_get fun s => ?_
  split
  · exact keeps_throw _
  · split
    · exact keeps_throw _
    · split
      · exact keeps_throw _
      · refine keeps_bind keeps_getDisplayMedia fun video => ?_
        intro rest s hm
        cases video with
        | false => exact hm.discard
        | true =>
          change wp _ t (replaceTrack (some s.fresh) >>= fun _ => Code.modify _) _ _ rest _
          refine Async.wp_bind (Async.wp_request hm.capture ?_ ?_)
          · exact fun rest' s' _ hi hc => hi.holdScreen hc.granted.1 hc.granted.2
          · exact fun rest' s' _ _ hc => hc.granted.elim

theorem keeps_stopScreenShare : Keeps userId t stopScreenShare := by
  have hdrop : Keeps userId t (Code.modify dropScreen) := keeps_modify fun _ _ hm => hm.dropScreen
  refine keeps_get fun s => ?_
  split
  · exact keeps_pure ()
  · split
    · exact keeps_bind (@keeps_await userId t (.replaceTrack none) (by simp)) fun _ => hdrop
    · exact hdrop

/-! ## The methods are sound -/

/-- A call that is no attempt only has to keep the invariant. -/
theorem sound_of_keeps {code : Body Unit} (h : Keeps userId none code) (hi : Owned rest s) :
    Sound (controller userId) (rules userId) none code rest s :=
  Async.wp_mono (fun _ _ _ hm => hm.others) (fun _ _ _ hm => hm.others) (h rest s hi.mid)

/-- An attempt ends with the call that is acknowledged, or is rejected. -/
theorem wp_ack {a : Attempt} {signal : Signal} {ack : SocketAck} {fallback : String}
    {E : String → List Label → State → Prop} (hm : Mid (some a) rest s)
    (hended : BringsEnded (.request (.emit signal)) (.ok ack) → Covered rest s)
    (hreject : Rejects (.request (.emit signal)) (.ok ack) → ∀ m, E m rest s) :
    wp (rules userId) (some a) (requireCallAck ack fallback >>= setCall)
      (fun _ rest s => Owned rest { s with lastRejected := false }) E rest s := by
  unfold requireCallAck
  split
  · next call _ hcall =>
    have hcalled : Mid (some a) rest { s with currentCall := some call } :=
      Owned.setCall hm fun _ => covered_mid rfl
    refine hcalled.finish fun ho => ?_
    rcases ho with hin | hl | hd
    · exact hended ⟨call, hcall, by simpa [State.inCall] using hin⟩
    · cases hl
    · exact .inl (hm.disposed hd)
  · next hne =>
    refine hreject ?_ _
    cases hok : ack.ok with
    | false => exact .inl hok
    | true =>
      cases hcall : ack.call with
      | none => exact .inr hcall
      | some call => exact absurd hcall (hne call hok)

theorem sound_start (conversationId : String) (callType : CallType) (hi : Owned rest s)
    (hc : s.inCall = true → Covered rest s) : Sound (controller userId) (rules userId) (some .start)
      (start conversationId callType) rest s := by
  have hm : Mid (some .start) rest s := hi.mid
  change wp _ _ (if s.inCall then _ else _) _ _ rest s
  by_cases hin : s.inCall = true
  · rw [if_pos hin]
    exact hm.finish fun _ => hc hin
  rw [if_neg hin]
  -- A rejection behind the guard stops everything.
  have hreject : ∀ rest s, Mid (some .start) rest s →
      Owned rest { cleanupPeerAndMedia s with lastRejected := true } :=
    fun rest s hm => Mid.finish (hm.cleanup s.currentCall s.disposed) fun _ =>
      .inl (holdsNothing_cleanup s)
  refine Async.wp_tryCatch (Async.wp_bind ?_)
  refine Async.wp_mono ?_ (fun _ rest s hm => hreject rest s hm)
    (keeps_awaited (keeps_ensureLocalMedia callType) rest s hm)
  intro _ rest s hm
  refine Async.wp_bind (Async.wp_request hm.inv ?_ ?_)
  · intro rest' s' ack hi' hc'
    have hm' : Mid (some .start) rest' s' := mid_of_inv (by simp) hi'
    exact wp_ack hm' (hc'.ended rfl) fun _ _ => hreject rest' s' hm'
  · intro rest' s' _ hi' _
    exact hreject rest' s' (mid_of_inv (by simp) hi')

/-- Nothing stops the media of an `accept` that is rejected: the condition excludes it. -/
theorem sound_accept (hi : Owned rest s) (hc : s.incoming userId = none → Covered rest s) :
    Sound (controller userId) (rules userId) (some .accept) (accept userId) rest s := by
  have hm : Mid (some .accept) rest s := hi.mid
  unfold accept
  refine Async.wp_bind (Async.wp_get ?_)
  split
  · next hnone => exact hm.finish fun _ => hc hnone
  · next call _ =>
    refine Async.wp_bind (Async.wp_awaited ?_)
    refine Async.wp_mono ?_ ?_ (keeps_ensureLocalMedia call.callType rest s hm)
    · intro _ rest s hm
      refine ⟨hm, fun rest' s' hm' _ => ?_⟩
      refine Async.wp_bind (Async.wp_request (Mid.inv hm') ?_ ?_)
      · intro rest'' s'' ack hi'' hc''
        have hm'' : Mid (some .accept) rest'' s'' := mid_of_inv (by simp) hi''
        exact wp_ack hm'' (hc''.ended rfl) fun hr _ => hm''.finish fun _ => hc''.accept rfl hr
      · intro rest'' s'' _ hi'' hc''
        have hm'' : Mid (some .accept) rest'' s'' := mid_of_inv (by simp) hi''
        exact hm''.finish fun _ => hc''.accept rfl trivial
    · intro _ rest s hm
      refine ⟨hm.inv, fun rest' s' hi' hc' => ?_⟩
      have hm' : Mid (some .accept) rest' s' := mid_of_inv (by simp) hi'
      exact hm'.finish fun _ => hc'.accept rfl trivial

theorem sound_handleEvent (event : SocketEvent) (hi : Owned rest s)
    (hc : CarefulCall userId (.handleEvent event) rest s) :
    Sound (controller userId) (rules userId) none (handleEvent event) rest s := by
  have hsame : Sound (controller userId) (rules userId) none (pure () : Body Unit) rest s := hi
  change Sound _ _ none (if s.disposed then _ else _) rest s
  split
  · exact hsame
  cases event with
  | callInvite call =>
    change Sound _ _ none (if s.inCall then _ else _) rest s
    split
    · exact hsame
    · next hin => exact hi.setCall fun _ => hi.covered (.inl (by simpa using hin))
  | callAccept call =>
    change Sound _ _ none (if s.callId ≠ some call.id then _ else _) rest s
    split
    · exact hsame
    · next hid =>
      have hset : Owned rest { s with currentCall := some call } :=
        hi.setCall fun hended => hc (not_not.1 hid) (hended call rfl)
      have hkeeps : Keeps userId none (createAndSendOffer call).awaited :=
        keeps_awaited (keeps_createAndSendOffer call)
      have hoffer := sound_of_keeps hkeeps hset
      exact hoffer
  | offer callId =>
    change Sound _ _ none (if s.callId ≠ some callId then _ else _) rest s
    split
    · exact hsame
    · exact sound_of_keeps (keeps_awaited keeps_acceptOffer) hi
  | answer callId =>
    change Sound _ _ none (if s.callId ≠ some callId || s.peer.isNone then _ else _) rest s
    split
    · exact hsame
    · exact sound_of_keeps
        (keeps_bind (keeps_negotiate _) fun _ => keeps_awaited keeps_flushCandidates) hi
  | iceCandidate callId candidate =>
    change Sound _ _ none (if s.callId ≠ some callId then _ else _) rest s
    split
    · exact hsame
    · split
      · exact ⟨hi.peers, hi.streams, hi.disposed, hi.covered⟩
      · exact sound_of_keeps (keeps_negotiate _) hi
  | callEnd call =>
    change Sound _ _ none (if s.callId ≠ some call.id then _ else _) rest s
    split
    · exact hsame
    · exact hi.cleanup (some call) s.disposed

theorem sound_method (m : Method) (hi : Owned rest s) (hc : CarefulCall userId m rest s) :
    Sound (controller userId) (rules userId) m.attempt (m.body userId) rest s := by
  cases m with
  | restore call => exact hi.setCall hc
  | start conversationId callType => exact sound_start conversationId callType hi hc
  | accept => exact sound_accept hi hc
  | endCall reason => exact sound_of_keeps (keeps_endCall reason) hi
  | decline => exact sound_of_keeps (keeps_awaited (keeps_endCall "declined")) hi
  | startScreenShare => exact sound_of_keeps keeps_startScreenShare hi
  | stopScreenShare => exact sound_of_keeps keeps_stopScreenShare hi
  | handleEvent event => exact sound_handleEvent event hi hc
  | dispose => exact hi.cleanup s.currentCall true

/-! ## Runs -/

theorem owned_initial (browser : Browser) : Owned [] (initial browser) where
  peers _ hp := by cases hp
  streams _ hx := by cases hx
  disposed _ := ⟨rfl, rfl, rfl⟩
  covered _ := .inl ⟨rfl, rfl, rfl⟩

/-- Where no call waits, what is acquired is held, and held for a call only. -/
theorem Owned.nothingOutlives {c : Controller} (h : Owned (c.calls.map (·.label)) c.state) :
    NothingOutlives c := by
  intro hcalls hover
  rw [hcalls, List.map_nil] at h
  have hnone : ¬ Attempting [] := by simp [Attempting]
  obtain ⟨hlocal, hscreen, hpeer⟩ := (h.covered hover).resolve_right hnone
  constructor
  · refine List.eq_nil_iff_forall_not_mem.2 fun x hx => ?_
    rcases h.streams x hx with hl | hs | ⟨t, ht⟩
    · simp [hlocal] at hl
    · simp [hscreen] at hs
    · cases ht
  · refine List.eq_nil_iff_forall_not_mem.2 fun p hp => ?_
    have hp := h.peers p hp
    simp [hpeer] at hp

/-- **No camera, microphone or peer connection outlives a call in a run whose steps are all
careful.** -/
theorem nothingOutlives_of_run (userId : String) (browser : Browser)
    (es : List (Async.Event Request.Value Method Browser)) (c : Controller)
    (hrun : (controller userId).run ⟨initial browser, []⟩ es = some c)
    (hes : (controller userId).Meets (fun c e => e.Careful (rules userId) c)
      ⟨initial browser, []⟩ es) : NothingOutlives c := by
  have hstart : Async.Holds (controller userId) (rules userId) ⟨initial browser, []⟩ :=
    ⟨owned_initial browser, fun _ hc => by cases hc⟩
  have hend := Async.holds_of_run (fun m _ _ hi hc => sound_method m hi hc)
    (fun _ _ _ hi => ⟨hi.peers, hi.streams, hi.disposed, hi.covered⟩) hstart hes hrun
  exact Owned.nothingOutlives hend.inv

/-- Everything is granted, and signals are acknowledged with `ack`. -/
def grant (ack : SocketAck) : (w : Wait Request) → w.Reply Request.Value
  | .request (.userMedia _) => .ok ()
  | .request .displayMedia => .ok true
  | .request (.replaceTrack _) => .ok ()
  | .request .iceServers => .ok ()
  | .request (.emit _) => .ok ack
  | .request (.negotiate _) => .ok ()
  | .settled _ => ()

def chrome : Browser where
  userMedia := true
  displayMedia := true
  videoSender := true
  remoteDescription := false
  isLive := true

def exampleCall (status : CallStatus) : CallSession := ⟨"7", "ann", "bob", .video, status⟩

/-- A call is invited and ended again. -/
theorem nothingOutlives_of_ended :
    NothingOutlives ⟨{ initial chrome with currentCall := some (exampleCall .ended), fresh := 1 },
      []⟩ := by
  refine nothingOutlives_of_run "ann" chrome
    [.call (.start "3" .video), .resume 0 (grant ⟨true, none, none⟩),
      .resume 0 (grant ⟨true, none, none⟩),
      .resume 0 (grant ⟨true, some (exampleCall .invited), none⟩), .call (.endCall "ended_by_user"),
      .resume 0 (grant ⟨true, some (exampleCall .ended), none⟩)] _ rfl ?_
  refine .cons rfl (nomatch ·) (.cons rfl ?_ (.cons rfl ?_ (.cons rfl ?_
    (.cons rfl trivial (.cons rfl ?_ trivial)))))
  · intro c hc
    cases hc
    exact ⟨⟨rfl, rfl, .inr ⟨_, List.mem_cons_self, rfl⟩⟩, (nomatch ·), fun _ h => h.elim⟩
  · intro c hc
    cases hc
    exact ⟨trivial, (nomatch ·), fun _ h => h.elim⟩
  · intro c hc
    cases hc
    refine ⟨trivial, (nomatch ·), fun _ h => ?_⟩
    obtain ⟨call, hcall, hended⟩ := h
    cases hcall
    cases hended
  · intro c hc
    cases hc
    exact ⟨trivial, (nomatch ·), (nomatch ·)⟩

/-- The caller hangs up while the browser asks for the camera: it is granted for a call that is
over, the acceptance is rejected, and nothing stops the camera. -/
theorem camera_outlives_call : ¬ ∀ (userId : String) (browser : Browser)
    (es : List (Async.Event Request.Value Method Browser)) (c : Controller),
    (controller userId).run ⟨initial browser, []⟩ es = some c → NothingOutlives c := by
  intro hall
  have h := hall "bob" chrome
    [.call (.handleEvent (.callInvite (exampleCall .invited))), .call .accept,
      .call (.handleEvent (.callEnd (exampleCall .ended))), .resume 0 (grant ⟨false, none, none⟩),
      .resume 0 (grant ⟨false, none, none⟩), .resume 0 (grant ⟨false, none, none⟩)] _ rfl
  have hlive := (h rfl (.inl rfl)).1
  cases hlive

end Frontend
