import Freelancing.Calls.Steps

/-!
# One live call in a conversation

In every run of invitations, acceptances and ends, a conversation has at most one live call, a call
goes from invited over active to ended and is made active by its callee only, and a repeated request
changes nothing.
-/

namespace Calls

open Money (UserId Err strip)
open Text (upper)
open Txn (Law Mode View Sys Design Prog)
open Txn.Service

abbrev Exchange := Sys Db LockName (Txn.Point CommitPoint) Empty Empty Err (CallSession × Bool) Unit

def exchange (d : Db) (services : Nat → Service) : Exchange :=
  Sys.init d () fun i => (services i).program

def OneLive (d : Db) : Prop := ∀ c, (d.calls.filter (CallSession.liveIn c)).length ≤ 1

/-- What a step of request `x` may do to the calls. -/
structure Serves (x : Service) (d d' : Db) : Prop where
  kept : ∀ y ∈ d.calls, ∃ z ∈ d'.calls, y.Advances z
  new : ∀ z ∈ d'.calls, (∀ y ∈ d.calls, y.id ≠ z.id) → z.status = .invited ∧ z.endedAt = none
  accepted : ∀ y ∈ d.calls, ∀ z ∈ d'.calls, z.id = y.id → y.status ≠ .active → z.status = .active →
    ∃ now, x = .accept y.callee y.id now

/-- The requests that repeat what is already so of the call `x`. -/
inductive Repeats (x : CallSession) : Service → Prop
  | invite (clientCallId callType : String) (now : Nat) (id : CallId)
      (hid : strip clientCallId = x.clientCallId)
      (htype : CallType.parse (upper (strip callType)) = some x.callType) :
      Repeats x (.invite x.caller x.conversation clientCallId callType now id)
  | accept (user : UserId) (now : Nat) (hst : x.status ≠ .invited) :
      Repeats x (.accept user x.id now)
  | finish (user : UserId) (reason : String) (now : Nat) (hst : x.status = .ended) :
      Repeats x (.finish user x.id reason now)

section
variable {mode : Mode} {ok : Move → Prop} {d : Db} {services : Nat → Service} {s s' : Exchange}
  {i : Nat}

theorem Consistent.oneLive (hd : Consistent d) : OneLive d := by
  intro c
  have hnd : (d.calls.filter (CallSession.liveIn c)).Nodup :=
    (List.Nodup.of_map _ hd.calls).filter _
  have heq : ∀ x ∈ d.calls.filter (CallSession.liveIn c),
      ∀ y ∈ d.calls.filter (CallSession.liveIn c), x = y := by
    intro x hx y hy
    rw [List.mem_filter] at hx hy
    exact hd.live c x hx.1 y hy.1 hx.2 hy.2
  cases hl : d.calls.filter (CallSession.liveIn c) with
  | nil => simp
  | cons x l =>
    cases l with
    | nil => simp
    | cons y l =>
      rw [hl] at hnd heq
      obtain rfl := heq x (by simp) y (by simp)
      simp at hnd

theorem consistent_of_blank (hd : d.calls = []) : Consistent d := by
  constructor <;> simp [hd]

theorem holds_exchange (hd : Consistent d) : (callDesign.law mode ok).Holds (exchange d services) :=
  Law.Holds.init hd fun i => (services i).obliged

theorem holds_of_run (hd : Consistent d) (hr : Sys.Run mode ok (exchange d services) s) :
    (callDesign.law mode ok).Holds s :=
  (holds_exchange hd).run hr

theorem follows (hd : Consistent d) (hr : Sys.Run mode ok (exchange d services) s) (i : Nat) :
    s.Follows i (fun r => r.2 = false) (Txn.Signed (services i).Commits) :=
  Design.follows_of_run (D := callDesign) (ψ := fun _ r => r.2 = false)
    (φ := fun i => (services i).Commits) (holds_exchange hd) (fun i => .inr (services i).ends) hr i

/-! ## Histories -/

theorem Frame.advances {held : Set LockName} {d d' : Db} {x : CallSession} (h : Frame held d d')
    (hx : d.call? x.id = some x) : ∃ y, d'.call? x.id = some y ∧ x.Advances y :=
  h.calls.keep x.id x hx

theorem Consistent.call? {d : Db} (hd : Consistent d) {x : CallSession} (hx : x ∈ d.calls) :
    d.call? x.id = some x := Table.get_of_mem hd.calls hx

theorem Consistent.eq_of_id {d : Db} (hd : Consistent d) {x y : CallSession} (hx : x ∈ d.calls)
    (hy : y ∈ d.calls) (h : x.id = y.id) : x = y :=
  Option.some.inj ((hd.call? hx).symm.trans (h ▸ hd.call? hy))

theorem Consistent.callOf? {d : Db} (hd : Consistent d) {x : CallSession} (hx : x ∈ d.calls) :
    d.callOf? x.clientKey = some x := Table.get_of_mem hd.clientKeys hx

/-- The call that had a client id keeps it. -/
theorem Frame.callOf_advances {held : Set LockName} {d d' : Db} {x : CallSession}
    (h : Frame held d d') (hd' : Consistent d') (hx : d.call? x.id = some x) :
    ∃ y, d'.callOf? x.clientKey = some y ∧ x.Advances y := by
  obtain ⟨y, hy, hadv⟩ := h.advances hx
  refine ⟨y, ?_, hadv⟩
  rw [← hadv.clientKey]
  exact hd'.callOf? (Table.get_mem hy)

theorem advances_of_run (hs : (callDesign.law mode ok).Holds s) (hr : Sys.Run mode ok s s')
    {x : CallSession} (hx : s.db.call? x.id = some x) :
    ∃ y, s'.db.call? x.id = some y ∧ x.Advances y := by
  refine Design.keeps_of_run (D := callDesign)
    (P := fun d _ => ∃ y, d.call? x.id = some y ∧ x.Advances y) hs hr ?_
    (fun _ _ _ _ _ _ _ _ h => h.elim) ⟨x, hx, .refl x⟩
  intro j c d d' e hok hc hP
  obtain ⟨y, hy, hadv⟩ := hP
  have hyid : y.id = x.id := Table.get_key hy
  obtain ⟨z, hz, hadv'⟩ := hc.frame.advances (hyid ▸ hy)
  exact ⟨z, hyid ▸ hz, hadv.trans hadv'⟩

theorem Serves.refl (x : Service) (hd : Consistent d) : Serves x d d where
  kept y hy := ⟨y, hy, .refl y⟩
  new z hz h := absurd rfl (h z hz)
  accepted y hy z hz hid hst ha := by
    have := (hd.call? hz).symm.trans (hid ▸ hd.call? hy)
    rw [Option.some.inj this] at ha
    exact absurd ha hst

theorem Effect.serves {held : Set LockName} {d d' : Db} {c : CommitPoint} {x : Service}
    {r : Except Err (CallSession × Bool)} (hd : Consistent d) (hd' : Consistent d')
    (he : Effect held d c d') (hx : x.Commits c r) : Serves x d d' where
  kept y hy := by
    obtain ⟨z, hz, hadv⟩ := (he.frame hd (Set.empty_disjoint _)).advances (hd.call? hy)
    exact ⟨z, Table.get_mem hz, hadv⟩
  new z hz hnew := by
    cases he with
    | invited y hn =>
      rcases List.mem_cons.1 hz with rfl | hz
      · exact ⟨hn.status, hn.open_.2.1⟩
      · exact absurd rfl (hnew z hz)
    | accepted y now hl hy hst =>
      obtain ⟨u, hu, rfl⟩ := Table.mem_modify.1 hz
      refine absurd ?_ (hnew u hu)
      split <;> rfl
    | ended y user now reason hl hy hst =>
      obtain ⟨u, hu, rfl⟩ := Table.mem_modify.1 hz
      refine absurd ?_ (hnew u hu)
      split <;> rfl
  accepted y hy z hz hid hst ha := by
    cases he with
    | invited u hn hc hlive hl hu =>
      rcases List.mem_cons.1 hz with rfl | hz
      · exact absurd hid.symm (Table.get_eq_none.1 hu y hy)
      · obtain rfl := Option.some.inj ((hd.call? hz).symm.trans (hid ▸ hd.call? hy))
        exact absurd ha hst
    | accepted u now hl hu hst' =>
      obtain ⟨v, hv, rfl⟩ := Table.mem_modify.1 hz
      obtain rfl : v = y := hd.eq_of_id hv hy (by rw [← hid]; split <;> rfl)
      by_cases hvu : v.id = u.id
      · obtain rfl : v = u := Option.some.inj ((hd.call? hv).symm.trans (hvu ▸ hu))
        cases x with
        | accept user call now =>
          obtain ⟨y', hy', rfl, rfl, -⟩ := hx
          cases hy'
          exact ⟨now, rfl⟩
        | invite => obtain ⟨y', hy', -⟩ := hx; cases hy'
        | finish => obtain ⟨y', hy', -⟩ := hx; cases hy'
      · rw [if_neg hvu] at ha
        exact absurd ha hst
    | ended u user now reason hl hu hst' =>
      obtain ⟨v, hv, rfl⟩ := Table.mem_modify.1 hz
      obtain rfl : v = y := hd.eq_of_id hv hy (by rw [← hid]; split <;> rfl)
      split at ha
      · cases ha
      · exact absurd ha hst

/-! ## Repeated requests -/

theorem CallSession.Advances.caller {x y : CallSession} (h : x.Advances y) : y.caller = x.caller :=
  congrArg Prod.fst h.clientKey

theorem CallSession.Advances.clientCallId {x y : CallSession} (h : x.Advances y) :
    y.clientCallId = x.clientCallId := congrArg Prod.snd h.clientKey

theorem CallSession.Advances.ne_invited {x y : CallSession} (h : x.Advances y)
    (hx : x.status ≠ .invited) : y.status ≠ .invited := by
  intro hy
  have hr := h.rank
  rw [hy] at hr
  cases hst : x.status with
  | invited => exact hx hst
  | active => rw [hst] at hr; exact absurd hr (by decide)
  | ended => rw [hst] at hr; exact absurd hr (by decide)

theorem Repeats.advances {x y : CallSession} {r : Service} (h : Repeats x r) (hadv : x.Advances y) :
    Repeats y r := by
  cases h with
  | invite clientCallId callType now id hid htype =>
    rw [← hadv.caller, ← hadv.conversation]
    exact .invite _ _ _ _ (hid.trans hadv.clientCallId.symm) (htype.trans (by rw [hadv.callType]))
  | accept user now hst =>
    rw [← hadv.id]
    exact .accept user now (hadv.ne_invited hst)
  | finish user reason now hst =>
    obtain rfl := hadv.ended hst
    exact .finish user reason now hst

theorem Repeats.obliged {x : CallSession} {r : Service} (h : Repeats x r) {w : Db × Unit} {b : Bool}
    (hx : w.1.call? x.id = some x) : Obliged mode ok i r.program ⟨∅, id, b, w⟩
      fun _ y => y.2 = false ∧ x.Advances y.1 := by
  cases h with
  | invite clientCallId callType now id' hid htype =>
    change Obliged mode ok i (inviteCall x.caller x.conversation clientCallId callType now id')
      ⟨∅, id, b, w⟩ fun _ y => y.2 = false ∧ x.Advances y.1
    refine inviteCall_wp (P := fun y => y.2 = false ∧ x.Advances y.1)
      (fun d y t hf hd ht hy hconv hty => ?_) fun d y hf hd hn => ?_
    · obtain ⟨z, hz, hadv⟩ := hf.callOf_advances hd hx
      rw [hid] at hy
      obtain rfl := Option.some.inj (hy.symm.trans hz)
      exact ⟨rfl, hadv⟩
    · obtain ⟨z, hz, -⟩ := hf.callOf_advances hd hx
      rw [hid] at hn
      cases hn.symm.trans hz
  | accept user now hst =>
    refine acceptCall_wp (P := fun y => y.2 = false ∧ x.Advances y.1) fun d y hf hy => ?_
    obtain ⟨z, hz, hadv⟩ := hf.advances hx
    obtain rfl := Option.some.inj (hy.symm.trans hz)
    exact ⟨fun _ => ⟨rfl, hadv⟩, fun hinv => absurd hinv (hadv.ne_invited hst)⟩
  | finish user reason now hst =>
    refine endCall_wp (P := fun y => y.2 = false ∧ x.Advances y.1) fun d y hf hy => ?_
    obtain ⟨z, hz, hadv⟩ := hf.advances hx
    obtain rfl := Option.some.inj (hy.symm.trans hz)
    exact ⟨fun _ => ⟨rfl, hadv⟩, fun hne => absurd (hadv.ended hst ▸ hst) hne⟩

/-- A repeated request commits nothing. -/
theorem Repeats.not_commits {x : CallSession} {q : Service} (h : Repeats x q) {held : Set LockName}
    {d d' : Db} {c : CommitPoint} {r : Except Err (CallSession × Bool)} (hd : Consistent d)
    (hx : d.call? x.id = some x) (he : Effect held d c d') : ¬ q.Commits c r := by
  intro hc
  cases h with
  | invite clientCallId callType now id hid htype =>
    obtain ⟨y, rfl, hk, -⟩ := hc
    cases he with
    | invited _ _ _ _ _ _ _ hkey =>
      rw [hk, hid] at hkey
      cases hkey.symm.trans (hd.callOf? (Table.get_mem hx))
  | accept user now hst =>
    obtain ⟨y, rfl, hid, -⟩ := hc
    cases he with
    | accepted _ now hl hy hinv =>
      rw [hid] at hy
      obtain rfl := Option.some.inj (hy.symm.trans hx)
      exact hst hinv
  | finish user reason now hst =>
    obtain ⟨y, rfl, hid, -⟩ := hc
    cases he with
    | ended _ user now reason hl hy hne =>
      rw [hid] at hy
      obtain rfl := Option.some.inj (hy.symm.trans hx)
      exact hne hst

/-- A retried invitation, served alone, returns the call. -/
theorem inviteCall_alone {x : CallSession} {clientCallId callType : String} {now : Nat}
    {id' : CallId} (hd : Consistent d) (hx : x ∈ d.calls)
    (hid : strip clientCallId = x.clientCallId)
    (htype : CallType.parse (upper (strip callType)) = some x.callType) :
    (inviteCall x.caller x.conversation clientCallId callType now id').alone id d id =
      ⟨d, .ok (x, false)⟩ := by
  obtain ⟨c, hc, hlen, hcaller, hcallee, hne⟩ := hd.parties x hx
  have hcid : c.id = x.conversation := Table.get_key hc
  have hfind : (c.members.dedup.find? fun m => m ≠ x.caller).isSome := by
    rw [List.find?_isSome]
    exact ⟨x.callee, List.mem_dedup.2 hcallee, by simpa using hne⟩
  obtain ⟨m, hm⟩ := Option.isSome_iff_exists.1 hfind
  unfold inviteCall
  rw [hid, htype]
  rw [alone_require (hd.clientIds x hx), alone_selectForUpdate]
  rw [show Db.conversation? (id d) x.conversation = some c from hc]
  dsimp only
  rw [alone_require (by simpa using hcaller), alone_require (by simpa using hlen), hm]
  dsimp only
  rw [alone_select, show Db.callOf? (id d) (x.caller, x.clientCallId) = some x from hd.callOf? hx]
  dsimp only
  unfold priorCall
  rw [alone_require (by simp [hcid])]
  rfl

/-- **Calls form one live session per conversation.** -/
theorem calls_live_once (hd : d.calls = []) (hr : Sys.Run mode ok (exchange d services) s) :
    OneLive s.db ∧
    (∀ i c s' mv, s.step? mode i c = some (s', mv) → ok mv → Serves (services i) s.db s'.db) ∧
    (∀ s', Sys.Run mode ok s s' → ∀ x ∈ s.db.calls, ∃ y ∈ s'.db.calls, x.Advances y) ∧
    (∀ i, ∀ x ∈ s.db.calls, Repeats x (services i) → s.Waiting i (services i).program →
      ∀ s', Sys.Run mode ok s s' → (∀ r, s'.Ended i (.ok r) → r.2 = false ∧ x.Advances r.1) ∧
        ∀ c s'' mv, s'.step? mode i c = some (s'', mv) → ok mv → s''.db = s'.db) ∧
    ∀ x ∈ s.db.calls, ∀ clientCallId callType now id', strip clientCallId = x.clientCallId →
      CallType.parse (upper (strip callType)) = some x.callType →
      (inviteCall x.caller x.conversation clientCallId callType now id').alone id s.db id =
        ⟨s.db, .ok (x, false)⟩ := by
  have hd₀ := consistent_of_blank hd
  have hs := holds_of_run hd₀ hr
  have hfol := follows hd₀ hr
  refine ⟨hs.inv.oneLive, fun i c s' mv hstep hok => ?_, fun s' hr' x hx => ?_,
    fun i x hx hrep hw s' hr' => ⟨fun r hend => ?_, fun c s'' mv hstep hok => ?_⟩,
    fun x hx clientCallId callType now id' hid htype => inviteCall_alone hs.inv hx hid htype⟩
  · rcases (Design.step_follows hs (hfol i) hstep hok).2 with ⟨hdb, -⟩ | ⟨c, r, hend⟩
    · rw [hdb]
      exact .refl _ hs.inv
    · obtain ⟨held, heff⟩ := hend.committed.effect
      exact heff.serves hs.inv hend.committed.inv' hend.signed
  · obtain ⟨y, hy, hadv⟩ := advances_of_run hs hr' (hs.inv.call? hx)
    exact ⟨y, Table.get_mem hy, hadv⟩
  · obtain ⟨w, -, hφ⟩ := ((hs.awaits (φ := fun _ y => y.2 = false ∧ x.Advances y.1) hw
      (hrep.obliged (hs.inv.call? hx))).run hr').result hend
    exact hφ rfl
  · have hs' := hs.run hr'
    obtain ⟨y, hy, hadv⟩ := advances_of_run hs hr' (hs.inv.call? hx)
    rcases (Design.step_follows hs' (follows hd₀ (hr.trans hr') i) hstep hok).2 with
      ⟨hdb, -⟩ | ⟨c, r, hend⟩
    · exact hdb
    · obtain ⟨held, heff⟩ := hend.committed.effect
      rw [← hadv.id] at hy
      exact absurd hend.signed ((hrep.advances hadv).not_commits hs'.inv hy heff)

end

/-! ## A conversation with one call -/

def oneConversation : Db := ⟨[⟨1, [1, 2]⟩], []⟩

/-- The invitation, its retry after the end, the acceptance and the end. -/
def someServices : Nat → Service
  | 0 => .invite 1 1 "a" "voice" 10 1
  | 1 => .accept 2 1 11
  | 2 => .finish 1 1 "" 12
  | 3 => .invite 2 1 "b" "video" 13 2
  | _ => .invite 1 1 "a" "VOICE" 14 3

def endedCall : CallSession :=
  ⟨1, 1, 1, 2, "a", .voice, .ended, 10, some 11, some 12, some 1, none⟩

def secondCall : CallSession := ⟨2, 1, 2, 1, "b", .video, .invited, 13, none, none, none, none⟩

/-- A call that was accepted and ended, and a second one; a retry of the first invitation finds the
first call. -/
theorem calls_live_once_second_call :
    ∃ s : Exchange, s.db.calls = [secondCall, endedCall] ∧ OneLive s.db ∧
    (inviteCall 1 1 "a" "VOICE" 14 3).alone id s.db id = ⟨s.db, .ok (endedCall, false)⟩ := by
  obtain ⟨s, hr, hs⟩ := Sys.exists_free_run .readCommitted (exchange oneConversation someServices)
    (Sys.goes 0 8 ++ Sys.goes 1 3 ++ Sys.goes 2 3 ++ Sys.goes 3 8)
    (fun s => s.db.calls = [secondCall, endedCall]) (by decide +kernel)
  have hs := of_decide_eq_true hs
  obtain ⟨hone, -, -, -, hretry⟩ := calls_live_once rfl hr
  exact ⟨s, hs, hone, hretry endedCall (by simp [hs]) "a" "VOICE" 14 3 (by decide +kernel)
    (by decide +kernel)⟩

end Calls
