import Freelancing.JsString

/-!
# The realtime socket client

`frontend/src/lib/realtime/socket-client.ts`: the methods of `RealtimeSocketClient` and its
handlers, as they run one after the other, with the sockets and timers of the browser. An `emit` is
settled by the packet that acknowledges it, by its timer, or with its connection. What the client
tells the page is left out.
-/

namespace Frontend.Socket

open JsString (text)

/-! ## Data -/

/-- `readyState` -/
inductive Ready
  | connecting
  | opened
  | closing
  | closed
  deriving DecidableEq

inductive Timer
  | ack (id : Nat)
  | reconnect
  | heartbeat
  deriving DecidableEq

inductive Settlement
  | resolved
  | timedOut
  | rejected
  deriving DecidableEq

/-- The fields of the client, and what it has in the browser: its sockets with their tickets, its
timers, the packets it has sent, the calls of `connect` that wait for a ticket, and the emits that
are settled. -/
structure Client where
  socket : Option Nat
  stopped : Bool
  live : Bool
  ackId : Nat
  /-- The ids of the emits that wait, with their timers. -/
  pendingAcks : List (Nat × Nat)
  reconnectTimer : Option Nat
  heartbeatTimer : Option Nat
  sockets : List (Ready × JsString)
  timers : List (Nat × Timer)
  fresh : Nat
  sent : List (Nat × JsString)
  tickets : Nat
  settled : List (Nat × Settlement)

def Client.new : Client :=
  ⟨none, false, false, 0, [], none, none, [], [], 0, [], 0, []⟩

/-- What comes before the bracket of `JSON.stringify`, and the first entry of a parsed array. -/
structure Json where
  stringify : List JsString → JsString
  /-- `JSON.parse(text)[0]`, which may throw or be undefined. -/
  first : JsString → Option (Option JsString)

namespace Client

variable (s : Client)

/-! ## The browser -/

def ready (k : Nat) : Option Ready := s.sockets[k]?.map Prod.fst

def setReady (k : Nat) (r : Ready) : Client :=
  { s with sockets := s.sockets.modify k fun x => (r, x.2) }

/-- `socket.send`, which throws when the socket is not open yet and does nothing when it closes. -/
def send (k : Nat) (packet : JsString) : Client :=
  if s.ready k = some .opened then { s with sent := s.sent ++ [(k, packet)] } else s

def close (k : Nat) : Client := if s.ready k = some .closed then s else s.setReady k .closing

def setTimer (timer : Timer) : Client :=
  { s with timers := (s.fresh, timer) :: s.timers, fresh := s.fresh + 1 }

def clearTimer (t : Nat) : Client := { s with timers := s.timers.filter fun x => x.1 ≠ t }

def clearTimers (l : List Nat) : Client := { s with timers := s.timers.filter fun x => x.1 ∉ l }

/-! ## Methods -/

def isLive : Bool := s.live && s.socket.any fun k => s.ready k = some .opened

def rejectPending : Client :=
  { s.clearTimers (s.pendingAcks.map Prod.snd) with
    settled := s.settled ++ s.pendingAcks.map fun x => (x.1, .rejected)
    pendingAcks := [] }

/-- Nothing happens when the client is not live, but that the promise is rejected. -/
def emit (json : Json) (event payload : JsString) : Client :=
  match s.socket with
  | none => s
  | some k =>
    if !s.live || s.ready k ≠ some .opened then s
    else
      let id := s.ackId + 1
      let timeout := s.fresh
      let s := { s with ackId := id }.setTimer (.ack id)
      let s := { s with pendingAcks := s.pendingAcks ++ [(id, timeout)] }
      s.send k (text "42" ++ JsString.ofNat id ++ json.stringify [event, payload])

/-- Up to its `await` of a ticket. -/
def connect : Client := if s.stopped then s else { s with tickets := s.tickets + 1 }

def start : Client := { s with stopped := false }.connect

def stop : Client :=
  let s := { s with stopped := true, live := false }
  let s := s.clearTimers s.reconnectTimer.toList
  let s := s.clearTimers s.heartbeatTimer.toList
  let s := { s with reconnectTimer := none, heartbeatTimer := none }
  let s := s.rejectPending
  { s.socket.elim s s.close with socket := none }

def scheduleReconnect : Client :=
  if s.stopped || s.reconnectTimer.isSome then s
  else { s.setTimer .reconnect with reconnectTimer := some s.fresh }

/-- A `connect` goes on with its ticket, or without one. -/
def ticketed (ticket : Option JsString) : Client :=
  let s := { s with tickets := s.tickets - 1 }
  match ticket with
  | none => s.scheduleReconnect
  | some ticket =>
    if s.stopped then s
    else { s with socket := some s.sockets.length, sockets := s.sockets ++ [(.connecting, ticket)] }

def handleClose : Client :=
  let s := { s with live := false }
  let s := { s.clearTimers s.heartbeatTimer.toList with heartbeatTimer := none }
  let s := s.rejectPending
  if s.stopped then s else s.scheduleReconnect

/-- The digits behind the type of a packet, and the rest. -/
def ackOf (packet : JsString) : Option (Nat × JsString) :=
  if (text "43").isPrefixOf packet then
    let digits := (packet.drop 2).takeWhile JsString.isDigit
    if digits = [] then none else some (JsString.toNat digits, packet.drop (2 + digits.length))
  else none

def acknowledge (json : Json) (packet : JsString) : Client :=
  match ackOf packet with
  | none => s
  | some (id, values) =>
    match json.first values with
    | none => s
    | some _ =>
      match s.pendingAcks.find? fun x => x.1 = id with
      | none => s
      | some (_, timeout) =>
        { s.clearTimer timeout with
          pendingAcks := s.pendingAcks.filter fun x => x.1 ≠ id
          settled := s.settled ++ [(id, .resolved)] }

def handlePacket (json : Json) (conversationId ticket packet : JsString) : Client :=
  match s.socket with
  | none => s
  | some k =>
    if (text "0").isPrefixOf packet then s.send k (text "40" ++ json.stringify [ticket])
    else if packet = text "2" then s.send k (text "3")
    else if (text "40").isPrefixOf packet then
      let s := { s with live := true }.emit json (text "conversation.join") conversationId
      let s := s.clearTimers s.heartbeatTimer.toList
      { s.setTimer .heartbeat with heartbeatTimer := some s.fresh }
    else if (text "44").isPrefixOf packet || packet = text "41" || packet = text "1" then s.close k
    else s.acknowledge json packet

/-- An interval stays; a timeout is over when it fires. -/
def fires (json : Json) (t : Nat) : Timer → Client
  | .ack id =>
    { s.clearTimer t with
      pendingAcks := s.pendingAcks.filter fun x => x.1 ≠ id
      settled := s.settled ++ [(id, .timedOut)] }
  | .reconnect => { s.clearTimer t with reconnectTimer := none }.connect
  | .heartbeat => if s.isLive then s.emit json (text "presence.heartbeat") [] else s

end Client

/-! ## Runs -/

/-- The page calls a method, a ticket comes, a socket opens, brings a packet, begins to close or has
closed, or a timer fires. -/
inductive Event
  | start
  | stop
  | emit (event payload : JsString)
  | ticket (ticket : Option JsString)
  | opens (k : Nat)
  | packet (k : Nat) (packet : JsString)
  | closes (k : Nat)
  | closed (k : Nat)
  | timer (t : Nat)

def Client.step (json : Json) (conversationId : JsString) (s : Client) : Event → Client
  | .start => s.start
  | .stop => s.stop
  | .emit event payload => s.emit json event payload
  | .ticket ticket => if s.tickets = 0 then s else s.ticketed ticket
  | .opens k => if s.ready k = some .connecting then s.setReady k .opened else s
  | .packet k packet =>
    match s.sockets[k]? with
    | none => s
    | some (_, ticket) => s.handlePacket json conversationId ticket packet
  | .closes k => s.close k
  | .closed k => (s.setReady k .closed).handleClose
  | .timer t =>
    match s.timers.find? fun x => x.1 = t with
    | none => s
    | some (_, timer) => s.fires json t timer

def Client.run (json : Json) (conversationId : JsString) : Client → List Event → Client :=
  List.foldl (Client.step json conversationId)

/-! ## Timers and acknowledgments -/

/-- What a timer is there for. -/
def Client.Holds (s : Client) (t : Nat) : Timer → Prop
  | .ack id => (id, t) ∈ s.pendingAcks
  | .reconnect => s.reconnectTimer = some t
  | .heartbeat => s.heartbeatTimer = some t

/-- The timers of the browser are those that the client holds, and each emit waits or is settled
once. -/
structure Tidy (s : Client) : Prop where
  timers : ∀ t k, (t, k) ∈ s.timers ↔ s.Holds t k
  once : (s.timers.map Prod.fst).Nodup
  fresh : ∀ x ∈ s.timers, x.1 < s.fresh
  ids : (s.pendingAcks.map Prod.fst ++ s.settled.map Prod.fst).Perm (List.range' 1 s.ackId)

section
variable {s s' : Client} {t : Nat} {k k' : Timer} {json : Json} {conversationId : JsString}

theorem Tidy.unique (h : Tidy s) (hk : s.Holds t k) (hk' : s.Holds t k') : k = k' := by
  have := List.inj_on_of_nodup_map h.once ((h.timers t k).2 hk) ((h.timers t k').2 hk') rfl
  exact (Prod.mk.inj this).2

theorem Tidy.congr (h : Tidy s) (hp : s'.pendingAcks = s.pendingAcks)
    (hr : s'.reconnectTimer = s.reconnectTimer) (hh : s'.heartbeatTimer = s.heartbeatTimer)
    (ht : s'.timers = s.timers) (hf : s'.fresh = s.fresh) (hi : s'.ackId = s.ackId)
    (hs : s'.settled = s.settled) : Tidy s' where
  timers t k := by
    rw [ht, h.timers]
    cases k <;> simp only [Client.Holds, hp, hr, hh]
  once := by rw [ht]; exact h.once
  fresh := by rw [ht, hf]; exact h.fresh
  ids := by rw [hp, hs, hi]; exact h.ids

/-- A client that gives up the timers `l` and nothing else of what it holds. -/
theorem Tidy.drop (h : Tidy s) (l : List Nat) (ht : s'.timers = (s.clearTimers l).timers)
    (hf : s'.fresh = s.fresh) (hi : s'.ackId = s.ackId)
    (hh : ∀ t k, s'.Holds t k ↔ s.Holds t k ∧ t ∉ l)
    (hs : (s'.pendingAcks.map Prod.fst ++ s'.settled.map Prod.fst).Perm
      (s.pendingAcks.map Prod.fst ++ s.settled.map Prod.fst)) : Tidy s' where
  timers t k := by
    rw [ht, hh, ← h.timers]
    simp [Client.clearTimers]
  once := by
    rw [ht]
    exact h.once.sublist (List.filter_sublist.map _)
  fresh x hx := by
    rw [ht] at hx
    rw [hf]
    exact h.fresh x (List.mem_of_mem_filter hx)
  ids := by
    rw [hi]
    exact hs.trans h.ids

/-- A client that holds one timer more. -/
theorem Tidy.add (h : Tidy s) (k : Timer) (ht : s'.timers = (s.fresh, k) :: s.timers)
    (hf : s'.fresh = s.fresh + 1)
    (hh : ∀ t k', s'.Holds t k' ↔ s.Holds t k' ∨ (t = s.fresh ∧ k' = k))
    (hs : (s'.pendingAcks.map Prod.fst ++ s'.settled.map Prod.fst).Perm
      (List.range' 1 s'.ackId)) : Tidy s' where
  timers t k' := by
    rw [ht, hh, ← h.timers, List.mem_cons, Prod.mk.injEq, or_comm]
  once := by
    rw [ht, List.map_cons, List.nodup_cons]
    refine ⟨fun hm => ?_, h.once⟩
    obtain ⟨x, hx, he⟩ := List.mem_map.1 hm
    have := h.fresh x hx
    omega
  fresh := by
    rw [ht, hf, List.forall_mem_cons]
    exact ⟨Nat.lt_succ_self _, fun x hx => (h.fresh x hx).trans (Nat.lt_succ_self _)⟩
  ids := hs

theorem Tidy.rejectPending (h : Tidy s) : Tidy s.rejectPending := by
  refine h.drop (s.pendingAcks.map Prod.snd) rfl rfl rfl (fun t k => ?_) ?_
  · have hne : ∀ k', s.Holds t k' → (∀ id, k' ≠ .ack id) → t ∉ s.pendingAcks.map Prod.snd := by
      intro k' hk hno hm
      obtain ⟨x, hx, rfl⟩ := List.mem_map.1 hm
      exact hno x.1 (h.unique hk (show s.Holds x.2 (.ack x.1) from hx))
    cases k with
    | ack id =>
      simp only [Client.Holds, Client.rejectPending, List.not_mem_nil, false_iff, not_and, not_not]
      exact fun hm => List.mem_map.2 ⟨_, hm, rfl⟩
    | reconnect => exact ⟨fun hk => ⟨hk, hne .reconnect hk (by simp)⟩, fun hk => hk.1⟩
    | heartbeat => exact ⟨fun hk => ⟨hk, hne .heartbeat hk (by simp)⟩, fun hk => hk.1⟩
  · simp only [Client.rejectPending, List.map_nil, List.nil_append, List.map_append, List.map_map]
    exact List.perm_append_comm

theorem Tidy.dropReconnect (h : Tidy s) :
    Tidy { s.clearTimers s.reconnectTimer.toList with reconnectTimer := none } := by
  refine h.drop s.reconnectTimer.toList rfl rfl rfl (fun t k => ?_) .rfl
  have hne : s.Holds t k → k ≠ .reconnect → t ∉ s.reconnectTimer.toList := fun hk hno hm =>
    hno (h.unique hk (show s.Holds t .reconnect from Option.mem_toList.1 hm))
  cases k with
  | reconnect => simp [Client.Holds]
  | ack id => exact ⟨fun hk => ⟨hk, hne hk (by simp)⟩, fun hk => hk.1⟩
  | heartbeat => exact ⟨fun hk => ⟨hk, hne hk (by simp)⟩, fun hk => hk.1⟩

theorem Tidy.dropHeartbeat (h : Tidy s) :
    Tidy { s.clearTimers s.heartbeatTimer.toList with heartbeatTimer := none } := by
  refine h.drop s.heartbeatTimer.toList rfl rfl rfl (fun t k => ?_) .rfl
  have hne : s.Holds t k → k ≠ .heartbeat → t ∉ s.heartbeatTimer.toList := fun hk hno hm =>
    hno (h.unique hk (show s.Holds t .heartbeat from Option.mem_toList.1 hm))
  cases k with
  | heartbeat => simp [Client.Holds]
  | ack id => exact ⟨fun hk => ⟨hk, hne hk (by simp)⟩, fun hk => hk.1⟩
  | reconnect => exact ⟨fun hk => ⟨hk, hne hk (by simp)⟩, fun hk => hk.1⟩

theorem Tidy.nodup (h : Tidy s) : (s.pendingAcks.map Prod.fst ++ s.settled.map Prod.fst).Nodup :=
  h.ids.nodup_iff.2 List.nodup_range'

theorem perm_filter_key {l : List (Nat × Nat)} {x : Nat × Nat} (hl : (l.map Prod.fst).Nodup)
    (hx : x ∈ l) : l.Perm (x :: l.filter fun y => y.1 ≠ x.1) := by
  induction l with
  | nil => cases hx
  | cons y l ih =>
    rw [List.map_cons, List.nodup_cons] at hl
    rcases List.mem_cons.1 hx with rfl | hx
    · have hf : l.filter (fun y => y.1 ≠ x.1) = l := by
        refine List.filter_eq_self.2 fun y hy => decide_eq_true fun he => hl.1 ?_
        exact he ▸ List.mem_map_of_mem hy
      rw [List.filter_cons_of_neg (by simp), hf]
    · have hne : y.1 ≠ x.1 := fun he => hl.1 (he ▸ List.mem_map_of_mem hx)
      rw [List.filter_cons_of_pos (by simpa using hne)]
      exact ((ih hl.2 hx).cons y).trans (.swap _ _ _)

/-- One emit is settled, and its timer is gone. -/
theorem Tidy.settle (h : Tidy s) {id : Nat} (hm : (id, t) ∈ s.pendingAcks) (r : Settlement) :
    Tidy { s.clearTimer t with
      pendingAcks := s.pendingAcks.filter fun x => x.1 ≠ id
      settled := s.settled ++ [(id, r)] } := by
  have hnodup := (List.nodup_append.1 h.nodup).1
  refine h.drop [t] (by simp [Client.clearTimer, Client.clearTimers]) rfl rfl (fun t' k => ?_) ?_
  · have hne : s.Holds t' k → k ≠ .ack id → t' ∉ [t] := by
      intro hk hno he
      rw [List.mem_singleton.1 he] at hk
      exact hno (h.unique hk hm)
    cases k with
    | ack id' =>
      simp only [Client.Holds, List.mem_filter, decide_eq_true_eq, List.mem_singleton]
      refine and_congr_right fun hm' => not_congr ⟨fun he => ?_, fun he => ?_⟩
      · have := List.inj_on_of_nodup_map hnodup hm' hm he
        exact (Prod.mk.inj this).2
      · subst he
        exact Timer.ack.inj (h.unique hm' hm)
    | reconnect => exact ⟨fun hk => ⟨hk, hne hk (by simp)⟩, fun hk => hk.1⟩
    | heartbeat => exact ⟨fun hk => ⟨hk, hne hk (by simp)⟩, fun hk => hk.1⟩
  · have hp := (perm_filter_key hnodup hm).map Prod.fst
    simp only [List.map_append, List.map_cons, List.map_nil]
    refine List.Perm.trans ?_ (hp.symm.append_right _)
    rw [← List.append_assoc]
    exact List.perm_append_comm

theorem Tidy.send (h : Tidy s) {i : Nat} {packet : JsString} : Tidy (s.send i packet) := by
  unfold Client.send
  split
  · exact h.congr rfl rfl rfl rfl rfl rfl rfl
  · exact h

theorem Tidy.close (h : Tidy s) {i : Nat} : Tidy (s.close i) := by
  unfold Client.close
  split
  · exact h
  · exact h.congr rfl rfl rfl rfl rfl rfl rfl

theorem Tidy.emit (h : Tidy s) {event payload : JsString} : Tidy (s.emit json event payload) := by
  unfold Client.emit
  split
  · exact h
  · split
    · exact h
    · refine Tidy.send (h.add (.ack (s.ackId + 1)) rfl rfl (fun t k => ?_) ?_)
      · cases k <;> simp [Client.Holds, Client.setTimer, and_comm]
      · simp only [Client.setTimer, List.map_append, List.map_cons, List.map_nil,
          List.range'_1_concat, List.append_assoc, Nat.add_comm 1]
        refine (List.perm_append_comm.append_left _).trans ?_
        rw [← List.append_assoc]
        exact h.ids.append_right _

theorem Tidy.connect (h : Tidy s) : Tidy s.connect := by
  unfold Client.connect
  split
  · exact h
  · exact h.congr rfl rfl rfl rfl rfl rfl rfl

theorem Tidy.scheduleReconnect (h : Tidy s) : Tidy s.scheduleReconnect := by
  unfold Client.scheduleReconnect
  split
  · exact h
  · rename_i hc
    have hnone : s.reconnectTimer = none := by
      simp_all
    refine h.add .reconnect rfl rfl (fun t k => ?_) h.ids
    cases k <;> simp [Client.Holds, Client.setTimer, hnone, eq_comm]

theorem Tidy.setHeartbeat (h : Tidy s) (hn : s.heartbeatTimer = none) :
    Tidy { s.setTimer .heartbeat with heartbeatTimer := some s.fresh } := by
  refine h.add .heartbeat rfl rfl (fun t k => ?_) h.ids
  cases k <;> simp [Client.Holds, Client.setTimer, hn, eq_comm]

theorem Tidy.ticketed (h : Tidy s) {ticket : Option JsString} : Tidy (s.ticketed ticket) := by
  have h' : Tidy { s with tickets := s.tickets - 1 } := h.congr rfl rfl rfl rfl rfl rfl rfl
  cases ticket with
  | none => exact h'.scheduleReconnect
  | some ticket =>
    simp only [Client.ticketed]
    split
    · exact h'
    · exact h'.congr rfl rfl rfl rfl rfl rfl rfl

theorem Tidy.shut (h : Tidy s) : Tidy { s.socket.elim s s.close with socket := none } := by
  cases s.socket with
  | none => exact h.congr rfl rfl rfl rfl rfl rfl rfl
  | some i => exact (h.close (i := i)).congr rfl rfl rfl rfl rfl rfl rfl

theorem Tidy.stop (h : Tidy s) : Tidy s.stop := by
  have h₀ : Tidy { s with stopped := true, live := false } := h.congr rfl rfl rfl rfl rfl rfl rfl
  exact h₀.dropReconnect.dropHeartbeat.rejectPending.shut

theorem Tidy.handleClose (h : Tidy s) : Tidy s.handleClose := by
  have h₀ : Tidy { s with live := false } := h.congr rfl rfl rfl rfl rfl rfl rfl
  have h₁ := h₀.dropHeartbeat.rejectPending
  unfold Client.handleClose
  dsimp only
  split
  · exact h₁
  · exact h₁.scheduleReconnect

theorem Tidy.acknowledge (h : Tidy s) {packet : JsString} : Tidy (s.acknowledge json packet) := by
  unfold Client.acknowledge
  split
  · exact h
  · split
    · exact h
    · split
      · exact h
      · rename_i hf
        have hm := List.mem_of_find?_eq_some hf
        obtain rfl := by simpa using List.find?_some hf
        exact h.settle hm .resolved

theorem Tidy.handlePacket (h : Tidy s) {ticket packet : JsString} :
    Tidy (s.handlePacket json conversationId ticket packet) := by
  unfold Client.handlePacket
  split
  · exact h
  · split
    · exact h.send
    · split
      · exact h.send
      · split
        · have h₀ : Tidy { s with live := true } := h.congr rfl rfl rfl rfl rfl rfl rfl
          exact h₀.emit.dropHeartbeat.setHeartbeat rfl
        · split
          · exact h.close
          · exact h.acknowledge

theorem Tidy.fires (h : Tidy s) (hk : s.Holds t k) : Tidy (s.fires json t k) := by
  cases k with
  | ack id => exact h.settle hk .timedOut
  | reconnect =>
    refine Tidy.connect ?_
    have hdrop := h.dropReconnect
    rw [show s.reconnectTimer = some t from hk] at hdrop
    refine hdrop.congr rfl rfl rfl ?_ rfl rfl rfl
    simp [Client.clearTimer, Client.clearTimers]
  | heartbeat =>
    simp only [Client.fires]
    split
    · exact h.emit
    · exact h

theorem Tidy.step (h : Tidy s) (e : Event) : Tidy (s.step json conversationId e) := by
  cases e with
  | start =>
    have h' : Tidy { s with stopped := false } := h.congr rfl rfl rfl rfl rfl rfl rfl
    exact h'.connect
  | stop => exact h.stop
  | emit event payload => exact h.emit
  | ticket ticket =>
    simp only [Client.step]
    split
    · exact h
    · exact h.ticketed
  | opens i =>
    simp only [Client.step]
    split
    · exact h.congr rfl rfl rfl rfl rfl rfl rfl
    · exact h
  | packet i packet =>
    simp only [Client.step]
    split
    · exact h
    · exact h.handlePacket
  | closes i => exact h.close
  | closed i =>
    have h' : Tidy (s.setReady i .closed) := h.congr rfl rfl rfl rfl rfl rfl rfl
    exact h'.handleClose
  | timer t =>
    simp only [Client.step]
    split
    · exact h
    · rename_i u timer hf
      obtain rfl : u = t := by simpa using List.find?_some hf
      exact h.fires ((h.timers _ _).1 (List.mem_of_find?_eq_some hf))

/-! ## A client that is not live, or has stopped -/

structure Calm (s : Client) : Prop where
  live : s.live = false → s.pendingAcks = []
  stopped : s.stopped = true →
    s.live = false ∧ s.reconnectTimer = none ∧ s.heartbeatTimer = none ∧ s.socket = none

theorem Calm.congr (h : Calm s) (hp : s'.pendingAcks = s.pendingAcks) (hl : s'.live = s.live)
    (hst : s'.stopped = s.stopped) (hr : s'.reconnectTimer = s.reconnectTimer)
    (hh : s'.heartbeatTimer = s.heartbeatTimer) (hs : s'.socket = s.socket) : Calm s' := by
  constructor
  · rw [hl, hp]
    exact h.live
  · rw [hst, hl, hr, hh, hs]
    exact h.stopped

theorem Calm.send (h : Calm s) {i : Nat} {packet : JsString} : Calm (s.send i packet) := by
  unfold Client.send
  split
  · exact h.congr rfl rfl rfl rfl rfl rfl
  · exact h

theorem Calm.close (h : Calm s) {i : Nat} : Calm (s.close i) := by
  unfold Client.close
  split
  · exact h
  · exact h.congr rfl rfl rfl rfl rfl rfl

theorem Calm.emit (h : Calm s) {event payload : JsString} : Calm (s.emit json event payload) := by
  unfold Client.emit
  split
  · exact h
  · rename_i i hi
    split
    · exact h
    · rename_i hc
      refine Calm.send ⟨fun hl => ?_, fun hst => ?_⟩
      · have hl : s.live = false := hl
        simp [hl] at hc
      · have := (h.stopped hst).2.2.2
        rw [hi] at this
        cases this

theorem Calm.connect (h : Calm s) : Calm s.connect := by
  unfold Client.connect
  split
  · exact h
  · exact h.congr rfl rfl rfl rfl rfl rfl

theorem Calm.scheduleReconnect (h : Calm s) : Calm s.scheduleReconnect := by
  unfold Client.scheduleReconnect
  split
  · exact h
  · rename_i hc
    refine ⟨h.live, fun hst => ?_⟩
    have hst : s.stopped = true := hst
    simp [hst] at hc

theorem emit_fields (s : Client) (json : Json) (event payload : JsString) :
    (s.emit json event payload).live = s.live ∧
    (s.emit json event payload).stopped = s.stopped := by
  unfold Client.emit
  split
  · exact ⟨rfl, rfl⟩
  · split
    · exact ⟨rfl, rfl⟩
    · dsimp only [Client.send]
      split <;> exact ⟨rfl, rfl⟩

theorem close_eq (s : Client) (i : Nat) : ∃ l, s.close i = { s with sockets := l } := by
  unfold Client.close
  split
  · exact ⟨s.sockets, rfl⟩
  · exact ⟨_, rfl⟩

theorem elim_close_eq (s : Client) (o : Option Nat) :
    ∃ l, o.elim s s.close = { s with sockets := l } := by
  cases o with
  | none => exact ⟨s.sockets, rfl⟩
  | some i => exact close_eq s i

theorem stop_eq (s : Client) : ∃ sockets timers settled, s.stop =
    { s with
      stopped := true, live := false, reconnectTimer := none, heartbeatTimer := none, socket := none
      sockets := sockets, timers := timers, pendingAcks := [], settled := settled } := by
  unfold Client.stop
  extract_lets _ _ _ _ rejected closed
  obtain ⟨l, hl⟩ : ∃ l, closed = { rejected with sockets := l } := elim_close_eq rejected _
  rw [hl]
  exact ⟨l, rejected.timers, rejected.settled, rfl⟩

/-- What `stop` leaves behind. -/
theorem stop_fields (s : Client) : s.stop.stopped = true ∧ s.stop.live = false ∧
    s.stop.pendingAcks = [] ∧ s.stop.reconnectTimer = none ∧ s.stop.heartbeatTimer = none ∧
      s.stop.socket = none := by
  obtain ⟨_, _, _, h⟩ := stop_eq s
  rw [h]
  exact ⟨rfl, rfl, rfl, rfl, rfl, rfl⟩

theorem Calm.stop : Calm s.stop := by
  obtain ⟨-, hl, hp, hr, hh, hs⟩ := stop_fields s
  exact ⟨fun _ => hp, fun _ => ⟨hl, hr, hh, hs⟩⟩

theorem Calm.ticketed (h : Calm s) {ticket : Option JsString} : Calm (s.ticketed ticket) := by
  have h' : Calm { s with tickets := s.tickets - 1 } := h.congr rfl rfl rfl rfl rfl rfl
  cases ticket with
  | none => exact h'.scheduleReconnect
  | some ticket =>
    simp only [Client.ticketed]
    split
    · exact h'
    · rename_i hst
      exact ⟨h.live, fun hst' => absurd hst' hst⟩

theorem Calm.handleClose (h : Calm s) : Calm s.handleClose := by
  unfold Client.handleClose
  dsimp only
  split
  · rename_i hst
    exact ⟨fun _ => rfl, fun _ => ⟨rfl, (h.stopped hst).2.1, rfl, (h.stopped hst).2.2.2⟩⟩
  · rename_i hst
    refine Calm.scheduleReconnect ⟨fun _ => rfl, fun hst' => absurd hst' hst⟩

theorem Calm.settle (h : Calm s) (p : Nat × Nat → Bool) (l : List (Nat × Settlement)) :
    Calm { s.clearTimer t with pendingAcks := s.pendingAcks.filter p, settled := l } :=
  ⟨fun hl => by rw [h.live hl]; rfl, h.stopped⟩

theorem Calm.handlePacket (h : Calm s) {ticket packet : JsString} :
    Calm (s.handlePacket json conversationId ticket packet) := by
  unfold Client.handlePacket
  split
  · exact h
  · rename_i i hi
    have hst : s.stopped = false := by
      refine Bool.eq_false_iff.2 fun hst => ?_
      have := (h.stopped hst).2.2.2
      rw [hi] at this
      cases this
    split
    · exact h.send
    · split
      · exact h.send
      · split
        · obtain ⟨hl, hs⟩ := emit_fields { s with live := true } json (text "conversation.join")
            conversationId
          refine ⟨fun hl' => ?_, fun hs' => ?_⟩
          · cases hl.symm.trans hl'
          · cases (hs.trans hst).symm.trans hs'
        · split
          · exact h.close
          · unfold Client.acknowledge
            split
            · exact h
            · split
              · exact h
              · split
                · exact h
                · exact h.settle _ _

theorem Calm.fires (h : Calm s) : Calm (s.fires json t k) := by
  cases k with
  | ack id => exact h.settle _ _
  | reconnect =>
    exact Calm.connect ⟨h.live, fun hst => ⟨(h.stopped hst).1, rfl, (h.stopped hst).2.2⟩⟩
  | heartbeat =>
    simp only [Client.fires]
    split
    · exact h.emit
    · exact h

theorem Calm.step (h : Calm s) (e : Event) : Calm (s.step json conversationId e) := by
  cases e with
  | start =>
    refine Calm.connect (s := { s with stopped := false }) ⟨h.live, fun hst => ?_⟩
    cases hst
  | stop => exact .stop
  | emit event payload => exact h.emit
  | ticket ticket =>
    simp only [Client.step]
    split
    · exact h
    · exact h.ticketed
  | opens i =>
    simp only [Client.step]
    split
    · exact h.congr rfl rfl rfl rfl rfl rfl
    · exact h
  | packet i packet =>
    simp only [Client.step]
    split
    · exact h
    · exact h.handlePacket
  | closes i => exact h.close
  | closed i =>
    have h' : Calm (s.setReady i .closed) := h.congr rfl rfl rfl rfl rfl rfl
    exact h'.handleClose
  | timer t =>
    simp only [Client.step]
    split
    · exact h
    · exact h.fires

theorem tidy_run (json : Json) (conversationId : JsString) (l : List Event) (ht : Tidy s)
    (hc : Calm s) : Tidy (s.run json conversationId l) ∧ Calm (s.run json conversationId l) := by
  induction l generalizing s with
  | nil => exact ⟨ht, hc⟩
  | cons e l ih => exact ih (ht.step e) (hc.step e)

theorem tidy_new : Tidy Client.new where
  timers t k := by cases k <;> simp [Client.new, Client.Holds]
  once := .nil
  fresh := by simp [Client.new]
  ids := .nil

theorem calm_new : Calm Client.new := ⟨fun _ => rfl, fun h => by cases h⟩

/-- The timers of the client, by what they are there for. -/
theorem Tidy.timers_perm (h : Tidy s) : s.timers.Perm
    (s.pendingAcks.map (fun x => (x.2, .ack x.1)) ++ s.reconnectTimer.toList.map (·, .reconnect) ++
      s.heartbeatTimer.toList.map (·, .heartbeat)) := by
  have hids : (s.pendingAcks.map fun x => Timer.ack x.1).Nodup := by
    rw [← Function.comp_def, ← List.map_map]
    exact (List.nodup_append.1 h.nodup).1.map fun _ _ => Timer.ack.inj
  refine (List.perm_ext_iff_of_nodup (List.Nodup.of_map _ h.once) (List.Nodup.of_map Prod.snd ?_)).2
    fun x => ?_
  · cases s.reconnectTimer <;> cases s.heartbeatTimer <;>
      simp [List.nodup_append, Function.comp_def, hids] <;> grind
  · obtain ⟨t, k⟩ := x
    rw [h.timers]
    cases k <;> simp [Client.Holds, and_comm, eq_comm]

/-- **Every emit is settled once**: in every state that events of the page, the server and the clock
lead to, an emit that has been sent waits with a timer of its own or has been settled, once. The
browser has no other timers of the client but one to reconnect and one heartbeat, and a client that
is not live lets nothing wait. -/
theorem emits_settle_once (json : Json) (conversationId : JsString) (l : List Event) :
    let s := Client.new.run json conversationId l
    (s.pendingAcks.map Prod.fst ++ s.settled.map Prod.fst).Perm (List.range' 1 s.ackId) ∧
      s.timers.Perm (s.pendingAcks.map (fun x => (x.2, .ack x.1)) ++
        s.reconnectTimer.toList.map (·, .reconnect) ++
          s.heartbeatTimer.toList.map (·, .heartbeat)) ∧
      (s.live = false → s.pendingAcks = []) := by
  obtain ⟨ht, hc⟩ := tidy_run json conversationId l tidy_new calm_new
  exact ⟨ht.ids, ht.timers_perm, hc.live⟩

/-! ## After `stop` -/

/-- What a client that has stopped leaves as it is. -/
structure Still (s s' : Client) : Prop where
  stopped : s'.stopped = true
  sent : s'.sent = s.sent
  sockets : s'.sockets.length = s.sockets.length

theorem Calm.no_timers (h : Calm s) (ht : Tidy s) (hs : s.stopped = true) : s.timers = [] := by
  obtain ⟨hl, hr, hh, -⟩ := h.stopped hs
  have := ht.timers_perm
  rw [h.live hl, hr, hh] at this
  exact this.eq_nil

theorem still_step (hc : Calm s) (ht : Tidy s) (hs : s.stopped = true) {e : Event}
    (he : e ≠ .start) : Still s (s.step json conversationId e) := by
  have hself : Still s s := ⟨hs, rfl, rfl⟩
  obtain ⟨hl, hr, hh, hsock⟩ := hc.stopped hs
  have hclose : ∀ i, Still s (s.close i) := by
    intro i
    unfold Client.close
    split
    · exact hself
    · exact ⟨hs, rfl, by simp [Client.setReady]⟩
  cases e with
  | start => exact absurd rfl he
  | stop =>
    simp only [Client.step, Client.stop, Client.rejectPending, Client.clearTimers, hsock]
    exact ⟨rfl, rfl, rfl⟩
  | emit event payload =>
    simp only [Client.step, Client.emit, hsock]
    exact hself
  | ticket ticket =>
    simp only [Client.step]
    split
    · exact hself
    · cases ticket <;>
        simp only [Client.ticketed, Client.scheduleReconnect, hs, Bool.true_or, if_true] <;>
        exact ⟨rfl, rfl, rfl⟩
  | opens i =>
    simp only [Client.step]
    split
    · exact ⟨hs, rfl, by simp [Client.setReady]⟩
    · exact hself
  | packet i packet =>
    simp only [Client.step, Client.handlePacket, hsock]
    split <;> exact hself
  | closes i => exact hclose i
  | closed i =>
    simp only [Client.step, Client.handleClose, Client.rejectPending, Client.clearTimers,
      Client.setReady, hs, if_true]
    exact ⟨rfl, rfl, by simp⟩
  | timer t =>
    simp only [Client.step, hc.no_timers ht hs]
    exact hself

theorem still_run (json : Json) (conversationId : JsString) (l : List Event) (hc : Calm s)
    (ht : Tidy s) (hs : s.stopped = true) (hl : .start ∉ l) :
    Still s (s.run json conversationId l) := by
  induction l generalizing s with
  | nil => exact ⟨hs, rfl, rfl⟩
  | cons e l ih =>
    rw [List.mem_cons, not_or] at hl
    have h : Still s (s.step json conversationId e) := still_step hc ht hs (Ne.symm hl.1)
    have h' := ih (hc.step e) (ht.step e) h.stopped hl.2
    exact ⟨h'.stopped, h'.sent.trans h.sent, h'.sockets.trans h.sockets⟩

end

/-- **A stopped client does nothing more**: whatever tickets, packets and timers are still on their
way, it has no timer, lets nothing wait, sends nothing and opens no socket until it is started
again. -/
theorem stopped_still (json : Json) (conversationId : JsString) (l l' : List Event)
    (hl : .start ∉ l') :
    let s := (Client.new.run json conversationId l).stop
    let s' := s.run json conversationId l'
    s'.timers = [] ∧ s'.pendingAcks = [] ∧ s'.sent = s.sent ∧
        s'.sockets.length = s.sockets.length := by
  obtain ⟨ht, hc⟩ := tidy_run json conversationId l tidy_new calm_new
  have h := still_run json conversationId l' .stop ht.stop (stop_fields _).1 hl
  obtain ⟨ht', hc'⟩ := tidy_run json conversationId l' ht.stop .stop
  exact ⟨hc'.no_timers ht' h.stopped, hc'.live (hc'.stopped h.stopped).1, h.sent, h.sockets⟩

/-- A ticket, a connection and an emit, and what is still on its way when the page is left. -/
def pageVisit : List Event :=
  [.start, .ticket (some []), .opens 0, .packet 0 (text "0"), .packet 0 (text "40"), .emit [] []]

def afterwards : List Event := [.packet 0 (text "431[]"), .timer 1, .closed 0, .ticket none]

theorem stopped_still_afterwards :
    let json : Json := ⟨fun _ => [], fun _ => some none⟩
    let s := (Client.new.run json [] pageVisit).stop
    let s' := s.run json [] afterwards
    s'.timers = [] ∧ s'.pendingAcks = [] ∧ s'.sent = s.sent ∧
      s'.sockets.length = s.sockets.length :=
  stopped_still _ [] pageVisit afterwards (by simp [afterwards])

end Frontend.Socket
