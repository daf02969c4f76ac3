import Freelancing.Async

/-!
# The call controller

`frontend/src/features/calls/rtc-controller.ts`: the methods of `WebRtcCallController`, with the
streams and peer connections that they acquire and release. What the callbacks tell the page and the
tracks of the other side are left out.
-/

namespace Frontend

open Async (Code)

/-! ## Data -/

inductive CallType
  | voice
  | video
  deriving DecidableEq

inductive CallStatus
  | invited
  | active
  | ended
  deriving DecidableEq

structure CallSession where
  id : String
  callerUserId : String
  calleeUserId : String
  callType : CallType
  status : CallStatus
  deriving DecidableEq

structure SocketAck where
  ok : Bool
  call : Option CallSession
  detail : Option String

structure Constraints where
  audio : Bool
  video : Bool
  deriving DecidableEq

abbrev Stream := Nat

abbrev Peer := Nat

/-- A signal that is acknowledged. -/
inductive Signal
  | callInvite (conversationId : String) (callType : CallType)
  | callAccept (callId : String)
  | callEnd (callId reason : String)
  | offer (callId : String)
  | answer (callId : String)
  deriving DecidableEq

/-- The steps of a negotiation that go through the peer connection. -/
inductive Negotiation
  | createOffer
  | createAnswer
  | setLocalDescription
  | setRemoteDescription
  | addIceCandidate (candidate : String)
  deriving DecidableEq

/-- What a method waits for. -/
inductive Request
  | userMedia (constraints : Constraints)
  | displayMedia
  /-- The track of a captured stream is put in place of the camera's, or the camera's own again. -/
  | replaceTrack (captured : Option Stream)
  | iceServers
  | emit (signal : Signal)
  | negotiate (step : Negotiation)
  deriving DecidableEq

/-- A captured screen says whether it has a video track. -/
def Request.Value : Request → Type
  | .displayMedia => Bool
  | .emit _ => SocketAck
  | _ => Unit

/-- What the methods find out about the browser and the socket. -/
structure Browser where
  userMedia : Bool
  displayMedia : Bool
  /-- The peer connection has a sender of video. -/
  videoSender : Bool
  /-- The peer connection has a remote description. -/
  remoteDescription : Bool
  isLive : Bool

structure State where
  currentCall : Option CallSession
  peer : Option Peer
  localStream : Option Stream
  screenStream : Option Stream
  pendingCandidates : List String
  screenSharing : Bool
  disposed : Bool
  browser : Browser
  /-- The acquired streams whose tracks have not been stopped. -/
  live : List Stream
  /-- The peer connections that have not been closed. -/
  openPeers : List Peer
  fresh : Nat
  /-- Of the calls of `start` and `accept` that have ended, the last one was rejected. -/
  lastRejected : Bool

abbrev Body := Code Request.Value State

def await (r : Request) : Body r.Value := Code.request r

def emit (signal : Signal) : Body SocketAck := await (.emit signal)

def getUserMedia (constraints : Constraints) : Body Unit := await (.userMedia constraints)

def getDisplayMedia : Body Bool := await .displayMedia

def replaceTrack (captured : Option Stream) : Body Unit := await (.replaceTrack captured)

def getIceServers : Body Unit := await .iceServers

def negotiate (step : Negotiation) : Body Unit := await (.negotiate step)

def initial (browser : Browser) : State where
  currentCall := none
  peer := none
  localStream := none
  screenStream := none
  pendingCandidates := []
  screenSharing := false
  disposed := false
  browser := browser
  live := []
  openPeers := []
  fresh := 0
  lastRejected := false

/-- `this.currentCall && this.currentCall.status !== "ENDED"`. -/
def State.inCall (s : State) : Bool :=
  match s.currentCall with
  | some call => call.status ≠ .ended
  | none => false

def State.callId (s : State) : Option String := s.currentCall.map (·.id)

/-! ## Streams and peer connections -/

def newStream : Body Stream := do
  let s ← Code.get
  Code.modify fun s => { s with live := s.fresh :: s.live, fresh := s.fresh + 1 }
  return s.fresh

def newPeer : Body Peer := do
  let s ← Code.get
  Code.modify fun s => { s with openPeers := s.fresh :: s.openPeers, fresh := s.fresh + 1 }
  return s.fresh

/-- `track.stop()` for the tracks of a stream. -/
def State.stop (s : State) (stream : Option Stream) : State :=
  { s with live := s.live.filter fun x => some x ≠ stream }

def State.closePeer (s : State) : State :=
  { s with openPeers := s.openPeers.filter fun p => some p ≠ s.peer }

def cleanupPeerAndMedia (s : State) : State :=
  { ((s.closePeer).stop s.screenStream).stop s.localStream with
    peer := none
    screenStream := none
    localStream := none
    pendingCandidates := []
    screenSharing := false }

def mediaConstraints (callType : CallType) : Constraints where
  audio := true
  video := callType = .video

def ensureLocalMedia (callType : CallType) : Body Stream := do
  let s ← Code.get
  match s.localStream with
  | some stream => return stream
  | none =>
    if !s.browser.userMedia then
      Code.throw "Camera/microphone access is not supported by this browser."
    else
      getUserMedia (mediaConstraints callType)
      let stream ← newStream
      Code.modify fun s => { s with localStream := some stream }
      return stream

def ensurePeer : Body Peer := do
  let s ← Code.get
  match s.peer, s.localStream with
  | some peer, _ => return peer
  | none, none => Code.throw "Local media must be ready before peer negotiation."
  | none, some _ =>
    getIceServers
    let peer ← newPeer
    Code.modify fun s => { s with peer := some peer }
    return peer

/-! ## Negotiation -/

/-- `ack.error?.detail || fallback`. -/
def SocketAck.message (ack : SocketAck) (fallback : String) : String :=
  if ack.detail.getD "" = "" then fallback else ack.detail.getD ""

def requireCallAck (ack : SocketAck) (fallback : String) : Body CallSession :=
  match ack.ok, ack.call with
  | true, some call => return call
  | _, _ => Code.throw (ack.message fallback)

def addCandidates : List String → Body Unit
  | [] => return ()
  | candidate :: pending => do
    let s ← Code.get
    if s.peer.isNone then Code.throw "Cannot read properties of null (reading 'addIceCandidate')"
    else
      negotiate (.addIceCandidate candidate)
      addCandidates pending

def flushCandidates : Body Unit := do
  let s ← Code.get
  if s.peer.isNone || !s.browser.remoteDescription then return ()
  else
    Code.modify fun s => { s with pendingCandidates := [] }
    addCandidates s.pendingCandidates

def createAndSendOffer (call : CallSession) : Body Unit := do
  let _ ← (ensureLocalMedia call.callType).awaited
  let _ ← ensurePeer.awaited
  negotiate .createOffer
  negotiate .setLocalDescription
  let ack ← emit (.offer call.id)
  if !ack.ok then Code.throw (ack.message "WebRTC offer was rejected.")
  else return ()

def acceptOffer : Body Unit := do
  let s ← Code.get
  match s.currentCall with
  | none => Code.throw "The call is not active."
  | some call =>
    if call.status ≠ .active then Code.throw "The call is not active."
    else
      let _ ← (ensureLocalMedia call.callType).awaited
      let _ ← ensurePeer.awaited
      negotiate .setRemoteDescription
      flushCandidates.awaited
      negotiate .createAnswer
      negotiate .setLocalDescription
      let ack ← emit (.answer call.id)
      if !ack.ok then Code.throw (ack.message "WebRTC answer was rejected.")
      else return ()

/-! ## Methods -/

def restore (call : Option CallSession) : Body Unit :=
  Code.modify fun s => { s with currentCall := call }

def setCall (call : CallSession) : Body Unit :=
  Code.modify fun s => { s with currentCall := some call }

def start (conversationId : String) (callType : CallType) : Body Unit := do
  let s ← Code.get
  if s.inCall then Code.throw "End the current call before starting another one."
  else
    let attempt : Body Unit := do
      let _ ← (ensureLocalMedia callType).awaited
      let ack ← emit (.callInvite conversationId callType)
      let call ← requireCallAck ack "Call invitation was rejected."
      setCall call
    attempt.tryCatch fun message => do
      Code.modify cleanupPeerAndMedia
      Code.throw message

/-- The call that `accept` takes. -/
def State.incoming (s : State) (userId : String) : Option CallSession :=
  s.currentCall.filter fun call => call.status = .invited && call.calleeUserId = userId

def accept (userId : String) : Body Unit := do
  let s ← Code.get
  match s.incoming userId with
  | none => Code.throw "There is no incoming call to accept."
  | some call =>
    let _ ← (ensureLocalMedia call.callType).awaited
    let ack ← emit (.callAccept call.id)
    let active ← requireCallAck ack "Call acceptance was rejected."
    setCall active

/-- The signal of `end`: what fails leaves the media to be stopped. -/
def sendEnd (callId reason : String) : Body Unit :=
  let attempt : Body Unit := do
    let ack ← emit (.callEnd callId reason)
    match ack.ok, ack.call with
    | true, some call => setCall call
    | _, _ => return ()
  attempt.tryCatch fun _ => return ()

/-- `end`. -/
def endCall (reason : String) : Body Unit := do
  let s ← Code.get
  match s.currentCall with
  | some call =>
    if call.status ≠ .ended && s.browser.isLive then
      sendEnd call.id reason
      Code.modify cleanupPeerAndMedia
    else Code.modify cleanupPeerAndMedia
  | none => Code.modify cleanupPeerAndMedia

def decline : Body Unit := (endCall "declined").awaited

/-- The listener of the track's end calls `stopScreenShare`. -/
def startScreenShare : Body Unit := do
  let s ← Code.get
  if s.currentCall.all (·.callType ≠ .video) || s.peer.isNone then
    Code.throw "Screen sharing is available during an active video call."
  else if !s.browser.displayMedia then
    Code.throw "Screen sharing is not supported by this browser."
  else if !s.browser.videoSender then
    Code.throw "The video sender is not available."
  else
    let video ← getDisplayMedia
    let stream ← newStream
    if !video then
      Code.modify fun s => s.stop (some stream)
      Code.throw "Screen capture did not return a video track."
    else
      replaceTrack (some stream)
      Code.modify fun s => { s with screenStream := some stream, screenSharing := true }

def dropScreen (s : State) : State :=
  { s.stop s.screenStream with screenStream := none, screenSharing := false }

def stopScreenShare : Body Unit := do
  let s ← Code.get
  if !s.screenSharing then return ()
  else if s.peer.isSome && s.browser.videoSender then
    replaceTrack none
    Code.modify dropScreen
  else Code.modify dropScreen

/-- The events of the socket with a payload of their kind. -/
inductive SocketEvent
  | callInvite (call : CallSession)
  | callAccept (call : CallSession)
  | callEnd (call : CallSession)
  | offer (callId : String)
  | answer (callId : String)
  | iceCandidate (callId candidate : String)

/-- A second invitation is answered with an end that nobody waits for. -/
def handleEvent (event : SocketEvent) : Body Unit := do
  let s ← Code.get
  if s.disposed then return ()
  else match event with
    | .callInvite call => if s.inCall then return () else setCall call
    | .callAccept call =>
      if s.callId ≠ some call.id then return ()
      else
        setCall call
        (createAndSendOffer call).awaited
    | .offer callId => if s.callId ≠ some callId then return () else acceptOffer.awaited
    | .answer callId =>
      if s.callId ≠ some callId || s.peer.isNone then return ()
      else
        negotiate .setRemoteDescription
        flushCandidates.awaited
    | .iceCandidate callId candidate =>
      if s.callId ≠ some callId then return ()
      else if s.peer.isNone || !s.browser.remoteDescription then
        Code.modify fun s => { s with pendingCandidates := s.pendingCandidates ++ [candidate] }
      else negotiate (.addIceCandidate candidate)
    | .callEnd call =>
      if s.callId ≠ some call.id then return ()
      else
        setCall call
        Code.modify cleanupPeerAndMedia

def dispose : Body Unit := do
  Code.modify fun s => { s with disposed := true }
  Code.modify cleanupPeerAndMedia

/-! ## The controller -/

inductive Method
  | restore (call : Option CallSession)
  | start (conversationId : String) (callType : CallType)
  | accept
  | endCall (reason : String)
  | decline
  | startScreenShare
  | stopScreenShare
  | handleEvent (event : SocketEvent)
  | dispose

/-- The methods whose outcome counts. -/
inductive Attempt
  | start
  | accept
  deriving DecidableEq

def Method.attempt : Method → Option Attempt
  | .start _ _ => some .start
  | .accept => some .accept
  | _ => none

def Method.body (userId : String) : Method → Body Unit
  | .restore call => Frontend.restore call
  | .start conversationId callType => Frontend.start conversationId callType
  | .accept => Frontend.accept userId
  | .endCall reason => Frontend.endCall reason
  | .decline => Frontend.decline
  | .startScreenShare => Frontend.startScreenShare
  | .stopScreenShare => Frontend.stopScreenShare
  | .handleEvent event => Frontend.handleEvent event
  | .dispose => Frontend.dispose

def controller (userId : String) :
    Async.Design Request.Value State (Option Attempt) Method Browser where
  tag := Method.attempt
  code := Method.body userId
  finish attempt rejected s := if attempt.isSome then { s with lastRejected := rejected } else s
  environment browser s := { s with browser := browser }

abbrev Controller := Async.Sys Request.Value State (Option Attempt)

abbrev Label := Async.Label Request (Option Attempt)

/-! ## What is meant to hold -/

/-- The current call is absent or over, the last attempt was rejected, or the controller is
disposed. -/
def State.Over (s : State) : Prop :=
  s.inCall = false ∨ s.lastRejected = true ∨ s.disposed = true

/-- While no call of the controller waits and it has no business with media, every track that it
acquired has been stopped and every peer connection closed. -/
def NothingOutlives (c : Controller) : Prop :=
  c.calls = [] → c.state.Over → c.state.live = [] ∧ c.state.openPeers = []

end Frontend
