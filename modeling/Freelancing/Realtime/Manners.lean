import Freelancing.Realtime.Sockets

/-!
# What the handlers ask of Redis

A handler binds a socket only to a principal whose token it has been given, reads the binding of its
own socket, and gives every presence key that it has written a time to live before it does anything
else.
-/

namespace Realtime

open Money (UserId Err)
open Identity (Settings User UserSession SessionId Db LockName CommitPoint decodeToken)
open Txn (Manner Prog)
open Txn.Service

/-- How far a handler has come: has it asked anything, which principal has it read, and whose
presence key has it written that has no time to live yet? -/
structure Stage where
  begun : Bool
  identity : Option Principal
  owes : Option UserId

def Stage.start : Stage := ⟨false, none, none⟩

def Stage.next (t : Stage) (q : Command) (a : Answer) : Stage where
  begun := true
  identity :=
    match q, a with
    | .get (.socket _), .text p => some p
    | _, _ => t.identity
  owes :=
    match q with
    | .sadd (.presence user) _ => some user
    | .expire _ _ => none
    | _ => t.owes

/-- The call presents a token of the principal on the socket. -/
def Service.Presents (cfg : Settings) (sid : String) (p : Principal) : Service → Prop
  | .connect token sid' clock => sid' = sid ∧
      ∃ exp type, socketClaims cfg clock.decoded token = some (p.1, p.2, exp, type)
  | _ => False

/-- The socket that the call is an event of. -/
def Service.socket : Service → Option String
  | .event sid _ | .heartbeat sid _ | .disconnect sid => some sid
  | _ => none

inductive Service.Asks (cfg : Settings) (x : Service) (t : Stage) : Command → Prop
  | bind {sid : String} {p : Principal} {ex : Nat} (h : t.owes = none) (hp : x.Presents cfg sid p) :
      Asks cfg x t (.set (.socket sid) p ex)
  | identify {sid : String} (h : t.owes = none) (hs : x.socket = some sid) :
      Asks cfg x t (.get (.socket sid))
  | sign {user : UserId} {sid : String} (h : t.owes = none) :
      Asks cfg x t (.sadd (.presence user) sid)
  | expire {user : UserId} (h : t.owes = some user) :
      Asks cfg x t (.expire (.presence user) presenceTtlSeconds)
  | forget {k : Key} (h : t.owes = none) : Asks cfg x t (.delete k)
  | leave {user : UserId} {sid : String} (h : t.owes = none) :
      Asks cfg x t (.srem (.presence user) sid)
  | count {user : UserId} (h : t.owes = none) : Asks cfg x t (.scard (.presence user))
  | look {user : UserId} (h : t.owes = none) : Asks cfg x t (.present (.presence user))

def Service.manner (cfg : Settings) (x : Service) : Manner Stage Command Answer where
  allows := x.Asks cfg
  next := Stage.next
  pending t := t.owes ≠ none

/-- What an event is served for is what its handler has read. -/
def Service.Answers (x : Service) (t : Stage) (r : Reply) : Prop :=
  ∀ p sid, r = .served p → x.socket = some sid → t.identity = some p

section
variable {cfg : Settings} {x : Service} {t : Stage} {R : Type} {Q : Stage → R → Prop}

theorem markConnected_talks {user : UserId} {sid : String} {Q : Stage → Unit → Prop}
    (ht : t.owes = none) (h : ∀ t', t'.owes = none → t'.identity = t.identity → Q t' ()) :
    (markConnected user sid).Talks (x.manner cfg) Q t := by
  refine talks_ask (.sign ht) fun a => talks_ask (.expire rfl) fun a' => talks_pure ?_ (h _ rfl rfl)
  simp [Service.manner, Stage.next]

theorem bindSocket_talks {principal : SocketPrincipal} {sid : String} {now : Nat}
    {Q : Stage → Unit → Prop} (ht : t.owes = none)
    (hp : x.Presents cfg sid (principal.user.id, principal.sessionId))
    (h : ∀ t', t'.owes = none → Q t' ()) :
    (bindSocket principal sid now).Talks (x.manner cfg) Q t := by
  refine talks_ask (.bind ht hp) fun a => markConnected_talks ?_ fun t' ht' _ => h t' ht'
  simpa [Service.manner, Stage.next] using ht

theorem authenticateSocketToken_talks {token : String} {clock : Clock}
    {Q : Stage → Option SocketPrincipal → Prop} (ht : t.owes = none) (hn : Q t none)
    (hs : ∀ p exp type, socketClaims cfg clock.decoded token =
      some (p.user.id, p.sessionId, exp, type) →
      Q t (some p)) :
    (authenticateSocketToken cfg token clock).Talks (x.manner cfg) Q t := by
  have hno : ¬ (x.manner cfg).pending t := fun h => h ht
  unfold authenticateSocketToken
  split
  · exact talks_pure hno hn
  · rename_i userId sessionId exp type hc
    refine talks_select hno fun d => talks_select hno fun d' => ?_
    split
    · rename_i user session hu hsess
      split
      · exact talks_pure hno hn
      · split
        · exact talks_pure hno hn
        · refine talks_pure hno (hs _ exp type ?_)
          rw [hc, show user.id = userId from Table.get_key hu]
    · exact talks_pure hno hn

theorem loadSocketUser_talks {userId : UserId} {sessionId : SessionId} {now : Nat}
    {Q : Stage → Option User → Prop} (ht : t.owes = none) (hn : Q t none)
    (hs : ∀ user, user.id = userId → Q t (some user)) :
    (loadSocketUser userId sessionId now).Talks (x.manner cfg) Q t := by
  have hno : ¬ (x.manner cfg).pending t := fun h => h ht
  unfold loadSocketUser
  refine talks_select hno fun d => talks_select hno fun d' => ?_
  split
  · rename_i user session hu hsess
    split
    · exact talks_pure hno hn
    · split
      · exact talks_pure hno hn
      · exact talks_pure hno (hs user (Table.get_key hu))
  · exact talks_pure hno hn

theorem socketIdentity_talks {sid : String} {Q : Stage → Option Principal → Prop}
    (ht : t.owes = none) (hsid : x.socket = some sid) (hn : ∀ t', t'.owes = none → Q t' none)
    (hs : ∀ t' p, t'.owes = none → t'.identity = some p → Q t' (some p)) :
    (socketIdentity sid).Talks (x.manner cfg) Q t := by
  refine talks_ask (.identify ht hsid) fun a => ?_
  have ht' : ((x.manner cfg).next t (.get (.socket sid)) a).owes = none := ht
  have hno : ¬ (x.manner cfg).pending ((x.manner cfg).next t (.get (.socket sid)) a) :=
    fun h => h ht'
  split
  · exact talks_pure hno (hs _ _ ht' rfl)
  · trivial
  · exact talks_pure hno (hn _ ht')

theorem requireSocketUser_talks {sid : String} {now : Nat} {Q : Stage → Principal → Prop}
    (ht : t.owes = none) (hsid : x.socket = some sid)
    (h : ∀ t' p, t'.owes = none → t'.identity = some p → Q t' p) :
    (requireSocketUser sid now).Talks (x.manner cfg) Q t := by
  refine Prog.Talks.bind
    (socketIdentity_talks ht hsid (fun t' ht' => trivial) fun t' p ht' hp => ?_)
  obtain ⟨userId, sessionId⟩ := p
  refine Prog.Talks.bind (loadSocketUser_talks ht' trivial fun user hu => ?_)
  refine talks_pure (fun hno => hno ht') (h t' _ ht' ?_)
  rw [hp, hu]

theorem unbindSocket_talks {user : UserId} {sid : String} {Q : Stage → Unit → Prop}
    (ht : t.owes = none) (h : ∀ t', t'.owes = none → Q t' ()) :
    (unbindSocket user sid).Talks (x.manner cfg) Q t := by
  refine talks_ask (.forget ht) fun a => talks_ask (.leave ht) fun a' =>
    talks_ask (.count ht) fun n => ?_
  split
  · exact talks_ask (.forget ht) fun a => talks_pure (fun hno => hno ht) (h _ ht)
  · exact talks_pure (fun hno => hno ht) (h _ ht)

theorem isOnline_talks {user : UserId} {Q : Stage → Bool → Prop} (ht : t.owes = none)
    (h : ∀ t' b, t'.owes = none → Q t' b) : (isOnline user).Talks (x.manner cfg) Q t := by
  refine talks_ask (.look ht) fun a => ?_
  split
  · exact talks_pure (fun hno => hno ht) (h _ _ ht)
  · exact talks_pure (fun hno => hno ht) (h _ _ ht)

end

/-- **Every handler keeps its manner**, and an event is answered for the principal that it has
read. -/
theorem Service.talks {cfg : Settings} (x : Service) :
    (x.program cfg).Talks (x.manner cfg) x.Answers .start := by
  have hpure : ∀ t r, t.owes = none → x.Answers t r →
      (pure r : Tx Reply).Talks (x.manner cfg) x.Answers t := fun t r ht hr =>
    talks_pure (fun hno => hno ht) hr
  cases x with
  | http token clock =>
    have hr : ∀ t r, (Service.http token clock).Answers t r := fun t r p sid _ hs => by cases hs
    refine Prog.Talks.map ?_
    unfold requireAccessToken
    dsimp only
    split
    · trivial
    · refine talks_select (fun hno => hno rfl) fun d =>
        talks_select (fun hno => hno rfl) fun d' => ?_
      split
      · split
        · trivial
        · exact talks_pure (fun hno => hno rfl) (hr _ _)
      · trivial
  | connect token sid clock =>
    have hr : ∀ t r, (Service.connect token sid clock).Answers t r :=
      fun t r p sid _ hs => by cases hs
    refine Prog.Talks.bind (authenticateSocketToken_talks rfl (hpure _ _ rfl (hr _ _))
      fun p exp type hc => ?_)
    refine Prog.Talks.bind (bindSocket_talks rfl ⟨rfl, exp, type, hc⟩ fun t' ht' => ?_)
    exact hpure _ _ ht' (hr _ _)
  | event sid now =>
    refine Prog.Talks.map (requireSocketUser_talks rfl rfl fun t' p ht' hp => ?_)
    intro p' sid' hr _
    cases hr
    exact hp
  | heartbeat sid now =>
    refine Prog.Talks.bind (requireSocketUser_talks rfl rfl fun t' p ht' hp => ?_)
    refine Prog.Talks.bind (markConnected_talks ht' fun t'' ht'' hi => hpure _ _ ht'' ?_)
    intro p' sid' hr _
    cases hr
    rw [hi, hp]
  | disconnect sid =>
    have hr : ∀ t, (Service.disconnect sid).Answers t .disconnected :=
      fun t p sid hd _ => by cases hd
    refine Prog.Talks.bind (socketIdentity_talks rfl rfl (fun t' ht' => hpure _ _ ht' (hr _))
      fun t' p ht' hp => ?_)
    exact Prog.Talks.bind (unbindSocket_talks ht' fun t'' ht'' => hpure _ _ ht'' (hr _))
  | online user =>
    refine Prog.Talks.map (isOnline_talks rfl fun t' b ht' => ?_)
    intro p sid hd
    cases hd
  | identity y =>
    refine Prog.Talks.map (Prog.talks_closed _ (fun hno => hno rfl) fun r => ?_)
    intro p sid hd
    cases hd

end Realtime
