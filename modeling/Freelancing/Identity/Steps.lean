import Freelancing.Identity.Sessions

/-!
# Obligations of the login services

The ids and the token hashes of the sessions are unique, every commit is an `Effect`, a revoked
session stays revoked, and a refresh of a revoked session is refused.
-/

namespace Identity

open Money (UserId Err)
open Txn (Law Mode View Sys Design Prog)
open Txn.Service

abbrev Move := Txn.Move Db (Txn.Point CommitPoint) Empty Empty Unit

abbrev TxView := View Db LockName Unit

/-! ## Commits -/

structure Consistent (d : Db) : Prop where
  sessions : (d.sessions.map UserSession.id).Nodup
  jtiHashes : (d.sessions.map UserSession.refreshJtiHash).Nodup

def Db.Revoked (d : Db) (id : SessionId) : Prop :=
  ∃ x, d.session? id = some x ∧ x.revokedAt.isSome = true

inductive Effect (held : Set LockName) (d : Db) : CommitPoint → Db → Prop
  | loginRejected (user : UserId) (users : List User) :
      Effect held d (.loginRejected user) { d with users := users }
  | loggedIn (x : UserSession) (users : List User) (devices : List UserDevice)
      (hl : .session x.id ∈ held) (hn : d.session? x.id = none)
      (hlh : .jtiHash x.refreshJtiHash ∈ held)
      (hh : ∀ y ∈ d.sessions, y.refreshJtiHash ≠ x.refreshJtiHash) :
      Effect held d (.loggedIn x) ⟨users, devices, d.sessions ++ [x]⟩
  | refreshed (loaded : UserSession) (hash : String) (expiry now : Nat)
      (hlh : .jtiHash hash ∈ held)
      (hh : ∀ y ∈ d.sessions, y.id ≠ loaded.id → y.refreshJtiHash ≠ hash) :
      Effect held d (.refreshed loaded hash) (d.modifySession loaded.id (.rotate hash expiry now))
  | revoked (id : SessionId) (now : Nat) :
      Effect held d (.revoked id) (d.modifySession id (.revoke now))

/-- What no other session changes. -/
structure Frame (held : Set LockName) (d d' : Db) : Prop where
  sessions : ∀ id, .session id ∈ held → d.session? id = none → d'.session? id = none
  jtiHashes : ∀ y ∈ d'.sessions, .jtiHash y.refreshJtiHash ∈ held →
    ∃ x ∈ d.sessions, x.id = y.id ∧ x.refreshJtiHash = y.refreshJtiHash
  revoked : ∀ id, d.Revoked id → d'.Revoked id

section
variable {held held' : Set LockName} {d d' d'' : Db} {c : CommitPoint} {id id' : SessionId}
  {f : UserSession → UserSession}

theorem Db.session?_modifySession (hf : ∀ x, (f x).id = x.id) :
    (d.modifySession id f).session? id' =
      (d.session? id').map fun x => if id' = id then f x else x := Table.get_modify hf

theorem Db.session?_append (x : UserSession) (users : List User) (devices : List UserDevice) :
    (⟨users, devices, d.sessions ++ [x]⟩ : Db).session? id =
      (d.session? id).or (if x.id = id then some x else none) := by
  simp only [session?, Table.get_append, Table.get_cons, Table.get_nil]

theorem Db.Revoked.modify (h : d.Revoked id') (hf : ∀ x, (f x).id = x.id)
    (hr : ∀ x, x.revokedAt.isSome = true → (f x).revokedAt.isSome = true) :
    (d.modifySession id f).Revoked id' := by
  obtain ⟨x, hx, hxr⟩ := h
  refine ⟨_, (d.session?_modifySession hf).trans (by rw [hx]; rfl), ?_⟩
  split
  · exact hr x hxr
  · exact hxr

theorem Frame.refl (held : Set LockName) (d : Db) : Frame held d d where
  sessions _ _ h := h
  jtiHashes y hy _ := ⟨y, hy, rfl, rfl⟩
  revoked _ h := h

theorem Frame.trans (h : Frame held d d') (h' : Frame held d' d'') : Frame held d d'' where
  sessions id hl hn := h'.sessions id hl (h.sessions id hl hn)
  jtiHashes y hy hl := by
    obtain ⟨x, hx, hid, he⟩ := h'.jtiHashes y hy hl
    obtain ⟨z, hz, hid', he'⟩ := h.jtiHashes x hx (by rwa [he])
    exact ⟨z, hz, hid'.trans hid, he'.trans he⟩
  revoked id hr := h'.revoked id (h.revoked id hr)

theorem Frame.mono (hs : held' ⊆ held) (h : Frame held d d') : Frame held' d d' where
  sessions id hl := h.sessions id (hs hl)
  jtiHashes y hy hl := h.jtiHashes y hy (hs hl)
  revoked := h.revoked

theorem Frame.modifySession (hf : ∀ x, (f x).id = x.id)
    (hh : ∀ x, (f x).refreshJtiHash = x.refreshJtiHash ∨ .jtiHash (f x).refreshJtiHash ∉ held)
    (hr : ∀ x, x.revokedAt.isSome = true → (f x).revokedAt.isSome = true) :
    Frame held d (d.modifySession id f) where
  sessions id _ hn := by rw [Db.session?_modifySession hf, hn]; rfl
  jtiHashes := by
    refine Table.forall_mem_modify.2 fun x hx hl => ⟨x, hx, ?_⟩
    by_cases hid : x.id = id
    · simp only [hid, if_true] at hl ⊢
      rcases hh x with he | hn
      · exact ⟨by rw [hf, hid], he.symm⟩
      · exact absurd hl hn
    · simp [hid]
  revoked _ h := h.modify hf hr

theorem Effect.frame (h : Effect held' d c d') (hd : Disjoint held held') : Frame held d d' := by
  have hno : ∀ {k : LockName}, k ∈ held' → k ∉ held := fun hk hk' => Set.disjoint_left.1 hd hk' hk
  cases h with
  | loginRejected user users => exact { Frame.refl held d with }
  | loggedIn x users devices hl hn hlh hh =>
    refine ⟨fun id hi hid => ?_, fun y hy hl' => ?_, fun id hr => ?_⟩
    · rw [Db.session?_append, hid, if_neg]
      · rfl
      · intro he
        exact hno hl (by rwa [he])
    · rcases List.mem_append.1 hy with hy | hy
      · exact ⟨y, hy, rfl, rfl⟩
      · rw [List.mem_singleton.1 hy] at hl'
        exact absurd hl' (hno hlh)
    · obtain ⟨y, hy, hyr⟩ := hr
      exact ⟨y, by rw [Db.session?_append, hy]; rfl, hyr⟩
  | refreshed loaded hash expiry now hlh hh =>
    exact .modifySession (fun _ => rfl) (fun _ => .inr (hno hlh)) fun _ h => h
  | revoked id now => exact .modifySession (fun _ => rfl) (fun _ => .inl rfl) fun _ _ => rfl

theorem Db.nodup_modifySession {β : Type} {g : UserSession → β} (h : (d.sessions.map g).Nodup)
    (hg : ∀ x, g (f x) = g x) : ((d.modifySession id f).sessions.map g).Nodup := by
  rwa [Db.modifySession, Table.map_modify hg]

theorem Effect.consistent (hd : Consistent d) (h : Effect held d c d') : Consistent d' := by
  cases h with
  | loginRejected user users => exact ⟨hd.sessions, hd.jtiHashes⟩
  | loggedIn x users devices hl hn hlh hh =>
    constructor
    · simpa [List.nodup_append, hd.sessions] using fun y hy => Table.get_eq_none.1 hn y hy
    · simpa [List.nodup_append, hd.jtiHashes] using hh
  | refreshed loaded hash expiry now hlh hh =>
    refine ⟨Db.nodup_modifySession hd.sessions fun _ => rfl, ?_⟩
    exact Table.nodup_map_modify hd.sessions hd.jtiHashes fun _ _ _ y hy hne => hh y hy hne
  | revoked id now =>
    exact ⟨Db.nodup_modifySession hd.sessions fun _ => rfl,
      Db.nodup_modifySession hd.jtiHashes fun _ => rfl⟩

end

def sessionDesign : Design Db LockName CommitPoint Empty Empty Unit where
  Inv d _ := Consistent d
  Effect held c d d' _ := Effect held d c d'
  Asks _ _ _ _ _ := False
  Frame := Frame
  refl := .refl
  trans := .trans
  mono := .mono
  frame _ := Effect.frame
  keeps hd h := h.consistent hd
  asks _ h := h.elim

/-! ## Obligations -/

section
variable {cfg : Settings} {mode : Mode} {ok : Move → Prop} {i : Nat} {held : Set LockName}
  {pend : Db → Db} {b : Bool} {w : Db × Unit}

abbrev Obliged {β : Type} (mode : Mode) (ok : Move → Prop) (i : Nat) (p : Tx β) (v : TxView)
    (Q : TxView → β → Prop) : Prop :=
  (sessionDesign.law mode ok).wp i p v Q

/-- The transaction has inserted the session `x`, and no other session. -/
structure Opened (v : TxView) (x : UserSession) : Prop where
  lock : .session x.id ∈ v.held
  lockHash : .jtiHash x.refreshJtiHash ∈ v.held
  fresh : v.world.1.session? x.id = none
  freshHash : ∀ y ∈ v.world.1.sessions, y.refreshJtiHash ≠ x.refreshJtiHash
  pend : ∀ d, (v.pend d).sessions = d.sessions ++ [x]

theorem sessionDevice_wp {user : User} {context : ClientContext} {now : Nat} {id : DeviceId}
    {Q : TxView → DeviceId → Prop} (hp : ∀ d, (pend d).sessions = d.sessions)
    (h : ∀ held' pend' b' w' r, (∀ d, (pend' d).sessions = d.sessions) →
      Q ⟨held', pend', b', w'⟩ r) :
    Obliged mode ok i (sessionDevice user context now id) ⟨held, pend, b, w⟩ Q := by
  unfold sessionDevice
  refine Law.wp_bind (Design.frames.wp_select fun w₁ hw₁ => ?_)
  split
  · refine Law.wp_bind (Design.wp_reserve fun w₂ hw₂ hn => ?_)
    exact h _ _ _ _ _ hp
  · refine Law.wp_bind (Design.frames.wp_update fun w₂ hw₂ => ?_)
    exact h _ _ _ _ _ hp

theorem createSession_wp {user : User} {context : Option ClientContext} {now : Nat}
    {ids : NewSession} {Q : TxView → TokenPair × UserSession → Prop}
    (hp : ∀ d, (pend d).sessions = d.sessions)
    (h : ∀ v tokens session, Opened v session → Q v (tokens, session)) :
    Obliged mode ok i (createSession cfg user context now ids) ⟨held, pend, b, w⟩ Q := by
  have hrest : ∀ (held : Set LockName) (pend : Db → Db) (b : Bool) (w : Db × Unit)
      (tokens : TokenPair) (x : UserSession), (∀ d, (pend d).sessions = d.sessions) →
      Obliged mode ok i (do
        reserve .integrity (.session x.id) fun d => (d.session? x.id).isSome
        reserve .integrity (.jtiHash x.refreshJtiHash)
          fun d => d.sessions.any fun y => y.refreshJtiHash = x.refreshJtiHash
        write fun d => d.addSession x
        pure (tokens, x)) ⟨held, pend, b, w⟩ Q := by
    intro held pend b w tokens x hp
    refine Law.wp_bind (Design.wp_reserve fun w₁ hw₁ hn => ?_)
    refine Law.wp_bind (Design.wp_reserve fun w₂ hw₂ hh => ?_)
    refine h _ tokens x ⟨.inr (.inl rfl), .inl rfl, ?_, ?_, fun d => ?_⟩
    · refine hw₂.frame.sessions _ (.inl rfl) ?_
      rw [Db.session?, hp] at hn
      exact Option.not_isSome_iff_eq_none.1 (by rw [Db.session?, hn]; simp)
    · simpa [hp] using hh
    · show (pend d).sessions ++ [x] = _
      rw [hp]
  unfold createSession
  cases context with
  | none => exact hrest _ _ _ _ _ _ hp
  | some context =>
    refine Law.wp_bind (Law.wp_bind (sessionDevice_wp hp fun held' pend' b' w' r hp' => ?_))
    exact hrest _ _ _ _ _ _ hp'

theorem loginUser_wp {email password : String} {context : Option ClientContext} {now : Nat}
    {ids : NewSession} :
    Obliged mode ok i (loginUser cfg email password context now ids) ⟨held, id, b, w⟩
      fun _ _ => True := by
  have hrejected : ∀ (held : Set LockName) (f : User → User) (b : Bool) (w : Db × Unit) (u : User),
      Obliged mode ok i (do commit (.loginRejected u.id); raise invalidCredentials)
        ⟨held, fun d => d.modifyUser u.id f, b, w⟩ fun _ (_ : User × TokenPair) => True :=
    fun held f b w u =>
      Law.wp_bind (Design.wp_commit (fun w' _ => .loginRejected u.id _) fun _ _ _ => trivial)
  unfold loginUser
  refine Law.wp_bind (Design.frames.wp_selectForUpdate (fun w₁ hw₁ hn => trivial)
    fun w₁ user hw₁ hu => ?_)
  refine Law.wp_bind (Design.wp_require fun hactive => ?_)
  split
  · exact Law.wp_bind (Design.wp_commit (fun w' _ => .loginRejected user.id _) fun _ _ _ => trivial)
  · split
    · exact hrejected _ _ _ _ user
    · refine Law.wp_bind (Design.wp_write ?_)
      refine Law.wp_bind (createSession_wp (fun _ => rfl) fun v tokens session ho => ?_)
      refine Law.wp_bind (Design.wp_commit (fun w' hw' => ?_) fun _ _ _ => trivial)
      have hd : v.pend w'.1 = ⟨(v.pend w'.1).users, (v.pend w'.1).devices,
          w'.1.sessions ++ [session]⟩ := by rw [← ho.pend]
      rw [hd]
      refine .loggedIn session _ _ ho.lock (hw'.frame.sessions _ ho.lock ho.fresh) ho.lockHash ?_
      intro y hy he
      obtain ⟨x, hx, -, hxh⟩ := hw'.frame.jtiHashes y hy (by rw [he]; exact ho.lockHash)
      exact ho.freshHash x hx (hxh.trans he)

theorem refreshSession_wp {refreshToken : String} {clock : Clock} {ids : NewTokens} :
    Obliged mode ok i (refreshSession cfg refreshToken clock ids) ⟨held, id, b, w⟩
      fun _ _ => True := by
  unfold refreshSession
  split
  · trivial
  · rename_i sessionId userId jtiHash hpr
    refine Law.wp_bind (Design.frames.wp_select fun w₁ hw₁ => ?_)
    split
    · trivial
    · rename_i session hs
      refine Law.wp_bind (Design.wp_require fun hc => ?_)
      refine Law.wp_bind (Design.frames.wp_select fun w₂ hw₂ => ?_)
      split
      · trivial
      · refine Law.wp_bind (Design.frames.wp_update fun w₃ hw₃ => ?_)
        refine Law.wp_bind (Design.wp_reserve fun w₄ hw₄ hn => ?_)
        refine Law.wp_bind (Design.wp_commit (fun w₅ hw₅ => ?_) fun _ _ _ => trivial)
        refine .refreshed session _ _ _ (.inl rfl) fun y hy hne he => ?_
        -- a row that has the hash at the commit had it when the index was looked up
        obtain ⟨x, hx, hid, hxh⟩ := hw₅.frame.jtiHashes y hy (by rw [he]; exact .inl rfl)
        refine (List.any_eq_false.1 hn) _ (Table.mem_modify.2 ⟨x, hx, rfl⟩) ?_
        rw [← hid] at hne
        simpa [hne, hxh] using he

/-- A refresh of a revoked session is refused. -/
theorem refreshSession_revoked_wp {refreshToken : String} {clock : Clock} {ids : NewTokens}
    {sessionId : SessionId} {x : UserId × String}
    (hp : cfg.presented clock.decoded refreshToken = some (sessionId, x))
    (hr : w.1.Revoked sessionId) :
    Obliged mode ok i (refreshSession cfg refreshToken clock ids) ⟨held, id, b, w⟩
      fun _ _ => False := by
  unfold refreshSession
  rw [hp]
  refine Law.wp_bind (Design.frames.wp_select fun w₁ hw₁ => ?_)
  obtain ⟨session, hs, hrev⟩ := hw₁.frame.revoked sessionId hr
  rw [show (id w₁.1).session? sessionId = some session from hs]
  refine Law.wp_bind (Design.wp_require fun hc => ?_)
  simp [hrev] at hc

theorem revokeSession_wp {sessionId : SessionId} {actor : UserId} {now : Nat} :
    Obliged mode ok i (revokeSession sessionId actor now) ⟨held, id, b, w⟩ fun _ _ => True := by
  unfold revokeSession
  refine Law.wp_bind (Design.frames.wp_select fun w₁ hw₁ => ?_)
  split
  · trivial
  · split
    · refine Law.wp_bind (Design.frames.wp_update fun w₂ hw₂ => ?_)
      exact Design.wp_commit (fun w₃ _ => .revoked _ now) fun _ _ _ => trivial
    · trivial

end

/-! ## Requests -/

inductive Service
  | login (email password : String) (context : Option ClientContext) (now : Nat) (ids : NewSession)
  | refresh (refreshToken : String) (clock : Clock) (ids : NewTokens)
  | revoke (session : SessionId) (actor : UserId) (now : Nat)

inductive Reply
  | loggedIn (x : User × TokenPair)
  | refreshed (tokens : TokenPair)
  | revoked

def Service.program (cfg : Settings) : Service → Tx Reply
  | .login email password context now ids => do
    pure (.loggedIn (← loginUser cfg email password context now ids))
  | .refresh refreshToken clock ids => do
    pure (.refreshed (← refreshSession cfg refreshToken clock ids))
  | .revoke session actor now => do
    let _ ← revokeSession session actor now
    pure .revoked

/-- The session and the hash of the token that the call presents. -/
def Service.presented (cfg : Settings) : Service → Option (SessionId × String)
  | .refresh refreshToken clock _ => do
    let (session, _, jtiHash) ← cfg.presented clock.decoded refreshToken
    some (session, jtiHash)
  | _ => none

/-- The hash of the refresh token that the call issues. -/
def Service.issued (cfg : Settings) : Service → Option String
  | .login _ _ _ _ ids => some (cfg.hashJti ids.tokens.refreshJti)
  | .refresh _ _ ids => some (cfg.hashJti ids.refreshJti)
  | .revoke _ _ _ => none

def CommitPoint.issued : CommitPoint → Option String
  | .loggedIn x => some x.refreshJtiHash
  | .refreshed _ hash => some hash
  | _ => none

def Reply.Accepts (r : Except Err Reply) : Prop := ∃ tokens, r = .ok (.refreshed tokens)

/-- How a call ends that has committed `c`. -/
structure Service.Commits (cfg : Settings) (x : Service) (c : CommitPoint)
    (r : Except Err Reply) : Prop where
  issued : ∀ h, c.issued = some h → x.issued cfg = some h
  accepts : Reply.Accepts r → ∃ loaded hash, c = .refreshed loaded hash ∧
    (x.presented cfg).map Prod.snd = some loaded.refreshJtiHash

theorem Service.obliged {cfg : Settings} {mode : Mode} {ok : Move → Prop} {i : Nat} {b : Bool}
    {w : Db × Unit} (x : Service) :
    Obliged mode ok i (x.program cfg) ⟨∅, id, b, w⟩ fun _ _ => True := by
  cases x with
  | login => exact Law.wp_bind (Law.wp_mono loginUser_wp fun _ _ _ => trivial)
  | refresh => exact Law.wp_bind (Law.wp_mono refreshSession_wp fun _ _ _ => trivial)
  | revoke => exact Law.wp_bind (Law.wp_mono revokeSession_wp fun _ _ _ => trivial)

/-! ## What a call commits -/

section
variable {cfg : Settings}

theorem sessionDevice_ends {user : User} {context : ClientContext} {now : Nat} {id : DeviceId} :
    (sessionDevice user context now id).Ends (fun _ => True) fun _ _ => False := by
  refine ends_select fun device => ?_
  cases device with
  | none => exact ends_reserve (ends_write trivial)
  | some device => exact ends_update trivial

theorem createSession_ends {user : User} {context : Option ClientContext} {now : Nat}
    {ids : NewSession} : (createSession cfg user context now ids).Ends
      (fun r => r.2.refreshJtiHash = cfg.hashJti ids.tokens.refreshJti) fun _ _ => False := by
  unfold createSession
  cases context with
  | none => exact ends_reserve (ends_reserve (ends_write rfl))
  | some context =>
    refine Prog.Ends.bind (θ := fun _ => True) ?_ fun device _ => ?_
    · exact Prog.Ends.map (sessionDevice_ends.mono (fun _ _ => trivial) fun _ _ h => h)
    · exact ends_reserve (ends_reserve (ends_write rfl))

theorem loginUser_ends {email password : String} {context : Option ClientContext} {now : Nat}
    {ids : NewSession} : (loginUser cfg email password context now ids).Ends (fun _ => False)
      (Txn.Signed fun c _ => ∀ h, c.issued = some h → h = cfg.hashJti ids.tokens.refreshJti) := by
  unfold loginUser
  refine ends_selectForUpdate fun user => ?_
  cases user with
  | none => trivial
  | some user =>
    refine ends_require fun _ => ?_
    split
    · exact ends_commit (r := .error _) rfl fun _ h => by cases h
    · split
      · exact ends_write (ends_commit (r := .error _) rfl fun _ h => by cases h)
      · refine ends_write (Prog.Ends.bind createSession_ends fun r hr => ?_)
        refine ends_commit (r := .ok _) rfl fun h hh => ?_
        rw [← hr]
        exact (Option.some.inj hh).symm

theorem refreshSession_ends {refreshToken : String} {clock : Clock} {ids : NewTokens} :
    (refreshSession cfg refreshToken clock ids).Ends (fun _ => False)
      (Txn.Signed fun c _ => ∃ loaded, c = .refreshed loaded (cfg.hashJti ids.refreshJti) ∧
        (cfg.presented clock.decoded refreshToken).map (·.2.2) = some loaded.refreshJtiHash) := by
  unfold refreshSession
  split
  · trivial
  · rename_i sessionId userId jtiHash hpr
    refine ends_select fun session => ?_
    cases session with
    | none => trivial
    | some session =>
      refine ends_require fun hc => ends_select fun user => ?_
      cases user with
      | none => trivial
      | some user =>
        refine ends_update (ends_reserve (ends_commit (r := .ok _) rfl ⟨session, rfl, ?_⟩))
        simp only [Bool.not_eq_true', Bool.or_eq_false_iff, decide_eq_false_iff_not, not_not] at hc
        simp [hpr, hc.2]

theorem revokeSession_ends {sessionId : SessionId} {actor : UserId} {now : Nat} :
    (revokeSession sessionId actor now).Ends (fun _ => True)
      (Txn.Signed fun c _ => ∃ id, c = .revoked id) := by
  unfold revokeSession
  refine ends_select fun session => ?_
  cases session with
  | none => trivial
  | some session =>
    dsimp only
    split
    · exact ends_update (ends_commit (r := .ok _) rfl ⟨_, rfl⟩)
    · trivial

theorem Service.ends (x : Service) : (x.program cfg).Ends (fun r => ¬ Reply.Accepts (.ok r))
    (Txn.Signed (x.Commits cfg)) := by
  cases x with
  | login email password context now ids =>
    refine Prog.Ends.map
      (loginUser_ends.mono (fun _ h => h.elim) (Txn.Signed.mono fun c r hc => ?_))
    refine ⟨fun h hh => by rw [hc h hh]; rfl, fun ha => ?_⟩
    obtain ⟨tokens, ht⟩ := ha
    cases r <;> cases ht
  | refresh refreshToken clock ids =>
    refine Prog.Ends.map (refreshSession_ends.mono (fun _ h => h.elim)
      (Txn.Signed.mono fun c r h => ?_))
    obtain ⟨loaded, rfl, hp⟩ := h
    refine ⟨fun h hh => hh, fun _ => ⟨loaded, _, rfl, ?_⟩⟩
    rw [← hp]
    cases hq : cfg.presented clock.decoded refreshToken <;> simp [Service.presented, hq]
  | revoke session actor now =>
    refine Prog.Ends.map (revokeSession_ends.mono (fun _ _ ha => ?_)
      (Txn.Signed.mono fun c r h => ?_))
    · obtain ⟨tokens, ht⟩ := ha
      cases ht
    · obtain ⟨id, rfl⟩ := h
      refine ⟨fun h hh => (by cases hh), fun ha => ?_⟩
      obtain ⟨tokens, ht⟩ := ha
      cases r <;> cases ht

end

end Identity
