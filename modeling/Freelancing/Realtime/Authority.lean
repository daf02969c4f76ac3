import Freelancing.Identity.Rotation
import Freelancing.Realtime.Manners

/-!
# Who a socket acts for

An event of a socket is served for the principal of a token with which a connection of the same
socket has been let in before (`events_authenticated`). Once the revocation of a session has been
committed, no request, connection or event that begins later is served for the session
(`revoked_unserved`).
-/

namespace Realtime

open Money (UserId Err)
open Identity (Settings User UserSession SessionId Db LockName CommitPoint decodeToken)
open Txn (Law Mode Sys Design Prog View)

section
variable {cfg : Settings} {services : Nat → Service} {t : Nat → Stage} {e e' : Store} {i j : Nat}
  {q : Command} {a : Answer} {sid : String} {p : Principal}

/-- A call that has begun has presented a token of the principal on the socket. -/
def Claimed (cfg : Settings) (services : Nat → Service) (t : Nat → Stage) (sid : String)
    (p : Principal) : Prop :=
  ∃ j, (services j).Presents cfg sid p ∧ (t j).begun = true

structure Bound (cfg : Settings) (services : Nat → Service) (t : Nat → Stage) (e : Store) :
    Prop where
  cells : ∀ sid p c, e.cell (.socket sid) = some c → c.value = .text p →
    Claimed cfg services t sid p
  read : ∀ i sid p, (services i).socket = some sid → (t i).identity = some p →
    Claimed cfg services t sid p

theorem Claimed.update (h : Claimed cfg services t sid p) :
    Claimed cfg services (Function.update t i ((t i).next q a)) sid p := by
  obtain ⟨j, hj, hb⟩ := h
  refine ⟨j, hj, ?_⟩
  by_cases hij : j = i
  · rw [hij, Function.update_self]
    rfl
  · rwa [Function.update_of_ne hij]

/-- A command that its handler may ask binds a socket to what the handler has been presented, or
leaves the bindings of all sockets or takes one away. -/
theorem exec_socket {x : Service} {s : Stage} (hq : x.Asks cfg s q) {c : Redis.Cell Principal}
    (hc : (Redis.exec q e).1.cell (.socket sid) = some c) :
    e.cell (.socket sid) = some c ∨ ∃ p, c.value = .text p ∧ x.Presents cfg sid p := by
  cases hq with
  | @bind sid' p ex _ hp =>
    by_cases hs : sid = sid'
    · subst hs
      simp only [Redis.exec, Redis.put_cell, if_true, Option.some.injEq] at hc
      exact .inr ⟨p, by rw [← hc], hp⟩
    · rw [Redis.exec_cell_ne (by simpa [Redis.Command.key] using hs)] at hc
      exact .inl hc
  | identify =>
    rw [Redis.exec_get_store] at hc
    exact .inl hc
  | @forget k =>
    by_cases hk : .socket sid = k
    · subst hk
      simp [Redis.exec] at hc
    · rw [Redis.exec_cell_ne hk] at hc
      exact .inl hc
  | sign | expire | leave | count | look =>
    rw [Redis.exec_cell_ne (by simp [Redis.Command.key])] at hc
    exact .inl hc

theorem Bound.step (h : Bound cfg services t e) (hq : (services i).Asks cfg (t i) q)
    (ha : ∃ ms, (e', a) = Redis.exec q (e.wait ms)) :
    Bound cfg services (Function.update t i ((t i).next q a)) e' := by
  obtain ⟨ms, ha⟩ := ha
  obtain ⟨rfl, rfl⟩ : e' = (Redis.exec q (e.wait ms)).1 ∧ a = (Redis.exec q (e.wait ms)).2 := by
    rw [← ha]
    exact ⟨rfl, rfl⟩
  constructor
  · intro sid p c hc hp
    rcases exec_socket hq hc with hc | ⟨p', hp', hx⟩
    · exact (h.cells sid p c hc hp).update
    · rw [hp] at hp'
      cases hp'
      exact ⟨i, hx, by rw [Function.update_self]; rfl⟩
  · intro k sid p hk hp
    by_cases hki : k = i
    · subst hki
      rw [Function.update_self] at hp
      cases hq with
      | @identify sid' ho hs =>
        obtain rfl : sid' = sid := Option.some.inj (hs.symm.trans hk)
        cases hr : (Redis.exec (.get (.socket sid')) (e.wait ms)).2 with
        | text p' =>
          obtain rfl : p' = p := by simpa [Stage.next, hr] using hp
          obtain ⟨c, hc, hv⟩ := Redis.cell_of_exec_get hr
          exact (h.cells sid' p' c hc hv).update
        | _ => exact (h.read k sid' p hk (by simpa [Stage.next, hr] using hp)).update
      | _ => exact (h.read k sid p hk hp).update
    · rw [Function.update_of_ne hki] at hp
      exact (h.read k sid p hk hp).update

end

/-- Call `i` was served for the principal. -/
def Served (s : Server) (i : Nat) (p : Principal) : Prop := s.Ended i (.ok (.served p))

section
variable {cfg : Settings} {mode : Mode} {d : Db} {now : Nat} {services : Nat → Service}
  {s s' : Server} {i : Nat}

/-- **Events are authenticated**: what is served on a socket, is served for the principal of a valid
token that a call has presented to connect the socket, and was let in with. -/
theorem events_authenticated (hr : Sys.Run mode redisAnswers (server cfg d (.empty now) services) s)
    {sid : String} {p : Principal} (hi : (services i).socket = some sid) (hp : Served s i p) :
    ∃ j, (services j).Presents cfg sid p ∧ ∃ q a e e',
      Sys.Makes mode redisAnswers (server cfg d (.empty now) services) s (.call j q a e e') := by
  obtain ⟨t, htalk, hbound, hasked⟩ := Sys.talks_of_run (m := fun i => (services i).manner cfg)
    (Q := fun i => (services i).Answers) (I := Bound cfg services) (t := fun _ => Stage.start)
    (fun i => (services i).talks)
      ⟨fun sid p c hc => (by cases hc), fun i sid p _ hp => (by cases hp)⟩
    (fun t i q a e e' hok hq hb => hb.step hq hok) hr
  have hread : (t i).identity = some p := by
    have hti := htalk i
    rw [show (s.sess i).prog = .ret (.served p) from hp] at hti
    exact hti.2 p sid rfl hi
  obtain ⟨j, hj, hbegun⟩ := hbound.read i sid p hi hread
  rcases hasked j with hs | ⟨q, hq⟩
  · rw [hs] at hbegun
    cases hbegun
  · exact ⟨j, hj, q, hq.made⟩

end

/-! ## A logout -/

/-- The text of a token is its type. -/
def socketSettings : Settings :=
  { Identity.someSettings with
    jwtDecode := fun now token => some ⟨.uuid 1, .uuid 1, now, now + 100, "", token, none⟩ }

/-- A browser connects and sends an event; the user logs out, and the browser connects again. Others
ask whether the user is online. -/
def browsing : Nat → Service
  | 0 => .connect "realtime" "a" ⟨1, 1, 1⟩
  | 1 => .event "a" 2
  | 2 => .identity (.revoke 1 1 3)
  | 3 => .connect "realtime" "b" ⟨4, 4, 4⟩
  | _ => .online 1

/-- The next statement of session `i`, which Redis answers at once. -/
def choice (s : Server) (i : Nat) : Txn.Choice Answer Err Store :=
  match (s.sess i).prog with
  | .call q _ => .answer (Redis.exec q s.env).2 (Redis.exec q s.env).1
  | _ => .go

def advance (s : Server) (i : Nat) : Server :=
  ((s.step? .readCommitted i (choice s i)).map Prod.fst).getD s

theorem advance_run (s : Server) (i : Nat) :
    Sys.Run .readCommitted redisAnswers s (advance s i) := by
  unfold advance
  cases hs : s.step? .readCommitted i (choice s i) with
  | none => exact .refl
  | some r =>
    obtain ⟨s', mv⟩ := r
    refine .single ⟨i, _, mv, hs, ?_⟩
    unfold choice at hs
    split at hs
    · rename_i q next heq
      simp only [Sys.step?, heq] at hs
      split at hs
      · cases hs
        exact ⟨0, rfl⟩
      · cases hs
    · unfold Sys.step? at hs
      repeat' split at hs
      all_goals first
        | cases hs
          trivial
        | cases hs

theorem advances_run (l : List Nat) (s : Server) :
    Sys.Run .readCommitted redisAnswers s (l.foldl advance s) := by
  induction l generalizing s with
  | nil => exact .refl
  | cons i l ih => exact (advance_run s i).trans (ih _)

theorem advances_waiting {l : List Nat} {s : Server} {j : Nat} {p : Tx Reply} (h : s.Waiting j p)
    (hj : j ∉ l) : (l.foldl advance s).Waiting j p := by
  induction l generalizing s with
  | nil => exact h
  | cons i l ih =>
    rw [List.mem_cons, not_or] at hj
    refine ih ?_ hj.2
    unfold advance
    cases hs : s.step? .readCommitted i (choice s i) with
    | none => exact h
    | some r => exact h.step hj.1 hs

def browsingServer : Server := server socketSettings Identity.oneSession (.empty 0) browsing

/-- The connection and the first event. -/
def connected : Server := (List.replicate 5 0 ++ List.replicate 3 1).foldl advance browsingServer

theorem connected_run : Sys.Run .readCommitted redisAnswers browsingServer connected :=
  advances_run _ _

theorem events_authenticated_connected : Served connected 1 (1, 1) ∧
    ∃ j, (browsing j).Presents socketSettings "a" (1, 1) ∧ ∃ q a e e',
      Sys.Makes .readCommitted redisAnswers browsingServer connected (.call j q a e e') := by
  have hs : Served connected 1 (1, 1) := by
    rfl
  exact ⟨hs, events_authenticated connected_run (i := 1) rfl hs⟩

/-! ## Revocation -/

/-- The login services, beside Redis. -/
def socketDesign : Design Db LockName CommitPoint Command Answer Store :=
  Identity.sessionDesign.beside (fun _ => True) (fun _ _ _ _ => True) fun _ _ _ _ _ _ => trivial

abbrev TxView := View Db LockName Store

abbrev Obliged {β : Type} (mode : Mode) (ok : Move → Prop) (i : Nat) (p : Tx β) (v : TxView)
    (Q : TxView → β → Prop) : Prop :=
  (socketDesign.law mode ok).wp i p v Q

/-- The call was served, or the socket connected, for the session. -/
def Reply.Serves (x : SessionId) : Reply → Prop
  | .served p | .connected p => p.2 = x
  | _ => False

section
variable {cfg : Settings} {mode : Mode} {ok : Move → Prop} {i : Nat} {held : Set LockName}
  {b : Bool} {w : Db × Store} {x : SessionId}

/-- Redis may answer anything. -/
theorem ask_wp {q : Command} {pend : Db → Db} {Q : TxView → Answer → Prop}
    (h : ∀ w' a, socketDesign.Later mode ok held b w w' →
      ∀ e, Q ⟨held, pend, mode.inTxn, (w'.1, e)⟩ a) :
    Obliged mode ok i (Txn.Service.ask q) ⟨held, pend, b, w⟩ Q :=
  Design.wp_ask fun w' a e' hw _ => ⟨trivial, h w' a hw e'⟩

theorem markConnected_wp {user : UserId} {sid : String} {pend : Db → Db} {Q : TxView → Unit → Prop}
    (h : ∀ v, Q v ()) : Obliged mode ok i (markConnected user sid) ⟨held, pend, b, w⟩ Q := by
  unfold markConnected
  refine Law.wp_bind (ask_wp fun w₁ _ _ e₁ => Law.wp_bind (ask_wp fun w₂ _ _ e₂ => ?_))
  exact h _

theorem bindSocket_wp {principal : SocketPrincipal} {sid : String} {now : Nat} {pend : Db → Db}
    {Q : TxView → Unit → Prop} (h : ∀ v, Q v ()) :
    Obliged mode ok i (bindSocket principal sid now) ⟨held, pend, b, w⟩ Q := by
  unfold bindSocket
  exact Law.wp_bind (ask_wp fun w₁ _ _ e₁ => markConnected_wp h)

theorem unbindSocket_wp {user : UserId} {sid : String} {pend : Db → Db} {Q : TxView → Unit → Prop}
    (h : ∀ v, Q v ()) : Obliged mode ok i (unbindSocket user sid) ⟨held, pend, b, w⟩ Q := by
  unfold unbindSocket
  refine Law.wp_bind (ask_wp fun w₁ _ _ e₁ => Law.wp_bind (ask_wp fun w₂ _ _ e₂ => ?_))
  refine Law.wp_bind (ask_wp fun w₃ a _ e₃ => ?_)
  split
  · exact Law.wp_bind (ask_wp fun w₄ _ _ e₄ => h _)
  · exact h _

theorem isOnline_wp {user : UserId} {pend : Db → Db} {Q : TxView → Bool → Prop} (h : ∀ v r, Q v r) :
    Obliged mode ok i (isOnline user) ⟨held, pend, b, w⟩ Q := by
  unfold isOnline
  refine Law.wp_bind (ask_wp fun w₁ a _ e₁ => ?_)
  split <;> exact h _ _

theorem socketIdentity_wp {sid : String} {Q : TxView → Option Principal → Prop}
    (h : ∀ b' w' r, (w.1.Revoked x → w'.1.Revoked x) → Q ⟨held, id, b', w'⟩ r) :
    Obliged mode ok i (socketIdentity sid) ⟨held, id, b, w⟩ Q := by
  unfold socketIdentity
  refine Law.wp_bind (ask_wp fun w₁ a hw₁ e₁ => ?_)
  have hrev : w.1.Revoked x → w₁.1.Revoked x := fun hr => hw₁.frame.revoked x hr
  split
  · exact h _ (w₁.1, e₁) _ hrev
  · trivial
  · exact h _ (w₁.1, e₁) _ hrev

theorem loadSocketUser_wp {userId : UserId} {sessionId : SessionId} {now : Nat}
    {Q : TxView → Option User → Prop} (hn : ∀ v, Q v none)
    (hs : ∀ v user, (w.1.Revoked x → sessionId ≠ x) → Q v (some user)) :
    Obliged mode ok i (loadSocketUser userId sessionId now) ⟨held, id, b, w⟩ Q := by
  unfold loadSocketUser
  refine Law.wp_bind (Design.frames.wp_select fun w₁ hw₁ => ?_)
  refine Law.wp_bind (Design.frames.wp_select fun w₂ hw₂ => ?_)
  split
  · rename_i user session hu hsess
    split
    · exact hn _
    · split
      · exact hn _
      · rename_i hc
        refine hs _ _ fun hr he => ?_
        obtain ⟨y, hy, hyr⟩ := hw₂.frame.revoked x (hw₁.frame.revoked x hr)
        rw [he] at hsess
        obtain rfl : session = y := Option.some.inj (hsess.symm.trans hy)
        simp [hyr] at hc
  · exact hn _

theorem authenticateSocketToken_wp {token : String} {clock : Clock}
    {Q : TxView → Option SocketPrincipal → Prop} (hn : ∀ v, Q v none)
    (hs : ∀ v p, (w.1.Revoked x → p.sessionId ≠ x) → Q v (some p)) :
    Obliged mode ok i (authenticateSocketToken cfg token clock) ⟨held, id, b, w⟩ Q := by
  unfold authenticateSocketToken
  split
  · exact hn _
  · rename_i userId sessionId _ _ _
    refine Law.wp_bind (Design.frames.wp_select fun w₁ hw₁ => ?_)
    refine Law.wp_bind (Design.frames.wp_select fun w₂ hw₂ => ?_)
    split
    · rename_i user session hu hsess
      split
      · exact hn _
      · split
        · exact hn _
        · rename_i hc
          refine hs _ _ fun hr he => ?_
          obtain ⟨y, hy, hyr⟩ := hw₂.frame.revoked x (hw₁.frame.revoked x hr)
          rw [show sessionId = x from he] at hsess
          obtain rfl : session = y := Option.some.inj (hsess.symm.trans hy)
          simp [hyr] at hc
    · exact hn _

theorem requireAccessToken_wp {token : String} {clock : Clock} {Q : TxView → Principal → Prop}
    (h : ∀ v p, (w.1.Revoked x → p.2 ≠ x) → Q v p) :
    Obliged mode ok i (requireAccessToken cfg token clock) ⟨held, id, b, w⟩ Q := by
  unfold requireAccessToken
  dsimp only
  split
  · trivial
  · rename_i userId sessionId _
    refine Law.wp_bind (Design.frames.wp_select fun w₁ hw₁ => ?_)
    refine Law.wp_bind (Design.frames.wp_select fun w₂ hw₂ => ?_)
    split
    · rename_i user session hu hsess
      split
      · trivial
      · rename_i hc
        refine h _ _ fun hr he => ?_
        obtain ⟨y, hy, hyr⟩ := hw₂.frame.revoked x (hw₁.frame.revoked x hr)
        rw [show sessionId = x from he] at hsess
        obtain rfl : session = y := Option.some.inj (hsess.symm.trans hy)
        simp [hyr] at hc
    · trivial

theorem requireSocketUser_wp {sid : String} {now : Nat} {Q : TxView → Principal → Prop}
    (h : ∀ v p, (w.1.Revoked x → p.2 ≠ x) → Q v p) :
    Obliged mode ok i (requireSocketUser sid now) ⟨held, id, b, w⟩ Q := by
  unfold requireSocketUser
  refine Law.wp_bind (socketIdentity_wp (x := x) fun b₁ w₁ r hrev => ?_)
  cases r with
  | none => trivial
  | some p =>
    obtain ⟨userId, sessionId⟩ := p
    refine Law.wp_bind (loadSocketUser_wp (x := x) (fun _ => trivial) fun v user hne => ?_)
    exact h _ _ fun hr => hne (hrev hr)

/-- A call that finds the session revoked is not served for it. -/
theorem Service.unserved (y : Service) : Obliged mode ok i (y.program cfg) ⟨∅, id, b, w⟩
    fun _ r => w.1.Revoked x → ¬ r.Serves x := by
  cases y with
  | http token clock =>
    simp only [program, map_eq_pure_bind]
    exact Law.wp_bind (requireAccessToken_wp (x := x) fun v p hp hr hs => hp hr hs)
  | connect token sid clock =>
    refine Law.wp_bind (authenticateSocketToken_wp (x := x) (fun _ _ h => h) fun v p hp => ?_)
    exact Law.wp_bind (bindSocket_wp fun v hr hs => hp hr hs)
  | event sid now =>
    simp only [program, map_eq_pure_bind]
    exact Law.wp_bind (requireSocketUser_wp (x := x) fun v p hp hr hs => hp hr hs)
  | heartbeat sid now =>
    refine Law.wp_bind (requireSocketUser_wp (x := x) fun v p hp => ?_)
    exact Law.wp_bind (markConnected_wp fun v hr hs => hp hr hs)
  | disconnect sid =>
    refine Law.wp_bind (socketIdentity_wp (x := x) fun b₁ w₁ r _ => ?_)
    cases r with
    | none => exact fun _ h => h
    | some p => exact Law.wp_bind (unbindSocket_wp fun v _ h => h)
  | online user =>
    simp only [program, map_eq_pure_bind]
    exact Law.wp_bind (isOnline_wp fun v r _ h => h)
  | identity y =>
    simp only [program, map_eq_pure_bind]
    refine Law.wp_bind (Law.wp_mono (Design.wp_closed (v := ⟨∅, id, b, (w.1, ())⟩) y.obliged) ?_)
    exact fun v r _ _ h => h

end

/-- **Revocation is final on every channel**: no request, connection or event that begins after the
revocation of a session has been committed is served for the session, whatever else runs. -/
theorem revoked_unserved {cfg : Settings} {mode : Mode} {ok : Move → Prop} {d : Db} {e : Store}
    {services : Nat → Service} {s s' : Server} {i : Nat} {x : SessionId} {r : Reply}
    (hd : Identity.Consistent d) (hr : Sys.Run mode ok (server cfg d e services) s)
    (hrev : s.db.Revoked x) (hw : s.Waiting i ((services i).program cfg))
    (hr' : Sys.Run mode ok s s') (hend : s'.Ended i (.ok r)) : ¬ r.Serves x := by
  have hs : (socketDesign.law mode ok).Holds s := Design.holds_of_run (D := socketDesign)
    ⟨hd, trivial⟩ (fun i => Law.wp_mono ((services i).unserved (x := x)) fun _ _ _ => trivial) hr
  have hk := hs.awaits hw (φ := fun _ r => ¬ r.Serves x)
    (Law.wp_mono (services i).unserved fun _ _ h => h hrev)
  obtain ⟨w, -, h⟩ := (hk.run hr').result hend
  exact h rfl

def loggedOut : Server := (List.replicate 4 2).foldl advance connected

def refused : Server := (List.replicate 3 3).foldl advance loggedOut

/-- The second connection is refused. -/
theorem revoked_unserved_refused : loggedOut.db.Revoked 1 ∧ refused.Ended 3 (.ok .refused) ∧
    ¬ Reply.refused.Serves 1 := by
  have hrev : loggedOut.db.Revoked 1 := ⟨_, rfl, rfl⟩
  have hend : refused.Ended 3 (.ok .refused) := by
    rfl
  have hw : loggedOut.Waiting 3 ((browsing 3).program socketSettings) := by
    unfold loggedOut connected
    rw [← List.foldl_append]
    exact advances_waiting (Sys.waiting_init _ _ _ 3) (by decide)
  exact ⟨hrev, hend, revoked_unserved Identity.oneSession_consistent
    (connected_run.trans (advances_run _ _)) hrev hw (advances_run _ _) hend⟩

end Realtime
