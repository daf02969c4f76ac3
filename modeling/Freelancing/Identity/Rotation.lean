import Freelancing.Identity.Steps

/-!
# Rotation of the refresh tokens

Every token hash in the table of the sessions is an old one or was issued by a call that has ended.
A refresh whose session still accepts the presented token when it commits spends that token: no
session accepts it any more, and no call will issue it again (`Spent`). The `SELECT` of a refresh
takes no lock, so two refreshes may have read the same hash (`refresh_races`). A revoked session
stays revoked, and a refresh that starts after the revocation reads it.
-/

namespace Identity

open Money (UserId Err)
open Txn (Law Mode View Sys Design Prog)

/-! ## Runs -/

abbrev Server := Sys Db LockName (Txn.Point CommitPoint) Empty Empty Err Reply Unit

def server (cfg : Settings) (d : Db) (services : Nat → Service) : Server :=
  Sys.init d () fun i => (services i).program cfg

/-- Call `i` has returned a new pair of tokens for the one it presented. -/
def Accepted (s : Server) (i : Nat) : Prop := ∃ tokens, s.Ended i (.ok (.refreshed tokens))

/-- Every uuid is drawn once, and the digests of different ones differ. -/
structure Fresh (cfg : Settings) (d : Db) (services : Nat → Service) : Prop where
  once : ∀ i j h, (services i).issued cfg = some h → (services j).issued cfg = some h → i = j
  new : ∀ i h, (services i).issued cfg = some h → ∀ x ∈ d.sessions, x.refreshJtiHash ≠ h

/-- A refresh commits while its session still accepts the token that the call has presented. -/
def tokenCurrent : Move → Bool
  | .stmt _ (.commit (.refreshed loaded _)) d _ _ =>
    (d.session? loaded.id).any fun x => x.refreshJtiHash = loaded.refreshJtiHash
  | _ => true

section
variable {cfg : Settings} {mode : Mode} {ok : Move → Prop} {d : Db} {services : Nat → Service}
  {s s' : Server} {i j k : Nat} {h : String}

/-- A hash of the initial sessions, or one that a call has issued that can issue no other. -/
def Known (cfg : Settings) (d : Db) (services : Nat → Service) (s : Server) (h : String) : Prop :=
  (∃ x ∈ d.sessions, x.refreshJtiHash = h) ∨
    ∃ k r, s.Ended k r ∧ (services k).issued cfg = some h

/-- The token of hash `h` has been exchanged, by call `i`. -/
structure Spent (cfg : Settings) (d : Db) (services : Nat → Service) (s : Server) (i : Nat)
    (h : String) : Prop where
  known : Known cfg d services s h
  gone : ∀ x ∈ s.db.sessions, x.refreshJtiHash ≠ h
  once : ∀ j, ((services j).presented cfg).map Prod.snd = some h → Accepted s j → j = i

structure Rotates (cfg : Settings) (d : Db) (services : Nat → Service) (s : Server) : Prop where
  calls : ∀ i, s.Follows i (fun r => ¬ Reply.Accepts (.ok r))
    (Txn.Signed ((services i).Commits cfg))
  known : ∀ x ∈ s.db.sessions, Known cfg d services s x.refreshJtiHash
  spent : ∀ i h, ((services i).presented cfg).map Prod.snd = some h → Accepted s i →
    Spent cfg d services s i h

theorem Effect.hash_of_mem {held : Set LockName} {d d' : Db} {c : CommitPoint} {y : UserSession}
    (he : Effect held d c d') (hy : y ∈ d'.sessions) :
    (∃ x ∈ d.sessions, x.refreshJtiHash = y.refreshJtiHash) ∨ c.issued = some y.refreshJtiHash := by
  cases he with
  | loginRejected user users => exact .inl ⟨y, hy, rfl⟩
  | loggedIn x users devices hl hn hlh hh =>
    rcases List.mem_append.1 hy with hy | hy
    · exact .inl ⟨y, hy, rfl⟩
    · rw [List.mem_singleton.1 hy]
      exact .inr rfl
  | refreshed loaded hash expiry now hlh hh =>
    obtain ⟨x, hx, rfl⟩ := Table.mem_modify.1 hy
    by_cases hid : x.id = loaded.id
    · rw [if_pos hid]
      exact .inr rfl
    · rw [if_neg hid]
      exact .inl ⟨x, hx, rfl⟩
  | revoked id now =>
    obtain ⟨x, hx, rfl⟩ := Table.mem_modify.1 hy
    refine .inl ⟨x, hx, ?_⟩
    split <;> rfl

/-- After a refresh, no session accepts the token any more that its session accepted. -/
theorem Effect.spends {held : Set LockName} {d d' : Db} {loaded : UserSession} {hash : String}
    (hd : Consistent d) (he : Effect held d (.refreshed loaded hash) d')
    (hcur : ((d.session? loaded.id).any fun x => x.refreshJtiHash = loaded.refreshJtiHash) = true)
    (hne : hash ≠ loaded.refreshJtiHash) :
    ∀ y ∈ d'.sessions, y.refreshJtiHash ≠ loaded.refreshJtiHash := by
  cases he with
  | refreshed _ _ expiry now hlh hh =>
    obtain ⟨z, hz, hzh⟩ := (Option.any_eq_true _ _).1 hcur
    have hzm : z ∈ d.sessions := Table.get_mem hz
    have hzid : z.id = loaded.id := Table.get_key hz
    refine Table.forall_mem_modify.2 fun x hx => ?_
    by_cases hid : x.id = loaded.id
    · rw [if_pos hid]
      exact hne
    · rw [if_neg hid]
      intro he
      have hxz : x = z := List.inj_on_of_nodup_map hd.jtiHashes hx hzm
        (he.trans (of_decide_eq_true hzh).symm)
      exact hid (hxz ▸ hzid)

section
variable {c : Txn.Choice Empty Err Unit} {mv : Move}

theorem Known.step (h' : Known cfg d services s h) (hs : s.step? mode k c = some (s', mv)) :
    Known cfg d services s' h := by
  rcases h' with h' | ⟨j, r, hr, hi⟩
  · exact .inl h'
  · obtain ⟨r', hr'⟩ := hr.step hs
    exact .inr ⟨j, r', hr', hi⟩

/-- A call that is still running has not issued a known hash. -/
theorem Known.ne (hf : Fresh cfg d services) (h' : Known cfg d services s h)
    (hk : ∀ r, ¬ s.Ended k r) : (services k).issued cfg ≠ some h := by
  intro hi
  rcases h' with ⟨x, hx, rfl⟩ | ⟨j, r, hr, hj⟩
  · exact hf.new k _ hi x hx rfl
  · rw [hf.once k j h hi hj] at hk
    exact hk r hr

/-- A spent token stays spent. -/
theorem Spent.step (hf : Fresh cfg d services) (hR : Rotates cfg d services s)
    (hs : (sessionDesign.law mode fun mv => tokenCurrent mv = true).Holds s)
    (hstep : s.step? mode k c = some (s', mv)) (hok : tokenCurrent mv = true)
    (h' : Spent cfg d services s i h) : Spent cfg d services s' i h := by
  obtain ⟨-, ⟨hdb, hret⟩ | ⟨cp, r, hend⟩⟩ := Design.step_follows hs (hR.calls k) hstep hok
  · refine ⟨h'.known.step hstep, by rw [hdb]; exact h'.gone, fun j hj ha => ?_⟩
    refine h'.once j hj ?_
    obtain ⟨tokens, ht⟩ := ha
    by_cases hjk : j = k
    · subst hjk
      rcases hret _ ht with hn | hr
      · exact absurd ⟨tokens, rfl⟩ hn
      · exact ⟨tokens, hr⟩
    · exact ⟨tokens, by rwa [Sys.Ended, Sys.step_sess_ne hstep hjk] at ht⟩
  · have hc := hend.signed
    obtain ⟨held, heff⟩ := hend.committed.effect
    refine ⟨h'.known.step hstep, fun y hy he => ?_, fun j hj ha => ?_⟩
    · rcases heff.hash_of_mem hy with ⟨x, hx, hxy⟩ | hi
      · exact h'.gone x hx (hxy.trans he)
      · exact h'.known.ne hf hend.running (by rw [hc.issued _ hi, he])
    · by_cases hjk : j = k
      · subst hjk
        obtain ⟨tokens, ht⟩ := ha
        obtain ⟨loaded, hash, rfl, hp⟩ := hc.accepts ⟨tokens, hend.ended.unique ht⟩
        obtain ⟨z, hz, hzh⟩ := (Option.any_eq_true _ _).1 hend.ok
        rw [hj] at hp
        exact absurd ((of_decide_eq_true hzh).trans (Option.some.inj hp).symm)
          (h'.gone z (Table.get_mem hz))
      · refine h'.once j hj ?_
        obtain ⟨tokens, ht⟩ := ha
        exact ⟨tokens, by rwa [Sys.Ended, Sys.step_sess_ne hstep hjk] at ht⟩

theorem Rotates.step (hf : Fresh cfg d services) (hR : Rotates cfg d services s)
    (hs : (sessionDesign.law mode fun mv => tokenCurrent mv = true).Holds s)
    (hstep : s.step? mode k c = some (s', mv)) (hok : tokenCurrent mv = true) :
    Rotates cfg d services s' := by
  obtain ⟨hk, hmove⟩ := Design.step_follows hs (hR.calls k) hstep hok
  have hold : ∀ i, Accepted s' i → i ≠ k → Accepted s i := by
    intro i ha hik
    obtain ⟨tokens, ht⟩ := ha
    exact ⟨tokens, by rwa [Sys.Ended, Sys.step_sess_ne hstep hik] at ht⟩
  refine ⟨fun i => ?_, fun x hx => ?_, fun i h hp ha => ?_⟩
  · by_cases hik : i = k
    · rwa [hik]
    · exact Design.follows_ne (hR.calls i) hstep hik
  · rcases hmove with ⟨hdb, -⟩ | ⟨cp, r, hend⟩
    · rw [hdb] at hx
      exact (hR.known x hx).step hstep
    · obtain ⟨held, heff⟩ := hend.committed.effect
      rcases heff.hash_of_mem hx with ⟨y, hy, hyx⟩ | hi
      · rw [← hyx]
        exact (hR.known y hy).step hstep
      · exact .inr ⟨k, r, hend.ended, hend.signed.issued _ hi⟩
  · by_cases hik : i = k
    · subst hik
      obtain ⟨tokens, ht⟩ := ha
      rcases hmove with ⟨-, hret⟩ | ⟨cp, r, hend⟩
      · rcases hret _ ht with hn | hr
        · exact absurd ⟨tokens, rfl⟩ hn
        · exact (hR.spent i h hp ⟨tokens, hr⟩).step hf hR hs hstep hok
      · -- the call accepts its token now
        obtain ⟨loaded, hash, rfl, hp'⟩ := hend.signed.accepts ⟨tokens, hend.ended.unique ht⟩
        obtain rfl : h = loaded.refreshJtiHash := Option.some.inj (hp.symm.trans hp')
        obtain ⟨held, heff⟩ := hend.committed.effect
        obtain ⟨z, hz, hzh⟩ := (Option.any_eq_true _ _).1 hend.ok
        have hzm : z ∈ s.db.sessions := Table.get_mem hz
        have hzh := of_decide_eq_true hzh
        have hkn := hR.known z hzm
        rw [hzh] at hkn
        have hne : hash ≠ loaded.refreshJtiHash := fun he =>
          hkn.ne hf hend.running (by rw [hend.signed.issued _ rfl, he])
        refine ⟨hkn.step hstep, heff.spends hend.committed.inv hend.ok hne, fun j hj hja => ?_⟩
        by_contra hji
        exact (hR.spent j _ hj (hold j hja hji)).gone z hzm hzh
    · exact (hR.spent i h hp (hold i ha hik)).step hf hR hs hstep hok

end

theorem holds_server (hd : Consistent d) :
    (sessionDesign.law mode ok).Holds (server cfg d services) :=
  Law.Holds.init hd fun i => (services i).obliged

theorem rotates_server : Rotates cfg d services (server cfg d services) where
  calls i := .inr (services i).ends
  known x hx := .inl ⟨x, hx, rfl⟩
  spent i h _ ha := by
    obtain ⟨tokens, ht⟩ := ha
    have hends : ((services i).program cfg).Ends _ _ := (services i).ends
    rw [show (services i).program cfg = .ret (.refreshed tokens) from ht] at hends
    exact absurd ⟨tokens, rfl⟩ hends

theorem rotates_of_run (hf : Fresh cfg d services) (hd : Consistent d)
    (hr : Sys.Run mode (fun mv => tokenCurrent mv = true) (server cfg d services) s) :
    Rotates cfg d services s := by
  induction hr with
  | refl => exact rotates_server
  | tail hr hs ih =>
    obtain ⟨k, c, mv, hs, hok⟩ := hs
    exact ih.step hf ((holds_server hd).run hr) hs hok

theorem spent_of_run (hf : Fresh cfg d services) (hd : Consistent d)
    (hr : Sys.Run mode (fun mv => tokenCurrent mv = true) (server cfg d services) s)
    (hr' : Sys.Run mode (fun mv => tokenCurrent mv = true) s s')
    (h' : Spent cfg d services s i h) : Spent cfg d services s' i h := by
  induction hr' with
  | refl => exact h'
  | tail hr' hs ih =>
    obtain ⟨k, c, mv, hs, hok⟩ := hs
    exact ih.step hf (rotates_of_run hf hd (hr.trans hr'))
      ((holds_server hd).run (hr.trans hr')) hs hok

/-- A refresh that starts after its session was revoked is refused, whatever else runs. -/
theorem revoked_refused {token : String} {clock : Clock} {ids : NewTokens} {sessionId : SessionId}
    {x : UserId × String} (hs : (sessionDesign.law mode ok).Holds s)
    (hw : s.Waiting i ((Service.refresh token clock ids).program cfg))
    (hp : cfg.presented clock.decoded token = some (sessionId, x)) (hrev : s.db.Revoked sessionId)
    (hr : Sys.Run mode ok s s') : ¬ Accepted s' i := by
  intro ha
  obtain ⟨tokens, ht⟩ := ha
  have hk := hs.awaits hw (φ := fun _ _ => False)
    (Law.wp_bind (Law.wp_mono (refreshSession_revoked_wp hp hrev) fun _ _ h => h.elim))
  obtain ⟨w, -, hfalse⟩ := (hk.run hr).result ht
  exact hfalse rfl

/-- **Refresh tokens rotate once** in every run whose refreshes commit while their tokens are
current, and no refresh that starts after a revocation is accepted. -/
theorem refresh_rotates_once (hf : Fresh cfg d services) (hd : Consistent d)
    (hr : Sys.Run mode (fun mv => tokenCurrent mv = true) (server cfg d services) s)
    (hr' : Sys.Run mode (fun mv => tokenCurrent mv = true) s s') :
    (∀ i j h, ((services i).presented cfg).map Prod.snd = some h →
      ((services j).presented cfg).map Prod.snd = some h → Accepted s i → Accepted s' j → j = i) ∧
    ∀ i sessionId h, (services i).presented cfg = some (sessionId, h) → s.db.Revoked sessionId →
      s.Waiting i ((services i).program cfg) → ¬ Accepted s' i := by
  refine ⟨fun i j h hi hj ha ha' => ?_, fun i sessionId h hp hrev hw => ?_⟩
  · exact (spent_of_run hf hd hr hr' ((rotates_of_run hf hd hr).spent i h hi ha)).once j hj ha'
  · cases hx : services i with
    | refresh token clock ids =>
      rw [hx] at hp hw
      cases hq : cfg.presented clock.decoded token with
      | none => simp [Service.presented, hq] at hp
      | some x =>
        obtain ⟨rfl, -⟩ : x.1 = sessionId ∧ x.2.2 = h := by simpa [Service.presented, hq] using hp
        exact revoked_refused ((holds_server hd).run hr) hw hq hrev hr'
    | login => rw [hx] at hp; cases hp
    | revoke => rw [hx] at hp; cases hp

end

/-! ## Two refreshes at once -/

/-- A digest is what was hashed, and a token is the id in it. -/
def someSettings : Settings where
  sha256 s := s
  emailLookupHash s := s
  needsRotation _ := false
  rewrap s := s
  verifyPassword h p := h == p
  dummyPasswordHash := ""
  accessTokenTtlSeconds := 900
  refreshTokenTtlSeconds := 2592000
  authMaxFailedAttempts := 5
  authLockSeconds := 900
  jwtEncode c := c.jti
  jwtDecode now token := some ⟨.uuid 1, .uuid 1, now, now + 1, token, "refresh", none⟩

/-- One user with one session, which accepts the token `"a"`. -/
def oneSession : Db where
  users := [⟨1, "", "user@example.com", "password", true, 0, none, ["freelancer"]⟩]
  devices := []
  sessions := [⟨1, 1, none, "a", none, none, 1000, none, 0⟩]

theorem oneSession_consistent :
    Consistent oneSession := ⟨by simp [oneSession], by simp [oneSession]⟩

def racingServices : Nat → Service
  | 0 => .refresh "a" ⟨1, 1, 1⟩ ⟨"x", "b"⟩
  | 1 => .refresh "a" ⟨1, 1, 1⟩ ⟨"y", "c"⟩
  | _ => .revoke 1 1 2

theorem racingServices_fresh : Fresh someSettings oneSession racingServices := by
  constructor
  · intro i j h hi hj
    match i, j with
    | 0, 0 | 1, 1 => rfl
    | 0, 1 | 1, 0 => exact absurd (hi.trans hj.symm) (by decide)
    | _ + 2, _ => cases hi
    | _, _ + 2 => cases hj
  · intro i h hi
    match i with
    | 0 | 1 =>
      obtain rfl := Option.some.inj hi
      simp [oneSession, someSettings, Settings.hashJti]
    | _ + 2 => cases hi

/-- Has session `i` returned new tokens? -/
def accepted (s : Server) (i : Nat) : Bool :=
  match (s.sess i).prog with
  | .ret (.refreshed _) => true
  | _ => false

theorem accepted_iff {s : Server} {i : Nat} : accepted s i = true ↔ Accepted s i := by
  unfold accepted Accepted Sys.Ended
  constructor
  · split
    · intro _
      exact ⟨_, by assumption⟩
    · simp
  · intro h
    obtain ⟨tokens, ht⟩ := h
    rw [ht]
    rfl

/-- Both refreshes read the session before either of them commits. -/
def racingRun : List (Nat × Txn.Choice Empty Err Unit) :=
  Sys.goes 0 1 ++ Sys.goes 1 1 ++ Sys.goes 0 5 ++ Sys.goes 1 5

/-- One token is exchanged by two calls. -/
theorem refresh_races : ¬ ∀ (cfg : Settings) (d : Db) (services : Nat → Service) (s : Server),
    Fresh cfg d services → Consistent d →
    Sys.Run .readCommitted (fun _ => True) (server cfg d services) s →
    ∀ i j h, ((services i).presented cfg).map Prod.snd = some h →
      ((services j).presented cfg).map Prod.snd = some h → Accepted s i → Accepted s j → j = i := by
  intro h
  obtain ⟨s, hr, hs⟩ := Sys.exists_free_run .readCommitted
    (server someSettings oneSession racingServices) racingRun
    (fun s => accepted s 0 && accepted s 1) (by decide +kernel)
  obtain ⟨h0, h1⟩ := Bool.and_eq_true_iff.1 hs
  have := h someSettings oneSession racingServices s racingServices_fresh oneSession_consistent
    hr 0 1 "a" rfl rfl (accepted_iff.1 h0) (accepted_iff.1 h1)
  cases this

/-- One refresh after the other, and a logout. -/
theorem refresh_rotates_once_racing : ∃ s : Server, Accepted s 0 ∧ s.db.Revoked 1 ∧
    (∀ j, ((racingServices j).presented someSettings).map Prod.snd = some "a" →
      Accepted s j → j = 0) ∧
    (s.Waiting 1 ((racingServices 1).program someSettings) → ¬ Accepted s 1) := by
  obtain ⟨s, hr, hs⟩ := Sys.exists_run .readCommitted
    (server someSettings oneSession racingServices) tokenCurrent (Sys.goes 0 6 ++ Sys.goes 2 4)
    (fun s => accepted s 0 && (s.db.session? 1).any fun x => x.revokedAt.isSome) (by decide +kernel)
  obtain ⟨h0, h1⟩ := Bool.and_eq_true_iff.1 hs
  have hrev : s.db.Revoked 1 := (Option.any_eq_true _ _).1 h1
  have hrot := refresh_rotates_once racingServices_fresh oneSession_consistent hr .refl
  exact ⟨s, accepted_iff.1 h0, hrev, fun j hj => hrot.1 0 j "a" rfl hj (accepted_iff.1 h0),
    hrot.2 1 1 "a" rfl hrev⟩

end Identity
