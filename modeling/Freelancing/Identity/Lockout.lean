import Freelancing.Identity.Sessions
import Freelancing.Lockout
import Mathlib.Data.Rat.Floor

/-!
# The login lockout

`login_user` under the lock of the user's row: the calls on one account are served one after
another, and what they do to its counter and its lock is a run of `Lockout`.
-/

namespace Identity

open Money (UserId Err)
open Txn (Outcome)
open Txn.Service
open Lockout (Verdict)

/-- A call of `login_user`; times and `authLockSeconds` are in the unit of the clock. -/
structure Login where
  email : String
  password : String
  context : Option ClientContext
  now : Nat
  ids : NewSession

def Login.serve (cfg : Settings) (x : Login) (d : Db) : Outcome Db Err (User × TokenPair) :=
  (loginUser cfg x.email x.password x.context x.now x.ids).alone Empty.elim d id

/-- The calls one after another, each with the database that it finds. -/
def history (cfg : Settings) : Db → List Login → List (Db × Login)
  | _, [] => []
  | d, x :: xs => (d, x) :: history cfg (x.serve cfg d).db xs

def account? (cfg : Settings) (p : Db × Login) : Option User :=
  p.1.userByEmail? (cfg.emailLookupHash p.2.email)

def User.lockedAt (user : User) (now : Nat) : Bool := user.lockedUntil.any fun t => t > now

/-- The call is for an account that is locked. -/
def whileLocked (cfg : Settings) (p : Db × Login) : Bool :=
  (account? cfg p).any fun user => user.lockedAt p.2.now

/-- The call is for an account that is not locked, with a wrong password. -/
def wrongWhileUnlocked (cfg : Settings) (p : Db × Login) : Bool :=
  (account? cfg p).any fun user =>
    user.isActive && !user.lockedAt p.2.now && !cfg.verifyPassword user.passwordHash p.2.password

def succeeded (cfg : Settings) (p : Db × Login) : Bool := (p.2.serve cfg p.1).result.isOk

def verdict (cfg : Settings) (p : Db × Login) : Verdict :=
  match account? cfg p with
  | none => .void
  | some user =>
    if !user.isActive then .void
    else if user.lockedAt p.2.now then .locked
    else if !cfg.verifyPassword user.passwordHash p.2.password then .wrong
    else if succeeded cfg p then .success else .void

section
variable {cfg : Settings} {d : Db} {x : Login} {user : User} {pend : Db → Db}

theorem userByEmail?_modifyUser {v : User} {h : String} (hu : d.userByEmail? h = some user)
    (hv : v.emailLookupHash = user.emailLookupHash) :
    (d.modifyUser user.id fun _ => v).userByEmail? h = some v := by
  have hkey : user.emailLookupHash = h := Table.get_key hu
  change Table.get _ h d.users = some user at hu
  change Table.get _ h (Table.modify User.id user.id _ d.users) = some v
  generalize d.users = l at hu ⊢
  induction l with
  | nil => cases hu
  | cons y l ih =>
    have hc : Table.modify User.id user.id (fun _ => v) (y :: l) =
        (if y.id = user.id then v else y) :: Table.modify User.id user.id (fun _ => v) l := rfl
    rw [Table.get_cons] at hu
    rw [hc, Table.get_cons]
    by_cases hid : y.id = user.id
    · rw [if_pos hid, if_pos (hv.trans hkey)]
    · rw [if_neg hid]
      by_cases hy : y.emailLookupHash = h
      · rw [if_pos hy] at hu
        exact absurd (congrArg User.id (Option.some.inj hu)) hid
      · rw [if_neg hy] at hu ⊢
        exact ih hu

/-- Served alone, `p` is refused, or goes on with the same users. -/
def KeepsUsers {β : Type} (p : Tx β) : Prop := ∀ d pend,
  (∀ (γ : Type) (f : β → Tx γ), ∃ e, (p >>= f).alone Empty.elim d pend = ⟨d, .error e⟩) ∨
    ∃ r pend', (pend' d).users = (pend d).users ∧
      ∀ (γ : Type) (f : β → Tx γ),
        (p >>= f).alone Empty.elim d pend = (f r).alone Empty.elim d pend'

theorem KeepsUsers.pure {β : Type} {r : β} : KeepsUsers (pure r : Tx β) :=
  fun _ pend => .inr ⟨r, pend, rfl, fun _ _ => rfl⟩

theorem KeepsUsers.bind {β γ : Type} {p : Tx β} {q : β → Tx γ} (hp : KeepsUsers p)
    (hq : ∀ r, KeepsUsers (q r)) : KeepsUsers (p >>= q) := by
  intro d pend
  simp only [bind_assoc]
  rcases hp d pend with he | ⟨r, pend₁, h₁, he⟩
  · exact .inl fun _ _ => he _ _
  · simp only [he]
    rcases hq r d pend₁ with hq | ⟨r', pend₂, h₂, hq⟩
    · exact .inl hq
    · exact .inr ⟨r', pend₂, h₂.trans h₁, hq⟩

theorem KeepsUsers.select {β : Type} {q : Db → β} : KeepsUsers (select q : Tx β) :=
  fun d pend => .inr ⟨q (pend d), pend, rfl, fun _ _ => rfl⟩

theorem KeepsUsers.write {w : Db → Db} (h : ∀ d, (w d).users = d.users) :
    KeepsUsers (write w : Tx Unit) :=
  fun _ pend => .inr ⟨(), w ∘ pend, h _, fun _ _ => rfl⟩

theorem KeepsUsers.update {name : LockName} {w : Db → Db} (h : ∀ d, (w d).users = d.users) :
    KeepsUsers (update name w : Tx Unit) :=
  fun _ pend => .inr ⟨(), w ∘ pend, h _, fun _ _ => rfl⟩

theorem KeepsUsers.reserve {e : Err} {name : LockName} {q : Db → Bool} :
    KeepsUsers (reserve e name q : Tx Unit) := by
  intro d pend
  cases hq : q (pend d) with
  | false => exact .inr ⟨(), pend, rfl, fun _ _ => alone_reserve hq⟩
  | true =>
    refine .inl fun γ f => ⟨e, ?_⟩
    unfold Txn.Service.reserve
    rw [bind_assoc]
    change (require (!q (pend d)) e >>= f).alone Empty.elim d pend = _
    exact alone_refuse (by rw [hq]; rfl)

theorem sessionDevice_keepsUsers {context : ClientContext} {now : Nat} {id : DeviceId} :
    KeepsUsers (sessionDevice user context now id) := by
  refine .bind .select fun device => ?_
  cases device with
  | none => exact .bind .reserve fun _ => .bind (.write fun _ => rfl) fun _ => .pure
  | some device => exact .bind (.update fun _ => rfl) fun _ => .pure

/-- A new session does nothing to the users. -/
theorem createSession_keepsUsers {context : Option ClientContext} {now : Nat} {ids : NewSession} :
    KeepsUsers (createSession cfg user context now ids) := by
  unfold createSession
  cases context with
  | none =>
    refine .bind .pure fun _ => .bind .reserve fun _ => .bind .reserve fun _ => ?_
    exact .bind (.write fun _ => rfl) fun _ => .pure
  | some context =>
    simp only [map_eq_pure_bind, bind_assoc, pure_bind]
    refine .bind sessionDevice_keepsUsers fun _ => .bind .reserve fun _ =>
      .bind .reserve fun _ => ?_
    exact .bind (.write fun _ => rfl) fun _ => .pure

/-! ## One call -/

theorem serve_eq (hu : account? cfg (d, x) = some user) : x.serve cfg d =
    (do
      require user.isActive invalidCredentials
      if user.lockedAt x.now then
        commit (.loginRejected user.id)
        raise invalidCredentials
      else if !cfg.verifyPassword user.passwordHash x.password then
        write fun d => d.modifyUser user.id fun _ => user.failLogin cfg x.now
        commit (.loginRejected user.id)
        raise invalidCredentials
      else
        write fun d => d.modifyUser user.id fun _ => user.succeedLogin cfg
        let (tokens, session) ← createSession cfg (user.succeedLogin cfg) x.context x.now x.ids
        commit (.loggedIn session)
        pure (user.succeedLogin cfg, tokens) : Tx (User × TokenPair)).alone Empty.elim d id := by
  unfold Login.serve loginUser
  rw [alone_selectForUpdate]
  rw [show (id d).userByEmail? (cfg.emailLookupHash x.email) = some user from hu]
  rfl

theorem serve_inactive (hu : account? cfg (d, x) = some user) (h : user.isActive = false) :
    x.serve cfg d = ⟨d, .error invalidCredentials⟩ := by
  rw [serve_eq hu]
  exact alone_refuse h

/-- A call for a locked account fails, whatever the password, and changes nothing. -/
theorem serve_locked (hu : account? cfg (d, x) = some user) (hl : user.lockedAt x.now = true) :
    x.serve cfg d = ⟨d, .error invalidCredentials⟩ := by
  cases hactive : user.isActive with
  | false => exact serve_inactive hu hactive
  | true =>
    rw [serve_eq hu, alone_require hactive, if_pos hl]
    rfl

theorem serve_wrong (hu : account? cfg (d, x) = some user) (hactive : user.isActive = true)
    (hl : user.lockedAt x.now = false)
    (hw : cfg.verifyPassword user.passwordHash x.password = false) :
    x.serve cfg d = ⟨d.modifyUser user.id fun _ => user.failLogin cfg x.now,
      .error invalidCredentials⟩ := by
  rw [serve_eq hu, alone_require hactive, if_neg (by simp [hl]), if_pos (by simp [hw])]
  rfl

/-- A call with the right password succeeds, or it fails on a uuid that is taken. -/
theorem serve_right (hu : account? cfg (d, x) = some user) (hactive : user.isActive = true)
    (hl : user.lockedAt x.now = false)
    (hw : cfg.verifyPassword user.passwordHash x.password = true) :
    (∃ e, x.serve cfg d = ⟨d, .error e⟩) ∨ ∃ d' r, x.serve cfg d = ⟨d', .ok r⟩ ∧
      d'.users = (d.modifyUser user.id fun _ => user.succeedLogin cfg).users := by
  rw [serve_eq hu, alone_require hactive, if_neg (by simp [hl]), if_neg (by simp [hw]), alone_write]
  rcases createSession_keepsUsers d _ with he | ⟨r, pend, hp, he⟩
  · exact .inl (he _ _)
  · rw [he]
    exact .inr ⟨pend d, _, rfl, hp⟩

end

/-! ## Histories -/

section
variable {τ : Type} [Field τ] {cfg : Settings} {d : Db} {x : Login} {user : User} {p : Db × Login}

/-- The counter and the lock of an account. -/
def User.lockState (τ : Type) [Field τ] (user : User) : Lockout.State τ where
  failed := user.failedLoginAttempts
  lockedUntil := user.lockedUntil.map fun t => (t : τ)

/-- What the call at `p` does, at its time. -/
def event (τ : Type) [Field τ] (cfg : Settings) (p : Db × Login) : τ × Verdict :=
  ((p.2.now : τ), verdict cfg p)

theorem userByEmail?_users {d' : Db} (h : d'.users = d.users) (k : String) :
    d'.userByEmail? k = d.userByEmail? k := by
  rw [Db.userByEmail?, Db.userByEmail?, h]

theorem verdict_wrong : verdict cfg p = .wrong ↔ wrongWhileUnlocked cfg p = true := by
  unfold verdict wrongWhileUnlocked
  cases account? cfg p with
  | none => simp
  | some user =>
    dsimp only [Option.any_some]
    cases user.isActive <;> cases user.lockedAt p.2.now <;>
      cases cfg.verifyPassword user.passwordHash p.2.password <;> simp
    split <;> simp

theorem verdict_success (hv : verdict cfg p = .success) : succeeded cfg p = true := by
  unfold verdict at hv
  repeat' split at hv
  all_goals first
    | assumption
    | cases hv

theorem wrongIn_event [LinearOrder τ] {a b : τ} : Lockout.wrongIn a b (event τ cfg p) =
    (wrongWhileUnlocked cfg p && a ≤ (p.2.now : τ) && (p.2.now : τ) < b) := by
  have hwrong : decide (verdict cfg p = .wrong) = wrongWhileUnlocked cfg p := by
    rw [Bool.eq_iff_iff, decide_eq_true_iff, verdict_wrong]
  rw [← hwrong]
  rfl

theorem lockState_failLogin [LinearOrder τ] {now : Nat} : (user.failLogin cfg now).lockState τ =
    (user.lockState τ).fail cfg.authMaxFailedAttempts (cfg.authLockSeconds : τ) (now : τ) := by
  unfold User.failLogin Lockout.State.fail User.lockState
  by_cases h : cfg.authMaxFailedAttempts ≤ user.failedLoginAttempts + 1
  · simp [h]
  · simp [h]

variable [LinearOrder τ] [IsStrictOrderedRing τ]

theorem locked_lockState {now : Nat} :
    (user.lockState τ).Locked (now : τ) ↔ user.lockedAt now = true := by
  unfold Lockout.State.Locked User.lockState User.lockedAt
  cases user.lockedUntil <;> simp

/-- **A call moves the counter and the lock of its account as a lockout does.** -/
theorem serve_step (hu : account? cfg (d, x) = some user) : ∃ user',
    (x.serve cfg d).db.userByEmail? (cfg.emailLookupHash x.email) = some user' ∧
      Lockout.Step cfg.authMaxFailedAttempts (cfg.authLockSeconds : τ) (user.lockState τ)
        (event τ cfg (d, x)) (user'.lockState τ) := by
  have hu' : d.userByEmail? (cfg.emailLookupHash x.email) = some user := hu
  unfold event verdict
  rw [hu]
  dsimp only
  cases hactive : user.isActive with
  | false =>
    rw [serve_inactive hu hactive]
    exact ⟨user, hu', .void rfl⟩
  | true =>
  cases hl : user.lockedAt x.now with
  | true =>
    rw [serve_locked hu hl]
    exact ⟨user, hu', .locked rfl (locked_lockState.2 hl)⟩
  | false =>
  have hfree : ¬ (user.lockState τ).Locked (x.now : τ) := by
    rw [locked_lockState, hl]
    exact Bool.false_ne_true
  cases hw : cfg.verifyPassword user.passwordHash x.password with
  | false =>
    rw [serve_wrong hu hactive hl hw]
    refine ⟨_, userByEmail?_modifyUser hu' ?_, ?_⟩
    · unfold User.failLogin
      dsimp only
      split <;> rfl
    · rw [lockState_failLogin]
      exact .wrong rfl hfree
  | true =>
    unfold succeeded
    dsimp only
    rcases serve_right hu hactive hl hw with ⟨e, he⟩ | ⟨d', r, hr, hd'⟩
    · rw [he]
      exact ⟨user, hu', .void rfl⟩
    · rw [hr]
      refine ⟨user.succeedLogin cfg, ?_, .success rfl hfree⟩
      exact (userByEmail?_users hd' _).trans (userByEmail?_modifyUser hu' rfl)

/-! ### A whole history -/

variable {h : String} {xs : List Login}

theorem runs_history (hx : ∀ x ∈ xs, cfg.emailLookupHash x.email = h)
    (hu : d.userByEmail? h = some user) :
    Lockout.Runs cfg.authMaxFailedAttempts (cfg.authLockSeconds : τ) (user.lockState τ)
      ((history cfg d xs).map (event τ cfg)) := by
  induction xs generalizing d user with
  | nil => exact .nil
  | cons x xs ih =>
    have hxh := hx x (by simp)
    obtain ⟨user', hu', hstep⟩ := serve_step (τ := τ) (show account? cfg (d, x) = some user by
      rw [account?, hxh]; exact hu)
    rw [hxh] at hu'
    exact .cons hstep (ih (fun y hy => hx y (List.mem_cons_of_mem _ hy)) hu')

/-- There is no account, and there will be none. -/
theorem history_none (hx : ∀ x ∈ xs, cfg.emailLookupHash x.email = h)
    (hu : d.userByEmail? h = none) : ∀ p ∈ history cfg d xs, account? cfg p = none := by
  induction xs with
  | nil => simp [history]
  | cons x xs ih =>
    have hxh := hx x (by simp)
    have hserve : x.serve cfg d = ⟨d, .error invalidCredentials⟩ := by
      unfold Login.serve loginUser
      rw [alone_selectForUpdate, hxh, show (id d).userByEmail? h = none from hu]
      rfl
    intro p hp
    rw [history, hserve] at hp
    rcases List.mem_cons.1 hp with rfl | hp
    · rw [account?, hxh]
      exact hu
    · exact ih (fun y hy => hx y (List.mem_cons_of_mem _ hy)) p hp

theorem map_history : (history cfg d xs).map Prod.snd = xs := by
  induction xs generalizing d with
  | nil => rfl
  | cons x xs ih => exact congrArg (x :: ·) ih

/-- **The login lockout bounds guessing**: for the calls of `login_user` on one account, in a time
`[a, a + T)` without a success; and a call on a locked account fails and changes nothing. -/
theorem lockout_bounds_guessing (τ : Type) [Field τ] [LinearOrder τ] [IsStrictOrderedRing τ]
    [FloorSemiring τ] (cfg : Settings) (hN : 1 ≤ cfg.authMaxFailedAttempts)
    (hL : 0 < cfg.authLockSeconds) (d : Db) (h : String) (xs : List Login)
    (hx : ∀ x ∈ xs, cfg.emailLookupHash x.email = h)
    (hclock : xs.Pairwise fun x y => x.now ≤ y.now) :
    (∀ a T : τ,
      (∀ p ∈ history cfg d xs, a ≤ (p.2.now : τ) → (p.2.now : τ) < a + T →
        succeeded cfg p = false) →
      (history cfg d xs).countP (fun p =>
        wrongWhileUnlocked cfg p && a ≤ (p.2.now : τ) && (p.2.now : τ) < a + T) ≤
          cfg.authMaxFailedAttempts * ⌈T / (cfg.authLockSeconds : τ)⌉₊) ∧
    ∀ p ∈ history cfg d xs, whileLocked cfg p = true →
      p.2.serve cfg p.1 = ⟨p.1, .error invalidCredentials⟩ := by
  refine ⟨fun a T hno => ?_, fun p _ hlocked => ?_⟩
  · cases hu : d.userByEmail? h with
    | none =>
      have hnone := history_none hx hu
      rw [List.countP_eq_zero.2]
      · exact Nat.zero_le _
      · intro p hp
        simp [wrongWhileUnlocked, hnone p hp]
    | some user =>
      have hordered : Lockout.Ordered ((history cfg d xs).map (event τ cfg)) := by
        have hsorted : ((history cfg d xs).map Prod.snd).Pairwise fun x y => x.now ≤ y.now := by
          rw [map_history]
          exact hclock
        unfold Lockout.Ordered
        rw [List.pairwise_map]
        exact (List.pairwise_map.1 hsorted).imp fun hle => Nat.cast_le.2 hle
      have hunsuccessful :
          Lockout.Unsuccessful a (a + T) ((history cfg d xs).map (event τ cfg)) := by
        intro e he ha hb hsuccess
        obtain ⟨p, hp, rfl⟩ := List.mem_map.1 he
        have := hno p hp ha hb
        rw [verdict_success hsuccess] at this
        cases this
      have hcount := (runs_history (τ := τ) hx hu).wrong_le hN (Nat.cast_pos.2 hL)
          hordered hunsuccessful
      rw [List.countP_map, add_sub_cancel_left] at hcount
      refine le_trans (le_of_eq ?_) hcount
      apply List.countP_congr
      intro p _
      rw [Function.comp_apply, wrongIn_event]
  · unfold whileLocked at hlocked
    rw [Option.any_eq_true] at hlocked
    obtain ⟨user, hu, hl⟩ := hlocked
    exact serve_locked hu hl

end

/-! ## Three guesses, two of them evaluated -/

/-- Passwords in clear, two guesses, a lock of ten. -/
def plainSettings : Settings where
  sha256 := id
  emailLookupHash := id
  needsRotation _ := false
  rewrap := id
  verifyPassword := (· == ·)
  dummyPasswordHash := ""
  accessTokenTtlSeconds := 1
  refreshTokenTtlSeconds := 1
  authMaxFailedAttempts := 2
  authLockSeconds := 10
  jwtEncode _ := ""
  jwtDecode _ _ := none

def guess (password : String) (now : Nat) :
    Login := ⟨"ann", password, none, now, ⟨1, 1, ⟨"a", "r"⟩⟩⟩

/-- A counter of one from before, and guesses at the instants 3, 4 and 13; the second one has the
right password. -/
def ann : Db := ⟨[⟨7, "", "ann", "secret", true, 1, none, []⟩], [], []⟩

def guesses : List Login := [guess "x" 3, guess "secret" 4, guess "y" 13]

theorem lockout_bounds_guesses :
    (history plainSettings ann guesses).countP (fun p =>
      wrongWhileUnlocked plainSettings p && (0 : ℚ) ≤ (p.2.now : ℚ) && (p.2.now : ℚ) < 0 + 20) ≤
        2 * ⌈(20 : ℚ) / (10 : ℕ)⌉₊ :=
  (lockout_bounds_guessing ℚ plainSettings (by decide) (by decide) ann "ann" guesses (by decide)
    (by decide)).1 0 20 (by decide +kernel)

end Identity
