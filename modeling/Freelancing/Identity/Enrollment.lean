import Freelancing.Identity.RecoveryCodes

/-!
# The enrollment of an authenticator

A start and a confirmation check the user that they have loaded, and lock the row of the user only
when they write it. In the runs whose commits still find what was checked (`checksHold`), one
confirmation is accepted, the stored recovery codes are the ones that it returned, and the secrets
that were returned are the secret of the stored seed.
-/

namespace Identity.Mfa

open Money (UserId Err)
open Txn (Law Mode View Sys Design Prog)
open Txn.Service

/-! ## Requests -/

inductive Enrollment
  | start (session : SessionId) (checkedAt : Nat) (password : String) (newSeed : HexToken)
  | confirm (session : SessionId) (checkedAt : Nat) (code : String) (totpAt now : Nat)
      (new : NewCodes)

inductive EnrollmentReply
  | secret (s : String)
  | confirmed (r : ConfirmReply)

abbrev EnrollmentTx := Txn.Prog Db LockName (Txn.Point CommitPoint) Empty Empty Err EnrollmentReply

def Enrollment.program (cfg : Settings) (user : UserId) : Enrollment → EnrollmentTx
  | .start session checkedAt password newSeed => do
    let (u, _) ← requireAccessToken ⟨user, session, checkedAt⟩
    let secret ← startTotpEnrollment cfg u password newSeed
    pure (.secret secret)
  | .confirm session checkedAt code totpAt now new => do
    let (u, x) ← requireAccessToken ⟨user, session, checkedAt⟩
    let r ← confirmTotpEnrollment cfg u x code totpAt now new
    pure (.confirmed r)

def Enrollment.codes? : Enrollment → Option NewCodes
  | .start .. => none
  | .confirm _ _ _ _ _ new => some new

/-- The seed of the pending or confirmed enrollment. -/
def Db.seed? (d : Db) (user : UserId) :
    Option String := (d.user? user).bind fun u => nonempty u.mfaSeed

def Db.enabled (d : Db) (user : UserId) : Bool := (d.user? user).any fun u => u.mfaEnabledAt.isSome

/-- A commit still finds what the call has checked. -/
def checksHold : Move → Bool
  | .stmt _ (.commit (.started user)) d _ _ => (d.seed? user).isNone
  | .stmt _ (.commit (.confirmed user _)) d _ _ => !d.enabled user
  | _ => true

def Account.enroll (seed : String) (u : Account) : Account := { u with mfaSeed := some seed }

def Account.enable (now : Nat) (u : Account) : Account := { u with mfaEnabledAt := some now }

/-! ## Commits -/

inductive Enrolls (user : UserId) (held : Set LockName) (d : Db) : CommitPoint → Db → Prop
  | started (seed : HexToken) (hn : d.seed? user = none) :
      Enrolls user held d (.started user) (d.modifyUser user (.enroll seed.text))
  | confirmed (codes : List Verification) (now : Nat) (d' : Db) (hl : .user user ∈ held)
      (hn : d.enabled user = false) (hu : d'.users = (d.modifyUser user (.enable now)).users)
      (hc : d'.recoveryCodes user = codes) : Enrolls user held d (.confirmed user codes) d'

/-- What the other calls leave as it is. -/
structure EnrollmentFrame (user : UserId) (held : Set LockName) (d d' : Db) : Prop where
  seed : ∀ seed, d.seed? user = some seed → d'.seed? user = some seed
  enabled : d.enabled user = true → d'.enabled user = true
  codes : .user user ∈ held → d'.recoveryCodes user = d.recoveryCodes user

section
variable {user : UserId} {held held' : Set LockName} {d d' d'' : Db} {c : CommitPoint}

theorem EnrollmentFrame.refl (held : Set LockName) (d : Db) : EnrollmentFrame user held d d :=
  ⟨fun _ h => h, id, fun _ => rfl⟩

theorem EnrollmentFrame.trans (h : EnrollmentFrame user held d d')
    (h' : EnrollmentFrame user held d' d'') : EnrollmentFrame user held d d'' where
  seed seed hs := h'.seed seed (h.seed seed hs)
  enabled he := h'.enabled (h.enabled he)
  codes hl := (h'.codes hl).trans (h.codes hl)

theorem EnrollmentFrame.mono (hs : held' ⊆ held) (h : EnrollmentFrame user held d d') :
    EnrollmentFrame user held' d d' :=
  ⟨h.seed, h.enabled, fun hl => h.codes (hs hl)⟩

theorem Db.user?_modifyUser {f : Account → Account} (hf : ∀ u, (f u).id = u.id) :
    (d.modifyUser user f).user? user = (d.user? user).map f := Table.get_modify_self hf

theorem Db.user?_congr (h : d'.users = d.users) (user : UserId) : d'.user? user = d.user? user := by
  rw [user?, user?, h]

theorem Enrolls.frame (he : Enrolls user held' d c d') (hdis : Disjoint held held') :
    EnrollmentFrame user held d d' := by
  cases he with
  | started seed hn =>
    refine ⟨fun s hs => ?_, fun hen => ?_, fun _ => rfl⟩
    · rw [hn] at hs
      cases hs
    · rw [Db.enabled, Db.user?_modifyUser (f := .enroll seed.text) (fun _ => rfl), Option.any_map]
      exact hen
  | confirmed codes now d' hl hn hu hc =>
    have huser : d'.user? user = (d.user? user).map (.enable now) :=
      (Db.user?_congr hu user).trans (Db.user?_modifyUser fun _ => rfl)
    refine ⟨fun s hs => ?_, fun hen => ?_, fun hl' => absurd hl (Set.disjoint_left.1 hdis hl')⟩
    · rw [Db.seed?, huser, Option.bind_map]
      exact hs
    · rw [hn] at hen
      cases hen

end

/-- The user exists. -/
def enrollmentDesign (user : UserId) : Design Db LockName CommitPoint Empty Empty Unit where
  Inv d _ := (d.user? user).isSome = true
  Effect held c d d' _ := Enrolls user held d c d'
  Asks _ _ _ _ _ := False
  Frame := EnrollmentFrame user
  refl := .refl
  trans := .trans
  mono := .mono
  frame _ h hd := h.frame hd
  keeps hd h := by
    cases h with
    | started seed hn =>
      rwa [Db.user?_modifyUser (f := .enroll seed.text) fun _ => rfl, Option.isSome_map]
    | confirmed codes now d' hl hn hu hc =>
      rwa [Db.user?_congr hu, Db.user?_modifyUser (f := .enable now) fun _ => rfl,
        Option.isSome_map]
  asks _ h := h.elim

/-! ## Obligations -/

section
variable {user : UserId} {mode : Mode} {i : Nat} {held : Set LockName} {pend : Db → Db} {b : Bool}
  {w : Db × Unit} {cfg : Settings}

abbrev Enrolling {β : Type} (user : UserId) (mode : Mode) (i : Nat) (p : Tx β) (v : TxView)
    (Q : TxView → β → Prop) : Prop :=
  ((enrollmentDesign user).law mode fun mv => checksHold mv = true).wp i p v Q

/-- What a call returns fits the database. -/
def Enrollment.Fits (cfg : Settings) (user : UserId) (x : Enrollment) (d : Db) :
    EnrollmentReply → Prop
  | .secret secret => ∃ seed, d.seed? user = some seed ∧ secret = cfg.totpSecret user seed
  | .confirmed r => ∃ new, x.codes? = some new ∧ r.recoveryCodes = new.codes

theorem startTotpEnrollment_wp {u : Account} {password : String} {newSeed : HexToken}
    (hid : u.id = user)
    (hseed : ∀ seed, nonempty u.mfaSeed = some seed → w.1.seed? user = some seed) :
    Enrolling user mode i (startTotpEnrollment cfg u password newSeed) ⟨∅, id, b, w⟩
      fun v secret => ∃ seed, v.world.1.seed? user = some seed ∧
        secret = cfg.totpSecret user seed := by
  subst hid
  unfold startTotpEnrollment
  refine Law.wp_bind (Design.wp_require fun _ => Law.wp_bind (Design.wp_require fun _ => ?_))
  split
  · rename_i seed hs
    exact ⟨seed, hseed seed hs, rfl⟩
  · refine Law.wp_bind (Design.frames.wp_update fun w₁ hw₁ => Law.wp_bind ?_)
    refine Design.wp_commit_ok fun w₂ hw₂ hok => ⟨.started newSeed ?_, fun _ => ?_⟩
    · exact Option.isNone_iff_eq_none.1 hok
    refine Law.wp_bind (Design.frames.wp_select fun w₃ hw₃ => ?_)
    split
    · rename_i seed hs
      exact ⟨seed, hs, rfl⟩
    · trivial

def Db.deleteVerifications (d : Db) (ids : List VerificationId) : Db :=
  { d with verifications := d.verifications.filter fun x => x.id ∉ ids }

def Db.addVerifications (d : Db) (xs : List Verification) : Db :=
  { d with verifications := d.verifications ++ xs }

theorem deleteAll_wp {ids : List VerificationId} {Q : TxView → Unit → Prop}
    (h : ∀ held' b' w', held ⊆ held' → EnrollmentFrame user held w.1 w'.1 →
      Q ⟨held', fun d => (pend d).deleteVerifications ids, b', w'⟩ ()) :
    Enrolling user mode i (deleteAll ids) ⟨held, pend, b, w⟩ Q := by
  induction ids generalizing held pend b w with
  | nil =>
    have hpend : (fun d => (pend d).deleteVerifications []) = pend := by
      funext d
      simp [Db.deleteVerifications]
    have hQ := h held b w subset_rfl (.refl _ _)
    rw [hpend] at hQ
    exact hQ
  | cons id ids ih =>
    unfold deleteAll
    refine Law.wp_bind (Design.frames.wp_update fun w₁ hw₁ => ih fun held' b' w' hs hf => ?_)
    have hsub : held ⊆ insert (LockName.verification id) held := Set.subset_insert _ _
    have hpend : (fun d => ((pend d).deleteVerification id).deleteVerifications ids) =
        fun d => (pend d).deleteVerifications (id :: ids) := by
      funext d
      simp [Db.deleteVerifications, Db.deleteVerification, List.filter_filter, Bool.and_comm]
    have hQ := h held' b' w' (hsub.trans hs) (hw₁.frame.trans (hf.mono hsub))
    rw [← hpend] at hQ
    exact hQ

theorem insertAll_wp {xs : List Verification} {Q : TxView → Unit → Prop}
    (h : ∀ held' b' w', held ⊆ held' → EnrollmentFrame user held w.1 w'.1 →
      Q ⟨held', fun d => (pend d).addVerifications xs, b', w'⟩ ()) :
    Enrolling user mode i (insertAll xs) ⟨held, pend, b, w⟩ Q := by
  induction xs generalizing held pend b w with
  | nil =>
    have hpend : (fun d => (pend d).addVerifications []) = pend := by
      funext d
      simp [Db.addVerifications]
    have hQ := h held b w subset_rfl (.refl _ _)
    rw [hpend] at hQ
    exact hQ
  | cons x xs ih =>
    unfold insertAll
    refine Law.wp_bind (Design.wp_reserve fun w₁ hw₁ _ => ?_)
    refine Law.wp_bind (Design.wp_reserve fun w₂ hw₂ _ => Law.wp_bind (Design.wp_write ?_))
    refine ih fun held' b' w' hs hf => ?_
    have hsub₁ : held ⊆ insert (LockName.verification x.id) held := Set.subset_insert _ _
    have hsub : held ⊆ insert (LockName.tokenHash x.tokenHash)
        (insert (LockName.verification x.id) held) :=
      hsub₁.trans (Set.subset_insert _ _)
    have hpend : (fun d => ((pend d).addVerification x).addVerifications xs) =
        fun d => (pend d).addVerifications (x :: xs) := by
      funext d
      simp [Db.addVerifications, Db.addVerification]
    have hQ := h held' b' w' (hsub.trans hs)
        ((hw₁.frame.trans (hw₂.frame.mono hsub₁)).trans (hf.mono hsub))
    rw [← hpend] at hQ
    exact hQ

/-- The old recovery codes are deleted and the new ones added. -/
theorem recoveryCodes_replaced {d : Db} {ids : List VerificationId} {new : NewCodes}
    (hids : ∀ x ∈ d.recoveryCodes user, x.id ∈ ids) :
    ((d.deleteVerifications ids).addVerifications (new.rows cfg user)).recoveryCodes user =
      new.rows cfg user := by
  have hold : (d.deleteVerifications ids).recoveryCodes user = [] := by
    rw [Db.recoveryCodes, List.filter_eq_nil_iff]
    intro x hx hrec
    obtain ⟨hx, hno⟩ := List.mem_filter.1 hx
    exact of_decide_eq_true hno (hids x (List.mem_filter.2 ⟨hx, hrec⟩))
  have hnew : (new.rows cfg user).filter (fun x => x.user = user && x.kind = mfaRecoveryKind) =
      new.rows cfg user := by
    rw [List.filter_eq_self]
    intro x hx
    obtain ⟨k, rfl⟩ := List.mem_ofFn.1 hx
    simp
  rw [Db.recoveryCodes, Db.addVerifications, List.filter_append, hnew]
  change (d.deleteVerifications ids).recoveryCodes user ++ _ = _
  rw [hold, List.nil_append]

theorem confirmTotpEnrollment_wp {u : Account} {x : LoginSession} {code : String} {totpAt now : Nat}
    {new : NewCodes} (hid : u.id = user) :
    Enrolling user mode i (confirmTotpEnrollment cfg u x code totpAt now new) ⟨∅, id, b, w⟩
      fun _ r => r.recoveryCodes = new.codes := by
  subst hid
  unfold confirmTotpEnrollment
  refine Law.wp_bind (Design.wp_require fun _ => ?_)
  split
  · trivial
  rename_i seed hseed
  cases htotp : verifyTotp cfg u.id seed code totpAt with
  | error e => trivial
  | ok totp =>
    refine Law.wp_bind (Law.wp_pure (Law.wp_bind (Design.wp_require fun _ => ?_)))
    refine Law.wp_bind (Design.frames.wp_update fun w₁ hw₁ => ?_)
    refine Law.wp_bind (Design.frames.wp_update fun w₂ hw₂ => ?_)
    refine Law.wp_bind (Design.frames.wp_select fun w₃ hw₃ => ?_)
    refine Law.wp_bind (deleteAll_wp fun held₄ b₄ w₄ hs₄ hw₄ => ?_)
    refine Law.wp_bind (insertAll_wp fun held₅ b₅ w₅ hs₅ hw₅ => Law.wp_bind ?_)
    refine Design.wp_commit_ok fun w₆ hw₆ hok => ⟨?_, fun _ => ?_⟩
    · -- nobody else has changed the recovery codes since the row of the user was locked
      have hl : LockName.user u.id ∈
          (insert (.session x.id) (insert (.user u.id) ∅) : Set LockName) := .inr (.inl rfl)
      have hcodes : w₆.1.recoveryCodes u.id = w₃.1.recoveryCodes u.id :=
        (hw₆.frame.codes (hs₅ (hs₄ hl))).trans ((hw₅.codes (hs₄ hl)).trans (hw₄.codes hl))
      refine .confirmed _ now _ (hs₅ (hs₄ hl)) ?_ rfl (recoveryCodes_replaced fun y hy => ?_)
      · simpa [checksHold] using hok
      · have hy' : y ∈ w₆.1.recoveryCodes u.id := hy
        rw [hcodes] at hy'
        exact List.mem_map_of_mem hy'
    · exact Law.wp_bind (Design.frames.wp_select fun w₇ hw₇ => rfl)

theorem Enrollment.obliged {x : Enrollment} :
    ((enrollmentDesign user).law mode fun mv => checksHold mv = true).wp i (x.program cfg user)
      ⟨∅, id, b, w⟩ fun v r => x.Fits cfg user v.world.1 r := by
  cases x with
  | start session checkedAt password newSeed =>
    refine Law.wp_bind (requireAccessToken_wp fun w₁ w₂ u x hw₁ hw₂ hu => ?_)
    refine Law.wp_bind (Law.wp_mono (startTotpEnrollment_wp ?_ fun seed hs => ?_) fun _ _ h => h)
    · exact user_id hu
    · refine hw₂.frame.seed seed ?_
      rw [Db.seed?, show w₁.1.user? user = some u from hu]
      exact hs
  | confirm session checkedAt code totpAt now new =>
    refine Law.wp_bind (requireAccessToken_wp fun w₁ w₂ u x hw₁ hw₂ hu => ?_)
    refine Law.wp_bind (Law.wp_mono (confirmTotpEnrollment_wp ?_) fun _ _ h => ⟨new, rfl, h⟩)
    exact user_id hu

end

/-! ## What the commit of a call settles -/

/-- The call is an accepted confirmation. -/
def IsConfirmed (r : Except Err EnrollmentReply) : Prop := ∃ y, r = .ok (.confirmed y)

theorem not_isConfirmed_error {e : Err} : ¬ IsConfirmed (.error e) := by
  intro h
  obtain ⟨y, hy⟩ := h
  cases hy

theorem not_isConfirmed_secret {secret : String} : ¬ IsConfirmed (.ok (.secret secret)) := by
  intro h
  obtain ⟨y, hy⟩ := h
  cases hy

def Enrollment.Signs (cfg : Settings) (user : UserId) (x : Enrollment) :
    CommitPoint → Except Err EnrollmentReply → Prop
  | .confirmed _ codes, r =>
      (∃ new, x.codes? = some new ∧ codes = new.rows cfg user) ∧ IsConfirmed r
  | _, r => ¬ IsConfirmed r

section
variable {user : UserId} {cfg : Settings} {γ : Type} {ψ : γ → Prop}
  {φ : Txn.Point CommitPoint → Except Err γ → Prop}

theorem deleteAll_settles {ids : List VerificationId}
    {f : Unit → Txn.Prog Db LockName (Txn.Point CommitPoint) Empty Empty Err γ}
    (h : (f ()).Settles ψ φ) : (deleteAll ids >>= f).Settles ψ φ := by
  induction ids with
  | nil => exact h
  | cons id ids ih =>
    unfold deleteAll
    rw [bind_assoc]
    exact settles_update ih

theorem insertAll_settles {xs : List Verification}
    {f : Unit → Txn.Prog Db LockName (Txn.Point CommitPoint) Empty Empty Err γ}
    (h : (f ()).Settles ψ φ) : (insertAll xs >>= f).Settles ψ φ := by
  induction xs with
  | nil => exact h
  | cons x xs ih =>
    unfold insertAll
    rw [bind_assoc]
    refine settles_reserve ?_
    rw [bind_assoc]
    refine settles_reserve ?_
    rw [bind_assoc]
    exact settles_write ih

theorem startTotpEnrollment_settles {u : Account} {password : String} {newSeed : HexToken} :
    (startTotpEnrollment cfg u password newSeed).Settles (fun _ => True)
      (Txn.Signed fun c _ => c = .started u.id) := by
  unfold startTotpEnrollment
  refine settles_require fun _ => settles_require fun _ => ?_
  split
  · trivial
  · refine settles_update (settles_commit fun d => ?_)
    dsimp only [Prog.bind]
    split
    · rfl
    · rfl

theorem confirmTotpEnrollment_settles {u : Account} {x : LoginSession} {code : String}
    {totpAt now : Nat} {new : NewCodes} :
    (confirmTotpEnrollment cfg u x code totpAt now new).Settles (fun _ => False)
      (Txn.Signed fun c r => c = .confirmed u.id (new.rows cfg u.id) ∧ ∃ y, r = .ok y) := by
  unfold confirmTotpEnrollment
  refine settles_require fun _ => ?_
  split
  · trivial
  rename_i seed hseed
  cases htotp : verifyTotp cfg u.id seed code totpAt with
  | error e => trivial
  | ok totp =>
    refine settles_require (f := fun _ => _) fun _ => ?_
    refine settles_update (settles_update (settles_select fun d => ?_))
    refine deleteAll_settles (insertAll_settles (settles_commit fun d => ?_))
    exact ⟨rfl, _, rfl⟩

theorem requireAccessToken_settles {bearer : Bearer}
    {f : Account × LoginSession → Txn.Prog Db LockName (Txn.Point CommitPoint) Empty Empty Err γ}
    (h : ∀ u x, u.id = bearer.user → (f (u, x)).Settles ψ φ) :
    (requireAccessToken bearer >>= f).Settles ψ φ := by
  unfold requireAccessToken
  rw [bind_assoc]
  refine settles_select fun d => ?_
  rw [bind_assoc]
  refine settles_select fun d' => ?_
  split
  · rename_i u x hu hx
    rw [bind_assoc]
    exact settles_require fun _ => h u x (user_id hu)
  · trivial

theorem Enrollment.settles {x : Enrollment} : (x.program cfg user).Settles
    (fun r => ¬ IsConfirmed (.ok r)) (Txn.Signed (x.Signs cfg user)) := by
  cases x with
  | start session checkedAt password newSeed =>
    refine requireAccessToken_settles fun u x hu => ?_
    refine Prog.Settles.bind startTotpEnrollment_settles (fun _ _ => not_isConfirmed_secret) ?_ ?_
    · intro q secret hq
      cases q with
      | stmt => exact hq.elim
      | commit c =>
        obtain rfl : c = .started u.id := hq
        exact not_isConfirmed_secret
    · intro q e hq
      cases q with
      | stmt => exact hq.elim
      | commit c =>
        obtain rfl : c = .started u.id := hq
        exact not_isConfirmed_error
  | confirm session checkedAt code totpAt now new =>
    refine requireAccessToken_settles fun u x hu => ?_
    refine Prog.Settles.bind confirmTotpEnrollment_settles (fun _ h => h.elim) ?_ ?_
    · intro q r hq
      cases q with
      | stmt => exact hq.elim
      | commit c =>
        obtain ⟨rfl, -⟩ : c = .confirmed u.id (new.rows cfg u.id) ∧ _ := hq
        obtain rfl : u.id = user := hu
        exact ⟨⟨new, rfl, rfl⟩, r, rfl⟩
    · intro q e hq
      cases q with
      | stmt => exact hq.elim
      | commit c =>
        obtain ⟨-, y, hy⟩ : c = .confirmed u.id (new.rows cfg u.id) ∧ _ := hq
        cases hy

end

/-! ## Runs -/

abbrev EnrollmentServer :=
  Sys Db LockName (Txn.Point CommitPoint) Empty Empty Err EnrollmentReply Unit

def enrollmentServer (cfg : Settings) (user : UserId) (d : Db) (calls : Nat → Enrollment) :
    EnrollmentServer :=
  Sys.init d () fun i => (calls i).program cfg user

/-- Call `i` is an accepted confirmation: nothing is left of it but the reply that says so. -/
def Confirmed (s : EnrollmentServer) (i : Nat) : Prop := (s.sess i).prog.Replies IsConfirmed

/-- The user exists, and the enrollment is not confirmed. -/
structure Unenrolled (user : UserId) (d : Db) : Prop where
  known : (d.user? user).isSome = true
  enabled : d.enabled user = false

structure Enrolled (cfg : Settings) (user : UserId) (calls : Nat → Enrollment)
    (s : EnrollmentServer) : Prop where
  phase : ∀ i, (s.sess i).prog.Phase IsConfirmed (Txn.Signed ((calls i).Signs cfg user))
  pending : s.db.enabled user = false → ∀ i, ¬ Confirmed s i
  enrolled : s.db.enabled user = true → ∃ i new, (calls i).codes? = some new ∧
    s.db.recoveryCodes user = new.rows cfg user ∧ ∀ j, Confirmed s j → j = i

section
variable {cfg : Settings} {user : UserId} {d : Db} {calls : Nat → Enrollment} {mode : Mode}
  {s s' : EnrollmentServer} {i j k : Nat} {c : Txn.Choice Empty Err Unit} {mv : Move}

theorem confirmed_ne (hstep : s.step? mode k c = some (s', mv)) (hi : i ≠ k) :
    Confirmed s' i ↔ Confirmed s i := by
  rw [Confirmed, Confirmed, Sys.step_sess_ne hstep hi]

/-- **A step of the calls** confirms nothing, or it confirms a pending enrollment. -/
theorem Enrolled.step (he : Enrolled cfg user calls s)
    (hs : ((enrollmentDesign user).law mode fun mv => checksHold mv = true).Holds s)
    (hstep : s.step? mode k c = some (s', mv)) (hok : checksHold mv = true) :
    Enrolled cfg user calls s' ∧ (s.db.enabled user = true →
      s'.db.enabled user = true ∧ ∀ i, Confirmed s' i → Confirmed s i) := by
  have hsigns : ∀ cp, (∀ r, (calls k).Signs cfg user cp r → IsConfirmed r) ∨
      ∀ r, (calls k).Signs cfg user cp r → ¬ IsConfirmed r := by
    intro cp
    cases cp with
    | confirmed u codes => exact .inl fun _ h => h.2
    | _ => exact .inr fun _ h => h
  obtain ⟨hphase, hmove⟩ :=
    Design.step_phase (fun _ => not_isConfirmed_error) hsigns hs (he.phase k) hstep hok
  have hphases : ∀ i,
      (s'.sess i).prog.Phase IsConfirmed (Txn.Signed ((calls i).Signs cfg user)) := by
    intro i
    by_cases hik : i = k
    · rw [hik]
      exact hphase
    · rw [Sys.step_sess_ne hstep hik]
      exact he.phase i
  -- a step that confirms nothing
  have hquiet : s'.db.enabled user = s.db.enabled user →
      s'.db.recoveryCodes user = s.db.recoveryCodes user → (Confirmed s' k → Confirmed s k) →
      Enrolled cfg user calls s' ∧ (s.db.enabled user = true →
        s'.db.enabled user = true ∧ ∀ i, Confirmed s' i → Confirmed s i) := by
    intro hen hcodes hret
    have hback : ∀ i, Confirmed s' i → Confirmed s i := by
      intro i hi
      by_cases hik : i = k
      · subst hik
        exact hret hi
      · exact (confirmed_ne hstep hik).1 hi
    refine ⟨⟨hphases, fun h i hi => he.pending (hen ▸ h) i (hback i hi), fun h => ?_⟩,
      fun h => ⟨hen.trans h, hback⟩⟩
    obtain ⟨i, new, hnew, hrec, hone⟩ := he.enrolled (hen ▸ h)
    exact ⟨i, new, hnew, hcodes.trans hrec, fun j hj => hone j (hback j hj)⟩
  rcases hmove with ⟨hd, hret⟩ | ⟨cp, -, hcom, hno, hreply⟩
  · exact hquiet (by rw [hd]) (by rw [hd]) hret
  obtain ⟨held, heff⟩ := hcom.effect
  change Enrolls user held s.db cp s'.db at heff
  have huser : (s.db.user? user).isSome = true := hcom.inv
  generalize hdb : s'.db = e at heff hquiet ⊢
  cases heff with
  | started seed hn =>
    refine hquiet ?_ rfl fun h => absurd h (Txn.Prog.Replies.not_replies hreply)
    rw [Db.enabled, Db.user?_modifyUser (f := .enroll seed.text) fun _ => rfl, Option.any_map]
    rfl
  | confirmed codes now _ hl hn hu hc =>
    have hreply' : (s'.sess k).prog.Replies fun r =>
        (∃ new, (calls k).codes? = some new ∧ codes = new.rows cfg user) ∧ IsConfirmed r := hreply
    obtain ⟨-, ⟨new, hnew, rfl⟩, -⟩ := hreply'.exists
    have hen : e.enabled user = true := by
      rw [Db.enabled, Db.user?_congr hu, Db.user?_modifyUser (f := .enable now) fun _ => rfl,
        Option.any_map]
      obtain ⟨u, hu⟩ := Option.isSome_iff_exists.1 huser
      rw [hu]
      rfl
    refine ⟨⟨hphases, fun h => ?_, fun _ => ⟨k, new, hnew, ?_, fun j hj => ?_⟩⟩, fun h => ?_⟩
    · rw [hdb, hen] at h
      cases h
    · rw [hdb]
      exact hc
    · by_contra hjk
      exact he.pending hn j ((confirmed_ne hstep hjk).1 hj)
    · rw [hn] at h
      cases h

theorem keeps_enrollment (hd : Unenrolled user d) :
    ((enrollmentDesign user).law mode fun mv => checksHold mv = true).Keeps
      (fun i w r => (calls i).Fits cfg user w.1 r) (enrollmentServer cfg user d calls) :=
  Law.Keeps.init hd.known fun _ => Enrollment.obliged

theorem enrolled_init (hd : Unenrolled user d) :
    Enrolled cfg user calls (enrollmentServer cfg user d calls) := by
  refine ⟨fun i => .inl Enrollment.settles, fun _ i => ?_, fun h => ?_⟩
  · exact Enrollment.settles.not_replies fun _ => not_isConfirmed_error
  · have hen := hd.enabled
    rw [show d.enabled user = true from h] at hen
    cases hen

theorem enrolled_of_run (hd : Unenrolled user d)
    (hr : Sys.Run mode (fun mv => checksHold mv = true) (enrollmentServer cfg user d calls) s) :
    Enrolled cfg user calls s := by
  induction hr with
  | refl => exact enrolled_init hd
  | tail hr hs ih =>
    obtain ⟨k, c, mv, hs, hok⟩ := hs
    exact (ih.step ((keeps_enrollment hd).holds.run hr) hs hok).1

/-- Once the enrollment is confirmed, no other confirmation is accepted. -/
theorem confirmed_of_enabled (hd : Unenrolled user d)
    (hr : Sys.Run mode (fun mv => checksHold mv = true) (enrollmentServer cfg user d calls) s)
    (hr' : Sys.Run mode (fun mv => checksHold mv = true) s s') (hen : s.db.enabled user = true)
    (hi : Confirmed s' i) : Confirmed s i := by
  have hall : s'.db.enabled user = true ∧ ∀ i, Confirmed s' i → Confirmed s i := by
    clear hi
    induction hr' with
    | refl => exact ⟨hen, fun _ h => h⟩
    | tail hr' hs ih =>
      obtain ⟨k, c, mv, hs, hok⟩ := hs
      obtain ⟨hen', hback⟩ := ((enrolled_of_run hd (hr.trans hr')).step
        ((keeps_enrollment hd).holds.run (hr.trans hr')) hs hok).2 ih.1
      exact ⟨hen', fun j hj => ih.2 j (hback j hj)⟩
  exact hall.2 i hi

theorem enabled_of_confirmed (he : Enrolled cfg user calls s) (hi : Confirmed s i) :
    s.db.enabled user = true := by
  by_contra hen
  exact he.pending (by simpa using hen) i hi

/-- **An enrollment is confirmed once** in every run whose commits still find what the calls have
checked: the stored recovery codes are those that the confirmation returned, and what a start
returned is the secret of the stored seed. -/
theorem enrollment_confirmed_once (hd : Unenrolled user d)
    (hr : Sys.Run mode (fun mv => checksHold mv = true) (enrollmentServer cfg user d calls) s) :
    (∀ s', Sys.Run mode (fun mv => checksHold mv = true) s s' →
      ∀ i j, Confirmed s i → Confirmed s' j → j = i) ∧
    (s.db.enabled user = true → ∃ i new, (calls i).codes? = some new ∧
      s.db.recoveryCodes user = new.rows cfg user ∧ ∀ j, Confirmed s j → j = i) ∧
    (∀ i r, s.Ended i (.ok (.confirmed r)) → ∃ new, (calls i).codes? = some new ∧
      r.recoveryCodes = new.codes ∧ s.db.enabled user = true ∧
      s.db.recoveryCodes user = new.rows cfg user) ∧
    ∀ i secret, s.Ended i (.ok (.secret secret)) →
      ∃ seed, s.db.seed? user = some seed ∧ secret = cfg.totpSecret user seed := by
  have he := enrolled_of_run hd hr
  have hkeeps : ((enrollmentDesign user).law mode fun mv => checksHold mv = true).Keeps
    (fun i w r => (calls i).Fits cfg user w.1 r) s := (keeps_enrollment hd).run hr
  refine ⟨fun s' hr' i j hi hj => ?_, he.enrolled, fun i r hend => ?_, fun i secret hend => ?_⟩
  · have hen := enabled_of_confirmed he hi
    obtain ⟨i₀, -, -, -, hone⟩ := he.enrolled hen
    rw [hone i hi, hone j (confirmed_of_enabled hd hr hr' hen hj)]
  · have hi : Confirmed s i := by
      rw [Confirmed, show (s.sess i).prog = .ret (.confirmed r) from hend]
      exact ⟨r, rfl⟩
    have hen := enabled_of_confirmed he hi
    obtain ⟨i₀, new, hnew, hrec, hone⟩ := he.enrolled hen
    obtain rfl := hone i hi
    obtain ⟨w, -, new', hnew', hcodes⟩ := hkeeps.result hend
    rw [hnew] at hnew'
    obtain rfl := Option.some.inj hnew'
    exact ⟨new, hnew, hcodes, hen, hrec⟩
  · obtain ⟨w, hsees, seed, hseed, rfl⟩ := hkeeps.result hend
    exact ⟨seed, (Design.frames.sees hsees).seed seed hseed, rfl⟩

end

/-! ## Calls at once -/

/-- A user without an enrollment, or with a pending one. -/
def oneUser (seed : Option String) : Db := ⟨[someAccount seed none], [someSession], []⟩

def eightCodes (code : Fin recoveryCodeCount → String) (n : Nat) :
    NewCodes := ⟨code, fun i => n + i⟩

def codesA : NewCodes := eightCodes (fun i => String.ofList ['A', Char.ofNat (48 + i)]) 10

def codesB : NewCodes := eightCodes (fun i => String.ofList ['B', Char.ofNat (48 + i)]) 20

def twoConfirmations : Nat → Enrollment
  | 0 => .confirm 1 0 "000000" 5 6 codesA
  | _ => .confirm 1 0 "000000" 5 7 codesB

def twoStarts : Nat → Enrollment
  | 0 => .start 1 0 "password" ⟨"a", by decide⟩
  | _ => .start 1 0 "password" ⟨"b", by decide⟩

/-- The secret, or the codes, that session `i` has returned. -/
def returned (s : EnrollmentServer) (i : Nat) : Option (String ⊕ List String) :=
  match (s.sess i).prog with
  | .ret (.secret secret) => some (.inl secret)
  | .ret (.confirmed r) => some (.inr r.recoveryCodes)
  | _ => none

theorem confirmed_of_returned {s : EnrollmentServer} {i : Nat} {codes : List String}
    (h : returned s i = some (.inr codes)) : Confirmed s i := by
  unfold returned at h
  unfold Confirmed
  split at h
  · cases h
  · rename_i r hr
    rw [hr]
    exact ⟨r, rfl⟩
  · cases h

theorem ended_of_returned {s : EnrollmentServer} {i : Nat} {secret : String}
    (h : returned s i = some (.inl secret)) : s.Ended i (.ok (.secret secret)) := by
  unfold returned at h
  split at h
  · rename_i secret' hr
    cases h
    exact hr
  · cases h
  · cases h

/-- Two confirmations are accepted, and two starts return two secrets. -/
theorem enrollment_races :
    (¬ ∀ (cfg : Settings) (user : UserId) (d : Db) (calls : Nat → Enrollment)
      (s : EnrollmentServer), Unenrolled user d →
      Sys.Run .readCommitted (fun _ => True) (enrollmentServer cfg user d calls) s →
      ∀ i j, Confirmed s i → Confirmed s j → j = i) ∧
    ¬ ∀ (cfg : Settings) (user : UserId) (d : Db) (calls : Nat → Enrollment) (s : EnrollmentServer),
      Unenrolled user d →
      Sys.Run .readCommitted (fun _ => True) (enrollmentServer cfg user d calls) s →
      ∀ i secret, s.Ended i (.ok (.secret secret)) →
        ∃ seed, s.db.seed? user = some seed ∧ secret = cfg.totpSecret user seed := by
  constructor
  · intro h
    obtain ⟨s, hr, hs⟩ := Sys.exists_free_run .readCommitted
      (enrollmentServer someSettings 1 (oneUser (some "seed")) twoConfirmations)
      (Sys.goes 0 2 ++ Sys.goes 1 2 ++ Sys.goes 0 40 ++ Sys.goes 1 60)
      (fun s => decide (returned s 0 = some (.inr codesA.codes)) &&
        decide (returned s 1 = some (.inr codesB.codes))) (by decide +kernel)
    obtain ⟨h0, h1⟩ := Bool.and_eq_true_iff.1 hs
    have := h someSettings 1 (oneUser (some "seed")) twoConfirmations s ⟨rfl, rfl⟩
      hr 0 1 (confirmed_of_returned (of_decide_eq_true h0))
      (confirmed_of_returned (of_decide_eq_true h1))
    cases this
  · intro h
    obtain ⟨s, hr, hs⟩ := Sys.exists_free_run .readCommitted
      (enrollmentServer someSettings 1 (oneUser none) twoStarts)
      (Sys.goes 0 2 ++ Sys.goes 1 2 ++ Sys.goes 0 5 ++ Sys.goes 1 5)
      (fun s => decide (returned s 0 = some (.inl "a")) && decide (s.db.seed? 1 = some "b"))
      (by decide +kernel)
    obtain ⟨h0, h1⟩ := Bool.and_eq_true_iff.1 hs
    obtain ⟨seed, hseed, ha⟩ := h someSettings 1 (oneUser none) twoStarts s ⟨rfl, rfl⟩
      hr 0 "a" (ended_of_returned (of_decide_eq_true h0))
    rw [of_decide_eq_true h1] at hseed
    rw [← Option.some.inj hseed] at ha
    exact absurd ha (by decide)

/-- The second confirmation comes after the first one. -/
theorem enrollment_confirmed_once_twice : ∃ s : EnrollmentServer, Confirmed s 0 ∧
    s.db.recoveryCodes 1 = codesA.rows someSettings 1 ∧ ¬ Confirmed s 1 := by
  obtain ⟨s, hr, hs⟩ := Sys.exists_run .readCommitted
    (enrollmentServer someSettings 1 (oneUser (some "seed")) twoConfirmations) checksHold
    (Sys.goes 0 40 ++ Sys.goes 1 40)
    (fun s => decide (returned s 0 = some (.inr codesA.codes))) (by decide +kernel)
  have h0 := confirmed_of_returned (of_decide_eq_true hs)
  obtain ⟨honce, henabled, -, -⟩ := enrollment_confirmed_once ⟨rfl, rfl⟩ hr
  obtain ⟨i, new, hnew, hrec, hone⟩ :=
    henabled (enabled_of_confirmed (enrolled_of_run ⟨rfl, rfl⟩ hr) h0)
  obtain rfl := hone 0 h0
  obtain rfl := Option.some.inj hnew
  exact ⟨s, h0, hrec, fun h1 => absurd (honce s .refl 0 1 h0 h1) (by decide)⟩

end Identity.Mfa
