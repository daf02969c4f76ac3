import Freelancing.Identity.Mfa

/-!
# Recovery codes

A challenge locks the row of the recovery code that it presents and finds it unconsumed under the
lock, and the row stays so until the challenge commits. The spellings of a code have one hash, and
no two rows have one.
-/

namespace Identity.Mfa

open Money (UserId Err strip isSpace)
open Txn (Law Mode View Sys Design Prog)
open Txn.Service

/-! ## Spellings -/

/-- What is written of a code, whatever the spacing, hyphenation and case. -/
def letters (code : String) : String := Text.upper (without ' ' (without '-' code))

theorem upperChar_of_isSpace {c : Char} (h : isSpace c = true) : Text.upperChar c = [c] := by
  unfold Text.upperChar
  split
  case h_11 =>
    have hn : ¬ (97 ≤ c.toNat ∧ c.toNat ≤ 122) := by
      intro hc
      simp only [isSpace, Bool.or_eq_true, Bool.and_eq_true, decide_eq_true_eq,
        List.contains_iff_mem, List.mem_cons, List.not_mem_nil, or_false] at h
      omega
    have hup : c.toUpper = c := by
      unfold Char.toUpper
      split
      · rename_i hc
        exact absurd hc hn
      · rfl
    rw [hup]
  all_goals exact absurd h (by decide)

/-- Blanks at the start that would be seen among the characters that `p` keeps. -/
theorem filter_dropWhile {α : Type} {p q : α → Bool} {l : List α}
    (h : ∀ x ∈ l, p x = true → q x = false) : (l.dropWhile q).filter p = l.filter p := by
  induction l with
  | nil => rfl
  | cons x l ih =>
    have hl : ∀ y ∈ l, p y = true → q y = false := fun y hy => h y (List.mem_cons_of_mem _ hy)
    cases hq : q x with
    | false => rw [List.dropWhile_cons_of_neg (by simp [hq])]
    | true =>
      have hp : p x = false := by
        by_contra hp
        have := h x List.mem_cons_self (by simpa using hp)
        rw [hq] at this
        cases this
      rw [List.dropWhile_cons_of_pos hq, ih hl, List.filter_cons, hp]
      rfl

theorem normalizeRecoveryCode_eq {code : String}
    (h : ∀ c ∈ (letters code).toList, isSpace c = false) :
    normalizeRecoveryCode code = letters code := by
  let p : Char → Bool := fun c => decide (c ≠ ' ') && decide (c ≠ '-')
  have hwithout : ∀ s : String, without ' ' (without '-' s) =
      String.ofList (s.toList.filter p) := by
    intro s
    simp only [without, String.toList_ofList, List.filter_filter, p]
  have hp : ∀ c ∈ code.toList, p c = true → isSpace c = false := by
    intro c hc hpc
    by_contra hs
    have hs : isSpace c = true := by simpa using hs
    have hmem : c ∈ (letters code).toList := by
      rw [letters, hwithout, Text.upper, String.toList_ofList, String.toList_ofList,
        List.mem_flatMap]
      refine ⟨c, List.mem_filter.2 ⟨hc, hpc⟩, ?_⟩
      rw [upperChar_of_isSpace hs]
      exact List.mem_singleton_self c
    rw [h c hmem] at hs
    cases hs
  rw [normalizeRecoveryCode, letters, hwithout, hwithout, strip, String.toList_ofList,
    List.filter_reverse, filter_dropWhile, List.filter_reverse, List.reverse_reverse,
    filter_dropWhile hp]
  intro c hc
  rw [List.mem_reverse] at hc
  exact hp c ((List.dropWhile_suffix isSpace).subset hc)

/-! ## Challenges -/

theorem user_id {d : Db} {user : UserId} {u : Account} (h : d.user? user = some u) :
    u.id = user := by
  have hget : Table.get (fun u : Account => u.id) user d.users = some u := h
  have hkey := Table.get_key hget
  exact hkey

abbrev Move := Txn.Move Db (Txn.Point CommitPoint) Empty Empty Unit

abbrev TxView := View Db LockName Unit

/-- A call of `verify_mfa_challenge`. -/
structure Challenge where
  bearer : Bearer
  code : String
  now : Nat

def Challenge.program (cfg : Settings) (x : Challenge) : Tx ChallengeReply := do
  let (user, session) ← requireAccessToken x.bearer
  verifyMfaChallenge cfg user session x.code x.now

def Challenge.hash (cfg : Settings) (x : Challenge) : String :=
  hashRecoveryCode cfg x.bearer.user x.code

/-- The row is the one of the code that the call presents. -/
structure Challenge.Presents (cfg : Settings) (x : Challenge) (v : Verification) : Prop where
  user : v.user = x.bearer.user
  kind : v.kind = mfaRecoveryKind
  tokenHash : v.tokenHash = x.hash cfg

/-- The code is one of the authenticator of the calling user. -/
def Challenge.ValidTotp (cfg : Settings) (users : List Account) (x : Challenge) : Prop :=
  ∃ u seed, Table.get (fun u => u.id) x.bearer.user users = some u ∧
    nonempty u.mfaSeed = some seed ∧ verifyTotp cfg u.id seed x.code x.now = .ok true

def Verification.consume (now : Nat) (v : Verification) :
    Verification := { v with consumedAt := some now }

def LoginSession.verify (now : Nat) (x : LoginSession) :
    LoginSession := { x with mfaVerifiedAt := some now }

structure Unique (users : List Account) (d : Db) : Prop where
  users : d.users = users
  ids : (d.verifications.map Verification.id).Nodup
  tokenHashes : (d.verifications.map Verification.tokenHash).Nodup

inductive Challenged (held : Set LockName) (d : Db) : CommitPoint → Db → Prop
  | challengeFailed : Challenged held d .challengeFailed d
  | verified (session : SessionId) (now : Nat) :
      Challenged held d .verified (d.modifySession session (.verify now))
  | recovered (loaded : Verification) (session : SessionId) (now : Nat)
      (hl : .verification loaded.id ∈ held) (hx : d.verification? loaded.id = some loaded)
      (hn : loaded.consumedAt = none) :
      Challenged held d (.recovered loaded)
        ((d.modifyVerification loaded.id (.consume now)).modifySession session (.verify now))

/-- The locked rows do not change. -/
def CodeFrame (held : Set LockName) (d d' : Db) : Prop :=
  ∀ id, .verification id ∈ held → d'.verification? id = d.verification? id

section
variable {users : List Account} {held held' : Set LockName} {d d' d'' : Db} {c : CommitPoint}

theorem CodeFrame.refl (held : Set LockName) (d : Db) : CodeFrame held d d := fun _ _ => rfl

theorem CodeFrame.trans (h : CodeFrame held d d') (h' : CodeFrame held d' d'') :
    CodeFrame held d d'' := fun id hl => (h' id hl).trans (h id hl)

theorem CodeFrame.mono (hs : held' ⊆ held) (h : CodeFrame held d d') : CodeFrame held' d d' :=
  fun id hl => h id (hs hl)

theorem Challenged.frame (he : Challenged held' d c d') (hdis : Disjoint held held') :
    CodeFrame held d d' := by
  cases he with
  | challengeFailed => exact .refl _ _
  | verified session now => exact .refl _ _
  | recovered loaded session now hl hx hn =>
    intro id hid
    have hne : id ≠ loaded.id := by
      intro he
      exact Set.disjoint_left.1 hdis hid (he ▸ hl)
    exact Table.get_modify_ne (fun _ => rfl) hne

theorem Challenged.unique (hd : Unique users d) (he : Challenged held d c d') :
    Unique users d' := by
  obtain ⟨husers, hids, hhashes⟩ := hd
  cases he with
  | challengeFailed => exact ⟨husers, hids, hhashes⟩
  | verified session now => exact ⟨husers, hids, hhashes⟩
  | recovered loaded session now hl hx hn =>
    refine ⟨husers, ?_, ?_⟩
    · change ((Table.modify _ _ _ d.verifications).map _).Nodup
      rwa [Table.map_key_modify (f := Verification.consume now) fun _ => rfl]
    · change ((Table.modify _ _ _ d.verifications).map _).Nodup
      rwa [Table.map_modify (f := Verification.consume now) fun _ => rfl]

end

def challengeDesign (users : List Account) : Design Db LockName CommitPoint Empty Empty Unit where
  Inv d _ := Unique users d
  Effect held c d d' _ := Challenged held d c d'
  Asks _ _ _ _ _ := False
  Frame := CodeFrame
  refl := .refl
  trans := .trans
  mono := .mono
  frame _ h hd := h.frame hd
  keeps hd h := h.unique hd
  asks _ h := h.elim

section
variable {users : List Account} {mode : Mode} {ok : Move → Prop} {i : Nat} {held : Set LockName}
  {pend : Db → Db} {b : Bool} {w : Db × Unit} {cfg : Settings}

abbrev Obliged {β : Type} (users : List Account) (mode : Mode) (ok : Move → Prop)
    (i : Nat) (p : Tx β) (v : TxView) (Q : TxView → β → Prop) : Prop :=
  ((challengeDesign users).law mode ok).wp i p v Q

theorem requireAccessToken_wp {D : Design Db LockName CommitPoint Empty Empty Unit}
    {bearer : Bearer} {Q : TxView → Account × LoginSession → Prop}
    (h : ∀ w₁ w₂ user session, D.Later mode ok ∅ b w w₁ → D.Later mode ok ∅ mode.inTxn w₁ w₂ →
      w₁.1.user? bearer.user = some user → Q ⟨∅, id, mode.inTxn, w₂⟩ (user, session)) :
    (D.law mode ok).wp i (requireAccessToken bearer) ⟨∅, id, b, w⟩ Q := by
  unfold requireAccessToken
  refine Law.wp_bind (Design.frames.wp_select fun w₁ hw₁ => ?_)
  refine Law.wp_bind (Design.frames.wp_select fun w₂ hw₂ => ?_)
  split
  · rename_i user session hu hs
    exact Law.wp_bind (Design.wp_require fun _ => h w₁ w₂ user session hw₁ hw₂ hu)
  · trivial

theorem useRecoveryCode_wp {user : UserId} {code : String} {now : Nat}
    {Q : TxView → Verification → Prop}
    (h : ∀ b' w' v, w'.1.verification? v.id = some v → v.consumedAt = none →
      Q ⟨insert (.verification v.id) ∅, (Db.modifyVerification · v.id (.consume now)), b', w'⟩ v) :
    Obliged users mode ok i (useRecoveryCode cfg user code now) ⟨∅, id, b, w⟩ Q := by
  unfold useRecoveryCode
  refine Law.wp_bind (Design.frames.wp_selectForUpdate (fun w₁ hw₁ hn => ?_) fun w₁ v hw₁ hv => ?_)
  · exact Law.wp_bind (Design.wp_commit (fun _ _ => .challengeFailed) fun _ _ _ => trivial)
  · refine Law.wp_bind (Design.wp_write ?_)
    have hp := List.find?_some hv
    simp only [Bool.and_eq_true, Option.isNone_iff_eq_none] at hp
    have hget : w₁.1.verification? v.id = some v :=
      Table.get_of_mem hw₁.inv.ids (List.mem_of_find?_eq_some hv)
    exact h mode.inTxn w₁ v hget hp.2

theorem Challenge.obliged {x : Challenge} : Obliged users mode ok i (x.program cfg) ⟨∅, id, b, w⟩
    fun _ r => r.recoveryCodeUsed = true ∨ x.ValidTotp cfg users := by
  unfold Challenge.program
  refine Law.wp_bind (requireAccessToken_wp fun w₁ w₂ user session hw₁ hw₂ hget => ?_)
  have hu : Table.get (fun u => u.id) x.bearer.user users = some user := by
    rw [← hw₁.inv.users]
    exact hget
  change Obliged users mode ok i (verifyMfaChallenge cfg user session x.code x.now) _ _
  unfold verifyMfaChallenge
  split
  · rename_i enabled seed henabled hseed
    cases htotp : verifyTotp cfg user.id seed x.code x.now with
    | error e => trivial
    | ok totp =>
      cases totp with
      | true =>
        change Obliged users mode ok i (acceptChallenge cfg session.id x.now .verified false) _ _
        refine Law.wp_bind (Design.frames.wp_update fun w₂ hw₂ => Law.wp_bind ?_)
        refine Design.wp_commit (fun w₃ hw₃ => .verified session.id x.now) fun w₃ hw₃ _ => ?_
        refine Law.wp_bind (Design.frames.wp_select fun w₄ hw₄ => ?_)
        exact .inr ⟨user, seed, hu, hseed, htotp⟩
      | false =>
        change Obliged users mode ok i (useRecoveryCode cfg user.id x.code x.now >>= fun recovery =>
          acceptChallenge cfg session.id x.now (.recovered recovery) true) _ _
        refine Law.wp_bind (useRecoveryCode_wp fun b₂ w₂ v hv hn => ?_)
        refine Law.wp_bind (Design.frames.wp_update fun w₃ hw₃ => Law.wp_bind ?_)
        refine Design.wp_commit (fun w₄ hw₄ => ?_) fun w₄ hw₄ _ => ?_
        · have hl : LockName.verification v.id ∈
            (insert (.session session.id) (insert (.verification v.id) ∅) : Set LockName) :=
              .inr (.inl rfl)
          refine .recovered v session.id x.now hl ?_ hn
          exact (hw₄.frame _ hl).trans ((hw₃.frame _ (.inl rfl)).trans hv)
        · exact Law.wp_bind (Design.frames.wp_select fun w₅ hw₅ => .inl rfl)
  · trivial

end

/-! ## What a challenge commits -/

/-- The challenge is accepted by a recovery code. -/
def Recovered (r : Except Err ChallengeReply) : Prop := ∃ y, r = .ok y ∧ y.recoveryCodeUsed = true

theorem not_recovered_error {e : Err} : ¬ Recovered (.error e) := by
  intro h
  obtain ⟨y, hy, -⟩ := h
  cases hy

def Challenge.Signs (cfg : Settings) (x : Challenge) :
    CommitPoint → Except Err ChallengeReply → Prop
  | .recovered v, r => x.Presents cfg v ∧ Recovered r
  | _, r => ¬ Recovered r

section
variable {cfg : Settings} {x : Challenge}

theorem acceptChallenge_settles {session : SessionId} {p : CommitPoint} {used : Bool}
    (h : ∀ expiry, x.Signs cfg p (.ok ⟨expiry, used⟩)) :
    (acceptChallenge cfg session x.now p used).Settles (fun r => ¬ Recovered (.ok r))
      (Txn.Signed (x.Signs cfg)) := by
  unfold acceptChallenge
  exact settles_update (settles_commit fun d => h _)

theorem Challenge.settles :
    (x.program cfg).Settles (fun r => ¬ Recovered (.ok r)) (Txn.Signed (x.Signs cfg)) := by
  unfold Challenge.program requireAccessToken
  rw [bind_assoc]
  refine settles_select fun d => ?_
  rw [bind_assoc]
  refine settles_select fun d' => ?_
  split
  · rename_i user session hu hs
    rw [bind_assoc]
    refine settles_require fun _ => ?_
    have hid : user.id = x.bearer.user := user_id hu
    change (verifyMfaChallenge cfg user session x.code x.now).Settles _ _
    unfold verifyMfaChallenge
    split
    · rename_i enabled seed henabled hseed
      cases htotp : verifyTotp cfg user.id seed x.code x.now with
      | error e => trivial
      | ok totp =>
        cases totp with
        | true => exact acceptChallenge_settles fun expiry => by simp [Challenge.Signs, Recovered]
        | false =>
          change (useRecoveryCode cfg user.id x.code x.now >>= fun recovery =>
            acceptChallenge cfg session.id x.now (.recovered recovery) true).Settles _ _
          unfold useRecoveryCode
          rw [bind_assoc]
          refine settles_selectForUpdate fun d => ?_
          split
          · refine settles_commit (f := fun _ => (raise _ : Tx _)) (c := .challengeFailed) ?_
            exact not_recovered_error
          · rename_i v hv
            have hp := List.find?_some hv
            simp only [Bool.and_eq_true, decide_eq_true_eq] at hp
            obtain ⟨⟨⟨huser, hkind⟩, hhash⟩, -⟩ := hp
            refine acceptChallenge_settles fun expiry => ⟨⟨huser.trans hid, hkind, ?_⟩, _, rfl, rfl⟩
            rw [hhash, hid]
            rfl
    · trivial
  · trivial

end

/-! ## Runs -/

abbrev Server := Sys Db LockName (Txn.Point CommitPoint) Empty Empty Err ChallengeReply Unit

def server (cfg : Settings) (d : Db) (calls : Nat → Challenge) : Server :=
  Sys.init d () fun i => (calls i).program cfg

/-- Call `i` is accepted by a recovery code: nothing is left of it but the reply that says so. -/
def Redeemed (s : Server) (i : Nat) : Prop := (s.sess i).prog.Replies Recovered

def Challenge.Phase (cfg : Settings) (x : Challenge)
    (p : Txn.Prog Db LockName (Txn.Point CommitPoint) Empty Empty Err ChallengeReply) : Prop :=
  p.Phase Recovered (Txn.Signed (x.Signs cfg))

/-- From `l` to `l'` the call consumes a recovery code, the one that it presents. -/
def Challenge.Uses (cfg : Settings) (x : Challenge) (l l' : List Verification) : Prop :=
  ∃ v now, v ∈ l ∧ x.Presents cfg v ∧ v.consumedAt = none ∧
    l' = Table.modify Verification.id v.id (.consume now) l

/-- The recovery code of hash `h` has been consumed. -/
def Consumed (d : Db) (h : String) : Prop :=
  ∃ v ∈ d.verifications, v.tokenHash = h ∧ v.consumedAt.isSome = true

section
variable {cfg : Settings} {d d' : Db} {users : List Account} {calls : Nat → Challenge} {mode : Mode}
  {ok : Move → Prop} {s s' : Server} {i j k : Nat} {c : Txn.Choice Empty Err Unit}
  {mv : Move} {h : String}

instance : Inhabited Db := ⟨⟨[], [], []⟩⟩

/-- **A step of a challenge** uses no recovery code, or it commits the use of one. -/
theorem Challenge.step {x : Challenge} (hs : ((challengeDesign users).law mode ok).Holds s)
    (hp : x.Phase cfg (s.sess i).prog) (hstep : s.step? mode i c = some (s', mv)) (hok : ok mv) :
    x.Phase cfg (s'.sess i).prog ∧
      ((s'.db.verifications = s.db.verifications ∧ (Redeemed s' i → Redeemed s i)) ∨
        (¬ Redeemed s i ∧ Redeemed s' i ∧ x.Uses cfg s.db.verifications s'.db.verifications)) := by
  have hsigns : ∀ cp, (∀ r, x.Signs cfg cp r → Recovered r) ∨ ∀ r, x.Signs cfg cp r →
      ¬ Recovered r := by
    intro cp
    cases cp with
    | recovered v => exact .inl fun _ h => h.2
    | _ => exact .inr fun _ h => h
  obtain ⟨hp', ⟨hd, hret⟩ | ⟨cp, -, hcom, hno, hreply⟩⟩ :=
    Design.step_phase (fun _ => not_recovered_error) hsigns hs hp hstep hok
  · exact ⟨hp', .inl ⟨by rw [hd], hret⟩⟩
  refine ⟨hp', ?_⟩
  obtain ⟨held, heff⟩ := hcom.effect
  change Challenged held s.db cp s'.db at heff
  generalize s'.db = e at heff ⊢
  cases heff with
  | challengeFailed => exact .inl ⟨rfl, fun h => absurd h (Txn.Prog.Replies.not_replies hreply)⟩
  | verified session now =>
    exact .inl ⟨rfl, fun h => absurd h (Txn.Prog.Replies.not_replies hreply)⟩
  | recovered v session now hl hx hn =>
    have hreply' : (s'.sess i).prog.Replies fun r => x.Presents cfg v ∧ Recovered r := hreply
    obtain ⟨-, hpresents, -⟩ := hreply'.exists
    exact .inr ⟨hno, hreply'.mono fun _ h => h.2, v, now, Table.get_mem hx, hpresents, hn, rfl⟩

/-- The recovery code that a call has used is consumed, and no other call has used it. -/
structure Used (cfg : Settings) (calls : Nat → Challenge) (s : Server) : Prop where
  phase : ∀ i, (calls i).Phase cfg (s.sess i).prog
  consumed : ∀ i, Redeemed s i → Consumed s.db ((calls i).hash cfg)
  once : ∀ i j, Redeemed s i → Redeemed s j → (calls i).hash cfg = (calls j).hash cfg → i = j

theorem redeemed_ne (hstep : s.step? mode k c = some (s', mv)) (hi : i ≠ k) :
    Redeemed s' i ↔ Redeemed s i := by
  rw [Redeemed, Redeemed, Sys.step_sess_ne hstep hi]

/-- A recovery code that a step consumes was not consumed before. -/
theorem Challenge.Uses.new {x : Challenge} (hd : Unique users d)
    (hu : x.Uses cfg d.verifications d'.verifications) : ¬ Consumed d (x.hash cfg) := by
  obtain ⟨v, now, hv, hpresents, hn, -⟩ := hu
  intro hc
  obtain ⟨v', hv', hh, hsome⟩ := hc
  have : v' = v := List.inj_on_of_nodup_map hd.tokenHashes hv' hv
      (hh.trans hpresents.tokenHash.symm)
  rw [this, hn] at hsome
  cases hsome

theorem Challenge.Uses.consumed {x : Challenge} (hu : x.Uses cfg d.verifications d'.verifications) :
    Consumed d' (x.hash cfg) ∧ (Consumed d h → Consumed d' h) := by
  obtain ⟨v, now, hv, hpresents, hn, hl⟩ := hu
  refine ⟨⟨v.consume now, ?_, hpresents.tokenHash, rfl⟩, fun hc => ?_⟩
  · rw [hl, Table.mem_modify]
    exact ⟨v, hv, if_pos rfl⟩
  · obtain ⟨v', hv', hh, hsome⟩ := hc
    refine ⟨if v'.id = v.id then v'.consume now else v', ?_, ?_, ?_⟩
    · rw [hl, Table.mem_modify]
      exact ⟨v', hv', rfl⟩
    · split
      · exact hh
      · exact hh
    · split
      · rfl
      · exact hsome

theorem Used.step (hu : Used cfg calls s) (hs : ((challengeDesign users).law mode ok).Holds s)
    (hstep : s.step? mode k c = some (s', mv)) (hok : ok mv) : Used cfg calls s' ∧
      ∀ i, Consumed s.db ((calls i).hash cfg) →
        Consumed s'.db ((calls i).hash cfg) ∧ (Redeemed s' i → Redeemed s i) := by
  obtain ⟨hphase, hmove⟩ := Challenge.step hs (hu.phase k) hstep hok
  have hphases : ∀ i, (calls i).Phase cfg (s'.sess i).prog := by
    intro i
    by_cases hik : i = k
    · rw [hik]
      exact hphase
    · rw [Sys.step_sess_ne hstep hik]
      exact hu.phase i
  rcases hmove with ⟨hv, hret⟩ | ⟨hno, hyes, huses⟩
  · -- no recovery code is used
    have hback : ∀ i, Redeemed s' i → Redeemed s i := by
      intro i hi
      by_cases hik : i = k
      · subst hik
        exact hret hi
      · exact (redeemed_ne hstep hik).1 hi
    have hcons : ∀ h, Consumed s'.db h ↔ Consumed s.db h := fun h => by rw [Consumed, Consumed, hv]
    refine ⟨⟨hphases, fun i hi => ?_, fun i j hi hj => hu.once i j (hback i hi) (hback j hj)⟩,
      fun i hc => ⟨(hcons _).2 hc, hback i⟩⟩
    exact (hcons _).2 (hu.consumed i (hback i hi))
  · have hnew := huses.new hs.inv
    refine ⟨⟨hphases, fun i hi => ?_, fun i j hi hj he => ?_⟩, fun i hc =>
      ⟨huses.consumed.2 hc, fun hi => ?_⟩⟩
    · by_cases hik : i = k
      · rw [hik]
        exact (huses.consumed (h := "")).1
      · exact huses.consumed.2 (hu.consumed i ((redeemed_ne hstep hik).1 hi))
    · by_cases hik : i = k
      · by_cases hjk : j = k
        · rw [hik, hjk]
        · rw [hik] at he
          exact absurd (he ▸ hu.consumed j ((redeemed_ne hstep hjk).1 hj)) hnew
      · by_cases hjk : j = k
        · rw [hjk] at he
          exact absurd (he ▸ hu.consumed i ((redeemed_ne hstep hik).1 hi)) hnew
        · exact hu.once i j ((redeemed_ne hstep hik).1 hi) ((redeemed_ne hstep hjk).1 hj) he
    · by_cases hik : i = k
      · rw [hik] at hc
        exact absurd hc hnew
      · exact (redeemed_ne hstep hik).1 hi

theorem keeps_server (hd : Unique users d) : ((challengeDesign users).law mode ok).Keeps
    (fun i _ r => r.recoveryCodeUsed = true ∨ (calls i).ValidTotp cfg users) (server cfg d calls) :=
  Law.Keeps.init hd fun _ => Challenge.obliged

theorem used_server : Used cfg calls (server cfg d calls) := by
  have hno : ∀ i, ¬ Redeemed (server cfg d calls) i :=
    fun i => Challenge.settles.not_replies fun _ => not_recovered_error
  exact ⟨fun i => .inl Challenge.settles, fun i hi => absurd hi (hno i), fun i _ hi =>
    absurd hi (hno i)⟩

theorem used_of_run (hd : Unique users d) (hr : Sys.Run mode ok (server cfg d calls) s) :
    Used cfg calls s := by
  induction hr with
  | refl => exact used_server
  | tail hr hs ih =>
    obtain ⟨k, c, mv, hs, hok⟩ := hs
    exact (ih.step ((keeps_server hd).holds.run hr) hs hok).1

/-- A consumed recovery code is never accepted again. -/
theorem redeemed_of_consumed (hd : Unique users d) (hr : Sys.Run mode ok (server cfg d calls) s)
    (hr' : Sys.Run mode ok s s') (hc : Consumed s.db ((calls i).hash cfg)) (hi : Redeemed s' i) :
    Redeemed s i := by
  have hall : Consumed s'.db ((calls i).hash cfg) ∧ (Redeemed s' i → Redeemed s i) := by
    clear hi
    induction hr' with
    | refl => exact ⟨hc, id⟩
    | tail hr' hs ih =>
      obtain ⟨k, c, mv, hs, hok⟩ := hs
      obtain ⟨hc', hback⟩ := ((used_of_run hd (hr.trans hr')).step
        ((keeps_server hd).holds.run (hr.trans hr')) hs hok).2 i ih.1
      exact ⟨hc', fun h => ih.2 (hback h)⟩
  exact hall.2 hi

/-- **Recovery codes are used once**, whatever their spelling and whatever runs at the same time. -/
theorem recovery_codes_single_use (hd : Unique d.users d)
    (hr : Sys.Run mode ok (server cfg d calls) s) :
    (∀ code, (∀ c ∈ (letters code).toList, isSpace c = false) →
      ∀ user, hashRecoveryCode cfg user code = cfg.recoveryHash user (letters code)) ∧
    (∀ s', Sys.Run mode ok s s' → ∀ i j, Redeemed s i → Redeemed s' j →
      (calls i).hash cfg = (calls j).hash cfg → i = j) ∧
    (∀ s', Sys.Run mode ok s s' → ∀ i, Consumed s.db ((calls i).hash cfg) → Redeemed s' i →
      Redeemed s i) ∧
    (∀ i r, s.Ended i (.ok r) →
      r.recoveryCodeUsed = true ∧ Redeemed s i ∨ (calls i).ValidTotp cfg d.users) ∧
    ∀ i c s' mv, s.step? mode i c = some (s', mv) → ok mv →
      (s'.db.verifications = s.db.verifications ∧ (Redeemed s' i → Redeemed s i)) ∨
        (¬ Redeemed s i ∧ Redeemed s' i ∧
          (calls i).Uses cfg s.db.verifications s'.db.verifications) := by
  have hused := used_of_run hd hr
  have hkeeps : ((challengeDesign d.users).law mode ok).Keeps
    (fun i _ r => r.recoveryCodeUsed = true ∨ (calls i).ValidTotp cfg d.users) s :=
    (keeps_server hd).run hr
  refine ⟨fun code hcode user => ?_, fun s' hr' i j hi hj he => ?_,
    fun s' hr' i hc hi => redeemed_of_consumed hd hr hr' hc hi, fun i r he => ?_,
    fun i c s' mv hstep hok => (Challenge.step hkeeps.holds (hused.phase i) hstep hok).2⟩
  · rw [hashRecoveryCode, normalizeRecoveryCode_eq hcode]
  · have hc : Consumed s.db ((calls j).hash cfg) := he ▸ hused.consumed i hi
    exact hused.once i j hi (redeemed_of_consumed hd hr hr' hc hj) he
  · obtain ⟨w, -, hq⟩ := hkeeps.result (show (s.sess i).prog = .ret r from he)
    rcases hq with hq | hq
    · refine .inl ⟨hq, ?_⟩
      rw [Redeemed, show (s.sess i).prog = .ret r from he]
      exact ⟨r, rfl, hq⟩
    · exact .inr hq

end

/-! ## One code, twice -/

/-- A digest is what was hashed; the code of the authenticator is always the same. -/
def someSettings : Settings where
  sha256 s := s
  emailLookupHash s := s
  needsRotation _ := false
  rewrap s := s
  verifyPassword h p := h == p
  dummyPasswordHash := ""
  accessTokenTtlSeconds := 900
  refreshTokenTtlSeconds := 2592000
  authMaxFailedAttempts := 5
  authLockSeconds := 900
  jwtEncode c := c.jti
  jwtDecode _ _ := none
  totpSecret _ seed := seed
  totpCodeForSecret _ _ := "000000"
  otherDigit _ := false
  recoveryHash _ code := code
  mfaStepUpTtlSeconds := 600

def someAccount (seed : Option String) (enabledAt : Option Nat) : Account where
  id := 1
  emailCiphertext := ""
  emailLookupHash := ""
  passwordHash := "password"
  isActive := true
  failedLoginAttempts := 0
  lockedUntil := none
  roles := []
  mfaSeed := seed
  mfaEnabledAt := enabledAt

def someSession : LoginSession where
  id := 1
  user := 1
  device := none
  refreshJtiHash := ""
  ipHash := none
  userAgentHash := none
  expiresAt := 1000
  revokedAt := none
  lastSeenAt := 0
  mfaVerifiedAt := none

def oneCode : Db :=
  ⟨[someAccount (some "seed") (some 0)], [someSession], [⟨1, 1, mfaRecoveryKind, "AB12", none⟩]⟩

def someBearer : Bearer := ⟨1, 1, 0⟩

def twoSpellings : Nat → Challenge
  | 0 => ⟨someBearer, "ab-12", 5⟩
  | 1 => ⟨someBearer, " AB 12", 6⟩
  | _ => ⟨someBearer, "000000", 7⟩

def redeemed (s : Server) (i : Nat) : Bool :=
  match (s.sess i).prog with
  | .ret r => r.recoveryCodeUsed
  | _ => false

theorem redeemed_of_eq_true {s : Server} {i : Nat} (h : redeemed s i = true) : Redeemed s i := by
  unfold redeemed at h
  unfold Redeemed
  split at h
  · rename_i r hr
    rw [hr]
    exact ⟨r, rfl, h⟩
  · cases h

/-- Both calls have passed the access token when the first one presents the code. -/
theorem recovery_codes_single_use_spelled : ∃ s : Server, Redeemed s 0 ∧
    (s.sess 1).prog = .raise
      (apiError "invalid_mfa_code" "Invalid MFA code" 401 "The MFA code is invalid") ∧
    ∀ j, (twoSpellings 0).hash someSettings = (twoSpellings j).hash someSettings →
      Redeemed s j → 0 = j := by
  obtain ⟨s, hr, hs⟩ := Sys.exists_free_run .readCommitted
    (server someSettings oneCode twoSpellings)
    (Sys.goes 0 2 ++ Sys.goes 1 2 ++ Sys.goes 0 6 ++ Sys.goes 1 6)
    (fun s => redeemed s 0 && match (s.sess 1).prog with
      | .raise e => decide
          (e = apiError "invalid_mfa_code" "Invalid MFA code" 401 "The MFA code is invalid")
      | _ => false)
    (by decide +kernel)
  obtain ⟨h0, h1⟩ := Bool.and_eq_true_iff.1 hs
  have hused := recovery_codes_single_use ⟨rfl, by decide, by decide⟩ hr
  refine ⟨s, redeemed_of_eq_true h0, ?_, fun j hj hi =>
    hused.2.1 s .refl 0 j (redeemed_of_eq_true h0) hi hj⟩
  split at h1
  · rename_i e he
    rw [he, of_decide_eq_true h1]
  · cases h1

end Identity.Mfa
