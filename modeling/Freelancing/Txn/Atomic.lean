import Freelancing.Txn.Machine

/-!
# Programs that commit last

`Prog.Ends ψ φ p`: `p` commits at most once and ends right after it; `φ` holds of the commit and the
end, `ψ` of a result without a commit. A step of a session with such a program leaves the committed
database as it is or ends the program (`Sys.step_ends`). `Prog.CommitsLast φ p`: moreover `p`
returns after its commit, so a request that ends in an error has changed nothing. `Prog.CommitsOnly
P p`: every commit of `p` is a `P`, however often it commits. `Prog.Queries p`: `p` writes nothing.
`Prog.Settles ψ φ p`: after its commit `p` only reads, and ends in a `φ` of the commit
(`Prog.Replies`).
-/

namespace Txn

variable {σ κ π ρ α ε R S ν : Type}

namespace Prog

/-- The program of a session that has ended. -/
def done : Except ε R → Prog σ κ π ρ α ε R
  | .ok r => .ret r
  | .error e => .raise e

def Ends (ψ : R → Prop) (φ : π → Except ε R → Prop) : Prog σ κ π ρ α ε R → Prop
  | .ret r => ψ r
  | .raise _ => True
  | .read _ next => ∀ d, (next d).Ends ψ φ
  | .lock _ _ next => ∀ d, (next d).Ends ψ φ
  | .write _ next => next.Ends ψ φ
  | .call _ next => ∀ a, (next a).Ends ψ φ
  | .commit p next => ∃ r, next = done r ∧ φ p r
  | .rollback next => next.Ends ψ φ

def CommitsLast (φ : π → R → Prop) : Prog σ κ π ρ α ε R → Prop
  | .ret _ => True
  | .raise _ => True
  | .read _ next => ∀ d, (next d).CommitsLast φ
  | .lock _ _ next => ∀ d, (next d).CommitsLast φ
  | .write _ next => next.CommitsLast φ
  | .call _ next => ∀ a, (next a).CommitsLast φ
  | .commit p next => ∃ r, next = .ret r ∧ φ p r
  | .rollback next => next.CommitsLast φ

def NoCommit (p : Prog σ κ π ρ α ε R) : Prop := p.CommitsLast fun _ _ => False

def CommitsOnly (P : π → Prop) : Prog σ κ π ρ α ε R → Prop
  | .ret _ => True
  | .raise _ => True
  | .read _ next => ∀ d, (next d).CommitsOnly P
  | .lock _ _ next => ∀ d, (next d).CommitsOnly P
  | .write _ next => next.CommitsOnly P
  | .call _ next => ∀ a, (next a).CommitsOnly P
  | .commit p next => P p ∧ next.CommitsOnly P
  | .rollback next => next.CommitsOnly P

def Queries : Prog σ κ π ρ α ε R → Prop
  | .ret _ => True
  | .raise _ => True
  | .read _ next => ∀ d, (next d).Queries
  | .lock _ _ next => ∀ d, (next d).Queries
  | .write _ _ => False
  | .call _ next => ∀ a, (next a).Queries
  | .commit _ _ => False
  | .rollback next => next.Queries

def Replies (ψ : Except ε R → Prop) : Prog σ κ π ρ α ε R → Prop
  | .ret r => ψ (.ok r)
  | .raise e => ψ (.error e)
  | .read _ next => ∀ d, (next d).Replies ψ
  | _ => False

def Settles (ψ : R → Prop) (φ : π → Except ε R → Prop) : Prog σ κ π ρ α ε R → Prop
  | .ret r => ψ r
  | .raise _ => True
  | .read _ next => ∀ d, (next d).Settles ψ φ
  | .lock _ _ next => ∀ d, (next d).Settles ψ φ
  | .write _ next => next.Settles ψ φ
  | .call _ next => ∀ a, (next a).Settles ψ φ
  | .commit p next => next.Replies (φ p)
  | .rollback next => next.Settles ψ φ

/-- The program has not committed yet, and returns no `A` without a commit; or nothing is left of it
but its reply, and whether that is an `A` is settled. -/
def Phase (A : Except ε R → Prop) (φ : π → Except ε R → Prop) (p : Prog σ κ π ρ α ε R) : Prop :=
  p.Settles (fun r => ¬ A (.ok r)) φ ∨ p.Replies A ∨ p.Replies fun r => ¬ A r

section
variable {ψ : Except ε S → Prop} {φ : π → Except ε S → Prop} {θ : Except ε R → Prop}
  {χ : π → Except ε R → Prop}

theorem Replies.settles {η : S → Prop} {p : Prog σ κ π ρ α ε S} (hp : p.Replies ψ)
    (h : ∀ r, ψ (.ok r) → η r) : p.Settles η φ := by
  induction p with
  | ret r => exact h r hp
  | raise e => trivial
  | read p next ih => exact fun d => ih d (hp d)
  | _ => exact hp.elim

theorem Replies.mono {ψ' : Except ε S → Prop} {p : Prog σ κ π ρ α ε S} (hp : p.Replies ψ)
    (h : ∀ r, ψ r → ψ' r) : p.Replies ψ' := by
  induction p with
  | ret r => exact h _ hp
  | raise e => exact h _ hp
  | read p next ih => exact fun d => ih d (hp d)
  | _ => exact hp.elim

theorem Replies.and {ψ' : Except ε S → Prop} {p : Prog σ κ π ρ α ε S} (hp : p.Replies ψ)
    (hp' : p.Replies ψ') : p.Replies fun r => ψ r ∧ ψ' r := by
  induction p with
  | ret r => exact ⟨hp, hp'⟩
  | raise e => exact ⟨hp, hp'⟩
  | read p next ih => exact fun d => ih d (hp d) (hp' d)
  | _ => exact hp.elim

theorem Replies.exists [Nonempty σ] {p : Prog σ κ π ρ α ε S} (hp : p.Replies ψ) : ∃ r, ψ r := by
  induction p with
  | ret r => exact ⟨_, hp⟩
  | raise e => exact ⟨_, hp⟩
  | read p next ih => exact ih (Classical.arbitrary σ) (hp _)
  | _ => exact hp.elim

/-- A program that is to reply before it has settled anything. -/
theorem Settles.replies {η : S → Prop} {p : Prog σ κ π ρ α ε S} (hp : p.Settles η φ)
    (h : p.Replies ψ) : p.Replies fun r => ψ r ∧ ∀ x, r = .ok x → η x := by
  induction p with
  | ret r => exact ⟨h, fun x hx => Except.ok.inj hx ▸ hp⟩
  | raise e => exact ⟨h, nofun⟩
  | read p next ih => exact fun d => ih d (hp d) (h d)
  | _ => exact h.elim

theorem Settles.not_replies [Nonempty σ] {A : Except ε S → Prop} {p : Prog σ κ π ρ α ε S}
    (hp : p.Settles (fun r => ¬ A (.ok r)) φ) (hA : ∀ e, ¬ A (.error e)) : ¬ p.Replies A := by
  intro h
  obtain ⟨r, hr, hno⟩ := (hp.replies h).exists
  cases r with
  | ok x => exact hno x rfl hr
  | error e => exact hA e hr

theorem Replies.not_replies [Nonempty σ] {A : Except ε S → Prop} {p : Prog σ κ π ρ α ε S}
    (hp : p.Replies fun r => ¬ A r) : ¬ p.Replies A := by
  intro h
  obtain ⟨r, hno, hr⟩ := (hp.and h).exists
  exact hno hr

theorem Replies.bind {p : Prog σ κ π ρ α ε R} {f : R → Prog σ κ π ρ α ε S} (hp : p.Replies θ)
    (hf : ∀ r, θ (.ok r) → (f r).Replies ψ) (he : ∀ e, θ (.error e) → ψ (.error e)) :
    (p >>= f).Replies ψ := by
  rw [bind_eq]
  induction p with
  | ret r => exact hf r hp
  | raise e => exact he e hp
  | read p next ih => exact fun d => ih d (hp d)
  | _ => exact hp.elim

/-- What is done with the result of a program that has settled it. -/
theorem Settles.bind {η : R → Prop} {ψ : S → Prop} {p : Prog σ κ π ρ α ε R}
    {f : R → Prog σ κ π ρ α ε S} (hp : p.Settles η χ) (hf : ∀ r, η r → (f r).Settles ψ φ)
    (hc : ∀ q r, χ q (.ok r) → (f r).Replies (φ q))
    (he : ∀ q e, χ q (.error e) → φ q (.error e)) : (p >>= f).Settles ψ φ := by
  rw [bind_eq]
  induction p with
  | ret r => exact hf r hp
  | raise e => trivial
  | read p next ih => exact fun d => ih d (hp d)
  | lock p sel next ih => exact fun d => ih d (hp d)
  | write w next ih => exact ih hp
  | call q next ih => exact fun a => ih a (hp a)
  | commit p next ih => exact Replies.bind hp (hc p) (he p)
  | rollback next ih => exact ih hp

end

theorem CommitsOnly.bind {P : π → Prop} {p : Prog σ κ π ρ α ε R} {f : R → Prog σ κ π ρ α ε S}
    (hp : p.CommitsOnly P) (hf : ∀ r, (f r).CommitsOnly P) : (p >>= f).CommitsOnly P := by
  rw [bind_eq]
  induction p with
  | ret r => exact hf r
  | raise e => trivial
  | read p next ih => exact fun d => ih d (hp d)
  | lock p sel next ih => exact fun d => ih d (hp d)
  | write w next ih => exact ih hp
  | call q next ih => exact fun a => ih a (hp a)
  | commit p next ih => exact ⟨hp.1, ih hp.2⟩
  | rollback next ih => exact ih hp

theorem Queries.bind {p : Prog σ κ π ρ α ε R} {f : R → Prog σ κ π ρ α ε S} (hp : p.Queries)
    (hf : ∀ r, (f r).Queries) : (p >>= f).Queries := by
  rw [bind_eq]
  induction p with
  | ret r => exact hf r
  | raise e => trivial
  | read p next ih => exact fun d => ih d (hp d)
  | lock p sel next ih => exact fun d => ih d (hp d)
  | write w next ih => exact hp.elim
  | call q next ih => exact fun a => ih a (hp a)
  | commit p next ih => exact hp.elim
  | rollback next ih => exact ih hp

theorem Queries.settles {p : Prog σ κ π ρ α ε R} {f : R → Prog σ κ π ρ α ε S} {ψ : S → Prop}
    {φ : π → Except ε S → Prop} (hp : p.Queries) (hf : ∀ r, (f r).Settles ψ φ) :
    (p >>= f).Settles ψ φ := by
  rw [bind_eq]
  induction p with
  | ret r => exact hf r
  | raise e => trivial
  | read p next ih => exact fun d => ih d (hp d)
  | lock p sel next ih => exact fun d => ih d (hp d)
  | write w next ih => exact hp.elim
  | call q next ih => exact fun a => ih a (hp a)
  | commit p next ih => exact hp.elim
  | rollback next ih => exact ih hp

theorem Queries.commitsOnly {P : π → Prop} {p : Prog σ κ π ρ α ε R} (hp : p.Queries) :
    p.CommitsOnly P := by
  induction p with
  | ret r => trivial
  | raise e => trivial
  | read p next ih => exact fun d => ih d (hp d)
  | lock p sel next ih => exact fun d => ih d (hp d)
  | write w next ih => exact hp.elim
  | call q next ih => exact fun a => ih a (hp a)
  | commit p next ih => exact hp.elim
  | rollback next ih => exact ih hp

variable {ψ : S → Prop} {φ : π → S → Prop}

theorem CommitsLast.ends {p : Prog σ κ π ρ α ε S} (hp : p.CommitsLast φ) :
    p.Ends (fun _ => True) fun q r => ∃ x, r = .ok x ∧ φ q x := by
  induction p with
  | ret r => trivial
  | raise e => trivial
  | read p next ih => exact fun d => ih d (hp d)
  | lock p sel next ih => exact fun d => ih d (hp d)
  | write w next ih => exact ih hp
  | call q next ih => exact fun a => ih a (hp a)
  | commit p next ih =>
    obtain ⟨r, rfl, hr⟩ := hp
    exact ⟨.ok r, rfl, r, rfl, hr⟩
  | rollback next ih => exact ih hp

theorem NoCommit.bind {p : Prog σ κ π ρ α ε R} {f : R → Prog σ κ π ρ α ε S} (hp : p.NoCommit)
    (hf : ∀ r, (f r).CommitsLast φ) : (p >>= f).CommitsLast φ := by
  rw [bind_eq]
  induction p with
  | ret r => exact hf r
  | raise e => trivial
  | read p next ih => exact fun d => ih d (hp d)
  | lock p sel next ih => exact fun d => ih d (hp d)
  | write w next ih => exact ih hp
  | call q next ih => exact fun a => ih a (hp a)
  | commit p next ih => exact absurd hp (by simp [NoCommit, CommitsLast])
  | rollback next ih => exact ih hp

theorem Ends.bind {θ : R → Prop} {φ : π → Except ε S → Prop} {p : Prog σ κ π ρ α ε R}
    {f : R → Prog σ κ π ρ α ε S} (hp : p.Ends θ fun _ _ => False)
    (hf : ∀ r, θ r → (f r).Ends ψ φ) : (p >>= f).Ends ψ φ := by
  rw [bind_eq]
  induction p with
  | ret r => exact hf r hp
  | raise e => trivial
  | read p next ih => exact fun d => ih d (hp d)
  | lock p sel next ih => exact fun d => ih d (hp d)
  | write w next ih => exact ih hp
  | call q next ih => exact fun a => ih a (hp a)
  | commit p next ih =>
    obtain ⟨r, -, hr⟩ := hp
    exact hr.elim
  | rollback next ih => exact ih hp

theorem Ends.mono {ψ' : S → Prop} {φ φ' : π → Except ε S → Prop} {p : Prog σ κ π ρ α ε S}
    (hp : p.Ends ψ φ) (hψ : ∀ r, ψ r → ψ' r) (hφ : ∀ q r, φ q r → φ' q r) : p.Ends ψ' φ' := by
  induction p with
  | ret r => exact hψ r hp
  | raise e => trivial
  | read p next ih => exact fun d => ih d (hp d)
  | lock p sel next ih => exact fun d => ih d (hp d)
  | write w next ih => exact ih hp
  | call q next ih => exact fun a => ih a (hp a)
  | commit p next ih =>
    obtain ⟨r, rfl, hr⟩ := hp
    exact ⟨r, rfl, hφ p r hr⟩
  | rollback next ih => exact ih hp

theorem Ends.map {φ : π → Except ε S → Prop} {p : Prog σ κ π ρ α ε R} {f : R → S}
    (hp : p.Ends (fun r => ψ (f r)) fun q r => φ q (r.map f)) :
    (p >>= fun r => pure (f r)).Ends ψ φ := by
  rw [bind_eq]
  induction p with
  | ret r => exact hp
  | raise e => trivial
  | read p next ih => exact fun d => ih d (hp d)
  | lock p sel next ih => exact fun d => ih d (hp d)
  | write w next ih => exact ih hp
  | call q next ih => exact fun a => ih a (hp a)
  | commit p next ih =>
    obtain ⟨r, rfl, hr⟩ := hp
    exact ⟨r.map f, by cases r <;> rfl, hr⟩
  | rollback next ih => exact ih hp

/-- Served alone, a program that commits last and ends in an error has changed nothing. -/
theorem CommitsLast.alone {p : Prog σ κ π ρ α ε S} (hp : p.CommitsLast φ) {answer : ρ → α} {d : σ}
    {pend : σ → σ} {e : ε} (he : (p.alone answer d pend).result = .error e) :
    (p.alone answer d pend).db = d := by
  induction p generalizing pend with
  | ret r => rfl
  | raise e => rfl
  | read p next ih => exact ih _ (hp _) he
  | lock p sel next ih => exact ih _ (hp _) he
  | write w next ih => exact ih hp he
  | call q next ih => exact ih _ (hp _) he
  | commit p next ih =>
    obtain ⟨r, rfl, -⟩ := hp
    cases he
  | rollback next ih => exact ih hp he

/-- What a request does alone depends only on the database it sees. -/
theorem alone_congr (p : Prog σ κ π ρ α ε R) {answer : ρ → α} {d : σ} {pend pend' : σ → σ}
    (h : pend d = pend' d) : p.alone answer d pend = p.alone answer d pend' := by
  induction p generalizing pend pend' with
  | ret r => rfl
  | raise e => rfl
  | read p next ih =>
    simp only [alone, h]
    exact ih _ h
  | lock p sel next ih =>
    simp only [alone, h]
    exact ih _ h
  | write w next ih => exact ih (congrArg w h)
  | call q next ih => exact ih _ h
  | commit p next ih => simp only [alone, h]
  | rollback next ih => rfl

end Prog

namespace Sys

variable [DecidableEq κ] {m : Mode} {s s' : Sys σ κ π ρ α ε S ν} {i j : Nat} {c : Choice α ε ν}
  {mv : Move σ π ρ α ν} {ψ : S → Prop}

/-- Session `i` has ended with `r`. -/
def Ended (s : Sys σ κ π ρ α ε S ν) (i : Nat) (r : Except ε S) : Prop := (s.sess i).prog = .done r

omit [DecidableEq κ] in
theorem Ended.unique {r r' : Except ε S} (h : s.Ended i r) (h' : s.Ended i r') : r = r' := by
  have he := (show (s.sess i).prog = .done r from h).symm.trans h'
  cases r <;> cases r' <;> cases he <;> rfl

/-- Session `i` has ended, or goes on with a program that commits once. -/
def Follows (s : Sys σ κ π ρ α ε S ν) (i : Nat) (ψ : S → Prop) (φ : π → Except ε S → Prop) : Prop :=
  (∃ r, s.Ended i r) ∨ (s.sess i).prog.Ends ψ φ

/-- A step of session `i` changes no other session. -/
theorem step_sess_ne (h : s.step? m i c = some (s', mv)) (hj : j ≠ i) : s'.sess j = s.sess j := by
  unfold step? at h
  repeat' split at h
  all_goals first
    | cases h; simp [goOn, endTxn, hj]
    | cases h

/-- A session that has ended does nothing more, but may lose its result. -/
theorem step_ended {r : Except ε S} (hr : s.Ended i r) (h : s.step? m i c = some (s', mv)) :
    s'.db = s.db ∧ (s'.Ended i r ∨ ∃ e, s'.Ended i (.error e)) := by
  cases r <;> (
    simp only [Ended, Prog.done] at hr ⊢
    unfold step? at h
    repeat' split at h
    all_goals first
      | cases h; simp_all [goOn, endTxn]
      | cases h)

theorem Ended.step {r : Except ε S} (hr : s.Ended j r) (h : s.step? m i c = some (s', mv)) :
    ∃ r', s'.Ended j r' := by
  by_cases hj : j = i
  · subst hj
    rcases (step_ended hr h).2 with hr' | ⟨e, he⟩
    · exact ⟨r, hr'⟩
    · exact ⟨_, he⟩
  · exact ⟨r, by rwa [Ended, step_sess_ne h hj]⟩

/-- **A step of a session that commits once** leaves the database as it is, or commits and ends the
session. -/
theorem step_ends {φ : π → Except ε S → Prop} (hp : (s.sess i).prog.Ends ψ φ)
    (h : s.step? m i c = some (s', mv)) :
    ((s'.sess i).prog.Ends ψ φ ∧ s'.db = s.db) ∨
      ∃ p r, (s.sess i).prog = .commit p (.done r) ∧ mv = .stmt i p s.db (s.seen i) s.env ∧
        s'.db = s.seen i ∧ s'.Ended i r ∧ φ p r := by
  unfold step? at h
  split at h
  case isFalse => cases h
  case isTrue =>
  split at h
  · -- abort
    cases h
    exact .inl ⟨by simp [endTxn, goOn, Prog.Ends], rfl⟩
  · -- ret
    rename_i heq
    cases h
    rw [heq] at hp
    exact .inl ⟨by simpa [endTxn, goOn, Prog.Ends] using hp, rfl⟩
  · -- raise
    cases h
    exact .inl ⟨by simp [endTxn, goOn, Prog.Ends], rfl⟩
  · -- read
    rename_i heq
    cases h
    rw [heq] at hp
    exact .inl ⟨by simpa [goOn] using hp _, rfl⟩
  · -- lock
    rename_i heq
    rw [heq] at hp
    split at h
    · cases h
      exact .inl ⟨by simpa [goOn] using hp _, rfl⟩
    · split at h
      · cases h
        exact .inl ⟨by simpa [goOn] using hp _, rfl⟩
      · cases h
  · -- write
    rename_i heq
    cases h
    rw [heq] at hp
    exact .inl ⟨by simpa [goOn, Prog.Ends] using hp, rfl⟩
  · -- call
    rename_i heq
    cases h
    rw [heq] at hp
    exact .inl ⟨by simpa [goOn] using hp _, rfl⟩
  · -- commit
    rename_i heq
    cases h
    rw [heq] at hp
    obtain ⟨r, rfl, hr⟩ := hp
    exact .inr ⟨_, r, heq, rfl, rfl, by simp [endTxn, goOn, Ended], hr⟩
  · -- rollback
    rename_i heq
    cases h
    rw [heq] at hp
    exact .inl ⟨by simpa [endTxn, goOn, Prog.Ends] using hp, rfl⟩
  · cases h

/-- A step of session `i` leaves the database as it is, or is one of its commits. -/
theorem step_commitsOnly {P : π → Prop} (hp : (s.sess i).prog.CommitsOnly P)
    (h : s.step? m i c = some (s', mv)) : (s'.sess i).prog.CommitsOnly P ∧
      (s'.db = s.db ∨ ∃ p next, (s.sess i).prog = .commit p next ∧
        mv = .stmt i p s.db (s.seen i) s.env ∧ s'.db = s.seen i ∧ P p) := by
  unfold step? at h
  repeat' split at h
  all_goals first
    | cases h; simp_all [goOn, endTxn, Prog.CommitsOnly]
    | cases h

theorem step_queries (hp : (s.sess i).prog.Queries) (h : s.step? m i c = some (s', mv)) :
    (s'.sess i).prog.Queries := by
  unfold step? at h
  repeat' split at h
  all_goals first
    | cases h; simp_all [goOn, endTxn, Prog.Queries]
    | cases h

/-- A step of a session that replies changes nothing; the session may lose its reply. -/
theorem step_replies {ψ : Except ε S → Prop} (hp : (s.sess i).prog.Replies ψ)
    (h : s.step? m i c = some (s', mv)) :
    s'.db = s.db ∧ ((s'.sess i).prog.Replies ψ ∨ ∃ e, (s'.sess i).prog = .raise e) := by
  unfold step? at h
  repeat' split at h
  all_goals first
    | cases h; simp_all [goOn, endTxn, Prog.Replies]
    | cases h

/-- A step of a session leaves the database as it is, or it is its commit. -/
theorem step_settles {φ : π → Except ε S → Prop} (hp : (s.sess i).prog.Settles ψ φ)
    (h : s.step? m i c = some (s', mv)) : ((s'.sess i).prog.Settles ψ φ ∧ s'.db = s.db) ∨
      ∃ p next, (s.sess i).prog = .commit p next ∧ mv = .stmt i p s.db (s.seen i) s.env ∧
        s'.db = s.seen i ∧ (s'.sess i).prog.Replies (φ p) := by
  unfold step? at h
  repeat' split at h
  all_goals first
    | cases h; simp_all [goOn, endTxn, Prog.Settles]
    | cases h

/-- **A step of a session whose commit settles its reply**: nothing is committed and no reply
becomes an `A`, or it is the commit. -/
theorem step_phase [Nonempty σ] {A : Except ε S → Prop} {φ : π → Except ε S → Prop}
    (hA : ∀ e, ¬ A (.error e)) (hφ : ∀ p, (∀ r, φ p r → A r) ∨ ∀ r, φ p r → ¬ A r)
    (hp : (s.sess i).prog.Phase A φ) (h : s.step? m i c = some (s', mv)) :
    (s'.sess i).prog.Phase A φ ∧
      ((s'.db = s.db ∧ ((s'.sess i).prog.Replies A → (s.sess i).prog.Replies A)) ∨
        ∃ p next, (s.sess i).prog = .commit p next ∧ mv = .stmt i p s.db (s.seen i) s.env ∧
          s'.db = s.seen i ∧ ¬ (s.sess i).prog.Replies A ∧ (s'.sess i).prog.Replies (φ p)) := by
  have hraise : ∀ e, (s'.sess i).prog = .raise e → (s'.sess i).prog.Replies fun r => ¬ A r := by
    intro e he
    rw [he]
    exact hA e
  rcases hp with hp | hp | hp
  · rcases step_settles hp h with ⟨hp', hd⟩ | ⟨p, next, hq, hm, hd, hreply⟩
    · exact ⟨.inl hp', .inl ⟨hd, fun hr => absurd hr (hp'.not_replies hA)⟩⟩
    · refine ⟨.inr ?_, .inr ⟨p, next, hq, hm, hd, hp.not_replies hA, hreply⟩⟩
      exact (hφ p).imp hreply.mono hreply.mono
  · obtain ⟨hd, hp' | ⟨e, he⟩⟩ := step_replies hp h
    · exact ⟨.inr (.inl hp'), .inl ⟨hd, fun _ => hp⟩⟩
    · exact ⟨.inr (.inr (hraise e he)), .inl ⟨hd, fun _ => hp⟩⟩
  · obtain ⟨hd, hp' | ⟨e, he⟩⟩ := step_replies hp h
    · exact ⟨.inr (.inr hp'), .inl ⟨hd, fun hr => absurd hr hp'.not_replies⟩⟩
    · exact ⟨.inr (.inr (hraise e he)), .inl ⟨hd, fun hr => absurd hr (hraise e he).not_replies⟩⟩

/-- What every step of a session keeps of its program, every run keeps. -/
theorem run_prog {ok : Move σ π ρ α ν → Prop} {P : Prog σ κ π ρ α ε S → Prop}
    (hstep : ∀ s s' : Sys σ κ π ρ α ε S ν, ∀ c mv, P (s.sess i).prog →
      s.step? m i c = some (s', mv) → P (s'.sess i).prog)
    (hp : P (s.sess i).prog) (hr : Run m ok s s') : P (s'.sess i).prog := by
  induction hr with
  | refl => exact hp
  | tail _ hs ih =>
    obtain ⟨j, c, mv, hs, -⟩ := hs
    by_cases hj : i = j
    · subst hj
      exact hstep _ _ _ _ ih hs
    · rw [step_sess_ne hs hj]
      exact ih

variable {φ : π → S → Prop}

/-- **A step of a session that commits last** leaves the database as it is, or ends the session. -/
theorem step_commitsLast (hp : (s.sess i).prog.CommitsLast φ) (h : s.step? m i c = some (s', mv)) :
    (s'.sess i).prog.CommitsLast φ ∧
      (s'.db = s.db ∨ ∃ p r, mv = .stmt i p s.db (s.seen i) s.env ∧ s'.db = s.seen i ∧
        (s'.sess i).prog = .ret r ∧ φ p r) := by
  refine ⟨?_, ?_⟩
  · unfold step? at h
    repeat' split at h
    all_goals first
      | cases h; simp_all [goOn, endTxn, Prog.CommitsLast]
      | cases h
    obtain ⟨r, rfl, -⟩ := hp
    trivial
  · rcases step_ends hp.ends h with ⟨-, he⟩ | ⟨p, r, -, hm, hd, hr, x, rfl, hx⟩
    · exact .inl he
    · exact .inr ⟨p, x, hm, hd, hr, hx⟩

theorem run_commitsLast {ok : Move σ π ρ α ν → Prop} (hp : (s.sess i).prog.CommitsLast φ)
    (hr : Run m ok s s') : (s'.sess i).prog.CommitsLast φ :=
  run_prog (fun _ _ _ _ h hs => (step_commitsLast h hs).1) hp hr

end Sys

end Txn
