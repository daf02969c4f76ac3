import Freelancing.Txn.Atomic

/-!
# What a session asks of the outside world

A `Manner` is what a session may ask, one request after the other: its state moves with each request
and its answer. `Prog.Talks m Q t p`: from the state `t`, the program `p` asks only what `m` allows
and returns an `r` with `Q`. What every request and answer keeps of the outside world and of the
states of all sessions, holds in every state of every run (`Sys.talks_of_run`).
-/

namespace Txn

/-- In a state that is `pending`, a program does nothing but ask. -/
structure Manner (τ ρ α : Type) where
  allows : τ → ρ → Prop
  next : τ → ρ → α → τ
  pending : τ → Prop

variable {τ σ κ π ρ α ε R S ν : Type}

namespace Prog

def Talks (m : Manner τ ρ α) (Q : τ → R → Prop) : τ → Prog σ κ π ρ α ε R → Prop
  | t, .ret r => ¬ m.pending t ∧ Q t r
  | _, .raise _ => True
  | t, .read _ next => ¬ m.pending t ∧ ∀ d, (next d).Talks m Q t
  | t, .lock _ _ next => ¬ m.pending t ∧ ∀ d, (next d).Talks m Q t
  | t, .write _ next => ¬ m.pending t ∧ next.Talks m Q t
  | t, .call q next => m.allows t q ∧ ∀ a, (next a).Talks m Q (m.next t q a)
  | t, .commit _ next => ¬ m.pending t ∧ next.Talks m Q t
  | t, .rollback next => ¬ m.pending t ∧ next.Talks m Q t

variable {m : Manner τ ρ α} {t : τ}

theorem Talks.bind {Q : τ → S → Prop} {p : Prog σ κ π ρ α ε R} {f : R → Prog σ κ π ρ α ε S}
    (hp : p.Talks m (fun t r => (f r).Talks m Q t) t) : (p >>= f).Talks m Q t := by
  rw [bind_eq]
  induction p generalizing t with
  | ret r => exact hp.2
  | raise e => trivial
  | read p next ih => exact ⟨hp.1, fun d => ih d (hp.2 d)⟩
  | lock p sel next ih => exact ⟨hp.1, fun d => ih d (hp.2 d)⟩
  | write w next ih => exact ⟨hp.1, ih hp.2⟩
  | call q next ih => exact ⟨hp.1, fun a => ih a (hp.2 a)⟩
  | commit p next ih => exact ⟨hp.1, ih hp.2⟩
  | rollback next ih => exact ⟨hp.1, ih hp.2⟩

theorem Talks.map {Q : τ → S → Prop} {p : Prog σ κ π ρ α ε R} {f : R → S}
    (hp : p.Talks m (fun t r => Q t (f r)) t) : (f <$> p).Talks m Q t := by
  rw [map_eq_pure_bind, bind_eq]
  induction p generalizing t with
  | ret r => exact hp
  | raise e => trivial
  | read p next ih => exact ⟨hp.1, fun d => ih d (hp.2 d)⟩
  | lock p sel next ih => exact ⟨hp.1, fun d => ih d (hp.2 d)⟩
  | write w next ih => exact ⟨hp.1, ih hp.2⟩
  | call q next ih => exact ⟨hp.1, fun a => ih a (hp.2 a)⟩
  | commit p next ih => exact ⟨hp.1, ih hp.2⟩
  | rollback next ih => exact ⟨hp.1, ih hp.2⟩

/-- What is left of a program in a pending state. -/
theorem Talks.pending {Q : τ → R → Prop} {p : Prog σ κ π ρ α ε R} (hp : p.Talks m Q t)
    (h : m.pending t) : (∃ q next, p = .call q next ∧ m.allows t q) ∨ ∃ e, p = .raise e := by
  cases p with
  | call q next => exact .inl ⟨q, next, rfl, hp.1⟩
  | raise e => exact .inr ⟨e, rfl⟩
  | _ => exact absurd h hp.1

end Prog

namespace Sys

variable [DecidableEq κ] {mode : Mode} {ok : Move σ π ρ α ν → Prop} {s₀ s s' : Sys σ κ π ρ α ε R ν}
  {i : Nat} {c : Choice α ε ν} {mv : Move σ π ρ α ν}

/-- The move is made on the way from `s₀` to `s`. -/
def Makes (mode : Mode) (ok : Move σ π ρ α ν → Prop) (s₀ s : Sys σ κ π ρ α ε R ν)
    (mv : Move σ π ρ α ν) : Prop :=
  ∃ s₁ s₂ i c, Run mode ok s₀ s₁ ∧ s₁.step? mode i c = some (s₂, mv) ∧ ok mv ∧ Run mode ok s₂ s

theorem Makes.step (h : Makes mode ok s₀ s mv) (hs : Step mode ok s s') :
    Makes mode ok s₀ s' mv := by
  obtain ⟨s₁, s₂, i, c, h₁, h₂, hok, h₃⟩ := h
  exact ⟨s₁, s₂, i, c, h₁, h₂, hok, h₃.tail hs⟩

/-- The last request of session `i`, which has brought it to `t`. -/
structure Asked (mode : Mode) (ok : Move σ π ρ α ν → Prop) (s₀ s : Sys σ κ π ρ α ε R ν) (i : Nat)
    (m : Manner τ ρ α) (t : τ) (q : ρ) : Prop where
  made : ∃ a e e', Makes mode ok s₀ s (.call i q a e e')
  next : ∃ u a, m.allows u q ∧ t = m.next u q a

/-- A step of session `i` asks what its manner allows, or leaves the outside world alone. -/
theorem step_talks {m : Manner τ ρ α} {Q : τ → R → Prop} {t : τ}
    (hp : (s.sess i).prog.Talks m Q t) (h : s.step? mode i c = some (s', mv)) :
    (s'.env = s.env ∧ (s'.sess i).prog.Talks m Q t) ∨
      ∃ q a, mv = .call i q a s.env s'.env ∧ m.allows t q ∧
        (s'.sess i).prog.Talks m Q (m.next t q a) := by
  unfold step? at h
  repeat' split at h
  all_goals first
    | cases h
      simp_all [goOn, endTxn, Prog.Talks]
    | cases h

/-- **What every request and answer keeps**, of the states of the sessions and the outside world. -/
theorem talks_of_run {m : Nat → Manner τ ρ α} {Q : Nat → τ → R → Prop} {I : (Nat → τ) → ν → Prop}
    {t : Nat → τ} (hp : ∀ i, (s₀.sess i).prog.Talks (m i) (Q i) (t i)) (hI : I t s₀.env)
    (hcall : ∀ t i q a e e', ok (.call i q a e e') → (m i).allows (t i) q → I t e →
      I (Function.update t i ((m i).next (t i) q a)) e') (hr : Run mode ok s₀ s) :
    ∃ t', (∀ i, (s.sess i).prog.Talks (m i) (Q i) (t' i)) ∧ I t' s.env ∧
      ∀ i, t' i = t i ∨ ∃ q, Asked mode ok s₀ s i (m i) (t' i) q := by
  induction hr with
  | refl => exact ⟨t, hp, hI, fun i => .inl rfl⟩
  | @tail s s' hr hs ih =>
    obtain ⟨t', hp', hI', hasked⟩ := ih
    have hstep := hs
    obtain ⟨k, c, mv, hs, hok⟩ := hs
    have hne : ∀ i, i ≠ k → (s'.sess i).prog.Talks (m i) (Q i) (t' i) := by
      intro i hi
      rw [step_sess_ne hs hi]
      exact hp' i
    have hold : ∀ i, t' i = t i ∨ ∃ q, Asked mode ok s₀ s' i (m i) (t' i) q := by
      intro i
      rcases hasked i with h | ⟨q, ⟨a, e, e', hm⟩, hn⟩
      · exact .inl h
      · exact .inr ⟨q, ⟨a, e, e', hm.step hstep⟩, hn⟩
    rcases step_talks (hp' k) hs with ⟨he, hk⟩ | ⟨q, a, rfl, hq, hk⟩
    · refine ⟨t', fun i => ?_, by rwa [he], hold⟩
      by_cases hi : i = k
      · rwa [hi]
      · exact hne i hi
    · refine ⟨_, fun i => ?_, hcall t' k q a s.env s'.env hok hq hI', fun i => ?_⟩
      · by_cases hi : i = k
        · rw [hi, Function.update_self]
          exact hk
        · rw [Function.update_of_ne hi]
          exact hne i hi
      · by_cases hi : i = k
        · subst hi
          rw [Function.update_self]
          exact .inr ⟨q, ⟨a, s.env, s'.env, s, s', i, c, hr, hs, hok, .refl⟩, t' i, a, hq, rfl⟩
        · rw [Function.update_of_ne hi]
          exact hold i

end Sys

end Txn
