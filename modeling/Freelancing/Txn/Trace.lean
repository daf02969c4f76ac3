import Freelancing.Txn.Service

/-!
# The commits of a request

`Prog.trace`: what a request that is served alone commits, one database after the other, and how it
ends. A request that is cut off has committed a prefix of it.
-/

namespace Txn

/-- The databases that a request commits, and its result or error. -/
structure Trace (σ ε R : Type) where
  commits : List σ
  result : Except ε R

namespace Prog

variable {σ κ π ρ α ε R S : Type}

/-- `p` served with nothing else running, from the committed database `d` with the writes `pend` of
its open transaction; `answer` is the outside world. -/
def trace (answer : ρ → α) : Prog σ κ π ρ α ε R → σ → (σ → σ) → Trace σ ε R
  | .ret r, _, _ => ⟨[], .ok r⟩
  | .raise e, _, _ => ⟨[], .error e⟩
  | .read _ next, d, pend => (next (pend d)).trace answer d pend
  | .lock _ _ next, d, pend => (next (pend d)).trace answer d pend
  | .write w next, d, pend => next.trace answer d (w ∘ pend)
  | .call q next, d, pend => (next (answer q)).trace answer d pend
  | .commit _ next, d, pend =>
    let t := next.trace answer (pend d) id
    ⟨pend d :: t.commits, t.result⟩
  | .rollback next, d, _ => next.trace answer d id

end Prog

/-! ## Statements -/

namespace Service

variable {σ κ χ ρ α ε β γ : Type} {answer : ρ → α} {d : σ} {pend : σ → σ}

theorem trace_require {c : Bool} {e : ε} {f : Unit → Prog σ κ (Point χ) ρ α ε γ} (h : c = true) :
    (require c e >>= f).trace answer d pend = (f ()).trace answer d pend := by
  subst h
  unfold require
  rfl

theorem trace_select {q : σ → β} {f : β → Prog σ κ (Point χ) ρ α ε γ} :
    (select q >>= f).trace answer d pend = (f (q (pend d))).trace answer d pend := rfl

theorem trace_reserve {e : ε} {name : κ} {q : σ → Bool} {f : Unit → Prog σ κ (Point χ) ρ α ε γ}
    (h : q (pend d) = false) :
    (reserve e name q >>= f).trace answer d pend = (f ()).trace answer d pend := by
  unfold reserve
  rw [bind_assoc]
  exact trace_require (by rw [h]; rfl)

theorem trace_write {w : σ → σ} {f : Unit → Prog σ κ (Point χ) ρ α ε γ} :
    (write w >>= f).trace answer d pend = (f ()).trace answer d (w ∘ pend) := rfl

theorem trace_commit {c : χ} {f : Unit → Prog σ κ (Point χ) ρ α ε γ} :
    (commit c >>= f).trace answer d pend =
      ⟨pend d :: ((f ()).trace answer (pend d) id).commits,
        ((f ()).trace answer (pend d) id).result⟩ := rfl

end Service

end Txn
