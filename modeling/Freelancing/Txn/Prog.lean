import Mathlib.Logic.Relation
import Mathlib.Data.Set.Basic
import Mathlib.Data.Set.Insert

/-!
# Transaction programs

A request handler as a tree of the statements of its database session. `Prog σ κ π ρ α ε R`: the
database is a `σ`, row and unique-index locks are named by `κ`, every statement that a condition
or an assertion may speak of carries a label `π`, the outside world is asked `ρ` and answers `α`,
the handler fails with an `ε` or returns an `R`.

A statement sees the committed database with the writes of its own open transaction on top; the
writes become visible to others when the transaction commits. What a session read before it waited
for a lock is a variable of the program and stays what it was, as an attribute that an ORM session
has loaded does.
-/

namespace Txn

/-- What is left to run of a request handler. -/
inductive Prog (σ κ π ρ α ε : Type) (R : Type) : Type
  | ret (r : R)
  | raise (e : ε)
  | read (p : π) (next : σ → Prog σ κ π ρ α ε R)
  | lock (p : π) (sel : σ → Option κ) (next : σ → Prog σ κ π ρ α ε R)
  | write (w : σ → σ) (next : Prog σ κ π ρ α ε R)
  | call (q : ρ) (next : α → Prog σ κ π ρ α ε R)
  | commit (p : π) (next : Prog σ κ π ρ α ε R)
  | rollback (next : Prog σ κ π ρ α ε R)

namespace Prog

variable {σ κ π ρ α ε R S : Type}

def bind : Prog σ κ π ρ α ε R → (R → Prog σ κ π ρ α ε S) → Prog σ κ π ρ α ε S
  | .ret r, f => f r
  | .raise e, _ => .raise e
  | .read p next, f => .read p fun d => (next d).bind f
  | .lock p sel next, f => .lock p sel fun d => (next d).bind f
  | .write w next, f => .write w (next.bind f)
  | .call q next, f => .call q fun a => (next a).bind f
  | .commit p next, f => .commit p (next.bind f)
  | .rollback next, f => .rollback (next.bind f)

instance : Monad (Prog σ κ π ρ α ε) where
  pure := .ret
  bind := bind

theorem bind_eq (p : Prog σ κ π ρ α ε R) (f : R → Prog σ κ π ρ α ε S) : p >>= f = p.bind f := rfl

theorem bind_ret (p : Prog σ κ π ρ α ε R) : p.bind .ret = p := by
  induction p with
  | ret r => rfl
  | raise e => rfl
  | read p next ih => exact congrArg _ (funext ih)
  | lock p sel next ih => exact congrArg _ (funext ih)
  | write w next ih => exact congrArg _ ih
  | call q next ih => exact congrArg _ (funext ih)
  | commit p next ih => exact congrArg _ ih
  | rollback next ih => exact congrArg _ ih

theorem bind_assoc {T : Type} (p : Prog σ κ π ρ α ε R) (f : R → Prog σ κ π ρ α ε S)
    (g : S → Prog σ κ π ρ α ε T) : (p.bind f).bind g = p.bind fun r => (f r).bind g := by
  induction p with
  | ret r => rfl
  | raise e => rfl
  | read p next ih => exact congrArg _ (funext ih)
  | lock p sel next ih => exact congrArg _ (funext ih)
  | write w next ih => exact congrArg _ ih
  | call q next ih => exact congrArg _ (funext ih)
  | commit p next ih => exact congrArg _ ih
  | rollback next ih => exact congrArg _ ih

instance : LawfulMonad (Prog σ κ π ρ α ε) :=
  LawfulMonad.mk' _ (fun p => bind_ret p) (fun _ _ => rfl) bind_assoc

end Prog

/-! ## A request served alone -/

section
variable {σ κ π ρ α ε R : Type}

/-- How a request ended: the database it leaves committed, and its result or error. -/
structure Outcome (σ ε R : Type) where
  db : σ
  result : Except ε R

/-- The request `p` served with nothing else running, from the committed database `d` with the
writes `pend` of its open transaction; `answer` is the outside world. -/
def Prog.alone (answer : ρ → α) : Prog σ κ π ρ α ε R → σ → (σ → σ) → Outcome σ ε R
  | .ret r, d, _ => ⟨d, .ok r⟩
  | .raise e, d, _ => ⟨d, .error e⟩
  | .read _ next, d, pend => (next (pend d)).alone answer d pend
  | .lock _ _ next, d, pend => (next (pend d)).alone answer d pend
  | .write w next, d, pend => next.alone answer d (w ∘ pend)
  | .call q next, d, pend => (next (answer q)).alone answer d pend
  | .commit _ next, d, pend => next.alone answer (pend d) id
  | .rollback next, d, _ => next.alone answer d id

end

end Txn
