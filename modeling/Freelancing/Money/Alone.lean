import Freelancing.Money.Ledger

/-!
# Requests served alone

How the statements of a request are evaluated when nothing else runs: one equation a statement,
for the statement followed by the rest `f` of the request. `Refused p d`: the request `p` fails on
the database `d` and leaves it as it is.
-/

namespace Money

variable {β γ : Type}

section
variable {answer : Request → Answer} {d : Db} {pend : Db → Db}

theorem alone_pure (r : β) : (pure r : Tx β).alone answer d pend = ⟨d, .ok r⟩ := rfl

variable (f : β → Tx γ)

theorem alone_select (q : Db → β) :
    (select q >>= f).alone answer d pend = (f (q (pend d))).alone answer d pend := rfl

theorem alone_read (p : Point) (q : Db → β) :
    ((.read p fun d => .ret (q d) : Tx β) >>= f).alone answer d pend =
      (f (q (pend d))).alone answer d pend := rfl

theorem alone_selectForUpdate (name : β → LockName) (q : Db → Option β) (f : Option β → Tx γ) :
    (selectForUpdate name q >>= f).alone answer d pend =
      (f (q (pend d))).alone answer d pend := rfl

theorem alone_relock (p : Point) (name : LockName) (q : Db → Option β) (x : β)
    (f : Option β → Tx γ) :
    (relock p name q x >>= f).alone answer d pend =
      (f ((q (pend d)).map fun _ => x)).alone answer d pend := rfl

theorem alone_taken (name : LockName) (q : Db → Bool) (f : Bool → Tx γ) :
    (taken name q >>= f).alone answer d pend = (f (q (pend d))).alone answer d pend := rfl

theorem alone_write (w : Db → Db) (f : Unit → Tx γ) :
    (write w >>= f).alone answer d pend = (f ()).alone answer d (w ∘ pend) := rfl

theorem alone_commit (c : CommitPoint) (f : Unit → Tx γ) :
    (commit c >>= f).alone answer d pend = (f ()).alone answer (pend d) id := rfl

theorem alone_require {c : Bool} (hc : c = true) (e : Err) (f : Unit → Tx γ) :
    (require c e >>= f).alone answer d pend = (f ()).alone answer d pend := by
  rw [hc]
  rfl

theorem alone_require_not {c : Bool} (hc : c = false) (e : Err) (f : Unit → Tx γ) :
    (require c e >>= f).alone answer d pend = ⟨d, .error e⟩ := by
  rw [hc]
  rfl

theorem alone_reserve {name : LockName} {q : Db → Bool} (hq : q (pend d) = false)
    (f : Unit → Tx γ) :
    (reserve name q >>= f).alone answer d pend = (f ()).alone answer d pend := by
  unfold reserve
  rw [bind_assoc, alone_taken, hq]
  rfl

end

/-! ## Refusals -/

/-- Served alone, with the writes `pend` still open, the request ends in an error and commits
nothing. -/
def RefusedFrom (p : Tx β) (d : Db) (pend : Db → Db) : Prop :=
  ∀ answer, ∃ e, p.alone answer d pend = ⟨d, .error e⟩

def Refused (p : Tx β) (d : Db) : Prop := RefusedFrom p d id

namespace RefusedFrom

variable {d : Db} {pend : Db → Db}

theorem raise_bind (e : Err) (f : β → Tx γ) : RefusedFrom ((Money.raise e : Tx β) >>= f) d pend :=
  fun _ => ⟨e, rfl⟩

theorem select {q : Db → β} {r : β} {f : β → Tx γ} (hq : q (pend d) = r)
    (h : RefusedFrom (f r) d pend) : RefusedFrom (Money.select q >>= f) d pend := by
  subst hq
  exact h

theorem selectForUpdate {name : β → LockName} {q : Db → Option β} {r : Option β}
    {f : Option β → Tx γ} (hq : q (pend d) = r) (h : RefusedFrom (f r) d pend) :
    RefusedFrom (Money.selectForUpdate name q >>= f) d pend := by
  subst hq
  exact h

theorem taken {name : LockName} {q : Db → Bool} {r : Bool} {f : Bool → Tx γ} (hq : q (pend d) = r)
    (h : RefusedFrom (f r) d pend) : RefusedFrom (Money.taken name q >>= f) d pend := by
  subst hq
  exact h

theorem write {w : Db → Db} {f : Unit → Tx γ} (h : RefusedFrom (f ()) d (w ∘ pend)) :
    RefusedFrom (Money.write w >>= f) d pend := h

/-- Where a check fails, the request is refused; where it passes, the rest must be. -/
theorem require {c : Bool} {e : Err} {f : Unit → Tx γ}
    (h : c = true → RefusedFrom (f ()) d pend) : RefusedFrom (Money.require c e >>= f) d pend := by
  cases c with
  | false => exact fun _ => ⟨e, rfl⟩
  | true => exact h rfl

/-- A request that is the first of its key. -/
theorem claimIdempotency {user : UserId} {operation : IdempotentOperation} {rawKey : String}
    {request : Payload} {f : FinancialIdempotencyKey × Bool → Tx γ}
    (hfresh : (pend d).record? ⟨user, operation, strip rawKey⟩ = none)
    (h : RefusedFrom (f (⟨⟨user, operation, strip rawKey⟩, request, none⟩, true)) d
      (.addRecord ⟨⟨user, operation, strip rawKey⟩, request, none⟩ ∘ pend)) :
    RefusedFrom (Money.claimIdempotency user operation rawKey request >>= f) d pend := by
  unfold Money.claimIdempotency
  rw [bind_assoc]
  refine .require fun _ => ?_
  rw [bind_assoc]
  refine .selectForUpdate hfresh ?_
  dsimp only
  rw [bind_assoc]
  refine .taken (congrArg Option.isSome hfresh) ?_
  simp only [Option.isSome_none, Bool.false_eq_true, if_false, bind_assoc, pure_bind]
  exact .write h

end RefusedFrom

end Money
