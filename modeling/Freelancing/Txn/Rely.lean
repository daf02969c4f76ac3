import Freelancing.Txn.Law

/-!
# Statements and their obligations under a frame

The statements of a session (`select`, `selectForUpdate`, `update`, `taken`, `commit`), and one rule
for the obligation of each. `Law.Frames F`: every commit of a session that shares no lock with
`held` changes the database by `F held`. `Later`: how far the world may have gone when the next
statement of a transaction runs.
-/

namespace Txn

variable {σ κ π ρ α ε R S ν β : Type}

/-! ## Statements -/

namespace Prog

def select (p : π) (q : σ → β) : Prog σ κ π ρ α ε β := .read p fun d => .ret (q d)

/-- Waits for the lock of the row that `q` finds. -/
def selectForUpdate (p : π) (name : β → κ) (q : σ → Option β) : Prog σ κ π ρ α ε (Option β) :=
  .lock p (fun d => (q d).map name) fun d => .ret (q d)

/-- An `UPDATE` of a row that the session need not have locked before. -/
def update (p : π) (name : κ) (w : σ → σ) : Prog σ κ π ρ α ε Unit :=
  .lock p (fun _ => some name) fun _ => .write w (.ret ())

/-- The entry `name` of a unique index: waits for another transaction that is about to fill it, and
says whether it is taken. -/
def taken (p : π) (name : κ) (q : σ → Bool) : Prog σ κ π ρ α ε Bool :=
  .lock p (fun _ => some name) fun d => .ret (q d)

def require (c : Bool) (e : ε) : Prog σ κ π ρ α ε Unit := if c then pure () else .raise e

end Prog

/-! ## Obligations -/

namespace Law

variable {L : Law σ κ π ρ α ν} {F : Set κ → σ → σ → Prop} {i : Nat} {held held' : Set κ}
  {pend : σ → σ} {b : Bool} {w w' w'' : σ × ν}

structure Frames (L : Law σ κ π ρ α ν) (F : Set κ → σ → σ → Prop) : Prop where
  refl : ∀ held d, F held d d
  trans : ∀ {held d d' d''}, F held d d' → F held d' d'' → F held d d''
  mono : ∀ {held held' d d'}, held' ⊆ held → F held d d' → F held' d d'
  commit : ∀ {held held' p d d' e}, L.Commits held' p d d' e → Disjoint held held' → F held d d'
  claims : ∀ p d d', L.Claims p d d'

structure Later (L : Law σ κ π ρ α ν) (F : Set κ → σ → σ → Prop) (held : Set κ) (b : Bool)
    (w w' : σ × ν) : Prop where
  frame : F held w.1 w'.1
  still : L.mode.inTxn = true → b = true → w' = w
  inv : L.Inv w'.1 w'.2

theorem Frames.sees (h : Frames L F) (hs : L.Sees b held w w') : F held w.1 w'.1 := by
  refine hs.stable (P := fun x => F held w.1 x.1) (fun x y ho hx => ?_) (h.refl _ _)
  obtain ⟨-, -, held', hd, ⟨p, hc, -⟩ | ⟨q, a, -, he⟩⟩ := ho
  · exact h.trans hx (h.commit hc hd)
  · rwa [he]

theorem Frames.later (h : Frames L F) (hn : L.Next ⟨held, pend, b, w⟩ w') :
    Later L F held b w w' := by
  obtain ⟨hs, hi⟩ := hn
  refine ⟨h.sees hs, fun _ hb => ?_, hi⟩
  subst hb
  exact hs.eq_of_busy

/-- The statements of one transaction in a row. -/
theorem Frames.later_trans (h : Frames L F) (h₁ : Later L F held b w w')
    (h₂ : Later L F held' L.mode.inTxn w' w'') (hs : held ⊆ held') : Later L F held b w w'' :=
  ⟨h.trans h₁.frame (h.mono hs h₂.frame),
    fun hm hb => (h₂.still hm hm).trans (h₁.still hm hb), h₂.inv⟩

theorem wp_pure {r : R} {v : View σ κ ν} {Q : View σ κ ν → R → Prop} (h : Q v r) :
    L.wp i (pure r : Prog σ κ π ρ α ε R) v Q := h

theorem wp_require {c : Bool} {e : ε} {v : View σ κ ν} {Q : View σ κ ν → Unit → Prop}
    (h : c = true → Q v ()) : L.wp i (Prog.require c e : Prog σ κ π ρ α ε Unit) v Q := by
  unfold Prog.require
  split
  · exact h (by assumption)
  · trivial

section
variable (hF : Frames L F)
include hF

theorem Frames.wp_select {p : π} {q : σ → β} {Q : View σ κ ν → β → Prop}
    (h : ∀ w', Later L F held b w w' → Q ⟨held, pend, L.mode.inTxn, w'⟩ (q (pend w'.1))) :
    L.wp i (Prog.select p q : Prog σ κ π ρ α ε β) ⟨held, pend, b, w⟩ Q :=
  fun w' hn _ => ⟨hF.claims _ _ _, h w' (hF.later hn)⟩

theorem Frames.wp_selectForUpdate {p : π} {name : β → κ} {q : σ → Option β}
    {Q : View σ κ ν → Option β → Prop}
    (hn : ∀ w', Later L F held b w w' → q (pend w'.1) = none →
      Q ⟨held, pend, L.mode.inTxn, w'⟩ none)
    (hs : ∀ w' x, Later L F held b w w' → q (pend w'.1) = some x →
      Q ⟨insert (name x) held, pend, L.mode.inTxn, w'⟩ (some x)) :
    L.wp i (Prog.selectForUpdate p name q : Prog σ κ π ρ α ε (Option β)) ⟨held, pend, b, w⟩ Q := by
  intro w' hnext _
  refine ⟨hF.claims _ _ _, ?_⟩
  change Q _ (q (pend w'.1))
  cases hq : q (pend w'.1) with
  | none => simpa only [hq, Option.map_none, lock_none] using hn w' (hF.later hnext) hq
  | some x => simpa only [hq, Option.map_some, lock_some] using hs w' x (hF.later hnext) hq

theorem Frames.wp_taken {p : π} {name : κ} {q : σ → Bool} {Q : View σ κ ν → Bool → Prop}
    (h : ∀ w', Later L F held b w w' →
      Q ⟨insert name held, pend, L.mode.inTxn, w'⟩ (q (pend w'.1))) :
    L.wp i (Prog.taken p name q : Prog σ κ π ρ α ε Bool) ⟨held, pend, b, w⟩ Q := by
  intro w' hnext _
  refine ⟨hF.claims _ _ _, ?_⟩
  rw [lock_some]
  exact h w' (hF.later hnext)

theorem Frames.wp_update {p : π} {name : κ} {f : σ → σ} {Q : View σ κ ν → Unit → Prop}
    (h : ∀ w', Later L F held b w w' →
      Q ⟨insert name held, f ∘ pend, L.mode.inTxn, w'⟩ ()) :
    L.wp i (Prog.update p name f : Prog σ κ π ρ α ε Unit) ⟨held, pend, b, w⟩ Q := by
  intro w' hnext _
  refine ⟨hF.claims _ _ _, ?_⟩
  rw [lock_some]
  exact h w' (hF.later hnext)

theorem Frames.wp_commit {p : π} {next : Prog σ κ π ρ α ε R} {Q : View σ κ ν → R → Prop}
    (h : ∀ w', Later L F held b w w' → L.ok (.stmt i p w'.1 (pend w'.1) w'.2) →
      L.Inv (pend w'.1) w'.2 ∧ L.Commits held p w'.1 (pend w'.1) w'.2 ∧
        L.wp i next ⟨∅, id, L.mode.inCall, (pend w'.1, w'.2)⟩ Q) :
    L.wp i (.commit p next) ⟨held, pend, b, w⟩ Q :=
  fun w' hn hok => ⟨hF.claims _ _ _, h w' (hF.later hn) hok⟩

end

end Law

end Txn
