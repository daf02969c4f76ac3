import Freelancing.Txn.Service

/-!
# Frames of the whole world

`Law.Frames` speaks of the database only. `Design.Worlds F`: every commit and every call of a
session that shares no lock with `held` moves the database and the outside world by `F held`, so
that a transaction may keep what it has done to the outside world.
-/

namespace Txn

variable {σ κ π χ ρ α ε R ν β : Type}

namespace Design

variable {D : Design σ κ χ ρ α ν} {F : Set κ → σ × ν → σ × ν → Prop} {mode : Mode}
  {ok : Move σ (Point χ) ρ α ν → Prop} {i : Nat} {held : Set κ} {pend : σ → σ}
  {b : Bool} {w : σ × ν}

/-- What the steps of a session that shares no lock with `held` do to the world. -/
structure Worlds (D : Design σ κ χ ρ α ν) (F : Set κ → σ × ν → σ × ν → Prop) : Prop where
  refl : ∀ held w, F held w w
  trans : ∀ {held w w' w''}, F held w w' → F held w' w'' → F held w w''
  commit : ∀ {held held' c d d' e}, D.Inv d e → D.Effect held' c d d' e → Disjoint held held' →
    F held (d, e) (d', e)
  call : ∀ {held q a d e e'}, D.Inv d e → D.Asks q a d e e' → F held (d, e) (d, e')

/-- Where the world may be when the next statement runs. -/
structure Reaches (D : Design σ κ χ ρ α ν) (F : Set κ → σ × ν → σ × ν → Prop) (held : Set κ)
    (w w' : σ × ν) : Prop where
  frame : F held w w'
  inv : D.Inv w'.1 w'.2

section
variable (hF : D.Worlds F)
include hF

theorem Worlds.reaches {w' : σ × ν} (hn : (D.law mode ok).Next ⟨held, pend, b, w⟩ w') :
    D.Reaches F held w w' := by
  obtain ⟨hs, hi⟩ := hn
  refine ⟨hs.stable (P := fun x => F held w x) (fun x y ho hx => ?_) (hF.refl _ _), hi⟩
  obtain ⟨d, e⟩ := x
  obtain ⟨d', e'⟩ := y
  obtain ⟨hix, -, held', hd, ⟨p, hc, he⟩ | ⟨q, a, hc, he⟩⟩ := ho
  · obtain rfl : e' = e := he
    obtain ⟨c, -, -, heff⟩ := hc
    exact hF.trans hx (hF.commit hix heff hd)
  · obtain rfl : d' = d := he
    exact hF.trans hx (hF.call hix hc)

theorem Worlds.wp_select {q : σ → β} {Q : View σ κ ν → β → Prop}
    (h : ∀ w', D.Reaches F held w w' → Q ⟨held, pend, mode.inTxn, w'⟩ (q (pend w'.1))) :
    (D.law mode ok).wp i (Service.select q : Prog σ κ (Point χ) ρ α ε β) ⟨held, pend, b, w⟩ Q :=
  fun w' hn _ => ⟨trivial, h w' (hF.reaches hn)⟩

theorem Worlds.wp_selectForUpdate {name : β → κ} {q : σ → Option β}
    {Q : View σ κ ν → Option β → Prop}
    (hn : ∀ w', D.Reaches F held w w' → q (pend w'.1) = none → Q ⟨held, pend, mode.inTxn, w'⟩ none)
    (hs : ∀ w' x, D.Reaches F held w w' → q (pend w'.1) = some x →
      Q ⟨insert (name x) held, pend, mode.inTxn, w'⟩ (some x)) :
    (D.law mode ok).wp i (Service.selectForUpdate name q : Prog σ κ (Point χ) ρ α ε (Option β))
      ⟨held, pend, b, w⟩ Q := by
  intro w' hnext _
  refine ⟨trivial, ?_⟩
  change Q ⟨{k | (q (pend w'.1)).map name = some k} ∪ held, pend, mode.inTxn, w'⟩ (q (pend w'.1))
  cases hq : q (pend w'.1) with
  | none =>
    rw [Option.map_none, Law.lock_none]
    exact hn w' (hF.reaches hnext) hq
  | some x =>
    rw [Option.map_some, Law.lock_some]
    exact hs w' x (hF.reaches hnext) hq

theorem Worlds.wp_update {name : κ} {f : σ → σ} {Q : View σ κ ν → Unit → Prop}
    (h : ∀ w', D.Reaches F held w w' → Q ⟨insert name held, f ∘ pend, mode.inTxn, w'⟩ ()) :
    (D.law mode ok).wp i (Service.update name f : Prog σ κ (Point χ) ρ α ε Unit)
      ⟨held, pend, b, w⟩ Q := by
  intro w' hnext _
  refine ⟨trivial, ?_⟩
  rw [Law.lock_some]
  exact h w' (hF.reaches hnext)

theorem Worlds.wp_reserve {e : ε} {name : κ} {q : σ → Bool} {Q : View σ κ ν → Unit → Prop}
    (h : ∀ w', D.Reaches F held w w' → q (pend w'.1) = false →
      Q ⟨insert name held, pend, mode.inTxn, w'⟩ ()) :
    (D.law mode ok).wp i (Service.reserve (ρ := ρ) (α := α) e name q) ⟨held, pend, b, w⟩ Q := by
  refine Law.wp_bind ?_
  intro w' hnext _
  refine ⟨trivial, ?_⟩
  rw [Law.lock_some]
  exact wp_require fun hq => h w' (hF.reaches hnext) (by simpa using hq)

theorem Worlds.wp_ask {q : ρ} {Q : View σ κ ν → α → Prop}
    (h : ∀ w' a e', D.Reaches F held w w' → ok (.call i q a w'.2 e') →
      D.Asks q a w'.1 w'.2 e' ∧ Q ⟨held, pend, mode.inTxn, (w'.1, e')⟩ a) :
    (D.law mode ok).wp i (Service.ask q : Prog σ κ (Point χ) ρ α ε α) ⟨held, pend, b, w⟩ Q := by
  intro w' hn a e' hok
  have hw := hF.reaches hn
  obtain ⟨ha, hQ⟩ := h w' a e' hw hok
  exact ⟨D.asks hw.inv ha, ha, hQ⟩

/-- A commit of a run whose moves are `ok`. -/
theorem Worlds.wp_commit {c : χ} {Q : View σ κ ν → Unit → Prop}
    (h : ∀ w', D.Reaches F held w w' → ok (.stmt i (.commit c) w'.1 (pend w'.1) w'.2) →
      D.Effect held c w'.1 (pend w'.1) w'.2 ∧
        (D.Inv (pend w'.1) w'.2 → Q ⟨∅, id, mode.inCall, (pend w'.1, w'.2)⟩ ())) :
    (D.law mode ok).wp i (Service.commit c : Prog σ κ (Point χ) ρ α ε Unit)
      ⟨held, pend, b, w⟩ Q := by
  intro w' hn hok
  have hw := hF.reaches hn
  obtain ⟨he, hQ⟩ := h w' hw hok
  have hi := D.keeps hw.inv he
  exact ⟨trivial, hi, ⟨c, rfl, hw.inv, he⟩, hQ hi⟩

end

end Design

end Txn
