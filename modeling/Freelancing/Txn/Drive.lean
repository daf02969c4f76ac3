import Freelancing.Txn.Machine

/-!
# Schedules with an outside world that computes

`Sys.drive` runs the sessions of a list, one statement each, where `serve` is the outside world. It
ends in a state of a run (`Sys.run_of_drive`), which a computation may look at.
-/

namespace Txn.Sys

variable {σ κ π ρ α ε R ν : Type}

/-- The next choice for session `i`, when the outside world is `serve`. -/
def served (serve : ρ → ν → α × ν) (s : Sys σ κ π ρ α ε R ν) (i : Nat) : Choice α ε ν :=
  match (s.sess i).prog with
  | .call q _ => .answer (serve q s.env).1 (serve q s.env).2
  | _ => .go

variable [DecidableEq κ]

def drive (m : Mode) (serve : ρ → ν → α × ν) (ok : Move σ π ρ α ν → Bool) :
    Sys σ κ π ρ α ε R ν → List Nat → Option (Sys σ κ π ρ α ε R ν)
  | s, [] => some s
  | s, i :: l => do
    let (s', mv) ← s.step? m i (s.served serve i)
    if ok mv then drive m serve ok s' l else none

/-- A call has the answer that the outside world computes. -/
def Move.Served (serve : ρ → ν → α × ν) (mv : Move σ π ρ α ν) : Prop :=
  ∀ i q a e e', mv = .call i q a e e' → (a, e') = serve q e

theorem step_served {m : Mode} {serve : ρ → ν → α × ν} {s s' : Sys σ κ π ρ α ε R ν} {i : Nat}
    {mv : Move σ π ρ α ν} (h : s.step? m i (s.served serve i) = some (s', mv)) :
    Move.Served serve mv := by
  unfold served step? at h
  cases hp : (s.sess i).prog with
  | call q next =>
    simp only [hp] at h
    split at h
    · cases h
      intro j q' a e e' hm
      cases hm
      rfl
    · cases h
  | lock p sel next =>
    simp only [hp] at h
    repeat' split at h
    all_goals cases h
    all_goals
      intro j q' a e e' hm
      cases hm
  | _ =>
    simp only [hp] at h
    split at h
    · cases h
      intro j q' a e e' hm
      cases hm
    · cases h

theorem run_of_drive {m : Mode} {serve : ρ → ν → α × ν} {ok : Move σ π ρ α ν → Bool}
    {ok' : Move σ π ρ α ν → Prop} (hok : ∀ mv, ok mv = true → Move.Served serve mv → ok' mv)
    {s s' : Sys σ κ π ρ α ε R ν} {l : List Nat} (h : drive m serve ok s l = some s') :
    Run m ok' s s' := by
  induction l generalizing s with
  | nil =>
    cases h
    exact .refl
  | cons i l ih =>
    simp only [drive, Option.bind_eq_bind, Option.bind_eq_some_iff, Prod.exists] at h
    obtain ⟨s₁, mv, hs, hrest⟩ := h
    split at hrest
    · rename_i hmv
      exact .head ⟨i, _, mv, hs, hok mv hmv (step_served hs)⟩ (ih hrest)
    · cases hrest

/-- A schedule that ends in a state with `p`. -/
theorem exists_run_of_drive {m : Mode} {serve : ρ → ν → α × ν} {ok : Move σ π ρ α ν → Bool}
    {ok' : Move σ π ρ α ν → Prop} (hok : ∀ mv, ok mv = true → Move.Served serve mv → ok' mv)
    {s : Sys σ κ π ρ α ε R ν} {l : List Nat} {p : Sys σ κ π ρ α ε R ν → Bool}
    (h : (drive m serve ok s l).any p = true) : ∃ s', Run m ok' s s' ∧ p s' = true := by
  obtain ⟨s', hs, hp⟩ := (Option.any_eq_true _ _).1 h
  exact ⟨s', run_of_drive hok hs, hp⟩

end Txn.Sys
