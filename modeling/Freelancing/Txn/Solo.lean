import Freelancing.Txn.Rely

/-!
# Obligations of a request that is served alone

`Prog.solo`: what a request owes when nothing runs beside it. The database only moves at its own
commits, so the obligation is followed statement by statement on the one database that there is.
`solo_sound` is what it gives of `Prog.alone`. An obligation under a `Law`, beside others, serves as
well (`Law.wp_alone`); it also speaks of what the request asks of the outside world (`Prog.asked`).
-/

namespace Txn

variable {σ κ π ρ α ε R S : Type}

namespace Prog

/-- Every commit of `p`, served alone, establishes `I`, and what it returns satisfies `Q`. -/
def solo (answer : ρ → α) (I : σ → Prop) : Prog σ κ π ρ α ε R → σ → (σ → σ) →
    (σ → (σ → σ) → R → Prop) → Prop
  | .ret r, d, pend, Q => Q d pend r
  | .raise _, _, _, _ => True
  | .read _ next, d, pend, Q => (next (pend d)).solo answer I d pend Q
  | .lock _ _ next, d, pend, Q => (next (pend d)).solo answer I d pend Q
  | .write w next, d, pend, Q => next.solo answer I d (w ∘ pend) Q
  | .call q next, d, pend, Q => (next (answer q)).solo answer I d pend Q
  | .commit _ next, d, pend, Q => I (pend d) ∧ next.solo answer I (pend d) id Q
  | .rollback next, d, _, Q => next.solo answer I d id Q

variable {answer : ρ → α} {I : σ → Prop} {d : σ} {pend : σ → σ}

theorem solo_mono {p : Prog σ κ π ρ α ε R} {Q Q' : σ → (σ → σ) → R → Prop}
    (h : p.solo answer I d pend Q) (hq : ∀ d pend r, Q d pend r → Q' d pend r) :
    p.solo answer I d pend Q' := by
  induction p generalizing d pend with
  | ret r => exact hq _ _ _ h
  | raise e => trivial
  | read p next ih => exact ih _ h
  | lock p sel next ih => exact ih _ h
  | write w next ih => exact ih h
  | call q next ih => exact ih _ h
  | commit p next ih => exact ⟨h.1, ih h.2⟩
  | rollback next ih => exact ih h

theorem solo_bind {p : Prog σ κ π ρ α ε R} {f : R → Prog σ κ π ρ α ε S}
    {Q : σ → (σ → σ) → S → Prop}
    (h : p.solo answer I d pend fun d pend r => (f r).solo answer I d pend Q) :
    (p >>= f).solo answer I d pend Q := by
  induction p generalizing d pend with
  | ret r => exact h
  | raise e => trivial
  | read p next ih => exact ih _ h
  | lock p sel next ih => exact ih _ h
  | write w next ih => exact ih h
  | call q next ih => exact ih _ h
  | commit p next ih => exact ⟨h.1, ih h.2⟩
  | rollback next ih => exact ih h

/-- **What is left of a request that meets its obligation.** -/
theorem solo_sound {p : Prog σ κ π ρ α ε R} {Q : σ → (σ → σ) → R → Prop} (hd : I d)
    (h : p.solo answer I d pend Q) : I (p.alone answer d pend).db ∧
      ∀ r, (p.alone answer d pend).result = .ok r →
        ∃ pend', Q (p.alone answer d pend).db pend' r := by
  induction p generalizing d pend with
  | ret r =>
    refine ⟨hd, fun r' hr => ⟨pend, ?_⟩⟩
    cases hr
    exact h
  | raise e => exact ⟨hd, fun r hr => by cases hr⟩
  | read p next ih => exact ih _ hd h
  | lock p sel next ih => exact ih _ hd h
  | write w next ih => exact ih hd h
  | call q next ih => exact ih _ hd h
  | commit p next ih => exact ih h.1 h.2
  | rollback next ih => exact ih hd h

/-! ### Statements -/

theorem solo_require {c : Bool} {e : ε} {Q : σ → (σ → σ) → Unit → Prop}
    (h : c = true → Q d pend ()) :
    (Prog.require c e : Prog σ κ π ρ α ε Unit).solo answer I d pend Q := by
  unfold Prog.require
  split
  · rename_i hc
    exact h hc
  · trivial

theorem solo_select {p : π} {q : σ → R} {Q : σ → (σ → σ) → R → Prop} (h : Q d pend (q (pend d))) :
    (Prog.select p q : Prog σ κ π ρ α ε R).solo answer I d pend Q := h

theorem solo_selectForUpdate {p : π} {name : R → κ} {q : σ → Option R}
    {Q : σ → (σ → σ) → Option R → Prop} (h : Q d pend (q (pend d))) :
    (Prog.selectForUpdate p name q : Prog σ κ π ρ α ε (Option R)).solo answer I d pend Q := h

end Prog

/-! ## From an obligation beside others -/

/-- What `p`, served alone, asks of the outside world. -/
def Prog.asked (answer : ρ → α) : Prog σ κ π ρ α ε R → σ → (σ → σ) → List ρ
  | .ret _, _, _ => []
  | .raise _, _, _ => []
  | .read _ next, d, pend => (next (pend d)).asked answer d pend
  | .lock _ _ next, d, pend => (next (pend d)).asked answer d pend
  | .write w next, d, pend => next.asked answer d (w ∘ pend)
  | .call q next, d, pend => q :: (next (answer q)).asked answer d pend
  | .commit _ next, d, pend => next.asked answer (pend d) id
  | .rollback next, d, _ => next.asked answer d id

section
variable {ν : Type} {L : Law σ κ π ρ α ν} {i : Nat} {answer : ρ → α} {p : Prog σ κ π ρ α ε R}
  {v : View σ κ ν} {Q : View σ κ ν → R → Prop} {d : σ} {e : ν}

/-- What every commit keeps and every call extends, holds after a request that is served alone. -/
theorem Law.wp_alone {P : σ → List ρ → Prop} {l : List ρ} (hok : ∀ mv, L.ok mv)
    (hc : ∀ held p d d' l, L.Inv d e → L.Inv d' e → L.Commits held p d d' e → P d l → P d' l)
    (hq : ∀ held q d l, L.Inv d e → L.Calls held q (answer q) d e e → P d l → P d (l ++ [q]))
    (h : L.wp i p v Q) (hn : L.Next v (d, e)) (hP : P d l) :
    L.Inv (p.alone answer d v.pend).db e ∧
      P (p.alone answer d v.pend).db (l ++ p.asked answer d v.pend) := by
  have hend : ∀ {d}, P d l → P d (l ++ []) := fun h => (List.append_nil l).symm ▸ h
  induction p generalizing v d l with
  | ret r => exact ⟨hn.2, hend hP⟩
  | raise e => exact ⟨hn.2, hend hP⟩
  | read p next ih =>
    obtain ⟨-, hwp⟩ := h _ hn (hok _)
    have hrest := ih _ hwp ⟨.refl _ _ _, hn.2⟩ hP hend
    exact hrest
  | lock p sel next ih =>
    obtain ⟨-, hwp⟩ := h _ hn (hok _)
    have hrest := ih _ hwp ⟨.refl _ _ _, hn.2⟩ hP hend
    exact hrest
  | write w next ih => exact ih h hn hP hend
  | call q next ih =>
    obtain ⟨hi, hcall, hwp⟩ := h _ hn (answer q) e (hok _)
    have hrest := ih _ hwp ⟨.refl _ _ _, hi⟩ (hq _ _ _ _ hn.2 hcall hP)
      fun h => (List.append_nil _).symm ▸ h
    rw [List.append_assoc] at hrest
    exact hrest
  | commit p next ih =>
    obtain ⟨-, hi, hcom, hwp⟩ := h _ hn (hok _)
    exact ih hwp ⟨.refl _ _ _, hi⟩ (hc _ _ _ _ _ hn.2 hi hcom hP) hend
  | rollback next ih => exact ih (h _ hn) ⟨.refl _ _ _, hn.2⟩ hP hend

theorem Law.inv_alone (hok : ∀ mv, L.ok mv) (h : L.wp i p v Q) (hn : L.Next v (d, e)) :
    L.Inv (p.alone answer d v.pend).db e :=
  (Law.wp_alone (P := fun _ _ => True) (l := []) hok (fun _ _ _ _ _ _ _ _ h => h)
    (fun _ _ _ _ _ _ h => h) h hn trivial).1

end

end Txn
