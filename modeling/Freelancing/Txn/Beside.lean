import Freelancing.Txn.Service
import Freelancing.Txn.Talk

/-!
# Programs beside an outside world

`Prog.closed` runs a program that asks nothing among programs that do. `Design.beside` adds to a
design of such programs an outside world of their neighbours'; a closed program meets its obligation
there when it does alone (`Design.wp_closed`).
-/

namespace Txn

variable {σ κ π χ ρ α ε R ν β γ : Type}

def Prog.closed : Prog σ κ π Empty Empty ε R → Prog σ κ π ρ α ε R
  | .ret r => .ret r
  | .raise e => .raise e
  | .read p next => .read p fun d => (next d).closed
  | .lock p sel next => .lock p sel fun d => (next d).closed
  | .write w next => .write w next.closed
  | .call q _ => q.elim
  | .commit p next => .commit p next.closed
  | .rollback next => .rollback next.closed

theorem Prog.talks_closed {τ : Type} {m : Manner τ ρ α} {Q : τ → R → Prop} {t : τ}
    (p : Prog σ κ π Empty Empty ε R) (ht : ¬ m.pending t) (hQ : ∀ r, Q t r) :
    (p.closed : Prog σ κ π ρ α ε R).Talks m Q t := by
  induction p with
  | ret r => exact ⟨ht, hQ r⟩
  | raise e => trivial
  | read p next ih => exact ⟨ht, ih⟩
  | lock p sel next ih => exact ⟨ht, ih⟩
  | write w next ih => exact ⟨ht, ih⟩
  | call q next ih => exact q.elim
  | commit p next ih => exact ⟨ht, ih⟩
  | rollback next ih => exact ⟨ht, ih⟩

/-- A session that has not begun still has not when another one takes a step. -/
theorem Sys.Waiting.step [DecidableEq κ] {mode : Mode} {s s' : Sys σ κ π ρ α ε R ν} {i j : Nat}
    {p : Prog σ κ π ρ α ε R} {c : Choice α ε ν} {mv : Move σ π ρ α ν} (h : s.Waiting j p)
    (hj : j ≠ i) (hs : s.step? mode i c = some (s', mv)) : s'.Waiting j p := by
  have howner : ∀ k, s.owner k ≠ some j := fun k hk => by
    have hmem : k ∈ s.held j := hk
    rw [h.held] at hmem
    exact hmem
  have hij : i ≠ j := hj.symm
  have hafter : (∀ k, s'.owner k ≠ some j) ∧ s'.running ≠ some j := by
    unfold Sys.step? at hs
    repeat' split at hs
    all_goals first
      | cases hs
        simp only [Sys.goOn, Sys.endTxn]
        constructor
        · intro k
          first
            | exact howner k
            | (split <;> simp_all)
            | (rw [Function.update_apply]; split <;> simp_all)
        · split <;> simp_all
      | cases hs
  refine ⟨(Sys.step_sess_ne hs hj).trans h.sess, ?_, hafter.2⟩
  ext k
  simpa [Sys.mem_held] using hafter.1 k

/-! ## Designs -/

namespace Design

variable (D : Design σ κ χ Empty Empty Unit) (P : ν → Prop) (A : ρ → α → ν → ν → Prop)
  (hA : ∀ q a e e', P e → A q a e e' → P e')

def beside : Design σ κ χ ρ α ν where
  Inv d e := D.Inv d () ∧ P e
  Effect held c d d' _ := D.Effect held c d d' ()
  Asks q a _ e e' := A q a e e'
  Frame := D.Frame
  refl := D.refl
  trans := D.trans
  mono := D.mono
  frame h := D.frame h.1
  keeps h he := ⟨D.keeps h.1 he, h.2⟩
  asks h ha := ⟨h.1, hA _ _ _ _ h.2 ha⟩

variable {D P A hA} {mode : Mode} {ok : Move σ (Point χ) ρ α ν → Prop} {i : Nat} {held : Set κ}
  {b : Bool}

theorem beside_other {w w' : σ × ν} (h : ((D.beside P A hA).law mode ok).Other held w w') :
    Relation.ReflTransGen ((D.law mode fun _ => True).Other held) (w.1, ()) (w'.1, ()) := by
  obtain ⟨hi, hi', held', hdis, ⟨p, hc, -⟩ | ⟨q, a, -, hd⟩⟩ := h
  · exact .single ⟨hi.1, hi'.1, held', hdis,
      .inl ⟨p, hc.imp fun _ hc => ⟨hc.1, hc.2.1.1, hc.2.2⟩, rfl⟩⟩
  · rw [hd]

theorem beside_sees {w w' : σ × ν} (h : ((D.beside P A hA).law mode ok).Sees b held w w') :
    (D.law mode fun _ => True).Sees b held (w.1, ()) (w'.1, ()) := by
  cases b with
  | true => rw [h.eq_of_busy]; exact .refl _ _ _
  | false =>
    induction (show Relation.ReflTransGen (((D.beside P A hA).law mode ok).Other held) w
        w' from h) with
    | refl => exact .refl _ _ _
    | tail _ ho ih => exact Relation.ReflTransGen.trans (ih (by assumption)) (beside_other ho)

/-- **A closed program meets its obligation beside its neighbours.** -/
theorem wp_closed {p : Prog σ κ (Point χ) Empty Empty ε R} {v : View σ κ Unit} {e : ν}
    {Q : View σ κ Unit → R → Prop} (hp : (D.law mode fun _ => True).wp i p v Q) :
    ((D.beside P A hA).law mode ok).wp i (p.closed : Prog σ κ (Point χ) ρ α ε R)
      ⟨v.held, v.pend, v.busy, (v.world.1, e)⟩
      fun v' r => Q ⟨v'.held, v'.pend, v'.busy, (v'.world.1, ())⟩ r := by
  have hnext : ∀ {v : View σ κ Unit} {e : ν} {w : σ × ν},
      ((D.beside P A hA).law mode ok).Next ⟨v.held, v.pend, v.busy, (v.world.1, e)⟩ w →
      (D.law mode fun _ => True).Next v (w.1, ()) := fun hn => ⟨beside_sees hn.1, hn.2.1⟩
  induction p generalizing v e with
  | ret r => exact hp
  | raise e => trivial
  | read p next ih =>
    intro w hn _
    exact ⟨trivial, ih _ (v := ⟨v.held, v.pend, mode.inTxn, (w.1, ())⟩) (hp _ (hnext hn) trivial).2⟩
  | lock p sel next ih =>
    intro w hn _
    exact ⟨trivial, ih _
      (v := ⟨{k | sel (v.pend w.1) = some k} ∪ v.held, v.pend, mode.inTxn, (w.1, ())⟩)
      (hp _ (hnext hn) trivial).2⟩
  | write f next ih => exact ih (v := ⟨v.held, f ∘ v.pend, v.busy, v.world⟩) hp
  | call q next ih => exact q.elim
  | commit p next ih =>
    intro w hn _
    obtain ⟨-, hi, hc, hp⟩ := hp _ (hnext hn) trivial
    exact ⟨trivial, ⟨hi, hn.2.2⟩, hc.imp fun _ hc => ⟨hc.1, hn.2, hc.2.2⟩,
      ih (v := ⟨∅, id, mode.inCall, (v.pend w.1, ())⟩) hp⟩
  | rollback next ih =>
    intro w hn
    exact ih (v := ⟨∅, id, mode.inCall, (w.1, ())⟩) (hp _ (hnext hn))

end Design

/-! ## Statements -/

namespace Service

variable {τ : Type} {m : Manner τ ρ α} {Q : τ → γ → Prop} {t : τ}

theorem talks_pure {x : γ} (ht : ¬ m.pending t) (hQ : Q t x) :
    (pure x : Prog σ κ (Point χ) ρ α ε γ).Talks m Q t := ⟨ht, hQ⟩

theorem talks_select {q : σ → β} {f : β → Prog σ κ (Point χ) ρ α ε γ} (ht : ¬ m.pending t)
    (h : ∀ d, (f (q d)).Talks m Q t) : (select q >>= f).Talks m Q t := ⟨ht, h⟩

theorem talks_ask {q : ρ} {f : α → Prog σ κ (Point χ) ρ α ε γ} (hq : m.allows t q)
    (h : ∀ a, (f a).Talks m Q (m.next t q a)) : (ask q >>= f).Talks m Q t := ⟨hq, h⟩

end Service

end Txn
