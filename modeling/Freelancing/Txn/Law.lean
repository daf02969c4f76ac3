import Freelancing.Txn.Machine
import Mathlib.Data.Set.BooleanAlgebra
import Mathlib.Order.CompletePartialOrder

/-!
# Rely-guarantee rules for transactions

A `Law` says what every state of a system satisfies (`Inv`), what a commit and a call of a session
that holds the locks `held` may do (`Commits`, `Calls`) and what is true wherever a labelled
statement runs (`Claims`). `Law.wp` is the proof obligation of one session's program, by recursion
on it: at every statement the committed database may have moved by steps of other sessions, which
hold none of the session's locks (`Law.Sees`). When every program meets its obligation, every step
of the system keeps the law (`Law.Holds.step`), and every run does (`Law.Holds.run`).
-/

namespace Txn

structure Law (σ κ π ρ α ν : Type) where
  mode : Mode
  ok : Move σ π ρ α ν → Prop
  Inv : σ → ν → Prop
  Commits : Set κ → π → σ → σ → ν → Prop
  Calls : Set κ → ρ → α → σ → ν → ν → Prop
  Claims : π → σ → σ → Prop

/-- What a session has in a proof: its locks, its writes, whether it keeps the others from
running, and the database and outside world it saw last. -/
structure View (σ κ ν : Type) where
  held : Set κ
  pend : σ → σ
  busy : Bool
  world : σ × ν

namespace Law

variable {σ κ π ρ α ε R S ν : Type} (L : Law σ κ π ρ α ν)

/-- A step of another session, as seen by a session that holds `held`. -/
def Other (held : Set κ) (w w' : σ × ν) : Prop :=
  L.Inv w.1 w.2 ∧ L.Inv w'.1 w'.2 ∧ ∃ held', Disjoint held held' ∧
    ((∃ p, L.Commits held' p w.1 w'.1 w.2 ∧ w'.2 = w.2) ∨
      ∃ q a, L.Calls held' q a w.1 w.2 w'.2 ∧ w'.1 = w.1)

/-- How far the world may move while a session that holds `held` does nothing. -/
def Sees (busy : Bool) (held : Set κ) (w w' : σ × ν) : Prop :=
  if busy then w' = w else Relation.ReflTransGen (L.Other held) w w'

def Next (v : View σ κ ν) (w : σ × ν) : Prop :=
  L.Sees v.busy v.held v.world w ∧ L.Inv w.1 w.2

/-- The obligation of the rest `p` of session `i`'s program. -/
def wp (i : Nat) : Prog σ κ π ρ α ε R → View σ κ ν → (View σ κ ν → R → Prop) → Prop
  | .ret r, v, Q => Q v r
  | .raise _, _, _ => True
  | .read p next, v, Q => ∀ w, L.Next v w → L.ok (.stmt i p w.1 (v.pend w.1) w.2) →
      L.Claims p w.1 (v.pend w.1) ∧
        wp i (next (v.pend w.1)) { v with busy := L.mode.inTxn, world := w } Q
  | .lock p sel next, v, Q => ∀ w, L.Next v w → L.ok (.stmt i p w.1 (v.pend w.1) w.2) →
      L.Claims p w.1 (v.pend w.1) ∧
        wp i (next (v.pend w.1))
          { v with
            held := {k | sel (v.pend w.1) = some k} ∪ v.held
            busy := L.mode.inTxn
            world := w } Q
  | .write f next, v, Q => wp i next { v with pend := f ∘ v.pend } Q
  | .call q next, v, Q => ∀ w, L.Next v w → ∀ a e', L.ok (.call i q a w.2 e') →
      L.Inv w.1 e' ∧ L.Calls v.held q a w.1 w.2 e' ∧
        wp i (next a) { v with busy := L.mode.inTxn, world := (w.1, e') } Q
  | .commit p next, v, Q => ∀ w, L.Next v w → L.ok (.stmt i p w.1 (v.pend w.1) w.2) →
      L.Claims p w.1 (v.pend w.1) ∧ L.Inv (v.pend w.1) w.2 ∧
        L.Commits v.held p w.1 (v.pend w.1) w.2 ∧
          wp i next ⟨∅, id, L.mode.inCall, (v.pend w.1, w.2)⟩ Q
  | .rollback next, v, Q => ∀ w, L.Next v w → wp i next ⟨∅, id, L.mode.inCall, w⟩ Q

variable {L}

theorem Sees.refl (busy : Bool) (held : Set κ) (w : σ × ν) : L.Sees busy held w w := by
  unfold Sees
  split
  · rfl
  · exact .refl

/-- A session that keeps the others from running sees no change. -/
theorem Sees.eq_of_busy {held : Set κ} {w w' : σ × ν} (h : L.Sees true held w w') : w' = w := h

/-- What no step of another session changes stays. -/
theorem Sees.stable {held : Set κ} {P : σ × ν → Prop} {busy : Bool} {w w' : σ × ν}
    (hs : ∀ w w', L.Other held w w' → P w → P w') (h : L.Sees busy held w w') (hw : P w) :
    P w' := by
  cases busy with
  | true => rwa [h.eq_of_busy]
  | false =>
    induction h with
    | refl => exact hw
    | tail _ ho ih => exact hs _ _ ho ih

/-- What others may do to a session that holds locks, they may do to one that holds none. -/
theorem Sees.release {busy : Bool} {held : Set κ} {w w' : σ × ν} (h : L.Sees busy held w w') :
    L.Sees false ∅ w w' := by
  cases busy with
  | true =>
    rw [h.eq_of_busy]
    exact .refl _ _ _
  | false =>
    have hmono : ∀ x y, L.Other held x y → L.Other ∅ x y := by
      intro x y ho
      obtain ⟨hx, hy, held', -, hm⟩ := ho
      exact ⟨hx, hy, held', Set.empty_disjoint _, hm⟩
    exact (show Relation.ReflTransGen (L.Other held) w w' from h).lift id hmono

/-- A world that has been seen satisfied the invariant. -/
theorem Sees.inv {busy : Bool} {held : Set κ} {w w' : σ × ν} (h : L.Sees busy held w w')
    (hi : L.Inv w'.1 w'.2) : L.Inv w.1 w.2 := by
  cases busy with
  | true => rwa [← h.eq_of_busy]
  | false =>
    rcases Relation.ReflTransGen.cases_head h with rfl | ⟨x, ho, -⟩
    · exact hi
    · exact ho.1

theorem lock_none {held : Set κ} : {k : κ | (none : Option κ) = some k} ∪ held = held := by
  ext k
  simp

theorem lock_some {held : Set κ} (n : κ) : {k | some n = some k} ∪ held = insert n held := by
  ext k
  simp [eq_comm]

theorem wp_mono {i : Nat} {p : Prog σ κ π ρ α ε R} {v : View σ κ ν}
    {Q Q' : View σ κ ν → R → Prop} (h : L.wp i p v Q) (hq : ∀ v r, Q v r → Q' v r) :
    L.wp i p v Q' := by
  induction p generalizing v with
  | ret r => exact hq _ _ h
  | raise e => trivial
  | read p next ih => exact fun w hw hok => ⟨(h w hw hok).1, ih _ (h w hw hok).2⟩
  | lock p sel next ih => exact fun w hw hok => ⟨(h w hw hok).1, ih _ (h w hw hok).2⟩
  | write f next ih => exact ih h
  | call q next ih =>
    exact fun w hw a e' hok => ⟨(h w hw a e' hok).1, (h w hw a e' hok).2.1,
      ih _ (h w hw a e' hok).2.2⟩
  | commit p next ih =>
    intro w hw hok
    obtain ⟨h1, h2, h3, h4⟩ := h w hw hok
    exact ⟨h1, h2, h3, ih h4⟩
  | rollback next ih => exact fun w hw => ih (h w hw)

theorem wp_bind {i : Nat} {p : Prog σ κ π ρ α ε R} {f : R → Prog σ κ π ρ α ε S} {v : View σ κ ν}
    {Q : View σ κ ν → S → Prop} (h : L.wp i p v fun v r => L.wp i (f r) v Q) :
    L.wp i (p >>= f) v Q := by
  rw [Prog.bind_eq]
  induction p generalizing v with
  | ret r => exact h
  | raise e => trivial
  | read p next ih => exact fun w hw hok => ⟨(h w hw hok).1, ih _ (h w hw hok).2⟩
  | lock p sel next ih => exact fun w hw hok => ⟨(h w hw hok).1, ih _ (h w hw hok).2⟩
  | write f next ih => exact ih h
  | call q next ih =>
    exact fun w hw a e' hok => ⟨(h w hw a e' hok).1, (h w hw a e' hok).2.1,
      ih _ (h w hw a e' hok).2.2⟩
  | commit p next ih =>
    intro w hw hok
    obtain ⟨h1, h2, h3, h4⟩ := h w hw hok
    exact ⟨h1, h2, h3, ih h4⟩
  | rollback next ih => exact fun w hw => ih (h w hw)

end Law

/-! ## Soundness -/

namespace Sys

variable {σ κ π ρ α ε R ν : Type}

/-- The locks session `i` holds. -/
def held (s : Sys σ κ π ρ α ε R ν) (i : Nat) : Set κ := {k | s.owner k = some i}

def view (s : Sys σ κ π ρ α ε R ν) (i : Nat) (w : σ × ν) : View σ κ ν :=
  ⟨s.held i, (s.sess i).pend, decide (s.running = some i), w⟩

theorem held_disjoint (s : Sys σ κ π ρ α ε R ν) {i j : Nat} (h : i ≠ j) :
    Disjoint (s.held i) (s.held j) := by
  rw [Set.disjoint_left]
  intro k hi hj
  exact h (Option.some.inj (hi.symm.trans hj))

theorem mem_held {s : Sys σ κ π ρ α ε R ν} {i : Nat} {k : κ} : k ∈ s.held i ↔ s.owner k = some i :=
  Iff.rfl

/-- Session `i` has not begun the request `p`. -/
structure Waiting (s : Sys σ κ π ρ α ε R ν) (i : Nat) (p : Prog σ κ π ρ α ε R) : Prop where
  sess : s.sess i = ⟨p, id⟩
  held : s.held i = ∅
  running : s.running ≠ some i

theorem waiting_init (d : σ) (e : ν) (p : Nat → Prog σ κ π ρ α ε R) (i : Nat) :
    (init d e p).Waiting i (p i) := by
  refine ⟨rfl, ?_, by simp [init]⟩
  ext k
  simp [held, init]

theorem held_endTxn_self (s : Sys σ κ π ρ α ε R ν) (i : Nat) (b : Bool)
    (p : Prog σ κ π ρ α ε R) : (s.endTxn i b p).held i = ∅ := by
  ext k
  simp only [mem_held, endTxn, Set.mem_empty_iff_false, iff_false]
  split
  · simp
  · assumption

theorem held_endTxn_ne (s : Sys σ κ π ρ α ε R ν) {i j : Nat} (h : j ≠ i) (b : Bool)
    (p : Prog σ κ π ρ α ε R) : (s.endTxn i b p).held j = s.held j := by
  ext k
  simp only [mem_held, endTxn]
  split
  · rename_i hk
    simp [hk, Ne.symm h]
  · rfl

end Sys

namespace Law

variable {σ κ π ρ α ε R ν : Type} (L : Law σ κ π ρ α ν)

/-- The law holds of a state: the invariant, and every session meets the obligation of what is
left of its program from a world it may have seen. -/
structure Holds (s : Sys σ κ π ρ α ε R ν) : Prop where
  inv : L.Inv s.db s.env
  sess : ∀ i, ∃ w, L.Sees (decide (s.running = some i)) (s.held i) w (s.db, s.env) ∧
    L.wp i (s.sess i).prog (s.view i w) fun _ _ => True

/-- The law holds, and what session `i` returns will satisfy `Q i` of the world it has seen last. -/
structure Keeps (Q : Nat → σ × ν → R → Prop) (s : Sys σ κ π ρ α ε R ν) : Prop where
  inv : L.Inv s.db s.env
  sess : ∀ i, ∃ w, L.Sees (decide (s.running = some i)) (s.held i) w (s.db, s.env) ∧
    L.wp i (s.sess i).prog (s.view i w) fun v => Q i v.world

/-- What a step may do to the world. -/
def Moves (s s' : Sys σ κ π ρ α ε R ν) : Move σ π ρ α ν → Prop
  | .stmt i p d d' e => d = s.db ∧ e = s.env ∧ L.Claims p d d' ∧ s'.env = s.env ∧
      (s'.db = s.db ∨ s'.db = d' ∧ L.Commits (s.held i) p d d' s.env)
  | .call i q a e e' => s'.db = s.db ∧ e = s.env ∧ s'.env = e' ∧ L.Calls (s.held i) q a s.db e e'
  | .silent _ => s'.db = s.db ∧ s'.env = s.env

variable {L} {Q : Nat → σ × ν → R → Prop}

theorem Keeps.holds {s : Sys σ κ π ρ α ε R ν} (h : L.Keeps Q s) : L.Holds s where
  inv := h.inv
  sess i := by
    obtain ⟨w, hs, hwp⟩ := h.sess i
    exact ⟨w, hs, wp_mono hwp fun _ _ _ => trivial⟩

theorem Holds.keeps {s : Sys σ κ π ρ α ε R ν} (h : L.Holds s) : L.Keeps (fun _ _ _ => True) s :=
  ⟨h.inv, h.sess⟩

theorem Keeps.result {s : Sys σ κ π ρ α ε R ν} (h : L.Keeps Q s) {i : Nat} {r : R}
    (hr : (s.sess i).prog = .ret r) : ∃ w, L.Sees false ∅ w (s.db, s.env) ∧ Q i w r := by
  obtain ⟨w, hs, hwp⟩ := h.sess i
  rw [hr] at hwp
  exact ⟨w, hs.release, hwp⟩

/-- What session `i` is about to commit. -/
theorem Holds.commits {s : Sys σ κ π ρ α ε R ν} (h : L.Holds s) {i : Nat} {p : π}
    {next : Prog σ κ π ρ α ε R} (hp : (s.sess i).prog = .commit p next)
    (hok : L.ok (.stmt i p s.db (s.seen i) s.env)) :
    L.Inv (s.seen i) s.env ∧ L.Commits (s.held i) p s.db (s.seen i) s.env := by
  obtain ⟨w, hs, hwp⟩ := h.sess i
  rw [hp] at hwp
  obtain ⟨-, hi, hc, -⟩ := hwp _ ⟨hs, h.inv⟩ hok
  exact ⟨hi, hc⟩

theorem Keeps.init {d : σ} {e : ν} {p : Nat → Prog σ κ π ρ α ε R} (hi : L.Inv d e)
    (hp : ∀ i, L.wp i (p i) ⟨∅, id, false, (d, e)⟩ fun v => Q i v.world) :
    L.Keeps Q (Sys.init d e p) where
  inv := hi
  sess i := by
    refine ⟨(d, e), .refl _ _ _, ?_⟩
    have : (Sys.init d e p).view i (d, e) = ⟨∅, id, false, (d, e)⟩ := by
      simp [Sys.view, Sys.init, Sys.held]
    rw [this]
    exact hp i

theorem Holds.init {d : σ} {e : ν} {p : Nat → Prog σ κ π ρ α ε R} (hi : L.Inv d e)
    (hp : ∀ i, L.wp i (p i) ⟨∅, id, false, (d, e)⟩ fun _ _ => True) : L.Holds (Sys.init d e p) :=
  (Keeps.init (Q := fun _ _ _ => True) hi hp).holds

/-- What session `i` will return, when it has not begun yet. -/
theorem Holds.awaits {s : Sys σ κ π ρ α ε R ν} (h : L.Holds s) {i : Nat}
    {p : Prog σ κ π ρ α ε R} (hi : s.Waiting i p) {φ : σ × ν → R → Prop}
    (hp : L.wp i p ⟨∅, id, false, (s.db, s.env)⟩ fun v => φ v.world) :
    L.Keeps (fun j w r => j = i → φ w r) s where
  inv := h.inv
  sess j := by
    by_cases hj : j = i
    · subst hj
      refine ⟨(s.db, s.env), .refl _ _ _, ?_⟩
      rw [Sys.view, hi.held, hi.sess, decide_eq_false hi.running]
      exact wp_mono hp fun _ _ h _ => h
    · obtain ⟨w, hs, hwp⟩ := h.sess j
      exact ⟨w, hs, wp_mono hwp fun _ _ _ he => absurd he hj⟩

/-- The other sessions after a step of session `i`: their locks and obligations are unchanged, and
the world moved by a step they may see. -/
theorem Keeps.others {s t : Sys σ κ π ρ α ε R ν} (h : L.Keeps Q s) {i : Nat}
    (hrun : s.running = none ∨ s.running = some i)
    (hrun' : t.running = none ∨ t.running = some i)
    (hheld : ∀ j, j ≠ i → t.held j = s.held j) (hsess : ∀ j, j ≠ i → t.sess j = s.sess j)
    (hw : (t.db, t.env) = (s.db, s.env) ∨
      ∀ j, j ≠ i → L.Other (s.held j) (s.db, s.env) (t.db, t.env)) :
    ∀ j, j ≠ i → ∃ w, L.Sees (decide (t.running = some j)) (t.held j) w (t.db, t.env) ∧
      L.wp j (t.sess j).prog (t.view j w) fun v => Q j v.world := by
  intro j hj
  obtain ⟨w, hs, hwp⟩ := h.sess j
  have hb : decide (s.running = some j) = false := by
    rcases hrun with h | h <;> simp [h, Ne.symm hj]
  have hb' : decide (t.running = some j) = false := by
    rcases hrun' with h | h <;> simp [h, Ne.symm hj]
  refine ⟨w, ?_, ?_⟩
  · rw [hb] at hs
    rw [hb', hheld j hj]
    rcases hw with he | ho
    · rw [he]; exact hs
    · exact Relation.ReflTransGen.tail hs (ho j hj)
  · have hv : t.view j w = s.view j w := by
      simp only [Sys.view, hheld j hj, hsess j hj, hb, hb']
    rw [hv, hsess j hj]
    exact hwp

/-- The law after the end of session `i`'s transaction, with `d` committed. -/
theorem Keeps.endTxn {s : Sys σ κ π ρ α ε R ν} (h : L.Keeps Q s) {i : Nat}
    (hrun : s.running = none ∨ s.running = some i) {b : Bool} {p : Prog σ κ π ρ α ε R} {d : σ}
    (hd : L.Inv d s.env) (hc : d = s.db ∨ ∃ q, L.Commits (s.held i) q s.db d s.env) {w : σ × ν}
    (hw : L.Sees b ∅ w (d, s.env)) (hp : L.wp i p ⟨∅, id, b, w⟩ fun v => Q i v.world) :
    L.Keeps Q ({ s.endTxn i b p with db := d } : Sys σ κ π ρ α ε R ν) := by
  have hoth := h.others (t := { s.endTxn i b p with db := d }) (i := i) hrun
    (by simp only [Sys.endTxn, Sys.goOn]; cases b <;> simp)
    (fun j hj => s.held_endTxn_ne hj b p)
    (fun j hj => by simp [Sys.endTxn, Sys.goOn, hj])
    (by
      rcases hc with rfl | ⟨q, hc⟩
      · exact .inl rfl
      · exact .inr fun j hj => ⟨h.inv, hd, _, s.held_disjoint hj, .inl ⟨q, hc, rfl⟩⟩)
  refine ⟨hd, fun j => ?_⟩
  by_cases hj : j = i
  · subst hj
    have hh : ({ s.endTxn j b p with db := d } : Sys σ κ π ρ α ε R ν).held j = ∅ :=
      s.held_endTxn_self j b p
    have hb : decide (({ s.endTxn j b p with db := d } : Sys σ κ π ρ α ε R ν).running = some j) =
        b := by
      cases b <;> simp [Sys.endTxn, Sys.goOn]
    have hv : ({ s.endTxn j b p with db := d } : Sys σ κ π ρ α ε R ν).view j w = ⟨∅, id, b, w⟩ := by
      rw [Sys.view, hh, hb]
      simp [Sys.endTxn, Sys.goOn]
    refine ⟨w, by rw [hb, hh]; exact hw, ?_⟩
    rw [hv]
    simpa [Sys.endTxn, Sys.goOn] using hp
  · exact hoth j hj

/-- The law after a statement of session `i` inside its transaction: its locks are now those of
`o`, the outside world is `e`. -/
theorem Keeps.goOn {s : Sys σ κ π ρ α ε R ν} (h : L.Keeps Q s) {i : Nat}
    (hrun : s.running = none ∨ s.running = some i) {b : Bool} {p : Prog σ κ π ρ α ε R}
    {pend : σ → σ} {o : κ → Option Nat} {e : ν} {w : σ × ν} (hi : L.Inv s.db e)
    (hc : e = s.env ∨ ∃ q a, L.Calls (s.held i) q a s.db s.env e)
    (ho : ∀ j, j ≠ i → ∀ k, o k = some j ↔ s.owner k = some j)
    (hw : L.Sees b {k | o k = some i} w (s.db, e))
    (hp : L.wp i p ⟨{k | o k = some i}, pend, b, w⟩ fun v => Q i v.world) :
    L.Keeps Q ({ s.goOn i b p pend with owner := o, env := e } : Sys σ κ π ρ α ε R ν) := by
  have hoth := h.others (i := i) (t := { s.goOn i b p pend with owner := o, env := e }) hrun
    (by simp only [Sys.goOn]; cases b <;> simp)
    (fun j hj => Set.ext fun k => ho j hj k)
    (fun j hj => by simp [Sys.goOn, hj])
    (by
      rcases hc with rfl | ⟨q, a, hc⟩
      · exact .inl rfl
      · exact .inr fun j hj => ⟨h.inv, hi, _, s.held_disjoint hj, .inr ⟨q, a, hc, rfl⟩⟩)
  refine ⟨hi, fun j => ?_⟩
  by_cases hj : j = i
  · subst hj
    have hb : decide (({ s.goOn j b p pend with owner := o, env := e } :
        Sys σ κ π ρ α ε R ν).running = some j) = b := by
      simp only [Sys.goOn]
      cases b <;> simp
    refine ⟨w, by rw [hb]; exact hw, ?_⟩
    have hv : ({ s.goOn j b p pend with owner := o, env := e } : Sys σ κ π ρ α ε R ν).view j w =
        ⟨{k | o k = some j}, pend, b, w⟩ := by
      rw [Sys.view, hb]
      simp [Sys.held, Sys.goOn]
    rw [hv]
    simpa [Sys.goOn] using hp
  · exact hoth j hj

section
variable [DecidableEq κ]

/-- The locks of a session that takes `k`. -/
theorem owned_lock {owner : κ → Option Nat} {i : Nat} {k : κ} {o : Option κ} (ho : o = some k) :
    {k' | Function.update owner k (some i) k' = some i} =
      {k' | o = some k'} ∪ {k' | owner k' = some i} := by
  ext k'
  by_cases hk : k' = k
  · subst hk
    simp [ho]
  · simpa [Function.update_of_ne hk, ho] using fun h => absurd h hk

/-- The other sessions keep their locks when a session takes one that is free. -/
theorem owned_lock_ne {owner : κ → Option Nat} {i j : Nat} {k : κ}
    (hfree : owner k = none ∨ owner k = some i) (hj : j ≠ i) (k' : κ) :
    Function.update owner k (some i) k' = some j ↔ owner k' = some j := by
  by_cases hk : k' = k
  · subst hk
    simp only [Function.update_self, Option.some.injEq]
    rcases hfree with hf | hf <;> simp [hf, Ne.symm hj]
  · simp [Function.update_of_ne hk]

/-- **A step keeps the law**, and moves the world only as the law says. -/
theorem Keeps.step {s s' : Sys σ κ π ρ α ε R ν} (h : L.Keeps Q s) {i : Nat} {c : Choice α ε ν}
    {mv : Move σ π ρ α ν} (hs : s.step? L.mode i c = some (s', mv)) (hok : L.ok mv) :
    L.Keeps Q s' ∧ L.Moves s s' mv := by
  unfold Sys.step? at hs
  split at hs
  case isFalse => cases hs
  case isTrue hrun =>
  obtain ⟨w, hsees, hwp⟩ := h.sess i
  have hnext : L.Next (s.view i w) (s.db, s.env) := ⟨hsees, h.inv⟩
  have hsilent : ∀ (b : Bool) (p : Prog σ κ π ρ α ε R) (w : σ × ν),
      L.Sees b ∅ w (s.db, s.env) → L.wp i p ⟨∅, id, b, w⟩ (fun v => Q i v.world) →
      L.Keeps Q (s.endTxn i b p) :=
    fun b p w hw hp => h.endTxn hrun h.inv (.inl rfl) hw hp
  split at hs
  · -- abort
    cases hs
    exact ⟨hsilent _ _ _ (.refl _ _ _) trivial, rfl, rfl⟩
  · -- ret
    rename_i heq
    cases hs
    obtain ⟨w, hw, hr⟩ := h.result heq
    exact ⟨hsilent _ _ w hw hr, rfl, rfl⟩
  · -- raise
    cases hs
    exact ⟨hsilent _ _ _ (.refl _ _ _) trivial, rfl, rfl⟩
  · -- read
    rename_i p next heq
    cases hs
    rw [heq] at hwp
    obtain ⟨hcl, hwp⟩ := hwp _ hnext hok
    exact ⟨h.goOn hrun h.inv (.inl rfl) (fun _ _ _ => Iff.rfl) (.refl _ _ _) hwp,
      rfl, rfl, hcl, rfl, .inl rfl⟩
  · -- lock
    rename_i p sel next heq
    rw [heq] at hwp
    split at hs
    · rename_i hsel
      cases hs
      obtain ⟨hcl, hwp⟩ := hwp _ hnext hok
      have hset : {k | sel (s.seen i) = some k} ∪ s.held i = s.held i := by simp [hsel]
      refine ⟨h.goOn hrun h.inv (.inl rfl) (fun _ _ _ => Iff.rfl) (.refl _ _ _) ?_,
        rfl, rfl, hcl, rfl, .inl rfl⟩
      rw [show {k | s.owner k = some i} = _ from hset.symm]
      exact hwp
    · rename_i k hsel
      split at hs
      · rename_i hfree
        cases hs
        obtain ⟨hcl, hwp⟩ := hwp _ hnext hok
        refine ⟨h.goOn (o := Function.update s.owner k (some i)) hrun h.inv (.inl rfl)
          (fun j hj k' => owned_lock_ne hfree hj k') (.refl _ _ _) ?_, rfl, rfl, hcl, rfl, .inl rfl⟩
        rw [owned_lock hsel]
        exact hwp
      · cases hs
  · -- write: the session has seen no more than before
    rename_i f next heq
    cases hs
    rw [heq] at hwp
    exact ⟨h.goOn hrun h.inv (.inl rfl) (fun _ _ _ => Iff.rfl) hsees hwp, rfl, rfl⟩
  · -- call
    rename_i a e' q next heq
    cases hs
    rw [heq] at hwp
    obtain ⟨hi, hc, hwp⟩ := hwp _ hnext _ _ hok
    exact ⟨h.goOn hrun hi (.inr ⟨_, _, hc⟩) (fun _ _ _ => Iff.rfl) (.refl _ _ _) hwp,
      rfl, rfl, rfl, hc⟩
  · -- commit
    rename_i p next heq
    cases hs
    rw [heq] at hwp
    obtain ⟨hcl, hi, hc, hwp⟩ := hwp _ hnext hok
    exact ⟨h.endTxn hrun hi (.inr ⟨p, hc⟩) (.refl _ _ _) hwp, rfl, rfl, hcl, rfl, .inr ⟨rfl, hc⟩⟩
  · -- rollback
    rename_i next heq
    cases hs
    rw [heq] at hwp
    exact ⟨hsilent _ _ _ (.refl _ _ _) (hwp _ hnext), rfl, rfl⟩
  · cases hs

theorem Keeps.run {s s' : Sys σ κ π ρ α ε R ν} (h : L.Keeps Q s) (hr : Sys.Run L.mode L.ok s s') :
    L.Keeps Q s' := by
  induction hr with
  | refl => exact h
  | tail _ hs ih =>
    obtain ⟨i, c, mv, hs, hok⟩ := hs
    exact (ih.step hs hok).1

theorem Holds.step {s s' : Sys σ κ π ρ α ε R ν} (h : L.Holds s) {i : Nat} {c : Choice α ε ν}
    {mv : Move σ π ρ α ν} (hs : s.step? L.mode i c = some (s', mv)) (hok : L.ok mv) :
    L.Holds s' ∧ L.Moves s s' mv := by
  obtain ⟨h', hm⟩ := h.keeps.step hs hok
  exact ⟨h'.holds, hm⟩

theorem Holds.run {s s' : Sys σ κ π ρ α ε R ν} (h : L.Holds s) (hr : Sys.Run L.mode L.ok s s') :
    L.Holds s' := (h.keeps.run hr).holds

/-- What every commit and every call keeps holds in every state of a run. -/
theorem Holds.invariant {P : σ → ν → Prop} {s s' : Sys σ κ π ρ α ε R ν} (h : L.Holds s)
    (hr : Sys.Run L.mode L.ok s s')
    (hc : ∀ i held p d d' e, L.Inv d e → L.Inv d' e → L.ok (.stmt i p d d' e) →
      L.Commits held p d d' e → P d e → P d' e)
    (hq : ∀ i held q a d e e', L.Inv d e → L.ok (.call i q a e e') → L.Calls held q a d e e' →
      P d e → P d e')
    (hP : P s.db s.env) : P s'.db s'.env := by
  induction hr with
  | refl => exact hP
  | @tail t t' hr hs ih =>
    obtain ⟨i, c, mv, hs, hok⟩ := hs
    have ht := h.run hr
    obtain ⟨ht', hm⟩ := ht.step hs hok
    cases mv with
    | stmt j p d d' e =>
      obtain ⟨rfl, rfl, -, henv, hdb | ⟨hdb, hcom⟩⟩ := hm
      · rw [hdb, henv]
        exact ih
      · rw [henv]
        have hi := ht'.inv
        rw [henv] at hi
        subst hdb
        exact hc j _ p _ _ _ ht.inv hi hok hcom ih
    | call j q a e e' =>
      obtain ⟨hdb, rfl, rfl, hcall⟩ := hm
      rw [hdb]
      exact hq j _ q a _ _ _ ht.inv hok hcall ih
    | silent j =>
      obtain ⟨hdb, henv⟩ := hm
      rw [hdb, henv]
      exact ih

end

end Law

end Txn
