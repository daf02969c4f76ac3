import Freelancing.Txn.Rely
import Freelancing.Txn.Atomic

/-!
# Services

A service is a transaction program whose commits are labelled. A `Design` says what the services of
a component do between them: the invariant of the tables, the effect of each commit, what is asked
of the outside world, and what a session may rely on while others run. Where every program meets
its obligation under `Design.law`, every state of every run satisfies the invariant, and what every
commit and every call keeps stays true from then on (`Design.keeps_of_run`).
-/

namespace Txn

inductive Point (χ : Type)
  | stmt
  | commit (c : χ)

/-- What holds of the label of a commit and of the end of the request after it. -/
def Signed {χ ε R : Type} (φ : χ → Except ε R → Prop) : Point χ → Except ε R → Prop
  | .stmt, _ => False
  | .commit c, r => φ c r

theorem Signed.mono {χ ε R S : Type} {φ : χ → Except ε R → Prop} {φ' : χ → Except ε S → Prop}
    {f : Except ε R → Except ε S} (h : ∀ c r, φ c r → φ' c (f r)) (p : Point χ) (r : Except ε R)
    (hp : Signed φ p r) : Signed φ' p (f r) := by
  cases p with
  | stmt => exact hp
  | commit c => exact h c r hp

/-! ## Statements -/

namespace Service

variable {σ κ χ ρ α ε β : Type}

def raise (e : ε) : Prog σ κ (Point χ) ρ α ε β := .raise e

def require (c : Bool) (e : ε) : Prog σ κ (Point χ) ρ α ε Unit := Prog.require c e

def select (q : σ → β) : Prog σ κ (Point χ) ρ α ε β := Prog.select .stmt q

def selectForUpdate (name : β → κ) (q : σ → Option β) : Prog σ κ (Point χ) ρ α ε (Option β) :=
  Prog.selectForUpdate .stmt name q

def write (w : σ → σ) : Prog σ κ (Point χ) ρ α ε Unit := .write w (.ret ())

def update (name : κ) (w : σ → σ) : Prog σ κ (Point χ) ρ α ε Unit := Prog.update .stmt name w

def commit (c : χ) : Prog σ κ (Point χ) ρ α ε Unit := .commit (.commit c) (.ret ())

def rollback : Prog σ κ (Point χ) ρ α ε Unit := .rollback (.ret ())

def ask (q : ρ) : Prog σ κ (Point χ) ρ α ε α := .call q .ret

/-- The flush of a row whose unique key is `name`; `e` is what an `IntegrityError` becomes. -/
def reserve (e : ε) (name : κ) (q : σ → Bool) : Prog σ κ (Point χ) ρ α ε Unit := do
  let t ← Prog.taken .stmt name q
  require (!t) e

/-! A program that commits once, statement by statement. -/

variable {γ : Type} {ψ : γ → Prop} {φ : Point χ → Except ε γ → Prop}

theorem ends_select {q : σ → β} {f : β → Prog σ κ (Point χ) ρ α ε γ} (h : ∀ x, (f x).Ends ψ φ) :
    (select q >>= f).Ends ψ φ := fun _ => h _

theorem ends_selectForUpdate {name : β → κ} {q : σ → Option β}
    {f : Option β → Prog σ κ (Point χ) ρ α ε γ} (h : ∀ x, (f x).Ends ψ φ) :
    (selectForUpdate name q >>= f).Ends ψ φ := fun _ => h _

theorem ends_update {name : κ} {w : σ → σ} {f : Unit → Prog σ κ (Point χ) ρ α ε γ}
    (h : (f ()).Ends ψ φ) : (update name w >>= f).Ends ψ φ := fun _ => h

theorem ends_write {w : σ → σ} {f : Unit → Prog σ κ (Point χ) ρ α ε γ} (h : (f ()).Ends ψ φ) :
    (write w >>= f).Ends ψ φ := h

theorem ends_rollback {f : Unit → Prog σ κ (Point χ) ρ α ε γ} (h : (f ()).Ends ψ φ) :
    (rollback >>= f).Ends ψ φ := h

theorem ends_taken {name : κ} {q : σ → Bool} {f : Bool → Prog σ κ (Point χ) ρ α ε γ}
    (h : ∀ t, (f t).Ends ψ φ) : (Prog.taken .stmt name q >>= f).Ends ψ φ := fun _ => h _

theorem ends_require {c : Bool} {e : ε} {f : Unit → Prog σ κ (Point χ) ρ α ε γ}
    (h : c = true → (f ()).Ends ψ φ) : (require c e >>= f).Ends ψ φ := by
  cases c with
  | true => exact h rfl
  | false => trivial

theorem ends_reserve {e : ε} {name : κ} {q : σ → Bool} {f : Unit → Prog σ κ (Point χ) ρ α ε γ}
    (h : (f ()).Ends ψ φ) : (reserve e name q >>= f).Ends ψ φ := by
  intro d
  exact ends_require fun _ => h

theorem ends_commit {c : χ} {f : Unit → Prog σ κ (Point χ) ρ α ε γ} {r : Except ε γ}
    (hf : f () = .done r) (h : φ (.commit c) r) : (commit c >>= f).Ends ψ φ := ⟨r, hf, h⟩

/-! What a program commits. -/

section
variable {P : Point χ → Prop}

theorem only_select {q : σ → β} {f : β → Prog σ κ (Point χ) ρ α ε γ}
    (h : ∀ d, (f (q d)).CommitsOnly P) : (select q >>= f).CommitsOnly P := h

theorem only_selectForUpdate {name : β → κ} {q : σ → Option β}
    {f : Option β → Prog σ κ (Point χ) ρ α ε γ} (h : ∀ d, (f (q d)).CommitsOnly P) :
    (selectForUpdate name q >>= f).CommitsOnly P := h

theorem only_write {w : σ → σ} {f : Unit → Prog σ κ (Point χ) ρ α ε γ}
    (h : (f ()).CommitsOnly P) : (write w >>= f).CommitsOnly P := h

theorem only_require {c : Bool} {e : ε} {f : Unit → Prog σ κ (Point χ) ρ α ε γ}
    (h : c = true → (f ()).CommitsOnly P) : (require c e >>= f).CommitsOnly P := by
  cases c with
  | true => exact h rfl
  | false => trivial

theorem only_reserve {e : ε} {name : κ} {q : σ → Bool} {f : Unit → Prog σ κ (Point χ) ρ α ε γ}
    (h : (f ()).CommitsOnly P) : (reserve e name q >>= f).CommitsOnly P := by
  intro d
  exact only_require fun _ => h

theorem only_commit {c : χ} {f : Unit → Prog σ κ (Point χ) ρ α ε γ} (hc : P (.commit c))
    (h : (f ()).CommitsOnly P) : (commit c >>= f).CommitsOnly P := ⟨hc, h⟩

/-! A program that refuses nothing after its commit. -/

section
variable {ψ : γ → Prop} {φ : Point χ → Except ε γ → Prop}

theorem settles_selectForUpdate {name : β → κ} {q : σ → Option β}
    {f : Option β → Prog σ κ (Point χ) ρ α ε γ} (h : ∀ d, (f (q d)).Settles ψ φ) :
    (selectForUpdate name q >>= f).Settles ψ φ := h

theorem settles_select {q : σ → β} {f : β → Prog σ κ (Point χ) ρ α ε γ}
    (h : ∀ d, (f (q d)).Settles ψ φ) : (select q >>= f).Settles ψ φ := h

theorem settles_write {w : σ → σ} {f : Unit → Prog σ κ (Point χ) ρ α ε γ}
    (h : (f ()).Settles ψ φ) : (write w >>= f).Settles ψ φ := h

theorem settles_update {name : κ} {w : σ → σ} {f : Unit → Prog σ κ (Point χ) ρ α ε γ}
    (h : (f ()).Settles ψ φ) : (update name w >>= f).Settles ψ φ := fun _ => h

theorem settles_require {c : Bool} {e : ε} {f : Unit → Prog σ κ (Point χ) ρ α ε γ}
    (h : c = true → (f ()).Settles ψ φ) : (require c e >>= f).Settles ψ φ := by
  cases c with
  | true => exact h rfl
  | false => trivial

theorem settles_reserve {e : ε} {name : κ} {q : σ → Bool} {f : Unit → Prog σ κ (Point χ) ρ α ε γ}
    (h : (f ()).Settles ψ φ) : (reserve e name q >>= f).Settles ψ φ := by
  intro d
  exact settles_require fun _ => h

theorem settles_commit {c : χ} {f : Unit → Prog σ κ (Point χ) ρ α ε γ}
    (h : (f ()).Replies (φ (.commit c))) : (commit c >>= f).Settles ψ φ := h

end

theorem queries_require {c : Bool} {e : ε} {f : Unit → Prog σ κ (Point χ) ρ α ε γ}
    (h : c = true → (f ()).Queries) : (require c e >>= f).Queries := by
  cases c with
  | true => exact h rfl
  | false => trivial

end

/-! A request served alone. -/

section
variable {answer : ρ → α} {d : σ} {pend : σ → σ}

theorem alone_require {c : Bool} {e : ε} {f : Unit → Prog σ κ (Point χ) ρ α ε γ} (h : c = true) :
    (require c e >>= f).alone answer d pend = (f ()).alone answer d pend := by
  rw [h]
  rfl

theorem alone_refuse {c : Bool} {e : ε} {f : Unit → Prog σ κ (Point χ) ρ α ε γ} (h : c = false) :
    (require c e >>= f).alone answer d pend = ⟨d, .error e⟩ := by
  rw [h]
  rfl

theorem refused_require {c : Bool} {e : ε} {f : Unit → Prog σ κ (Point χ) ρ α ε γ}
    (h : c = true → ∃ e', (f ()).alone answer d pend = ⟨d, .error e'⟩) :
    ∃ e', (require c e >>= f).alone answer d pend = ⟨d, .error e'⟩ := by
  cases c with
  | true => exact h rfl
  | false => exact ⟨e, rfl⟩

theorem alone_select {q : σ → β} {f : β → Prog σ κ (Point χ) ρ α ε γ} :
    (select q >>= f).alone answer d pend = (f (q (pend d))).alone answer d pend := rfl

theorem alone_selectForUpdate {name : β → κ} {q : σ → Option β}
    {f : Option β → Prog σ κ (Point χ) ρ α ε γ} :
    (selectForUpdate name q >>= f).alone answer d pend = (f (q (pend d))).alone answer d pend := rfl

theorem alone_reserve {e : ε} {name : κ} {q : σ → Bool} {f : Unit → Prog σ κ (Point χ) ρ α ε γ}
    (h : q (pend d) = false) :
    (reserve e name q >>= f).alone answer d pend = (f ()).alone answer d pend := by
  unfold reserve
  rw [bind_assoc]
  exact alone_require (by rw [h]; rfl)

theorem alone_write {w : σ → σ} {f : Unit → Prog σ κ (Point χ) ρ α ε γ} :
    (write w >>= f).alone answer d pend = (f ()).alone answer d (w ∘ pend) := rfl

theorem alone_commit {c : χ} {f : Unit → Prog σ κ (Point χ) ρ α ε γ} :
    (commit c >>= f).alone answer d pend = (f ()).alone answer (pend d) id := rfl

theorem alone_ask {q : ρ} {f : α → Prog σ κ (Point χ) ρ α ε γ} :
    (ask q >>= f).alone answer d pend = (f (answer q)).alone answer d pend := rfl

end

end Service

/-! ## Answers -/

namespace Law

variable {σ κ π ρ α ε R ν : Type} [DecidableEq κ] {L : Law σ κ π ρ α ν} {Q : Nat → σ × ν → R → Prop}

/-- What a session that writes nothing returns, satisfies `Q` of the world at the step that ends
it. -/
theorem Keeps.answered {s s' : Sys σ κ π ρ α ε R ν} (h : L.Keeps Q s) {i : Nat} {c : Choice α ε ν}
    {mv : Move σ π ρ α ν} {r : R} (hq : (s.sess i).prog.Queries)
    (hs : s.step? L.mode i c = some (s', mv)) (hok : L.ok mv) (hne : ¬ s.Ended i (.ok r))
    (hend : s'.Ended i (.ok r)) : Q i (s'.db, s'.env) r := by
  obtain ⟨w, hsees, hwp⟩ := h.sess i
  have hnext : L.Next (s.view i w) (s.db, s.env) := ⟨hsees, h.inv⟩
  unfold Sys.Ended at hne hend
  unfold Sys.step? at hs
  split at hs
  case isFalse => cases hs
  case isTrue hrun =>
  split at hs
  · -- abort
    cases hs
    simp [Sys.endTxn, Sys.goOn, Prog.done] at hend
  · -- ret
    rename_i heq
    cases hs
    simp only [Sys.endTxn, Sys.goOn, Function.update_self] at hend
    exact absurd (heq.trans hend) hne
  · -- raise
    cases hs
    simp [Sys.endTxn, Sys.goOn, Prog.done] at hend
  · -- read
    rename_i p next heq
    cases hs
    simp only [Sys.goOn, Function.update_self] at hend
    rw [heq] at hwp
    obtain ⟨-, hwp⟩ := hwp _ hnext hok
    rw [show next ((s.view i w).pend (s.db, s.env).1) = _ from hend] at hwp
    exact hwp
  · -- lock
    rename_i p sel next heq
    rw [heq] at hwp
    have hlock : L.ok (.stmt i p s.db (s.seen i) s.env) → next (s.seen i) = .done (.ok r) →
        Q i (s.db, s.env) r := by
      intro hok hr
      obtain ⟨-, hwp⟩ := hwp _ hnext hok
      rw [show next ((s.view i w).pend (s.db, s.env).1) = _ from hr] at hwp
      exact hwp
    split at hs
    · cases hs
      simp only [Sys.goOn, Function.update_self] at hend
      exact hlock hok hend
    · split at hs
      · cases hs
        simp only [Sys.goOn, Function.update_self] at hend
        exact hlock hok hend
      · cases hs
  · -- write
    rename_i heq
    rw [heq] at hq
    exact hq.elim
  · -- call
    rename_i heq
    cases hs
    simp only [Sys.goOn, Function.update_self] at hend
    rw [heq] at hwp
    obtain ⟨-, -, hwp⟩ := hwp _ hnext _ _ hok
    rw [hend] at hwp
    exact hwp
  · -- commit
    rename_i heq
    rw [heq] at hq
    exact hq.elim
  · -- rollback
    rename_i next heq
    cases hs
    simp only [Sys.endTxn, Sys.goOn, Function.update_self] at hend
    rw [heq] at hwp
    have hwp := hwp _ hnext
    rw [show next = _ from hend] at hwp
    exact hwp
  · cases hs

end Law

/-! ## Designs -/

structure Design (σ κ χ ρ α ν : Type) where
  Inv : σ → ν → Prop
  Effect : Set κ → χ → σ → σ → ν → Prop
  Asks : ρ → α → σ → ν → ν → Prop
  Frame : Set κ → σ → σ → Prop
  refl : ∀ held d, Frame held d d
  trans : ∀ {held d d' d''}, Frame held d d' → Frame held d' d'' → Frame held d d''
  mono : ∀ {held held' d d'}, held' ⊆ held → Frame held d d' → Frame held' d d'
  frame : ∀ {held held' c d d' e}, Inv d e → Effect held' c d d' e → Disjoint held held' →
    Frame held d d'
  keeps : ∀ {held c d d' e}, Inv d e → Effect held c d d' e → Inv d' e
  asks : ∀ {q a d e e'}, Inv d e → Asks q a d e e' → Inv d e'

namespace Design

variable {σ κ χ ρ α ε R ν β : Type} (D : Design σ κ χ ρ α ν)

def law (mode : Mode) (ok : Move σ (Point χ) ρ α ν → Prop) : Law σ κ (Point χ) ρ α ν where
  mode := mode
  ok := ok
  Inv := D.Inv
  Commits held p d d' e := ∃ c, p = .commit c ∧ D.Inv d e ∧ D.Effect held c d d' e
  Calls _ q a d e e' := D.Asks q a d e e'
  Claims _ _ _ := True

/-- How far the world may have gone when the next statement runs. -/
abbrev Later (mode : Mode) (ok : Move σ (Point χ) ρ α ν → Prop) :=
  Law.Later (D.law mode ok) D.Frame

/-- What is known of a commit. -/
structure Committed (c : χ) (d d' : σ) (e : ν) : Prop where
  inv : D.Inv d e
  inv' : D.Inv d' e
  frame : D.Frame ∅ d d'
  effect : ∃ held, D.Effect held c d d' e

variable {D} {mode : Mode} {ok : Move σ (Point χ) ρ α ν → Prop} {i : Nat} {held : Set κ}
  {pend : σ → σ} {b : Bool} {w : σ × ν}

theorem frames : (D.law mode ok).Frames D.Frame where
  refl := D.refl
  trans := D.trans
  mono := D.mono
  commit h hd := by
    obtain ⟨c, -, hi, he⟩ := h
    exact D.frame hi he hd
  claims _ _ _ := trivial

theorem wp_require {c : Bool} {e : ε} {v : View σ κ ν} {Q : View σ κ ν → Unit → Prop}
    (h : c = true → Q v ()) :
    (D.law mode ok).wp i (Service.require c e : Prog σ κ (Point χ) ρ α ε Unit) v Q :=
  Law.wp_require h

theorem wp_reserve {e : ε} {name : κ} {q : σ → Bool} {Q : View σ κ ν → Unit → Prop}
    (h : ∀ w', D.Later mode ok held b w w' → q (pend w'.1) = false →
      Q ⟨insert name held, pend, mode.inTxn, w'⟩ ()) :
    (D.law mode ok).wp i (Service.reserve (ρ := ρ) (α := α) e name q) ⟨held, pend, b, w⟩ Q :=
  Law.wp_bind (frames.wp_taken fun w' hw => Law.wp_require fun hq => h w' hw (by simpa using hq))

theorem wp_write {f : σ → σ} {Q : View σ κ ν → Unit → Prop} (h : Q ⟨held, f ∘ pend, b, w⟩ ()) :
    (D.law mode ok).wp i (Service.write f : Prog σ κ (Point χ) ρ α ε Unit) ⟨held, pend, b, w⟩ Q := h

theorem wp_rollback {Q : View σ κ ν → Unit → Prop}
    (h : ∀ w', D.Later mode ok held b w w' → Q ⟨∅, id, mode.inCall, w'⟩ ()) :
    (D.law mode ok).wp i (Service.rollback : Prog σ κ (Point χ) ρ α ε Unit) ⟨held, pend, b, w⟩ Q :=
  fun w' hn => h w' (frames.later hn)

theorem wp_commit {c : χ} {Q : View σ κ ν → Unit → Prop}
    (h : ∀ w', D.Later mode ok held b w w' → D.Effect held c w'.1 (pend w'.1) w'.2)
    (k : ∀ w', D.Later mode ok held b w w' → D.Inv (pend w'.1) w'.2 →
      Q ⟨∅, id, mode.inCall, (pend w'.1, w'.2)⟩ ()) :
    (D.law mode ok).wp i (Service.commit c : Prog σ κ (Point χ) ρ α ε Unit) ⟨held, pend, b, w⟩ Q :=
  frames.wp_commit fun w' hw _ =>
    have hi := D.keeps hw.inv (h w' hw)
    ⟨hi, ⟨c, rfl, hw.inv, h w' hw⟩, k w' hw hi⟩

/-- A commit of a run whose moves are `ok`. -/
theorem wp_commit_ok {c : χ} {Q : View σ κ ν → Unit → Prop}
    (h : ∀ w', D.Later mode ok held b w w' → ok (.stmt i (.commit c) w'.1 (pend w'.1) w'.2) →
      D.Effect held c w'.1 (pend w'.1) w'.2 ∧
        (D.Inv (pend w'.1) w'.2 → Q ⟨∅, id, mode.inCall, (pend w'.1, w'.2)⟩ ())) :
    (D.law mode ok).wp i (Service.commit c : Prog σ κ (Point χ) ρ α ε Unit) ⟨held, pend, b, w⟩ Q :=
  frames.wp_commit fun w' hw hok =>
    have he := h w' hw hok
    have hi := D.keeps hw.inv he.1
    ⟨hi, ⟨c, rfl, hw.inv, he.1⟩, he.2 hi⟩

theorem wp_ask {q : ρ} {Q : View σ κ ν → α → Prop}
    (h : ∀ w' a e', D.Later mode ok held b w w' → ok (.call i q a w'.2 e') →
      D.Asks q a w'.1 w'.2 e' ∧ Q ⟨held, pend, mode.inTxn, (w'.1, e')⟩ a) :
    (D.law mode ok).wp i (Service.ask q : Prog σ κ (Point χ) ρ α ε α) ⟨held, pend, b, w⟩ Q := by
  intro w' hn a e' hok
  obtain ⟨ha, hQ⟩ := h w' a e' (frames.later hn) hok
  exact ⟨D.asks hn.2 ha, ha, hQ⟩

/-! ## Runs -/

section
variable [DecidableEq κ] {s₀ s : Sys σ κ (Point χ) ρ α ε R ν}

/-- What a step does: nothing to the world, a commit or a call. -/
inductive Stepped (D : Design σ κ χ ρ α ν) (ok : Move σ (Point χ) ρ α ν → Prop)
    (s₀ s : Sys σ κ (Point χ) ρ α ε R ν) : Prop
  | silent (hd : s.db = s₀.db) (he : s.env = s₀.env)
  | committed (i : Nat) (c : χ) (hok : ok (.stmt i (.commit c) s₀.db s.db s₀.env))
      (h : D.Committed c s₀.db s.db s₀.env) (he : s.env = s₀.env)
  | called (i : Nat) (q : ρ) (a : α) (hok : ok (.call i q a s₀.env s.env))
      (h : D.Asks q a s₀.db s₀.env s.env) (hd : s.db = s₀.db)

theorem stepped (hs : (D.law mode ok).Holds s₀) (h : Sys.Step mode ok s₀ s) :
    Stepped D ok s₀ s := by
  obtain ⟨i, c, mv, hstep, hok⟩ := h
  obtain ⟨hs', hm⟩ := hs.step hstep hok
  cases mv with
  | stmt j p d d' e =>
    obtain ⟨rfl, rfl, -, he, hd | ⟨rfl, c, rfl, hi₀, heff⟩⟩ := hm
    · exact .silent hd he
    · have hi := hs'.inv
      rw [he] at hi
      exact .committed j c hok ⟨hi₀, hi, D.frame hi₀ heff (Set.empty_disjoint _), _, heff⟩ he
  | call j q a e e' =>
    obtain ⟨hd, rfl, rfl, hcall⟩ := hm
    exact .called j q a hok hcall hd
  | silent j => exact .silent hm.1 hm.2

/-- What every commit and every call keeps, holds from a state of a run on. -/
theorem keeps_of_run {P : σ → ν → Prop} (hs : (D.law mode ok).Holds s₀) (hr : Sys.Run mode ok s₀ s)
    (hc : ∀ i c d d' e, ok (.stmt i (.commit c) d d' e) → D.Committed c d d' e → P d e → P d' e)
    (hq : ∀ i q a d e e', D.Inv d e → ok (.call i q a e e') → D.Asks q a d e e' → P d e → P d e')
    (hP : P s₀.db s₀.env) : P s.db s.env := by
  refine hs.invariant (P := P) hr ?_ ?_ hP
  · intro i held p d d' e hi hi' hok hcom hp
    obtain ⟨c, rfl, -, heff⟩ := hcom
    exact hc i c d d' e hok ⟨hi, hi', D.frame hi heff (Set.empty_disjoint held), held, heff⟩ hp
  · intro i held q a d e e' hi hok hcall hp
    exact hq i q a d e e' hi hok hcall hp

/-- A step of a session that commits nothing but `P`. -/
theorem step_only {P : Point χ → Prop} {i : Nat} {c : Choice α ε ν} {mv : Move σ (Point χ) ρ α ν}
    (hs : (D.law mode ok).Holds s₀) (hp : (s₀.sess i).prog.CommitsOnly P)
    (h : s₀.step? mode i c = some (s, mv)) (hok : ok mv) :
    s.db = s₀.db ∨ ∃ c, P (.commit c) ∧ D.Committed c s₀.db s.db s₀.env := by
  rcases (Sys.step_commitsOnly hp h).2 with hd | ⟨p, next, hp, rfl, hd, hP⟩
  · exact .inl hd
  · obtain ⟨hi, c, rfl, hi₀, heff⟩ := hs.commits hp hok
    rw [hd]
    exact .inr ⟨c, hP, hi₀, hi, D.frame hi₀ heff (Set.empty_disjoint _), _, heff⟩

/-- A step of a session whose commit settles its reply. -/
theorem step_phase [Nonempty σ] {A : Except ε R → Prop} {φ : χ → Except ε R → Prop} {i : Nat}
    {c : Choice α ε ν} {mv : Move σ (Point χ) ρ α ν} (hA : ∀ e, ¬ A (.error e))
    (hφ : ∀ c, (∀ r, φ c r → A r) ∨ ∀ r, φ c r → ¬ A r) (hs : (D.law mode ok).Holds s₀)
    (hp : (s₀.sess i).prog.Phase A (Signed φ)) (h : s₀.step? mode i c = some (s, mv))
    (hok : ok mv) : (s.sess i).prog.Phase A (Signed φ) ∧
      ((s.db = s₀.db ∧ ((s.sess i).prog.Replies A → (s₀.sess i).prog.Replies A)) ∨
        ∃ c, ok (.stmt i (.commit c) s₀.db s.db s₀.env) ∧ D.Committed c s₀.db s.db s₀.env ∧
          ¬ (s₀.sess i).prog.Replies A ∧ (s.sess i).prog.Replies (φ c)) := by
  have hφ' : ∀ p, (∀ r, Signed φ p r → A r) ∨ ∀ r, Signed φ p r → ¬ A r := by
    intro p
    cases p with
    | stmt => exact .inl fun _ h => h.elim
    | commit c => exact hφ c
  obtain ⟨hp', hmove⟩ := Sys.step_phase hA hφ' hp h
  refine ⟨hp', hmove.imp id fun hc => ?_⟩
  obtain ⟨p, next, hq, rfl, hd, hno, hreply⟩ := hc
  obtain ⟨hi, c, rfl, hi₀, heff⟩ := hs.commits hq hok
  rw [← hd] at hok hi heff
  exact ⟨c, hok, ⟨hi₀, hi, D.frame hi₀ heff (Set.empty_disjoint _), _, heff⟩, hno, hreply⟩

/-- Session `i` commits `c` and ends with `r`. -/
structure Ending (D : Design σ κ χ ρ α ν) (ok : Move σ (Point χ) ρ α ν → Prop)
    (φ : χ → Except ε R → Prop) (s₀ s : Sys σ κ (Point χ) ρ α ε R ν) (i : Nat) (c : χ)
    (r : Except ε R) : Prop where
  running : ∀ r, ¬ s₀.Ended i r
  ended : s.Ended i r
  signed : φ c r
  ok : ok (.stmt i (.commit c) s₀.db s.db s₀.env)
  committed : D.Committed c s₀.db s.db s₀.env

/-- **A step of a session that commits once**: it leaves the database as it is and returns nothing
but a `ψ`, or it commits and ends. -/
theorem step_follows {ψ : R → Prop} {φ : χ → Except ε R → Prop} {c : Choice α ε ν}
    {mv : Move σ (Point χ) ρ α ν} (hs : (D.law mode ok).Holds s₀) (hf : s₀.Follows i ψ (Signed φ))
    (h : s₀.step? mode i c = some (s, mv)) (hok : ok mv) : s.Follows i ψ (Signed φ) ∧
      ((s.db = s₀.db ∧ ∀ x, s.Ended i (.ok x) → ψ x ∨ s₀.Ended i (.ok x)) ∨
        ∃ c r, Ending D ok φ s₀ s i c r) := by
  rcases hf with ⟨r, hr⟩ | he
  · obtain ⟨hd, hr' | ⟨e, he⟩⟩ := Sys.step_ended hr h
    · refine ⟨.inl ⟨r, hr'⟩, .inl ⟨hd, fun x hx => .inr ?_⟩⟩
      rwa [hx.unique hr']
    · exact ⟨.inl ⟨_, he⟩, .inl ⟨hd, fun x hx => by cases hx.unique he⟩⟩
  · rcases Sys.step_ends he h with ⟨he', hd⟩ | ⟨p, r, hp, rfl, hd, hr, hφ⟩
    · refine ⟨.inr he', .inl ⟨hd, fun x hx => .inl ?_⟩⟩
      rw [show (s.sess i).prog = .ret x from hx] at he'
      exact he'
    · obtain ⟨hi, c, rfl, hi₀, heff⟩ := hs.commits hp hok
      refine ⟨.inl ⟨r, hr⟩, .inr ⟨c, r, ⟨fun r' hr' => ?_, hr, hφ, by rwa [hd], ?_⟩⟩⟩
      · have := (show (s₀.sess i).prog = .done r' from hr').symm.trans hp
        cases r' <;> cases this
      · rw [hd]
        exact ⟨hi₀, hi, D.frame hi₀ heff (Set.empty_disjoint _), _, heff⟩

/-- The other sessions do not change. -/
theorem follows_ne {ψ : R → Prop} {φ : Point χ → Except ε R → Prop} {c : Choice α ε ν} {j : Nat}
    {mv : Move σ (Point χ) ρ α ν} (hf : s₀.Follows j ψ φ) (h : s₀.step? mode i c = some (s, mv))
    (hj : j ≠ i) : s.Follows j ψ φ := by
  unfold Sys.Follows Sys.Ended at hf ⊢
  rwa [Sys.step_sess_ne h hj]

theorem follows_of_run {ψ : Nat → R → Prop} {φ : Nat → χ → Except ε R → Prop}
    (hs : (D.law mode ok).Holds s₀) (hf : ∀ i, s₀.Follows i (ψ i) (Signed (φ i)))
    (hr : Sys.Run mode ok s₀ s) (i : Nat) : s.Follows i (ψ i) (Signed (φ i)) := by
  induction hr with
  | refl => exact hf i
  | tail hr h ih =>
    obtain ⟨j, c, mv, h, hok⟩ := h
    by_cases hij : i = j
    · subst hij
      exact (step_follows (hs.run hr) ih h hok).1
    · exact follows_ne ih h hij

theorem holds_of_run {d : σ} {e : ν} {p : Nat → Prog σ κ (Point χ) ρ α ε R} (hd : D.Inv d e)
    (hp : ∀ i, (D.law mode ok).wp i (p i) ⟨∅, id, false, (d, e)⟩ fun _ _ => True)
    (hr : Sys.Run mode ok (Sys.init d e p) s) : (D.law mode ok).Holds s :=
  (Law.Holds.init hd hp).run hr

end

end Design

-- what a request requires is not to be evaluated where its obligation is unfolded
attribute [irreducible] Service.require

end Txn
