import Freelancing.Txn.Atomic
import Freelancing.Txn.Law

/-!
# Programs on a part of the database

`Lens τ σ`: a part `σ` of the database `τ`. `Prog.zoom` runs a program of the part on the whole
database. Where a law of the whole covers a law of the part (`Law.Covers`), a program that meets its
obligation on the part meets it on the whole (`Law.wp_zoom`).
-/

namespace Txn

structure Lens (τ σ : Type) where
  get : τ → σ
  set : σ → τ → τ
  get_set : ∀ s t, get (set s t) = s
  set_get : ∀ t, set (get t) t = t
  set_set : ∀ s s' t, set s (set s' t) = set s t

namespace Lens

variable {τ σ : Type} (l : Lens τ σ)

def within (w : σ → σ) (t : τ) : τ := l.set (w (l.get t)) t

@[simp] theorem get_within (w : σ → σ) (t : τ) : l.get (l.within w t) = w (l.get t) := l.get_set _ _

theorem within_within (w w' : σ → σ) (t : τ) :
    l.within w (l.within w' t) = l.within (w ∘ w') t := by
  rw [within, get_within, within, l.set_set]
  rfl

end Lens

namespace Prog

variable {τ σ κ κ' π π' ρ α ε R S : Type} (l : Lens τ σ) (name : κ → κ') (point : π → π')

def zoom : Prog σ κ π ρ α ε R → Prog τ κ' π' ρ α ε R
  | .ret r => .ret r
  | .raise e => .raise e
  | .read p next => .read (point p) fun t => (next (l.get t)).zoom
  | .lock p sel next =>
    .lock (point p) (fun t => (sel (l.get t)).map name) fun t => (next (l.get t)).zoom
  | .write w next => .write (l.within w) next.zoom
  | .call q next => .call q fun a => (next a).zoom
  | .commit p next => .commit (point p) next.zoom
  | .rollback next => .rollback next.zoom

theorem zoom_bind (p : Prog σ κ π ρ α ε R) (f : R → Prog σ κ π ρ α ε S) :
    (p >>= f).zoom l name point = p.zoom l name point >>= fun r => (f r).zoom l name point := by
  simp only [bind_eq]
  induction p with
  | ret r => rfl
  | raise e => rfl
  | read p next ih => exact congrArg _ (funext fun t => ih _)
  | lock p sel next ih => exact congrArg _ (funext fun t => ih _)
  | write w next ih => exact congrArg _ ih
  | call q next ih => exact congrArg _ (funext fun a => ih a)
  | commit p next ih => exact congrArg _ ih
  | rollback next ih => exact congrArg _ ih

section
variable {φ : π → Except ε R → Prop} {φ' : π' → Except ε R → Prop}

theorem Replies.zoom {ψ : Except ε R → Prop} {p : Prog σ κ π ρ α ε R} (hp : p.Replies ψ) :
    (p.zoom l name point).Replies ψ := by
  induction p with
  | ret r => exact hp
  | raise e => exact hp
  | read p next ih => exact fun t => ih _ (hp _)
  | _ => exact hp.elim

theorem Settles.zoom {ψ : R → Prop} {p : Prog σ κ π ρ α ε R} (hφ : ∀ q, φ q = φ' (point q))
    (hp : p.Settles ψ φ) : (p.zoom l name point).Settles ψ φ' := by
  induction p with
  | ret r => exact hp
  | raise e => trivial
  | read p next ih => exact fun t => ih _ (hp _)
  | lock p sel next ih => exact fun t => ih _ (hp _)
  | write w next ih => exact ih hp
  | call q next ih => exact fun a => ih a (hp a)
  | commit p next ih => exact Replies.zoom l name point (hφ p ▸ hp)
  | rollback next ih => exact ih hp

end

end Prog

/-! ## Obligations -/

namespace Law

variable {τ σ κ κ' π π' ρ α ε R ν : Type} {l : Lens τ σ} {name : κ → κ'} {point : π → π'}
  {L : Law σ κ π ρ α ν} {L' : Law τ κ' π' ρ α ν} {held : Set κ'}

/-- The locks of the part. -/
def part (name : κ → κ') (held : Set κ') : Set κ := {k | name k ∈ held}

/-- Everything that may happen to the whole is, on the part, something that may happen to the part,
and a commit or a call of the part is one of the whole. -/
structure Covers (l : Lens τ σ) (name : κ → κ') (point : π → π') (L' : Law τ κ' π' ρ α ν)
    (L : Law σ κ π ρ α ν) : Prop where
  inj : Function.Injective name
  mode : L'.mode = L.mode
  inv : ∀ {t e}, L'.Inv t e → L.Inv (l.get t) e
  ok : ∀ {i p t t' e}, L'.ok (.stmt i (point p) t t' e) → L.ok (.stmt i p (l.get t) (l.get t') e)
  okCall : ∀ {i q a e e'}, L'.ok (.call i q a e e') → L.ok (.call i q a e e')
  claims : ∀ {p t t'}, L.Claims p (l.get t) (l.get t') → L'.Claims (point p) t t'
  commits : ∀ {held p t t' e}, L'.Inv t e → L'.Inv t' e → L'.Commits held p t t' e →
    l.get t' = l.get t ∨ ∃ p, L.Commits (part name held) p (l.get t) (l.get t') e
  calls : ∀ {held q a t e e'}, L'.Calls held q a t e e' →
    L.Calls (part name held) q a (l.get t) e e'
  commit : ∀ {held p t d e}, L'.Inv t e → L.Inv d e → L.Commits (part name held) p (l.get t) d e →
    L'.Inv (l.set d t) e ∧ L'.Commits held (point p) t (l.set d t) e
  call : ∀ {held q a t e e'}, L'.Inv t e → L.Inv (l.get t) e' →
    L.Calls (part name held) q a (l.get t) e e' → L'.Inv t e' ∧ L'.Calls held q a t e e'

/-- What a session of the part has, seen on the whole. -/
structure Zoomed (l : Lens τ σ) (name : κ → κ') (v : View σ κ ν) (v' : View τ κ' ν) : Prop where
  held : v.held = part name v'.held
  pend : ∀ t, v'.pend t = l.within v.pend t
  busy : v.busy = v'.busy
  world : v.world = (l.get v'.world.1, v'.world.2)

theorem Covers.other (h : Covers l name point L' L) {w w' : τ × ν} (ho : L'.Other held w w') :
    Relation.ReflTransGen (L.Other (part name held)) (l.get w.1, w.2) (l.get w'.1, w'.2) := by
  obtain ⟨hi, hi', held', hdis, hm⟩ := ho
  have hpart : Disjoint (part name held) (part name held') :=
    Set.disjoint_left.2 fun k hk hk' => Set.disjoint_left.1 hdis hk hk'
  rcases hm with ⟨p, hc, he⟩ | ⟨q, a, hc, hd⟩
  · rcases h.commits hi (he ▸ hi') hc with hget | ⟨p, hc⟩
    · rw [hget, he]
    · exact .single ⟨h.inv hi, h.inv hi', _, hpart, .inl ⟨p, hc, he⟩⟩
  · exact .single ⟨h.inv hi, h.inv hi', _, hpart, .inr ⟨q, a, h.calls hc, congrArg l.get hd⟩⟩

theorem Covers.sees (h : Covers l name point L' L) {b : Bool} {w w' : τ × ν}
    (hs : L'.Sees b held w w') :
    L.Sees b (part name held) (l.get w.1, w.2) (l.get w'.1, w'.2) := by
  cases b with
  | true => rw [hs.eq_of_busy]; exact .refl _ _ _
  | false =>
    induction (show Relation.ReflTransGen (L'.Other held) w w' from hs) with
    | refl => exact .refl _ _ _
    | tail _ ho ih => exact Relation.ReflTransGen.trans (ih (by assumption)) (h.other ho)

theorem Covers.next (h : Covers l name point L' L) {v : View σ κ ν} {v' : View τ κ' ν}
    (hv : Zoomed l name v v') {w : τ × ν} (hn : L'.Next v' w) : L.Next v (l.get w.1, w.2) := by
  refine ⟨?_, h.inv hn.2⟩
  rw [hv.busy, hv.held, hv.world]
  exact h.sees hn.1

/-- **A program that meets its obligation on a part meets it on the whole.** -/
theorem wp_zoom (h : Covers l name point L' L) {i : Nat} {p : Prog σ κ π ρ α ε R} {v : View σ κ ν}
    {v' : View τ κ' ν} {Q : View σ κ ν → R → Prop} (hv : Zoomed l name v v') (hp : L.wp i p v Q) :
    L'.wp i (p.zoom l name point) v' fun v' r => ∃ v, Zoomed l name v v' ∧ Q v r := by
  induction p generalizing v v' with
  | ret r => exact ⟨v, hv, hp⟩
  | raise e => trivial
  | read p next ih =>
    intro w hn hok
    have hget : l.get (v'.pend w.1) = v.pend (l.get w.1) := by rw [hv.pend, l.get_within]
    have hok' := h.ok hok
    rw [hget] at hok'
    obtain ⟨hcl, hp⟩ := hp _ (h.next hv hn) hok'
    rw [← hget] at hcl hp
    exact ⟨h.claims hcl, ih _ (v := ⟨v.held, v.pend, L.mode.inTxn, (l.get w.1, w.2)⟩)
      ⟨hv.held, hv.pend, by rw [h.mode], rfl⟩ hp⟩
  | lock p sel next ih =>
    intro w hn hok
    have hget : l.get (v'.pend w.1) = v.pend (l.get w.1) := by rw [hv.pend, l.get_within]
    have hok' := h.ok hok
    rw [hget] at hok'
    obtain ⟨hcl, hp⟩ := hp _ (h.next hv hn) hok'
    rw [← hget] at hcl hp
    refine ⟨h.claims hcl, ih _ (v := ⟨{k | sel (l.get (v'.pend w.1)) = some k} ∪ v.held, v.pend,
      L.mode.inTxn, (l.get w.1, w.2)⟩) ⟨?_, hv.pend, by rw [h.mode], rfl⟩ hp⟩
    ext k
    have hk : k ∈ v.held ↔ name k ∈ v'.held := by rw [hv.held]; rfl
    simp only [part, Set.mem_union, Set.mem_ofPred_eq, hk, Option.map_eq_some_iff,
      h.inj.eq_iff, exists_eq_right]
  | write f next ih =>
    refine ih (v := ⟨v.held, f ∘ v.pend, v.busy, v.world⟩)
      ⟨hv.held, fun t => ?_, hv.busy, hv.world⟩ hp
    change l.within f (v'.pend t) = _
    rw [hv.pend, l.within_within]
  | call q next ih =>
    intro w hn a e' hok
    obtain ⟨hi, hc, hp⟩ := hp _ (h.next hv hn) a e' (h.okCall hok)
    rw [hv.held] at hc
    obtain ⟨hi', hc'⟩ := h.call hn.2 hi hc
    exact ⟨hi', hc', ih _ (v := ⟨v.held, v.pend, L.mode.inTxn, (l.get w.1, e')⟩)
      ⟨hv.held, hv.pend, by rw [h.mode], rfl⟩ hp⟩
  | commit p next ih =>
    intro w hn hok
    have hget : l.get (v'.pend w.1) = v.pend (l.get w.1) := by rw [hv.pend, l.get_within]
    have hok' := h.ok hok
    rw [hget] at hok'
    obtain ⟨hcl, hi, hc, hp⟩ := hp _ (h.next hv hn) hok'
    have hset : v'.pend w.1 = l.set (v.pend (l.get w.1)) w.1 := hv.pend _
    rw [hv.held] at hc
    obtain ⟨hi', hc'⟩ := h.commit hn.2 hi hc
    rw [← hset] at hi' hc'
    rw [← hget] at hcl
    refine ⟨h.claims hcl, hi', hc', ih (v := ⟨∅, id, L.mode.inCall, (v.pend (l.get w.1), w.2)⟩)
      ⟨rfl, fun t => (l.set_get t).symm, by rw [h.mode], ?_⟩ hp⟩
    rw [← hget]
  | rollback next ih =>
    intro w hn
    exact ih (v := ⟨∅, id, L.mode.inCall, (l.get w.1, w.2)⟩)
      ⟨rfl, fun t => (l.set_get t).symm, by rw [h.mode], rfl⟩ (hp _ (h.next hv hn))

end Law

end Txn
