import Freelancing.Money.Effect

/-!
# Obligations of the statements

`Meets R i p v Q`: the program `p` of session `i` keeps the law from the view `v` on, and `Q` holds
of the view and the result it ends with. `Later R held b w w'`: the world may have gone from `w` to
`w'` before the next statement of a transaction that holds `held`. One lemma for each kind of
statement; the lemmas about programs are put together from these with `Meets.bind`.
-/

namespace Money

abbrev TxView := Txn.View Db LockName Providers

abbrev World := Db × Providers

variable {R : Rules} {i : Nat} {β γ : Type} {held held' : Set LockName} {pend : Db → Db} {b : Bool}
  {w w' w'' : World}

structure Meets (R : Rules) (i : Nat) (p : Tx β) (v : TxView) (Q : TxView → β → Prop) : Prop where
  wp : (moneyLaw R).wp i p v Q

/-- The database a while later. -/
structure Moved (R : Rules) (held : Set LockName) (b : Bool) (w w' : World) : Prop where
  frame : Frame held w.1 w'.1
  still : R.Serial → b = true → w'.1 = w.1
  inv : Consistent w'.1

structure Later (R : Rules) (held : Set LockName) (b : Bool) (w w' : World) : Prop
    extends Moved R held b w w' where
  env : R.Serial → b = true → w'.2 = w.2

theorem other_frame {w w' : World} (h : (moneyLaw R).Other held w w') : Frame held w.1 w'.1 := by
  obtain ⟨-, -, held', hd, ⟨p, ⟨hu, -⟩, -⟩ | ⟨q, a, -, he⟩⟩ := h
  · exact hu.frame hd
  · rw [he]
    exact .refl _ _

theorem Later.of_next (h : (moneyLaw R).Next ⟨held, pend, b, w⟩ w') : Later R held b w w' := by
  obtain ⟨hs, hi⟩ := h
  have hf : Frame held w.1 w'.1 := hs.stable (P := fun x => Frame held w.1 x.1)
    (fun x y ho hx => hx.trans (other_frame ho)) (.refl _ _)
  refine ⟨⟨hf, fun _ hb => ?_, hi⟩, fun _ hb => ?_⟩
  · subst hb
    rw [hs.eq_of_busy]
  · subst hb
    rw [hs.eq_of_busy]

theorem Later.refl (h : Consistent w.1) : Later R held b w w :=
  ⟨⟨.refl _ _, fun _ _ => rfl, h⟩, fun _ _ => rfl⟩

/-- The statements of one transaction in a row. -/
theorem Moved.trans (h : Moved R held b w w') (h' : Moved R held' R.mode.inTxn w' w'')
    (hs : held ⊆ held') : Moved R held b w w'' :=
  ⟨h.frame.trans (h'.frame.mono hs), fun hr hb => (h'.still hr hr).trans (h.still hr hb), h'.inv⟩

theorem Later.trans (h : Later R held b w w') (h' : Later R held' R.mode.inTxn w' w'')
    (hs : held ⊆ held') : Later R held b w w'' :=
  ⟨h.toMoved.trans h'.toMoved hs, fun hr hb => (h'.env hr hr).trans (h.env hr hb)⟩

/-! ## Composition -/

theorem Meets.bind {p : Tx β} {f : β → Tx γ} {v : TxView} {P : TxView → β → Prop}
    {Q : TxView → γ → Prop} (h : Meets R i p v P) (k : ∀ v' r, P v' r → Meets R i (f r) v' Q) :
    Meets R i (p >>= f) v Q :=
  ⟨Txn.Law.wp_bind (Txn.Law.wp_mono h.wp fun v' r hr => (k v' r hr).wp)⟩

theorem Meets.mono {p : Tx β} {v : TxView} {P Q : TxView → β → Prop} (h : Meets R i p v P)
    (k : ∀ v' r, P v' r → Q v' r) : Meets R i p v Q :=
  ⟨Txn.Law.wp_mono h.wp k⟩

theorem Meets.pure {r : β} {v : TxView} {Q : TxView → β → Prop} (h : Q v r) :
    Meets R i (Pure.pure r) v Q := ⟨h⟩

theorem Meets.raise {e : Err} {v : TxView} {Q : TxView → β → Prop} : Meets R i (raise e) v Q :=
  ⟨trivial⟩

theorem Meets.raiseApi {type title : String} {status : Nat} {detail : String} {v : TxView}
    {Q : TxView → β → Prop} : Meets R i (raiseApi type title status detail) v Q :=
  ⟨trivial⟩

theorem Meets.require {c : Bool} {e : Err} {v : TxView} :
    Meets R i (require c e) v fun v' _ => v' = v ∧ c = true := by
  unfold Money.require
  split
  · exact .pure ⟨rfl, by assumption⟩
  · exact .raise

/-! ## Statements -/

/-- A statement whose label is no journal lookup makes no claim. -/
theorem no_claim {d view : Db} {p : Point} (hp : ∀ k es, p ≠ .journalLookup k es) :
    (moneyLaw R).Claims p d view := fun k es h => absurd h (hp k es)

theorem Meets.select {q : Db → β} :
    Meets R i (select q) ⟨held, pend, b, w⟩ fun v' r => ∃ w', Later R held b w w' ∧
      v' = ⟨held, pend, R.mode.inTxn, w'⟩ ∧ r = q (pend w'.1) := by
  refine ⟨fun w' hn _ => ⟨no_claim fun _ _ h => ?_, w', .of_next hn, rfl, rfl⟩⟩
  cases h

theorem Meets.selectForUpdate {name : β → LockName} {q : Db → Option β} :
    Meets R i (selectForUpdate name q) ⟨held, pend, b, w⟩ fun v' r => ∃ w', Later R held b w w' ∧
      r = q (pend w'.1) ∧
      match r with
      | none => v' = ⟨held, pend, R.mode.inTxn, w'⟩
      | some x => v' = ⟨insert (name x) held, pend, R.mode.inTxn, w'⟩ := by
  refine ⟨fun w' hn _ => ⟨no_claim fun _ _ h => ?_, w', .of_next hn, rfl, ?_⟩⟩
  · cases h
  · change match q (pend w'.1) with
      | none => _
      | some x => _
    cases hq : q (pend w'.1) with
    | none => simp only [moneyLaw, hq, Option.map_none, Txn.Law.lock_none]
    | some x => simp only [moneyLaw, hq, Option.map_some, Txn.Law.lock_some]

theorem Meets.taken {name : LockName} {q : Db → Bool} :
    Meets R i (taken name q) ⟨held, pend, b, w⟩ fun v' r => ∃ w', Later R held b w w' ∧
      v' = ⟨insert name held, pend, R.mode.inTxn, w'⟩ ∧ r = q (pend w'.1) := by
  refine ⟨fun w' hn _ => ⟨no_claim fun _ _ h => ?_, w', .of_next hn, ?_, rfl⟩⟩
  · cases h
  · simp only [moneyLaw, Txn.Law.lock_some]

theorem Meets.reserve {name : LockName} {q : Db → Bool} :
    Meets R i (reserve name q) ⟨held, pend, b, w⟩ fun v' _ => ∃ w', Later R held b w w' ∧
      v' = ⟨insert name held, pend, R.mode.inTxn, w'⟩ ∧ q (pend w'.1) = false := by
  refine Meets.bind .taken ?_
  rintro _ t ⟨w', h, rfl, rfl⟩
  refine Meets.require.mono ?_
  rintro _ _ ⟨rfl, ht⟩
  exact ⟨w', h, rfl, by simpa using ht⟩

theorem Meets.write {f : Db → Db} :
    Meets R i (write f) ⟨held, pend, b, w⟩ fun v' _ => v' = ⟨held, f ∘ pend, b, w⟩ := ⟨rfl⟩

theorem Meets.update {name : LockName} {f : Db → Db} :
    Meets R i (update name f) ⟨held, pend, b, w⟩ fun v' _ => ∃ w', Later R held b w w' ∧
      v' = ⟨insert name held, f ∘ pend, R.mode.inTxn, w'⟩ := by
  refine ⟨fun w' hn _ => ⟨no_claim fun _ _ h => ?_, w', .of_next hn, ?_⟩⟩
  · cases h
  · simp only [moneyLaw, Txn.Law.lock_some]

/-- A lock of a row of which the session has a copy; where a condition on the run speaks of the
statement, it holds there. -/
theorem Meets.relock {p : Point} {name : LockName} {q : Db → Option β} {loaded : β}
    (hp : ∀ k es, p ≠ .journalLookup k es) :
    Meets R i (relock p name q loaded) ⟨held, pend, b, w⟩ fun v' r => ∃ w', Later R held b w w' ∧
      R.ok (.stmt i p w'.1 (pend w'.1) w'.2) ∧
      match r with
      | none => True
      | some x => x = loaded ∧ v' = ⟨insert name held, pend, R.mode.inTxn, w'⟩ ∧
          ∃ y, q (pend w'.1) = some y := by
  refine ⟨fun w' hn hok => ⟨no_claim hp, w', .of_next hn, hok, ?_⟩⟩
  change match (q (pend w'.1)).map fun _ => loaded with
    | none => _
    | some x => _
  cases hq : q (pend w'.1) with
  | none => trivial
  | some y =>
    refine ⟨rfl, ?_, y, rfl⟩
    simp only [moneyLaw, hq, Option.map_some, Txn.Law.lock_some]

theorem Meets.callProvider {q : Request} (h : ∀ w', Later R held b w w' → CallOk R w'.1 q) :
    Meets R i (callProvider q) ⟨held, pend, b, w⟩ fun v' a => ∃ w', Moved R held b w w' ∧
      R.Called q a w'.2 ∧ v' = ⟨held, pend, R.mode.inTxn, w'⟩ := by
  refine ⟨fun w' hn a e hok => ?_⟩
  have hl := Later.of_next hn
  exact ⟨hl.inv, h w' hl, (w'.1, e), ⟨hl.frame, hl.still, hl.inv⟩, ⟨i, w'.2, hok⟩, rfl⟩

/-- Wherever the world is when the session commits, its updates and their effect are as they
should be. -/
def Ready (R : Rules) (c : CommitPoint) (v : TxView) : Prop :=
  ∀ w', Later R v.held v.busy v.world w' →
    Updates v.held w'.1 (v.pend w'.1) ∧ Effect R w'.2 c w'.1 (v.pend w'.1)

theorem Meets.commit {c : CommitPoint} (h : Ready R c ⟨held, pend, b, w⟩) :
    Meets R i (commit c) ⟨held, pend, b, w⟩ fun v' _ => ∃ w', Later R held b w w' ∧
      v' = ⟨∅, id, R.mode.inCall, (pend w'.1, w'.2)⟩ ∧ Consistent (pend w'.1) := by
  refine ⟨fun w' hn _ => ?_⟩
  have hl := Later.of_next hn
  obtain ⟨hu, he⟩ := h w' hl
  have hi := Updates.consistent hl.inv hu
  exact ⟨no_claim (fun _ _ h => by cases h), hi, ⟨hu, c, rfl, he⟩, w', hl, rfl, hi⟩

theorem Meets.rollback :
    Meets R i rollback ⟨held, pend, b, w⟩ fun v' _ => ∃ w', Later R held b w w' ∧
      v' = ⟨∅, id, R.mode.inCall, w'⟩ :=
  ⟨fun w' hn => ⟨w', .of_next hn, rfl⟩⟩

end Money
