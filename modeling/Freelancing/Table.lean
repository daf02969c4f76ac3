import Mathlib.Data.List.Basic
import Mathlib.Data.List.Nodup

/-!
# Tables of rows

A table is a list of rows, each with a key; `get key k l` is the row of key `k`, `modify key k f l`
the table with that row changed by `f`, which leaves the key alone. `Evolves key own keep l l'`: the
table may have become `l'` while someone relied on the rows of the keys `own`, and on `keep` for
the others.
-/

namespace Table

variable {α κ : Type} [DecidableEq κ] {key : α → κ} {k k' : κ} {f : α → α} {l : List α} {x y : α}

def get (key : α → κ) (k : κ) (l : List α) : Option α := l.find? fun x => key x = k

def modify (key : α → κ) (k : κ) (f : α → α) (l : List α) : List α :=
  l.map fun x => if key x = k then f x else x

theorem get_mem (h : get key k l = some x) : x ∈ l := List.mem_of_find?_eq_some h

theorem get_key (h : get key k l = some x) : key x = k := by
  simpa using List.find?_some h

theorem get_eq_none : get key k l = none ↔ ∀ x ∈ l, key x ≠ k := by
  simp [get]

theorem get_isSome : (get key k l).isSome ↔ ∃ x ∈ l, key x = k := by
  simp [get, List.find?_isSome]

@[simp] theorem get_nil : get key k [] = none := rfl

theorem get_cons : get key k (x :: l) = if key x = k then some x else get key k l := by
  by_cases h : key x = k <;> simp [get, h]

/-- A new row, of a key that is free, hides no other. -/
theorem get_cons_of_get (hx : get key (key x) l = none) (hy : get key k l = some y) :
    get key k (x :: l) = some y := by
  rw [get_cons, if_neg]
  · exact hy
  · intro he
    rw [← he, hx] at hy
    cases hy

theorem get_of_mem (hnd : (l.map key).Nodup) (h : x ∈ l) : get key (key x) l = some x := by
  induction l with
  | nil => cases h
  | cons y l ih =>
    rw [List.map_cons, List.nodup_cons] at hnd
    rw [get_cons]
    rcases List.mem_cons.1 h with rfl | h
    · rw [if_pos rfl]
    · rw [if_neg fun he => hnd.1 (by rw [he]; exact List.mem_map_of_mem h)]
      exact ih hnd.2 h

theorem get_append (l' : List α) : get key k (l' ++ l) = (get key k l').or (get key k l) := by
  simp [get, List.find?_append]

theorem mem_modify : y ∈ modify key k f l ↔ ∃ x ∈ l, (if key x = k then f x else x) = y := by
  simp [modify]

theorem forall_mem_modify {P : α → Prop} :
    (∀ y ∈ modify key k f l, P y) ↔ ∀ x ∈ l, P (if key x = k then f x else x) := by
  simp [modify]

theorem modify_of_ne (h : ∀ x ∈ l, key x ≠ k) : modify key k f l = l := by
  rw [modify]
  conv_rhs => rw [← List.map_id l]
  exact List.map_congr_left fun x hx => if_neg (h x hx)

/-- The rows of one key. -/
theorem filter_key (hnd : (l.map key).Nodup) (k : κ) :
    (l.filter fun x => key x = k) = (get key k l).toList := by
  induction l with
  | nil => rfl
  | cons y l ih =>
    rw [List.map_cons, List.nodup_cons] at hnd
    rw [List.filter_cons, get_cons, ih hnd.2]
    by_cases hy : key y = k
    · have hnone : get key k l = none :=
        get_eq_none.2 fun z hz he => hnd.1 (by rw [hy, ← he]; exact List.mem_map_of_mem hz)
      simp [hy, hnone]
    · simp [hy]

/-- Of the rows that `p` counts, a change of the row `x` concerns only `x`. -/
theorem countP_modify (hnd : (l.map key).Nodup) (hx : get key k l = some x) (p : α → Bool) :
    (modify key k f l).countP p + (if p x then 1 else 0) = l.countP p +
      (if p (f x) then 1 else 0) := by
  induction l with
  | nil => cases hx
  | cons y l ih =>
    rw [List.map_cons, List.nodup_cons] at hnd
    have hc : modify key k f (y :: l) = (if key y = k then f y else y) :: modify key k f l := rfl
    rw [get_cons] at hx
    by_cases hy : key y = k
    · rw [if_pos hy] at hx
      obtain rfl := Option.some.inj hx
      have hrest : modify key k f l = l :=
        modify_of_ne fun z hz he => hnd.1 (by rw [hy, ← he]; exact List.mem_map_of_mem hz)
      rw [hc, if_pos hy, hrest, List.countP_cons, List.countP_cons]
      omega
    · rw [if_neg hy] at hx
      have := ih hnd.2 hx
      rw [hc, if_neg hy, List.countP_cons, List.countP_cons]
      omega

/-- A column that the change leaves alone. -/
theorem map_modify {β : Type} {g : α → β} (hg : ∀ x, g (f x) = g x) :
    (modify key k f l).map g = l.map g := by
  rw [modify, List.map_map]
  refine List.map_congr_left fun x _ => ?_
  by_cases h : key x = k <;> simp [h, hg]

theorem nodup_map_cons (hnd : (l.map key).Nodup) (hx : get key (key x) l = none) :
    ((x :: l).map key).Nodup := by
  rw [List.map_cons, List.nodup_cons]
  refine ⟨fun hm => ?_, hnd⟩
  obtain ⟨y, hy, he⟩ := List.mem_map.1 hm
  exact get_eq_none.1 hx y hy he

/-- A column whose values stay unique: the changed row's new value is no other row's. -/
theorem nodup_map_modify {β : Type} {g : α → β} (hnd : (l.map key).Nodup) (hg : (l.map g).Nodup)
    (h : ∀ x ∈ l, key x = k → ∀ y ∈ l, key y ≠ k → g y ≠ g (f x)) :
    ((modify key k f l).map g).Nodup := by
  rw [List.Nodup, List.pairwise_map] at hnd hg
  rw [List.Nodup, modify, List.map_map, List.pairwise_map]
  refine (hnd.and hg).imp_of_mem ?_
  intro x y hx hy hxy
  obtain ⟨hk, hgxy⟩ := hxy
  by_cases hkx : key x = k
  · have hky : key y ≠ k := fun he => hk (hkx.trans he.symm)
    simpa [hkx, hky] using (h x hx hkx y hy hky).symm
  · by_cases hky : key y = k
    · simpa [hkx, hky] using h y hy hky x hx hkx
    · simpa [hkx, hky] using hgxy

section
variable (hf : ∀ x, key (f x) = key x)
include hf

theorem map_key_modify : (modify key k f l).map key = l.map key := map_modify hf

theorem get_modify : get key k' (modify key k f l) =
    (get key k' l).map fun x => if k' = k then f x else x := by
  induction l with
  | nil => rfl
  | cons x l ih =>
    have hc : modify key k f (x :: l) = (if key x = k then f x else x) :: modify key k f l := rfl
    rw [hc, get_cons, get_cons, ih]
    have hk : key (if key x = k then f x else x) = key x := by
      split
      · exact hf x
      · rfl
    rw [hk]
    by_cases h : key x = k'
    · subst h; simp
    · rw [if_neg h, if_neg h]

theorem get_modify_self : get key k (modify key k f l) = (get key k l).map f := by
  simp [get_modify hf]

theorem get_modify_ne (h : k' ≠ k) : get key k' (modify key k f l) = get key k' l := by
  simp [get_modify hf, h]

theorem modify_modify (g : α → α) : modify key k g (modify key k f l) = modify key k (g ∘ f) l := by
  rw [modify, modify, modify, List.map_map]
  refine List.map_congr_left fun x _ => ?_
  by_cases h : key x = k <;> simp [h, hf]

end

/-- A search that does not look at what is changed. -/
theorem find?_modify {q : α → Bool} (hq : ∀ x, q (f x) = q x) :
    (modify key k f l).find? q = (l.find? q).map fun x => if key x = k then f x else x := by
  rw [modify, List.find?_map]
  congr 1
  refine congrArg (List.find? · l) (funext fun x => ?_)
  by_cases h : key x = k <;> simp [h, hq]

/-! ## Evolution -/

/-- From `l` to `l'`: the keys of `own` are as before, no row is gone, and every row is related to
what it was by `keep`. -/
structure Evolves (key : α → κ) (own : κ → Prop) (keep : α → α → Prop) (l l' : List α) : Prop where
  nodup : (l.map key).Nodup → (l'.map key).Nodup
  own : ∀ k, own k → get key k l' = get key k l
  keep : ∀ k x, get key k l = some x → ∃ y, get key k l' = some y ∧ keep x y

namespace Evolves

variable {own own' : κ → Prop} {keep : α → α → Prop} {l' l'' : List α}

theorem refl (hk : ∀ x, keep x x) : Evolves key own keep l l where
  nodup h := h
  own _ _ := rfl
  keep _ x h := ⟨x, h, hk x⟩

theorem trans (hk : ∀ x y z, keep x y → keep y z → keep x z) (h : Evolves key own keep l l')
    (h' : Evolves key own keep l' l'') : Evolves key own keep l l'' where
  nodup hn := h'.nodup (h.nodup hn)
  own k hk := (h'.own k hk).trans (h.own k hk)
  keep k x hx := by
    obtain ⟨y, hy, hxy⟩ := h.keep k x hx
    obtain ⟨z, hz, hyz⟩ := h'.keep k y hy
    exact ⟨z, hz, hk x y z hxy hyz⟩

theorem mono (ho : ∀ k, own' k → own k) (h : Evolves key own keep l l') :
    Evolves key own' keep l l' :=
  ⟨h.nodup, fun k hk => h.own k (ho k hk), h.keep⟩

/-- A new row, of a key that nobody relies on. -/
theorem cons (hk : ∀ x, keep x x) (ho : ¬ own (key x)) (hx : get key (key x) l = none) :
    Evolves key own keep l (x :: l) where
  nodup hn := nodup_map_cons hn hx
  own k hk := by
    rw [get_cons, if_neg]
    rintro rfl
    exact ho hk
  keep k y hy := ⟨y, get_cons_of_get hx hy, hk y⟩

/-- New rows, of keys that nobody relies on. -/
theorem append (hk : ∀ x, keep x x) {xs : List α} (ho : ∀ x ∈ xs, ¬ own (key x))
    (hx : ∀ x ∈ xs, get key (key x) l = none) (hnd : (xs.map key).Nodup) :
    Evolves key own keep l (xs ++ l) := by
  induction xs with
  | nil => exact refl hk
  | cons x xs ih =>
    rw [List.map_cons, List.nodup_cons] at hnd
    have hrest : Evolves key own keep l (xs ++ l) :=
      ih (fun y hy => ho y (List.mem_cons_of_mem _ hy))
        (fun y hy => hx y (List.mem_cons_of_mem _ hy))
        hnd.2
    have hfresh : get key (key x) (xs ++ l) = none := by
      rw [get_append, hx x List.mem_cons_self, Option.or_none]
      exact get_eq_none.2 fun y hy he => hnd.1 (he ▸ List.mem_map_of_mem hy)
    have hcons : Evolves key own keep (xs ++ l) (x :: (xs ++ l)) :=
      cons hk (ho x List.mem_cons_self) hfresh
    refine ⟨fun hn => hcons.nodup (hrest.nodup hn), fun k hk' => ?_, fun k y hy => ?_⟩
    · exact (hcons.own k hk').trans (hrest.own k hk')
    · obtain ⟨z, hz, hyz⟩ := hrest.keep k y hy
      exact ⟨z, get_cons_of_get hfresh hz, hyz⟩

/-- A change of a row of a key that nobody relies on. -/
theorem modify (hf : ∀ x, key (f x) = key x) (hk : ∀ x, keep x x) (ho : ¬ own k)
    (hx : ∀ x, get key k l = some x → keep x (f x)) :
    Evolves key own keep l (modify key k f l) where
  nodup hn := by rwa [map_key_modify hf]
  own k' hk' := by
    rw [get_modify_ne hf]
    rintro rfl
    exact ho hk'
  keep k' x h := by
    by_cases he : k' = k
    · subst he
      exact ⟨f x, by rw [get_modify_self hf, h]; rfl, hx x h⟩
    · exact ⟨x, by rw [get_modify_ne hf he, h], hk x⟩

theorem eq_of_eq (h : Evolves key own Eq l l') {k : κ} (hx : get key k l = some x) :
    get key k l' = some x := by
  obtain ⟨y, hy, rfl⟩ := h.keep k x hx
  exact hy

end Evolves

end Table
